import EvalPlan.Value
import Mathlib

/-!
# Natural numbers as doubles

Lengths and indices are natural numbers, and scripts see them as doubles. Rounding keeps those with
at most 53 digits as they are (`unpack_ofNat_of_lt`), and a longer one becomes a double whose last
digit counts at least two, or infinity (`unpack_ofNat_of_le`). So doubles compare as the natural
numbers do with every number of at most 53 digits (`compare_ofNat`), which is what the checks of
lengths and counts rely on, and no integer lies between zero and one (`not_fraction_ofInt`).
-/

namespace EvalPlan.Double

open Float.Model Float.Model.UnpackedFloat

/-! ## Rounding -/

/-- A number between two powers of two has as many digits as the lower one. -/
theorem log2_eq_of_bounds {m k : Nat} (hle : 2 ^ k ≤ m) (hlt : m < 2 ^ (k + 1)) : m.log2 = k :=
  (Nat.log2_eq_iff (Nat.ne_of_gt (Nat.lt_of_lt_of_le (Nat.two_pow_pos k) hle))).mpr ⟨hle, hlt⟩

/-- A power of two adds as many digits as its exponent says. -/
theorem log2_mul_two_pow {m : Nat} (hm : m ≠ 0) (k : Nat) : (m * 2 ^ k).log2 = m.log2 + k := by
  refine log2_eq_of_bounds ?_ ?_
  · rw [Nat.pow_add]
    exact Nat.mul_le_mul_right _ (Nat.log2_self_le hm)
  · rw [Nat.add_right_comm, Nat.pow_add]
    exact Nat.mul_lt_mul_of_pos_right Nat.lt_log2_self (Nat.two_pow_pos k)

/-- Shifting to the right divides by a power of two. -/
theorem mantissa_shiftRight (em : ExtendedMantissa) (k : Nat) :
    (em >>> k).mantissa = em.mantissa / 2 ^ k := by
  show (k.repeat ExtendedMantissa.shiftRightOne em).mantissa = _
  induction k with
  | zero => simp [Nat.repeat]
  | succ k ih =>
    show (k.repeat ExtendedMantissa.shiftRightOne em).mantissa / 2 = _
    rw [ih, Nat.div_div_eq_div_mul, Nat.pow_succ]

/-- Shifting digits away that are zero loses nothing. -/
theorem shiftRight_exact (m k : Nat) :
    (⟨m * 2 ^ k, false, false⟩ : ExtendedMantissa) >>> k = ⟨m, false, false⟩ := by
  show k.repeat ExtendedMantissa.shiftRightOne _ = _
  induction k generalizing m with
  | zero => simp [Nat.repeat]
  | succ k ih =>
    show ExtendedMantissa.shiftRightOne (k.repeat ExtendedMantissa.shiftRightOne _) = _
    have hdouble : m * 2 ^ (k + 1) = m * 2 * 2 ^ k := by
      rw [Nat.pow_succ, Nat.mul_assoc, Nat.mul_comm 2]
    rw [hdouble, ih]
    simp [ExtendedMantissa.shiftRightOne]

/-- Of a number whose 53 first digits end at an exponent, these are kept. -/
theorem targetExponent_eq {e : Int} (he : -1074 ≤ e) :
    Format.binary64.targetExponent (53 + e) = e := by
  have hbits : (Format.binary64.mantissaBits : Int) = 53 := rfl
  have hleast : Format.binary64.minExponent = -1074 := by decide
  unfold Format.targetExponent
  rw [hbits, hleast]
  omega

/-- A mantissa of 53 digits with an exponent that doubles have. -/
structure IsNormal (m : Nat) (e : Int) : Prop where
  le : 2 ^ 52 ≤ m
  lt : m < 2 ^ 53
  least : -1074 ≤ e

namespace IsNormal

variable {m : Nat} {e : Int} (h : IsNormal m e)

include h

/-- Such a mantissa is positive. -/
theorem pos : 0 < m := Nat.lt_of_lt_of_le (Nat.two_pow_pos 52) h.le

/-- It has 53 digits. -/
theorem log2 : m.log2 = 52 := log2_eq_of_bounds h.le h.lt

/-- Digits that are zero are shifted away. -/
theorem shiftToTargetExponent (k : Nat) :
    shiftToTargetExponent .binary64 (m * 2 ^ k) (e - k) .exact = (⟨m, false, false⟩, e) := by
  have htotal : totalExponent (m * 2 ^ k) (e - k) = 53 + e := by
    unfold totalExponent
    rw [log2_mul_two_pow (Nat.ne_of_gt h.pos), h.log2]
    omega
  have hk : (e - (e - (k : Int))).toNat = k := by omega
  unfold UnpackedFloat.shiftToTargetExponent shiftToExponent
  simp only [htotal, targetExponent_eq h.least, hk, ExtendedMantissa.ofMantissaAndAccuracy,
    shiftRight_exact, Int.sub_add_cancel]

/-- A mantissa at its exponent stays as it is. -/
theorem shiftToTargetExponent_self :
    UnpackedFloat.shiftToTargetExponent .binary64 m e .exact = (⟨m, false, false⟩, e) := by
  have h := h.shiftToTargetExponent 0
  rwa [Nat.pow_zero, Nat.mul_one, Int.natCast_zero, Int.sub_zero] at h

/-- Rounding a number of 53 digits keeps it. -/
theorem roundWithAccuracy (s : Sign) (k : Nat) :
    roundWithAccuracy .binary64 s (m * 2 ^ k) (e - k) .exact = .finite s m e h.pos := by
  unfold UnpackedFloat.roundWithAccuracy
  simp only [h.shiftToTargetExponent, ExtendedMantissa.roundedMantissa, ExtendedMantissa.accuracy,
    Accuracy.roundToNearestEven, h.shiftToTargetExponent_self]
  rw [dif_neg (Nat.ne_of_gt h.pos)]

end IsNormal

/-- The 53 first digits of a natural number with more of them, rounded. The last one of them counts
at least two. -/
theorem exists_roundWithAccuracy {n : Nat} (hn : 2 ^ 53 ≤ n) :
    ∃ (m : Nat) (e : Int) (h : IsNormal m e), 1 ≤ e ∧
      roundWithAccuracy .binary64 .positive (n * 2 ^ 53) (-53) .exact =
        .finite .positive m e h.pos := by
  have hlog : 53 ≤ n.log2 := (Nat.le_log2 (by omega)).mpr hn
  have htotal : totalExponent (n * 2 ^ 53) (-53) = 53 + ((n.log2 : Int) - 52) := by
    unfold totalExponent
    rw [log2_mul_two_pow (by omega)]
    omega
  -- what is left once the other digits are shifted away
  obtain ⟨em, hfirst, hle, hlt⟩ : ∃ em : ExtendedMantissa,
      shiftToTargetExponent .binary64 (n * 2 ^ 53) (-53) .exact = (em, (n.log2 : Int) - 52) ∧
        2 ^ 52 ≤ em.mantissa ∧ em.mantissa < 2 ^ 53 := by
    refine ⟨(⟨n * 2 ^ 53, false, false⟩ : ExtendedMantissa) >>> (n.log2 + 1), ?_, ?_⟩
    · have hk : ((n.log2 : Int) - 52 - -53).toNat = n.log2 + 1 := by omega
      unfold shiftToTargetExponent shiftToExponent
      simp only [htotal, targetExponent_eq (show (-1074 : Int) ≤ (n.log2 : Int) - 52 by omega), hk]
      exact congrArg _ (by omega)
    · have hself := Nat.log2_self_le (n := n) (by omega)
      have hself' := Nat.lt_log2_self (n := n)
      rw [mantissa_shiftRight, Nat.le_div_iff_mul_le (Nat.two_pow_pos _),
        Nat.div_lt_iff_lt_mul (Nat.two_pow_pos _)]
      rw [Nat.pow_succ 2 n.log2] at hself' ⊢
      constructor <;> dsimp only <;> omega
  have hrounded : em.mantissa ≤ em.roundedMantissa ∧ em.roundedMantissa ≤ em.mantissa + 1 := by
    unfold ExtendedMantissa.roundedMantissa Accuracy.roundToNearestEven
    split <;> omega
  -- rounding up may give one digit more, which is a zero
  obtain ⟨m, e, h, he, hsecond⟩ : ∃ (m : Nat) (e : Int) (_ : IsNormal m e), 1 ≤ e ∧
      shiftToTargetExponent .binary64 em.roundedMantissa ((n.log2 : Int) - 52) .exact =
        (⟨m, false, false⟩, e) := by
    by_cases hover : em.roundedMantissa = 2 ^ 53
    · have h : IsNormal (2 ^ 52) ((n.log2 : Int) - 52 + 1) := ⟨by omega, by omega, by omega⟩
      refine ⟨_, _, h, by omega, ?_⟩
      rw [hover, ← h.shiftToTargetExponent 1]
      exact congrArg (shiftToTargetExponent _ _ · _) (by omega)
    · have h : IsNormal em.roundedMantissa ((n.log2 : Int) - 52) := ⟨by omega, by omega, by omega⟩
      exact ⟨_, _, h, by omega, h.shiftToTargetExponent_self⟩
  refine ⟨m, e, h, he, ?_⟩
  unfold roundWithAccuracy
  simp only [hfirst, hsecond]
  rw [dif_neg (Nat.ne_of_gt h.pos)]

/-! ## Packing -/

/-- A mantissa of 53 digits is packed without the first one. -/
theorem IsNormal.unpack_pack {m : Nat} {e : Int} (h : IsNormal m e) (he : e ≤ 971) (s : Sign) :
    unpack .binary64 (UnpackedFloat.pack .binary64 (.finite s m e h.pos)) =
      .finite s m e h.pos := by
  have hleast := h.least
  -- the biased exponent is neither all ones, which is an infinity, nor all zeros, which is
  -- subnormal
  have hbiased : (e + (Format.binary64.exponentBias : Int) +
      (Format.binary64.mantissaBitsWithoutImplicit : Int)).toNat = (e + 1075).toNat := by
    show (e + 1023 + 52).toNat = _
    omega
  have hexponent : (BitVec.ofNat 11 (e + 1075).toNat).toNat = (e + 1075).toNat := by
    rw [BitVec.toNat_ofNat, Nat.mod_eq_of_lt (by omega)]
  have hfinite : BitVec.ofNat 11 (e + 1075).toNat ≠ -1#11 := fun heq => by
    rw [heq, show (-1#11).toNat = 2047 by decide] at hexponent
    omega
  have hnormal : BitVec.ofNat 11 (e + 1075).toNat ≠ 0#11 := fun heq => by
    rw [heq, show (0#11).toNat = 0 from rfl] at hexponent
    omega
  -- the digit that packing leaves out comes back in front of the others
  have hmantissa : (1#1 ++ BitVec.ofNat 52 m).toNat = m := by
    have hle := h.le
    have hlt := h.lt
    rw [BitVec.toNat_append, BitVec.toNat_ofNat, BitVec.toNat_ofNat,
      ← Nat.shiftLeft_add_eq_or_of_lt (Nat.mod_lt _ (Nat.two_pow_pos 52))]
    show 1 <<< 52 + m % 2 ^ 52 = m
    omega
  unfold UnpackedFloat.pack
  simp only
  rw [hbiased, if_neg (show ¬ 2 ^ 11 ≤ _ by omega), if_pos (by rw [h.log2]; rfl)]
  unfold UnpackedFloat.unpack
  simp only [unpackMantissa_packComponents, unpackExponent_packComponents,
    unpackSign_packComponents]
  rw [if_neg hfinite, if_neg hnormal]
  simp only [hmantissa, hexponent, Sign.ofBitVec_toBitVec]
  congr 1
  show ((e + 1075).toNat : Int) - (1023 + 52) = e
  omega

/-- Where the exponent is too large, what is packed is infinity. -/
theorem IsNormal.unpack_pack_of_large {m : Nat} {e : Int} (h : IsNormal m e) (he : 972 ≤ e)
    (s : Sign) :
    unpack .binary64 (UnpackedFloat.pack .binary64 (.finite s m e h.pos)) = .infinity s := by
  have hbiased : 2 ^ 11 ≤ (e + 1023 + 52).toNat + 1 := by omega
  have hpacked : UnpackedFloat.pack .binary64 (.finite s m e h.pos) =
      packedInfinity .binary64 s := by
    unfold UnpackedFloat.pack
    exact if_pos hbiased
  rw [hpacked]
  cases s <;> rfl

/-! ## Natural numbers -/

/-- The 53 digits of a natural number that has no more of them. -/
theorem isNormal_of_lt {n : Nat} (hn : 0 < n) (hlt : n < 2 ^ 53) :
    IsNormal (n * 2 ^ (52 - n.log2)) ((n.log2 : Int) - 52) := by
  have hlog : n.log2 < 53 := (Nat.log2_lt (by omega)).mpr hlt
  have hexponent : n.log2 + (52 - n.log2) = 52 := by omega
  refine ⟨?_, ?_, by omega⟩
  · calc 2 ^ 52 = 2 ^ n.log2 * 2 ^ (52 - n.log2) := by rw [← Nat.pow_add, hexponent]
      _ ≤ n * 2 ^ (52 - n.log2) := Nat.mul_le_mul_right _ (Nat.log2_self_le (by omega))
  · calc n * 2 ^ (52 - n.log2) < 2 ^ (n.log2 + 1) * 2 ^ (52 - n.log2) :=
          Nat.mul_lt_mul_of_pos_right Nat.lt_log2_self (Nat.two_pow_pos _)
      _ = 2 ^ 53 := by rw [← Nat.pow_add, Nat.add_right_comm, hexponent]

/-- A number of at most 53 digits becomes a double with the same digits. -/
theorem unpack_toFloat {n : Nat} (hn : 0 < n) (hlt : n < 2 ^ 53) :
    n.toUInt64.toFloat.toModel.unpack =
      .finite .positive _ ((n.log2 : Int) - 52) (isNormal_of_lt hn hlt).pos := by
  have h := isNormal_of_lt hn hlt
  have hlog : n.log2 < 53 := (Nat.log2_lt (by omega)).mpr hlt
  have hmod : n.toUInt64.toNat = n := by
    show n % 2 ^ 64 = n
    omega
  have htotal : totalExponent n 0 = 53 + ((n.log2 : Int) - 52) := by
    unfold totalExponent
    omega
  -- the digits are moved to the top, where rounding finds nothing to drop
  have hround : UnpackedFloat.ofUInt64 .binary64 n.toUInt64 =
      .finite .positive _ ((n.log2 : Int) - 52) h.pos := by
    have hpositive : compare (n : Int) 0 = .gt := Int.compare_eq_gt.mpr (by omega)
    have hk : (0 - ((n.log2 : Int) - 52)).toNat = 52 - n.log2 := by omega
    unfold UnpackedFloat.ofUInt64 UnpackedFloat.ofNat UnpackedFloat.ofInt UnpackedFloat.normalize
    rw [hmod]
    simp only [hpositive, UnpackedFloat.round, decreaseExponent, Int.toNat_natCast, htotal,
      targetExponent_eq h.least, hk, Nat.shiftLeft_eq]
    rw [← h.roundWithAccuracy .positive 0, Nat.pow_zero, Nat.mul_one]
    exact congrArg (roundWithAccuracy _ _ _ · _) (by omega)
  show unpack .binary64 (UnpackedFloat.pack .binary64 (UnpackedFloat.ofUInt64 .binary64 n.toUInt64)) = _
  rw [hround]
  exact h.unpack_pack (by omega) _

/-- The double of a natural number of at most 53 digits has these digits. -/
theorem unpack_ofNat_of_lt {n : Nat} (hn : 0 < n) (hlt : n < 2 ^ 53) :
    (Float.ofNat n).toModel.unpack =
      .finite .positive _ ((n.log2 : Int) - 52) (isNormal_of_lt hn hlt).pos := by
  have h := isNormal_of_lt hn hlt
  have hlog : n.log2 < 53 := (Nat.log2_lt (by omega)).mpr hlt
  have hproduct : Float.ofNat n = n.toUInt64.toFloat * Float.ofBits 0x3FF0000000000000 := by
    unfold Float.ofNat OfScientific.ofScientific instOfScientificFloat
    dsimp only
    unfold Float.ofScientific
    rw [dif_pos ⟨hlt, by decide⟩]
    rfl
  have hone : (Float.ofBits 0x3FF0000000000000).toModel.unpack =
      .finite .positive (2 ^ 52) (-52) (by decide) := rfl
  rw [hproduct]
  show unpack .binary64 (UnpackedFloat.pack .binary64
    (UnpackedFloat.mul .binary64 n.toUInt64.toFloat.toModel.unpack
      (Float.ofBits 0x3FF0000000000000).toModel.unpack)) = _
  rw [unpack_toFloat hn hlt, hone]
  show unpack .binary64 (UnpackedFloat.pack .binary64
    (roundWithAccuracy .binary64 .positive _ ((n.log2 : Int) - 52 - (52 : Nat)) .exact)) = _
  rw [h.roundWithAccuracy]
  exact h.unpack_pack (by omega) _

/-- The double of a longer natural number is infinity, or its last digit counts at least two. -/
theorem unpack_ofNat_of_le {n : Nat} (hle : 2 ^ 53 ≤ n) :
    (Float.ofNat n).toModel.unpack = .infinity .positive ∨
      ∃ (m : Nat) (e : Int) (h : IsNormal m e), 1 ≤ e ∧ e ≤ 971 ∧
        (Float.ofNat n).toModel.unpack = .finite .positive m e h.pos := by
  -- a long number is rounded to 53 digits first, and then packed unless its exponent is too large
  obtain ⟨m, e, h, he, hround⟩ := exists_roundWithAccuracy hle
  have hpacked : Float.ofNat n =
      .ofModel (.pack (roundWithAccuracy .binary64 .positive (n * 2 ^ 53) (-53) .exact)) := by
    unfold Float.ofNat OfScientific.ofScientific instOfScientificFloat
    dsimp only
    unfold Float.ofScientific
    rw [dif_neg (by omega)]
    show Float.ofModel (.pack (UnpackedFloat.ofScientific .binary64 n 0)) = _
    unfold UnpackedFloat.ofScientific
    rw [dif_neg (by omega), if_neg (by decide),
      if_neg (show ¬ (0 : Int) < -(2 ^ 11 + (n.log2 : Int)) by omega), if_pos (Int.le_refl 0)]
    show Float.ofModel (.pack (roundWithAccuracy .binary64 .positive ((n <<< 53) * 1) (-53 + 0) .exact)) = _
    rw [Nat.shiftLeft_eq, Nat.mul_one]
    rfl
  have hunpack : (Float.ofNat n).toModel.unpack =
      unpack .binary64 (UnpackedFloat.pack .binary64 (.finite .positive m e h.pos)) := by
    rw [hpacked, hround]
    rfl
  rw [hunpack]
  by_cases hlarge : e ≤ 971
  · exact .inr ⟨m, e, h, he, hlarge, h.unpack_pack hlarge _⟩
  · exact .inl (h.unpack_pack_of_large (by omega) _)

/-! ## Comparing -/

/-- Natural numbers compare by the numbers of their digits first, and then by the digits. -/
theorem compare_log2 {n k : Nat} (hn : 0 < n) (hk : 0 < k) :
    (compare ((n.log2 : Int) - 52) ((k.log2 : Int) - 52)).then
      (compare (n * 2 ^ (52 - n.log2)) (k * 2 ^ (52 - k.log2))) = compare n k := by
  have hself {a b : Nat} (ha : 0 < a) (hb : 0 < b) (hlog : a.log2 < b.log2) : a < b :=
    calc a < 2 ^ (a.log2 + 1) := Nat.lt_log2_self
      _ ≤ 2 ^ b.log2 := Nat.pow_le_pow_right (by omega) hlog
      _ ≤ b := Nat.log2_self_le (by omega)
  rcases Nat.lt_trichotomy n.log2 k.log2 with hlog | hlog | hlog
  · rw [Int.compare_eq_lt.mpr (by omega), Nat.compare_eq_lt.mpr (hself hn hk hlog)]
    rfl
  · have hpos := Nat.two_pow_pos (52 - k.log2)
    rw [hlog, Int.compare_eq_eq.mpr rfl]
    show compare (n * _) (k * _) = _
    rcases Nat.lt_trichotomy n k with hlt | rfl | hlt
    · rw [Nat.compare_eq_lt.mpr hlt, Nat.compare_eq_lt.mpr (Nat.mul_lt_mul_of_pos_right hlt hpos)]
    · rw [Nat.compare_eq_eq.mpr rfl, Nat.compare_eq_eq.mpr rfl]
    · rw [Nat.compare_eq_gt.mpr hlt, Nat.compare_eq_gt.mpr (Nat.mul_lt_mul_of_pos_right hlt hpos)]
  · rw [Int.compare_eq_gt.mpr (by omega), Nat.compare_eq_gt.mpr (hself hk hn hlog)]
    rfl

/-- The doubles of natural numbers compare as the numbers do, if the second one has at most 53
digits. -/
theorem compare_ofNat (n : Nat) {k : Nat} (hk : k < 2 ^ 53) :
    (Float.ofNat n).toModel.compare (Float.ofNat k).toModel = some (compare n k) := by
  have hzero : (Float.ofNat 0).toModel.unpack = .zero .positive := rfl
  -- zero and infinity are compared by their kind, and numbers of at most 53 digits digit by digit
  unfold Float.Model.compare
  obtain rfl | hpos := Nat.eq_zero_or_pos k
  · obtain rfl | hn := Nat.eq_zero_or_pos n
    · rfl
    · rw [hzero, Nat.compare_eq_gt.mpr hn]
      rcases Nat.lt_or_ge n (2 ^ 53) with hlt | hle
      · rw [unpack_ofNat_of_lt hn hlt]
        rfl
      · rcases unpack_ofNat_of_le hle with hn | ⟨m, e, h, -, -, hn⟩ <;> rw [hn] <;> rfl
  · rw [unpack_ofNat_of_lt hpos hk]
    obtain rfl | hn := Nat.eq_zero_or_pos n
    · rw [hzero, Nat.compare_eq_lt.mpr hpos]
      rfl
    rcases Nat.lt_or_ge n (2 ^ 53) with hlt | hle
    · rw [unpack_ofNat_of_lt hn hlt]
      exact congrArg some (compare_log2 hn hpos)
    · rw [Nat.compare_eq_gt.mpr (Nat.lt_of_lt_of_le hk hle)]
      rcases unpack_ofNat_of_le hle with hn | ⟨m, e, h, he, -, hn⟩
      · rw [hn]
        rfl
      · -- the last digit of the first number counts more than that of the second one
        have hlog : k.log2 < 53 := (Nat.log2_lt (by omega)).mpr hk
        rw [hn]
        show some ((compare e _).then _) = _
        rw [Int.compare_eq_gt.mpr (by omega)]
        rfl

/-- Doubles of natural numbers are equal to those of short ones only if the numbers are. -/
theorem ofNat_beq (n : Nat) {k : Nat} (hk : k < 2 ^ 53) :
    (Float.ofNat n == Float.ofNat k) = (n == k) := by
  show ((Float.ofNat n).toModel.compare (Float.ofNat k).toModel == some .eq) = _
  rw [compare_ofNat n hk, Bool.eq_iff_iff]
  simp

/-- One double is below another if comparing says so. -/
theorem lt_iff_compare {x y : Float} : x < y ↔ x.toModel.compare y.toModel = some .lt :=
  Iff.trans (decide_eq_true_iff (p := x.toModel < y.toModel)) beq_iff_eq

/-- Doubles of natural numbers are below those of short ones if the numbers are. -/
theorem ofNat_lt_iff (n : Nat) {k : Nat} (hk : k < 2 ^ 53) :
    Float.ofNat n < Float.ofNat k ↔ n < k := by
  rw [lt_iff_compare, compare_ofNat n hk, Option.some_inj, Nat.compare_eq_lt]

/-- The negative of a natural number's double is not positive. -/
theorem not_pos_neg_ofNat {n : Nat} (hn : 0 < n) : ¬ 0 < Float.neg (Float.ofNat n) := by
  have hzero : (0 : Float).toModel.unpack = .zero .positive := rfl
  have hneg : (Float.neg (Float.ofNat n)).toModel.unpack =
      unpack .binary64 (UnpackedFloat.pack .binary64 (Float.ofNat n).toModel.unpack.neg) := rfl
  rw [lt_iff_compare]
  unfold Float.Model.compare
  rw [hzero, hneg]
  rcases Nat.lt_or_ge n (2 ^ 53) with hlt | hle
  · have h := isNormal_of_lt hn hlt
    have hlog : n.log2 < 53 := (Nat.log2_lt (by omega)).mpr hlt
    rw [unpack_ofNat_of_lt hn hlt, UnpackedFloat.neg, h.unpack_pack (by omega)]
    rintro ⟨⟩
  · rcases unpack_ofNat_of_le hle with hn | ⟨m, e, h, -, he, hn⟩
    · rw [hn]
      rintro ⟨⟩
    · rw [hn, UnpackedFloat.neg, h.unpack_pack he]
      rintro ⟨⟩

/-- No integer lies between zero and one. -/
theorem not_fraction_ofInt (z : Int) : ¬ (0 < Float.ofInt z ∧ Float.ofInt z < 1) := by
  rintro ⟨hpos, hlt⟩
  cases z with
  | ofNat n =>
    have hn : n = 0 := Nat.lt_one_iff.mp ((ofNat_lt_iff n (by decide)).mp hlt)
    subst hn
    exact absurd hpos (by decide)
  | negSucc n => exact not_pos_neg_ofNat (Nat.succ_pos n) hpos

/-! ## Numbers that can be compared -/

/-- Comparing in the other direction gives the other answer. -/
theorem compare_swap (x y : UnpackedFloat) : (x.compare y).map Ordering.swap = y.compare x := by
  cases x with
  | notANumber => cases y <;> rfl
  | infinity s =>
    cases s <;> cases y with
    | infinity s' => cases s' <;> rfl
    | _ => rfl
  | zero s =>
    cases y with
    | infinity s' => cases s' <;> rfl
    | finite s' => cases s' <;> rfl
    | _ => rfl
  | finite s m e =>
    cases y with
    | infinity s' => cases s <;> cases s' <;> rfl
    | zero s' => cases s <;> rfl
    | notANumber => cases s <;> rfl
    -- of two numbers the exponents are compared first, and negative ones the other way round
    | finite s' m' e' =>
      have hswap : ((compare e e').then (compare m m')).swap =
          (compare e' e).then (compare m' m) := by
        rw [Ordering.swap_then, Int.compare_swap, Nat.compare_swap]
      cases s with
      | positive =>
        cases s' with
        | positive => exact congrArg some hswap
        | negative => rfl
      | negative =>
        cases s' with
        | positive => rfl
        | negative => exact congrArg (fun o => some (Ordering.swap o)) hswap

/-- Everything but what is not a number can be compared. -/
theorem compare_ne_none {x y : UnpackedFloat} (hx : x ≠ .notANumber) (hy : y ≠ .notANumber) :
    x.compare y ≠ none := by
  cases x with
  | notANumber => exact absurd rfl hx
  | infinity s =>
    cases y with
    | notANumber => exact absurd rfl hy
    | _ => cases s <;> rintro ⟨⟩
  | zero s =>
    cases y with
    | notANumber => exact absurd rfl hy
    | infinity s' => cases s' <;> rintro ⟨⟩
    | zero s' => rintro ⟨⟩
    | finite s' => cases s' <;> rintro ⟨⟩
  | finite s =>
    cases y with
    | notANumber => exact absurd rfl hy
    | infinity s' => cases s <;> cases s' <;> rintro ⟨⟩
    | zero s' => cases s <;> rintro ⟨⟩
    | finite s' => cases s <;> cases s' <;> rintro ⟨⟩

/-- One double is at most another if comparing does not say that it is above. -/
theorem le_iff_compare {x y : Float} : x ≤ y ↔ (x.toModel.compare y.toModel).any (·.isLE) = true :=
  decide_eq_true_iff (p := x.toModel ≤ y.toModel)

/-- Of two numbers that can be compared, one that is not less is the greater one or the same. -/
theorem not_lt_iff_le {x y : Float} (hx : x.toModel.unpack ≠ .notANumber)
    (hy : y.toModel.unpack ≠ .notANumber) : ¬ x < y ↔ y ≤ x := by
  rw [lt_iff_compare, le_iff_compare]
  unfold Float.Model.compare
  rw [← compare_swap x.toModel.unpack]
  obtain ⟨o, ho⟩ := Option.ne_none_iff_exists'.mp (compare_ne_none hx hy)
  rw [ho]
  cases o <;> simp

/-- An integer can be compared. -/
theorem unpack_ne_of_isInteger {x : Float} (h : Decimal.isInteger x = true) :
    x.toModel.unpack ≠ .notANumber := by
  intro hnan
  obtain ⟨⟨bits, valid⟩⟩ := x
  have hbits : bits.toBitVec = packedNaN .binary64 :=
    (unpack_eq_notANumber_iff_of_valid valid).mp hnan
  have hpacked : bits = ⟨packedNaN .binary64⟩ := UInt64.eq_of_toBitVec_eq hbits
  unfold Decimal.isInteger Float.toBits at h
  simp only [hpacked] at h
  exact absurd h (by decide)

/-- An integer is at least a natural number of at most 53 digits if it is not less. -/
theorem not_lt_ofNat_iff_le {x : Float} (hx : Decimal.isInteger x = true) {k : Nat}
    (hk : k < 2 ^ 53) : ¬ x < Float.ofNat k ↔ Float.ofNat k ≤ x := by
  refine not_lt_iff_le (unpack_ne_of_isInteger hx) ?_
  obtain rfl | hpos := Nat.eq_zero_or_pos k
  · rintro ⟨⟩
  · rw [unpack_ofNat_of_lt hpos hk]
    rintro ⟨⟩

/-! ## Back to natural numbers -/

/-- A natural number of at most 53 digits is found again in its double. -/
theorem toUInt64_ofNat {n : Nat} (hlt : n < 2 ^ 53) : (Float.ofNat n).toUInt64.toNat = n := by
  obtain rfl | hn := Nat.eq_zero_or_pos n
  · rfl
  have hlog : n.log2 < 53 := (Nat.log2_lt (by omega)).mpr hlt
  have hint : (Float.ofNat n).toModel.unpack.toInt 0 (UInt64.size - 1) = n := by
    have hup : ((n.log2 : Int) - 52 - 0).toNat = 0 := by omega
    have hdown : (0 - ((n.log2 : Int) - 52 - ((0 : Nat) : Int))).toNat = 52 - n.log2 := by omega
    rw [unpack_ofNat_of_lt hn hlt]
    unfold UnpackedFloat.toInt roundToInt decreaseExponent shiftToExponent
    simp only [hup, hdown, Nat.shiftLeft_zero, ExtendedMantissa.ofMantissaAndAccuracy,
      shiftRight_exact]
    rfl
  have hsize : n < UInt64.size := Nat.lt_trans hlt (by decide)
  show (UInt64.ofNatClamp ((Float.ofNat n).toModel.unpack.toInt 0 (UInt64.size - 1)).toNat).toNat =
    n
  rw [hint, Int.toNat_natCast, UInt64.ofNatClamp, dif_pos hsize]
  rfl

end EvalPlan.Double
