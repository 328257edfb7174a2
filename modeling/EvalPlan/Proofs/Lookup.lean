import Mathlib.Data.List.Nodup
import Mathlib.Data.List.Perm.Subperm
import Mathlib.Data.Nat.Find
import EvalPlan.Value.Heap

/-!
# Looking up along the parents

Looking a property up, whether an object inherits from another one, or how it is gone through,
follows the parents of an object, as many of them as there are objects. That is always enough, even
if parents go round in a circle: on the shortest way to what is found no object comes twice
(`Heap.seek_of_le`).
-/

namespace EvalPlan

namespace Heap

/-- What is found first on the way from one object to the next. -/
def seek {β : Type} (found : Nat → Option β) (next : Nat → Option Nat) : Nat → Nat → Option β
  | 0, _ => none
  | n + 1, r =>
    match found r with
    | some b => some b
    | none => (next r).bind (seek found next n)

section seek

variable {β : Type} {found : Nat → Option β} {next : Nat → Option Nat} {size : Nat}

theorem seek_succ_of_some {n r : Nat} {b : β} (h : seek found next n r = some b) :
    seek found next (n + 1) r = some b := by
  induction n generalizing r with
  | zero => cases h
  | succ n ih =>
    unfold seek at h ⊢
    split
    next b' hfound =>
      rw [hfound] at h
      exact h
    next hfound =>
      simp only [hfound, Option.bind_eq_some_iff] at h ⊢
      obtain ⟨p, hp, h⟩ := h
      exact ⟨p, hp, ih h⟩

theorem seek_of_some {n m r : Nat} {b : β} (h : seek found next n r = some b) (hm : n ≤ m) :
    seek found next m r = some b := by
  induction m, hm using Nat.le_induction with
  | base => exact h
  | succ m _ ih => exact seek_succ_of_some ih

/-- On the shortest way to what is found, no object comes twice. -/
theorem exists_way (hbound : ∀ r, (found r).isSome ∨ (next r).isSome → r < size) {n r : Nat} {b : β}
    (h : seek found next n r = some b) (hleast : ∀ m < n, seek found next m r = none) :
    ∃ way : List Nat, way.length = n ∧ way.Nodup ∧
      ∀ s ∈ way, s < size ∧ ∃ m ≤ n, (seek found next m s).isSome := by
  induction n generalizing r with
  | zero => cases h
  | succ n ih =>
    have hitself : ∃ m ≤ n + 1, (seek found next m r).isSome :=
      ⟨n + 1, Nat.le_refl _, Option.isSome_of_eq_some h⟩
    unfold seek at h
    split at h
    next b' hfound =>
      -- what is found at once is found by the first step
      have hn : n = 0 := by
        by_contra hn
        have hone := hleast 1 (by omega)
        simp [seek, hfound] at hone
      subst hn
      exact ⟨[r], rfl, List.nodup_singleton r, fun s hs =>
        List.mem_singleton.mp hs ▸ ⟨hbound r (.inl (Option.isSome_of_eq_some hfound)), hitself⟩⟩
    next hfound =>
      obtain ⟨p, hp, h⟩ := Option.bind_eq_some_iff.mp h
      have hshift (m : Nat) : seek found next (m + 1) r = seek found next m p := by
        simp [seek, hfound, hp]
      obtain ⟨way, hlength, hnodup, hway⟩ := ih h fun m hm => by
        rw [← hshift]
        exact hleast (m + 1) (by omega)
      refine ⟨r :: way, by simp [hlength], List.nodup_cons.mpr ⟨fun hr => ?_, hnodup⟩,
        fun s hs => ?_⟩
      · -- the rest of the way needs fewer steps than the object itself does
        obtain ⟨-, m, hm, hsome⟩ := hway r hr
        rw [hleast m (by omega)] at hsome
        cases hsome
      · rcases List.mem_cons.mp hs with rfl | hs
        · exact ⟨hbound s (.inr (Option.isSome_of_eq_some hp)), hitself⟩
        · obtain ⟨hlt, m, hm, hsome⟩ := hway s hs
          exact ⟨hlt, m, by omega, hsome⟩

/-- As many steps as there are objects are enough. -/
theorem seek_of_le (hbound : ∀ r, (found r).isSome ∨ (next r).isSome → r < size) {n : Nat}
    (hn : size ≤ n) (r : Nat) : seek found next n r = seek found next size r := by
  cases hsize : seek found next size r with
  | some b => exact seek_of_some hsize hn
  | none =>
    by_contra hne
    have hfound : ∃ m, (seek found next m r).isSome := ⟨n, Option.isSome_iff_ne_none.mpr hne⟩
    classical
    obtain ⟨b, hb⟩ := Option.isSome_iff_exists.mp (Nat.find_spec hfound)
    obtain ⟨way, hlength, hnodup, hway⟩ := exists_way hbound hb fun m hm =>
      Option.not_isSome_iff_eq_none.mp (Nat.find_min hfound hm)
    have hle : way.length ≤ (List.range size).length :=
      (List.subperm_of_subset hnodup fun s hs => List.mem_range.mpr (hway s hs).1).length_le
    rw [hlength, List.length_range] at hle
    rw [seek_of_some hb hle] at hsize
    cases hsize

end seek

variable (h : Heap)

/-- The property that an object has itself. -/
def ownSlot? (name : Text) (r : Nat) : Option Slot :=
  (h[r]?).bind fun o => (o.own? name).map o.guarded

/-- What an object inherits from. -/
def parent? (r : Nat) : Option Nat := (h[r]?).bind (·.parent)

theorem slotWithin_eq_seek (name : Text) (n : Nat) (r : Nat) :
    h.slotWithin name n r = seek (h.ownSlot? name) h.parent? n r := by
  induction n generalizing r with
  | zero => rfl
  | succ n ih =>
    unfold slotWithin seek
    cases ho : h[r]? with
    | none => simp [ownSlot?, parent?, ho]
    | some o =>
      cases hown : o.own? name with
      | some s => simp [ownSlot?, ho, hown]
      | none =>
        simp only [ownSlot?, parent?, ho, hown, Option.bind_some, Option.map_none]
        exact congrArg _ (funext fun r => ih r)

theorem inheritsWithin_succ (ancestor : Ref) (n : Nat) (r : Nat) :
    h.inheritsWithin ancestor (n + 1) r =
    (h.parent? r).any fun p => p == ancestor || h.inheritsWithin ancestor n p := by
  rw [inheritsWithin, parent?]
  cases (h[r]?).bind (·.parent) <;> rfl

theorem inheritsWithin_eq_seek (ancestor : Ref) (n : Nat) (r : Nat) :
    h.inheritsWithin ancestor n r =
      (seek (fun r => if h.parent? r = some ancestor then some () else none) h.parent? n r).isSome := by
  induction n generalizing r with
  | zero => rfl
  | succ n ih =>
    rw [inheritsWithin_succ]
    unfold seek
    cases hp : h.parent? r with
    | none => simp
    | some p =>
      by_cases heq : p = ancestor
      · simp [heq]
      · simp [heq, ih]

theorem lt_of_parent? {r : Nat} (hp : (h.parent? r).isSome) : r < h.size := by
  by_contra hr
  simp [parent?, Array.getElem?_eq_none (Nat.le_of_not_lt hr)] at hp

theorem slotWithin_of_le (name : Text) {n : Nat} (hn : h.size ≤ n) (r : Ref) :
    h.slotWithin name n r = h.slot? r name := by
  unfold slot?
  rw [slotWithin_eq_seek, slotWithin_eq_seek]
  refine seek_of_le (fun r hr => ?_) hn r
  rcases hr with hfound | hp
  · by_contra hr
    simp [ownSlot?, Array.getElem?_eq_none (Nat.le_of_not_lt hr)] at hfound
  · exact h.lt_of_parent? hp

/-- How an object itself says that it is gone through. -/
def ownWalk? (r : Nat) : Option Walk := (h[r]?).bind (·.walk)

theorem walkWithin_eq_seek (n : Nat) (r : Nat) :
    h.walkWithin n r = seek h.ownWalk? h.parent? n r := by
  induction n generalizing r with
  | zero => rfl
  | succ n ih =>
    unfold walkWithin seek
    cases ho : h[r]? with
    | none => simp [ownWalk?, parent?, ho]
    | some o =>
      cases hown : o.walk with
      | some k => simp [ownWalk?, ho, hown]
      | none =>
        simp only [ownWalk?, parent?, ho, hown, Option.bind_some]
        exact congrArg _ (funext fun r => ih r)

theorem walkWithin_of_le {n : Nat} (hn : h.size ≤ n) (r : Ref) :
    h.walkWithin n r = h.walkWithin h.size r := by
  rw [walkWithin_eq_seek, walkWithin_eq_seek]
  refine seek_of_le (fun r hr => ?_) hn r
  rcases hr with hfound | hp
  · by_contra hr
    simp [ownWalk?, Array.getElem?_eq_none (Nat.le_of_not_lt hr)] at hfound
  · exact h.lt_of_parent? hp

theorem inheritsWithin_of_le (ancestor : Ref) {n : Nat} (hn : h.size ≤ n) (r : Ref) :
    h.inheritsWithin ancestor n r = h.inheritsWithin ancestor h.size r := by
  rw [inheritsWithin_eq_seek, inheritsWithin_eq_seek]
  refine congrArg _ (seek_of_le (fun r hr => ?_) hn r)
  rcases hr with hfound | hp
  · split at hfound
    next hp => exact h.lt_of_parent? (Option.isSome_of_eq_some hp)
    · cases hfound
  · exact h.lt_of_parent? hp

end Heap

end EvalPlan
