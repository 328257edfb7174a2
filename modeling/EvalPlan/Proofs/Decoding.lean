import EvalPlan.Manifest.Written
import EvalPlan.Proofs.Keys

/-!
# Reading undoes writing

A text that writes entries is read as these entries (`entries_of_writes`). Lines, comments,
continuations, the separation, blanks at the end and escapes are each looked for in the raw text.
What lets them agree is that a unit with a meaning of its own is only written behind a backslash,
and that a backslash is never the last unit of what is written unless it stands behind another one.
-/

namespace EvalPlan.Manifest

/-! ## Units -/

/-- A digit has the number it is written for, in either case. -/
theorem hexValue?_of_isHexDigit {n : Nat} {u : CodeUnit} (h : IsHexDigit n u) :
    u.hexValue? = some n := by
  simp only [IsHexDigit] at h
  simp only [CodeUnit.hexValue?, Bool.and_eq_true, decide_eq_true_eq, UInt16.le_iff_toNat_le,
    UInt16.reduceToNat]
  -- a decimal digit, a capital or a small letter
  rcases h with ⟨hn, hu⟩ | ⟨hle, hlt, hu | hu⟩
  · rw [if_pos (by omega)]
    congr 1
    omega
  · rw [if_neg (by omega), if_neg (by omega), if_pos (by omega)]
    congr 1
    omega
  · rw [if_neg (by omega), if_pos (by omega)]
    congr 1
    omega

/-- The digits of the number of a unit denote the unit. -/
theorem hexUnit?_of_digits {u a b c d : CodeUnit} (ha : IsHexDigit (u.toNat / 4096) a)
    (hb : IsHexDigit (u.toNat / 256 % 16) b) (hc : IsHexDigit (u.toNat / 16 % 16) c)
    (hd : IsHexDigit (u.toNat % 16) d) : hexUnit? a b c d = some u := by
  simp only [hexUnit?, hexValue?_of_isHexDigit ha, hexValue?_of_isHexDigit hb,
    hexValue?_of_isHexDigit hc, hexValue?_of_isHexDigit hd]
  have hlt := u.toNat_lt
  have hsum : u.toNat / 4096 * 4096 + u.toNat / 256 % 16 * 256 + u.toNat / 16 % 16 * 16 +
      u.toNat % 16 = u.toNat := by omega
  rw [hsum]
  congr 1
  simp

/-- A unit that is written as itself does not matter to any way of reading. -/
theorem escapeLetter?_eq_none {u : CodeUnit} : escapeLetter? u = none ↔ isSeparator u = false ∧
    u ≠ Text.backslash ∧ u ≠ Text.lineFeed ∧ u ≠ Text.carriageReturn ∧ u ≠ Text.hash ∧
      u ≠ Text.bang := by
  simp only [escapeLetter?, isSeparator, isGap]
  grind

/-- A unit with a letter is read back from the letter, which ends no line and is no other blank than
a space. -/
theorem escapeLetter?_eq_some {u letter : CodeUnit} (h : escapeLetter? u = some letter) :
    escaped letter = u ∧ letter ≠ 117 ∧ letter ≠ Text.lineFeed ∧ letter ≠ Text.carriageReturn ∧
      (isGap letter = true → letter = Text.space) := by
  unfold escapeLetter? at h
  split at h
  · cases h; subst u; decide
  split at h
  · cases h; subst u; decide
  split at h
  · cases h; subst u; decide
  split at h
  · cases h; subst u; decide
  split at h
  · rename_i hmem
    cases h
    -- the rest stand for themselves behind a backslash
    have hown : ∀ v ∈ [Text.backslash, Text.space, Text.equals, Text.colon, Text.hash, Text.bang],
        escaped v = v ∧ v ≠ 117 ∧ v ≠ Text.lineFeed ∧ v ≠ Text.carriageReturn ∧
          (isGap v = true → v = Text.space) := by
      simp only [List.mem_cons, List.not_mem_nil, or_false, forall_eq_or_imp, forall_eq]
      decide
    exact hown u hmem
  · cases h

/-- A digit is written as itself. -/
theorem IsHexDigit.plain {n : Nat} {u : CodeUnit} (h : IsHexDigit n u) :
    escapeLetter? u = none := by
  have hne (v : CodeUnit) (hv : v.toNat < 48 ∨ v.toNat = 58 ∨ v.toNat = 61 ∨ v.toNat = 92) :
      u ≠ v := by
    rintro rfl
    unfold IsHexDigit at h
    omega
  have hsep : isSeparator u = false := by
    simp [isSeparator, isGap, hne Text.equals (by decide), hne Text.colon (by decide),
      hne Text.space (by decide), hne Text.tab (by decide), hne Text.formFeed (by decide)]
  exact escapeLetter?_eq_none.mpr ⟨hsep, hne _ (by decide), hne _ (by decide), hne _ (by decide),
    hne _ (by decide), hne _ (by decide)⟩

/-! ## Escapes -/

/-- Outside an escape a unit stands for itself. -/
theorem unescape_plain {u : CodeUnit} (t : Text) (h : u ≠ Text.backslash) :
    unescape (u :: t) = u :: unescape t := by
  simp [unescape, unescapeFrom, h]

/-- An escape is resolved as a whole, and what follows it on its own. -/
theorem WritesUnit.unescape_append {u : CodeUnit} {piece : Text} (h : WritesUnit u piece)
    (t : Text) : unescape (piece ++ t) = u :: unescape t := by
  cases h with
  | numbered ha hb hc hd =>
    have hhead := hexUnit?_of_digits ha hb hc hd
    simp [unescape, unescapeFrom, hexHead?, hhead]
  | escaped hletter =>
    obtain ⟨hback, hu, -⟩ := escapeLetter?_eq_some hletter
    simp [unescape, unescapeFrom, hu, hback]
  | plain hnone =>
    exact unescape_plain t (escapeLetter?_eq_none.mp hnone).2.1

/-- What is written is read back, by induction on the units. -/
theorem WritesText.unescape {t written : Text} (h : WritesText t written) :
    unescape written = t := by
  induction h with
  | nil => rfl
  | cons hunit _ ih => rw [hunit.unescape_append, ih]

/-! ## The end of a key -/

/-- A key ends where it is written to the end, if a separator follows. -/
theorem splitKey_of_separator {u : CodeUnit} (rest : Text) (h : isSeparator u = true) :
    splitKey (u :: rest) = ([], u :: rest) := by
  have hne : u ≠ Text.backslash := by
    rintro rfl
    revert h
    decide
  cases rest with
  | nil => simp [splitKey, h]
  | cons v rest => simp [splitKey, h, hne]

/-- A key goes on over a unit that is written as itself. -/
theorem splitKey_plain {u v : CodeUnit} (rest : Text) (h : escapeLetter? u = none) :
    splitKey (u :: v :: rest) = (u :: (splitKey (v :: rest)).1, (splitKey (v :: rest)).2) := by
  obtain ⟨hsep, hne, -⟩ := escapeLetter?_eq_none.mp h
  rw [splitKey, if_neg hne, hsep]
  rfl

/-- A key goes on over a unit as a whole, escaped or not. -/
theorem WritesUnit.splitKey_append {u v : CodeUnit} {piece : Text} (h : WritesUnit u piece)
    (rest : Text) : splitKey (piece ++ v :: rest) =
      (piece ++ (splitKey (v :: rest)).1, (splitKey (v :: rest)).2) := by
  cases h with
  | numbered ha hb hc hd =>
    show splitKey (Text.backslash :: 117 :: _) = _
    rw [splitKey, if_pos rfl]
    simp [splitKey_plain, ha.plain, hb.plain, hc.plain, hd.plain]
  | escaped hletter => simp [splitKey]
  | plain hnone => exact splitKey_plain rest hnone

/-- A key that is written ends at the separator behind it, and at none before. -/
theorem WritesText.splitKey_append {t written : Text} (h : WritesText t written) {u : CodeUnit}
    (rest : Text) (hu : isSeparator u = true) :
    splitKey (written ++ u :: rest) = (written, u :: rest) := by
  induction h with
  | nil => exact splitKey_of_separator rest hu
  | @cons _ t _ written hunit _ ih =>
    -- what follows the first unit is not empty, as it goes on to the separator
    obtain ⟨v, tail, hcons⟩ : ∃ v tail, written ++ u :: rest = v :: tail :=
      List.exists_cons_of_ne_nil (by simp)
    rw [List.append_assoc, hcons, hunit.splitKey_append, ← hcons, ih]

/-! ## What stands between a key and its value -/

/-- What is written begins with no blank, no sign and no mark of a comment. -/
theorem WritesText.head {t written : Text} (h : WritesText t written) {u : CodeUnit}
    (hu : written.head? = some u) : isSeparator u = false ∧ u ≠ Text.hash ∧ u ≠ Text.bang := by
  cases h with
  | nil => cases hu
  | cons hunit _ =>
    cases hunit with
    | plain hnone =>
      cases hu
      obtain ⟨hsep, -, -, -, hhash, hbang⟩ := escapeLetter?_eq_none.mp hnone
      exact ⟨hsep, hhash, hbang⟩
    | _ => cases hu; decide

/-- A separation begins with a separator. -/
theorem IsSeparation.cons {separation : Text} (h : IsSeparation separation) :
    ∃ u rest, separation = u :: rest ∧ isSeparator u = true := by
  have hgap {u : CodeUnit} (hu : isGap u = true) : isSeparator u = true := by
    simp [isSeparator, hu]
  cases h with
  | @gaps t hne hgaps =>
    obtain ⟨u, rest, rfl⟩ := List.exists_cons_of_ne_nil hne
    exact ⟨u, rest, rfl, hgap (hgaps u (by simp))⟩
  | @sign before after u hbefore hsign hafter =>
    cases before with
    | nil => exact ⟨u, after, rfl, by rcases hsign with rfl | rfl <;> decide⟩
    | cons v before => exact ⟨v, _, rfl, hgap (hbefore v (by simp))⟩

/-- Leading blanks are dropped, and no more. -/
theorem dropWhile_gaps {gaps t : Text} (h : IsGaps gaps)
    (ht : ∀ u, t.head? = some u → isGap u = false) : (gaps ++ t).dropWhile isGap = t := by
  rw [List.dropWhile_append_of_pos h]
  cases t with
  | nil => rfl
  | cons u t => rw [List.dropWhile_cons, ht u rfl]; rfl

/-- The separation is skipped, and nothing of the value. -/
theorem IsSeparation.skip {separation value : Text} (h : IsSeparation separation)
    (hvalue : ∀ u, value.head? = some u → isSeparator u = false) :
    skipSeparator (separation ++ value) = value := by
  have hgap (u : CodeUnit) (hu : value.head? = some u) : isGap u = false := by
    have hsep := hvalue u hu
    simp only [isSeparator, Bool.or_eq_false_iff] at hsep
    exact hsep.2
  cases h with
  | gaps _ hgaps =>
    -- blanks alone separate, so the value does not begin with a sign
    rw [skipSeparator, dropWhile_gaps hgaps hgap]
    cases value with
    | nil => rfl
    | cons u rest =>
      have hsep := hvalue u rfl
      simp only [isSeparator, Bool.or_eq_false_iff] at hsep
      simp [hsep.1]
  | @sign before after u hbefore hsign hafter =>
    have hu : isGap u = false := by rcases hsign with rfl | rfl <;> decide
    rw [List.append_assoc, List.cons_append, skipSeparator,
      dropWhile_gaps hbefore (by rintro v ⟨⟩; exact hu)]
    simp only [hsign, Bool.or_eq_true, decide_eq_true_eq, if_true]
    exact dropWhile_gaps hafter hgap

/-! ## The end of a value -/

/-- What is written ends with a unit that is written. -/
theorem WritesText.exists_last {t written : Text} (h : WritesText t written) (hne : t ≠ []) :
    ∃ before u piece, written = before ++ piece ∧ WritesUnit u piece := by
  induction h with
  | nil => exact absurd rfl hne
  | @cons u t piece written hunit htext ih =>
    cases htext with
    | nil => exact ⟨[], u, piece, by simp, hunit⟩
    | cons hunit' htext' =>
      obtain ⟨before, v, last, heq, hlast⟩ := ih (by simp)
      exact ⟨piece ++ before, v, last, by rw [heq, List.append_assoc], hlast⟩

/-- Whether the last unit is dropped depends on that unit alone. -/
theorem dropEndWhile_concat (p : CodeUnit → Bool) (t : Text) (u : CodeUnit) :
    Text.dropEndWhile p (t ++ [u]) = if p u then Text.dropEndWhile p t else t ++ [u] := by
  simp only [Text.dropEndWhile, List.reverse_append, List.reverse_singleton, List.singleton_append,
    List.dropWhile_cons]
  split <;> simp

/-- A value that does not end with a blank is left as it is. -/
theorem trimValue_of_last (t : Text) {u : CodeUnit} (h : isGap u = false) :
    trimValue (t ++ [u]) = t ++ [u] := by
  have hbody : Text.dropEndWhile isGap (t ++ [u]) = t ++ [u] := by simp [dropEndWhile_concat, h]
  simp only [trimValue, hbody]
  split
  · exact List.take_of_length_le (Nat.le_succ _)
  · rfl

/-- A blank at the end of a value is written behind a backslash, and such a blank stays. -/
theorem trimValue_of_escaped (t : Text) {u : CodeUnit} (h : isGap u = true) :
    trimValue (t ++ [Text.backslash, u]) = t ++ [Text.backslash, u] := by
  have hsplit : t ++ [Text.backslash, u] = t ++ [Text.backslash] ++ [u] := by simp
  have hbody : Text.dropEndWhile isGap (t ++ [Text.backslash, u]) = t ++ [Text.backslash] := by
    rw [hsplit, dropEndWhile_concat, if_pos h, dropEndWhile_concat, if_neg (by decide)]
  simp only [trimValue, hbody, List.getLast?_concat, if_true]
  exact List.take_of_length_le (by simp)

/-- A unit at the end of a value stays, a blank too. -/
theorem WritesUnit.trimValue_append {u : CodeUnit} {piece : Text} (h : WritesUnit u piece)
    (t : Text) : trimValue (t ++ piece) = t ++ piece := by
  have hplain {v : CodeUnit} (hv : escapeLetter? v = none) : isGap v = false := by
    have hsep := (escapeLetter?_eq_none.mp hv).1
    simp only [isSeparator, Bool.or_eq_false_iff] at hsep
    exact hsep.2
  cases h with
  | @numbered a b c d _ _ _ hd =>
    simpa using trimValue_of_last (t ++ [Text.backslash, 117, a, b, c]) (hplain hd.plain)
  | @escaped letter hletter =>
    cases hgap : isGap letter with
    | true => exact trimValue_of_escaped t hgap
    | false => simpa using trimValue_of_last (t ++ [Text.backslash]) hgap
  | plain hnone => exact trimValue_of_last t (hplain hnone)

/-- Nothing is trimmed off what is written. -/
theorem WritesText.trimValue {t written : Text} (h : WritesText t written) :
    trimValue written = written := by
  by_cases hne : t = []
  · subst hne
    cases h
    rfl
  · obtain ⟨before, u, piece, rfl, hunit⟩ := h.exists_last hne
    exact hunit.trimValue_append before

/-! ## Continuations -/

/-- Backslashes at the end of a line are counted by twos. -/
theorem isContinued_concat (line : Text) (u : CodeUnit) :
    isContinued (line ++ [u]) = (decide (u = Text.backslash) && !isContinued line) := by
  simp only [isContinued, trailingBackslashes, List.reverse_append, List.reverse_singleton,
    List.singleton_append, List.takeWhile_cons]
  by_cases h : u = Text.backslash
  · simp only [h, decide_true, if_true, List.length_cons, Bool.true_and]
    grind
  · simp [h]

/-- An escape takes its backslash along, so none is left over at the end of a line. -/
theorem WritesUnit.isContinued_append {u : CodeUnit} {piece line : Text} (h : WritesUnit u piece)
    (hline : isContinued line = false) : isContinued (line ++ piece) = false := by
  have hplain {v : CodeUnit} (hv : escapeLetter? v = none) (line : Text) :
      isContinued (line ++ [v]) = false := by
    simp [isContinued_concat, (escapeLetter?_eq_none.mp hv).2.1]
  cases h with
  | @numbered a b c d _ _ _ hd =>
    simpa using hplain hd.plain (line ++ [Text.backslash, 117, a, b, c])
  | @escaped letter _ =>
    have hopen : isContinued (line ++ [Text.backslash]) = true := by
      simp [isContinued_concat, hline]
    have hclosed := isContinued_concat (line ++ [Text.backslash]) letter
    simpa [hopen] using hclosed
  | plain hnone => exact hplain hnone line

/-- What is written does not continue a line. -/
theorem WritesText.isContinued_append {t written line : Text} (h : WritesText t written)
    (hline : isContinued line = false) : isContinued (line ++ written) = false := by
  induction h generalizing line with
  | nil => simpa using hline
  | cons hunit _ ih =>
    rw [← List.append_assoc]
    exact ih (hunit.isContinued_append hline)

/-- Neither does anything without a backslash. -/
theorem isContinued_append_of_forall_ne {line t : Text} (hline : isContinued line = false)
    (h : ∀ u ∈ t, u ≠ Text.backslash) : isContinued (line ++ t) = false := by
  induction t generalizing line with
  | nil => simpa using hline
  | cons u t ih =>
    rw [← List.concat_append, List.concat_eq_append]
    refine ih ?_ fun v hv => h v (by simp [hv])
    simp [isContinued_concat, h u (by simp)]

/-! ## Natural lines -/

/-- No unit of the text ends a line. -/
def IsUnbroken (t : Text) : Prop := ∀ u ∈ t, u ≠ Text.lineFeed ∧ u ≠ Text.carriageReturn

/-- Two texts without line ends have none together. -/
theorem IsUnbroken.append {s t : Text} (hs : IsUnbroken s) (ht : IsUnbroken t) :
    IsUnbroken (s ++ t) := fun u hu => (List.mem_append.mp hu).elim (hs u) (ht u)

/-- Blanks end no line. -/
theorem IsGaps.unbroken {t : Text} (h : IsGaps t) : IsUnbroken t := by
  intro u hu
  have hgap := h u hu
  constructor <;> (rintro rfl; revert hgap; decide)

/-- No blank is a backslash. -/
theorem IsGaps.ne_backslash {t : Text} (h : IsGaps t) : ∀ u ∈ t, u ≠ Text.backslash := by
  rintro u hu rfl
  have hgap := h _ hu
  revert hgap
  decide

/-- A separation ends no line and has no backslash. -/
theorem IsSeparation.plain {separation : Text} (h : IsSeparation separation) :
    IsUnbroken separation ∧ ∀ u ∈ separation, u ≠ Text.backslash := by
  cases h with
  | gaps _ hgaps => exact ⟨hgaps.unbroken, hgaps.ne_backslash⟩
  | @sign before after u hbefore hsign hafter =>
    have hu : IsUnbroken [u] ∧ ∀ v ∈ [u], v ≠ Text.backslash := by
      simp only [IsUnbroken, List.mem_singleton, forall_eq]
      rcases hsign with rfl | rfl <;> decide
    refine ⟨hbefore.unbroken.append (hu.1.append hafter.unbroken), fun v hv => ?_⟩
    rcases List.mem_append.mp hv with hv | hv
    · exact hbefore.ne_backslash v hv
    · rcases List.mem_cons.mp hv with rfl | hv
      · exact hu.2 v (by simp)
      · exact hafter.ne_backslash v hv

/-- A unit that ends a line is only written by its letter or its number. -/
theorem WritesUnit.unbroken {u : CodeUnit} {piece : Text} (h : WritesUnit u piece) :
    IsUnbroken piece := by
  have hplain {v : CodeUnit} (hv : escapeLetter? v = none) :
      v ≠ Text.lineFeed ∧ v ≠ Text.carriageReturn :=
    ⟨(escapeLetter?_eq_none.mp hv).2.2.1, (escapeLetter?_eq_none.mp hv).2.2.2.1⟩
  have hback : Text.backslash ≠ Text.lineFeed ∧ Text.backslash ≠ Text.carriageReturn := by decide
  cases h with
  | numbered ha hb hc hd =>
    have hu : (117 : CodeUnit) ≠ Text.lineFeed ∧ (117 : CodeUnit) ≠ Text.carriageReturn := by decide
    simp only [IsUnbroken, List.forall_mem_cons]
    exact ⟨hback, hu, hplain ha.plain, hplain hb.plain, hplain hc.plain, hplain hd.plain, by simp⟩
  | escaped hletter =>
    obtain ⟨-, -, hfeed, hreturn, -⟩ := escapeLetter?_eq_some hletter
    simp only [IsUnbroken, List.forall_mem_cons]
    exact ⟨hback, ⟨hfeed, hreturn⟩, by simp⟩
  | plain hnone =>
    simp only [IsUnbroken, List.forall_mem_cons]
    exact ⟨hplain hnone, by simp⟩

/-- So what is written ends no line. -/
theorem WritesText.unbroken {t written : Text} (h : WritesText t written) : IsUnbroken written := by
  induction h with
  | nil => intro u hu; cases hu
  | cons hunit _ ih => exact hunit.unbroken.append ih

/-- Any other unit belongs to the line it stands in. -/
theorem naturalLines_cons {u : CodeUnit} (t : Text)
    (h : u ≠ Text.lineFeed ∧ u ≠ Text.carriageReturn) :
    naturalLines (u :: t) = consLine u (naturalLines t) := by
  cases t with
  | nil => simp [naturalLines, consLine, h]
  | cons v t => simp [naturalLines, h]

/-- A line feed ends a line. -/
theorem naturalLines_lineFeed (t : Text) :
    naturalLines (Text.lineFeed :: t) = [] :: naturalLines t := by
  have hne : Text.lineFeed ≠ Text.carriageReturn := by decide
  cases t with
  | nil => simp [naturalLines]
  | cons v t => simp [naturalLines, hne]

/-- So does a carriage return that no line feed follows. -/
theorem naturalLines_carriageReturn {t : Text} (h : t.head? ≠ some Text.lineFeed) :
    naturalLines (Text.carriageReturn :: t) = [] :: naturalLines t := by
  cases t with
  | nil => simp [naturalLines]
  | cons v t =>
    have hv : v ≠ Text.lineFeed := fun heq => h (congrArg some heq)
    simp [naturalLines, hv]

/-- Each way to end a line ends one line only, unless a line feed goes on a carriage return. -/
theorem naturalLines_terminator {terminator t : Text} (h : terminator ∈ terminators)
    (ht : ¬ (terminator = [Text.carriageReturn] ∧ t.head? = some Text.lineFeed)) :
    naturalLines (terminator ++ t) = [] :: naturalLines t := by
  simp only [terminators, List.mem_cons, List.not_mem_nil, or_false] at h
  rcases h with rfl | rfl | rfl
  · exact naturalLines_lineFeed t
  · exact naturalLines_carriageReturn fun hhead => ht ⟨rfl, hhead⟩
  · simp [naturalLines]

/-- A text without line ends is a line of its own before the next end. -/
theorem IsUnbroken.naturalLines_append {line t : Text} (h : IsUnbroken line) {rest : List Text}
    (ht : naturalLines t = [] :: rest) : naturalLines (line ++ t) = line :: rest := by
  induction line with
  | nil => exact ht
  | cons u line ih =>
    rw [List.cons_append, naturalLines_cons _ (h u (by simp)), ih fun v hv => h v (by simp [hv])]
    rfl

/-! ## Entries -/

variable {e : Entry} {es : List Entry} {line t : Text}

/-- The line of an entry has no line end inside. -/
theorem WritesEntry.unbroken (h : WritesEntry e line) : IsUnbroken line := by
  cases h with
  | line hindent _ hkey hsep hvalue =>
    exact hindent.unbroken.append (hkey.unbroken.append (hsep.plain.1.append hvalue.unbroken))

/-- The line of an entry is not empty. -/
theorem WritesEntry.ne_nil (h : WritesEntry e line) : line ≠ [] := by
  cases h with
  | line _ _ _ hsep _ =>
    obtain ⟨u, rest, rfl, -⟩ := hsep.cons
    simp

/-- What writes something is not empty. -/
theorem WritesText.ne_nil {text written : Text} (h : WritesText text written) (hne : text ≠ []) :
    written ≠ [] := by
  cases h with
  | nil => exact absurd rfl hne
  | cons hunit _ => cases hunit <;> simp

/-- The line of an entry is no comment and not continued, and it is the entry that is read off
it. -/
theorem WritesEntry.reads (h : WritesEntry e line) : isSkipped (strip line) = false ∧
    isContinued (strip line) = false ∧ Entry.ofLine (strip line) = e := by
  cases h with
  | @line indent key separation value hindent hne hkey hsep hvalue =>
    obtain ⟨u, tail, hu⟩ := List.exists_cons_of_ne_nil (hkey.ne_nil hne)
    obtain ⟨hhead, hhash, hbang⟩ := hkey.head (u := u) (by simp [hu])
    have hstrip : strip (indent ++ (key ++ (separation ++ value))) =
        key ++ (separation ++ value) := by
      refine dropWhile_gaps hindent fun v hv => ?_
      simp only [hu, List.cons_append, List.head?_cons, Option.some.injEq] at hv
      subst hv
      simp only [isSeparator, Bool.or_eq_false_iff] at hhead
      exact hhead.2
    rw [hstrip]
    refine ⟨by simp [hu, isSkipped, hhash, hbang], ?_, ?_⟩
    · have hcontinued : isContinued ([] ++ key) = false := hkey.isContinued_append rfl
      rw [← List.append_assoc]
      exact hvalue.isContinued_append (isContinued_append_of_forall_ne hcontinued hsep.plain.2)
    · obtain ⟨v, rest, rfl, hv⟩ := hsep.cons
      have hskip := hsep.skip fun w hw => (hvalue.head hw).1
      have hsplit : splitKey (key ++ (v :: rest ++ value)) = (key, v :: rest ++ value) :=
        hkey.splitKey_append (rest ++ value) hv
      simp only [Entry.ofLine, hsplit, hskip, hvalue.trimValue, hkey.unescape, hvalue.unescape]

/-- The line of an entry is a logical line by itself. -/
theorem WritesEntry.joinLines (h : WritesEntry e line) (rest : List Text) :
    joinLines none (line :: rest) = strip line :: joinLines none rest := by
  obtain ⟨hskipped, hcontinued, -⟩ := h.reads
  simp [Manifest.joinLines, hskipped, hcontinued]

/-- A text that writes entries does not begin with a line feed, which could be taken for half of a
line end before it. -/
theorem Writes.head? (h : Writes es t) : t.head? ≠ some Text.lineFeed := by
  have hline {e : Entry} {line : Text} (hline : WritesEntry e line) (t : Text) :
      (line ++ t).head? ≠ some Text.lineFeed := by
    obtain ⟨u, rest, rfl⟩ := List.exists_cons_of_ne_nil hline.ne_nil
    simpa using (hline.unbroken u (by simp)).1
  cases h with
  | nil => simp
  | last hentry => simpa using hline hentry []
  | cons hentry _ _ => exact hline hentry _

/-- A text that writes entries is read as these entries. -/
theorem entries_of_writes (h : Writes es t) : entries t = es := by
  have hread {e : Entry} {line : Text} (hentry : WritesEntry e line) (lines : List Text) :
      ((joinLines none (line :: lines)).map Entry.ofLine).filter (!·.key.isEmpty) =
        e :: ((joinLines none lines).map Entry.ofLine).filter (!·.key.isEmpty) := by
    obtain ⟨-, -, hofLine⟩ := hentry.reads
    have hkey : e.key ≠ [] := by cases hentry; assumption
    simp [hentry.joinLines, hofLine, hkey]
  induction h with
  | nil => rfl
  | last hentry =>
    have hlines := hentry.unbroken.naturalLines_append (t := []) rfl
    rw [List.append_nil] at hlines
    rw [entries, logicalLines, hlines, hread hentry]
    rfl
  | cons hentry hterminator hwrites ih =>
    have hlines := hentry.unbroken.naturalLines_append
      (naturalLines_terminator hterminator fun h => hwrites.head? h.2)
    rw [entries, logicalLines, hlines, hread hentry]
    exact congrArg _ ih

/-- Reading undoes writing: the table of a text that writes entries lists their keys once each, in
the order in which they first come, and says of a key the value of its last entry. -/
theorem parse_of_writes (h : Writes es t) :
    (parse t).keys = (es.map (·.key)).eraseDups ∧
      ∀ k, (parse t).get? k = Table.lastValue? (es.map fun e => (e.key, e.value)) k := by
  have hparse : parse t = Table.putAll [] (es.map fun e => (e.key, e.value)) := by
    rw [parse, entries_of_writes h, Table.putAll, List.foldl_map]
  rw [hparse]
  refine ⟨?_, fun k => Table.get?_ofRows _ k⟩
  rw [Table.keys_ofRows, List.map_map]
  rfl

/-- A key that is written twice, in two ways, is one key with its last value. -/
theorem parse_of_writes_twice :
    Writes [⟨"k=", "a"⟩, ⟨"l", "\\"⟩, ⟨"k=", " "⟩] "\tk\\= = a\r\nl:\\\\\r\\u006B\\=\t\\ " ∧
      (parse "\tk\\= = a\r\nl:\\\\\r\\u006B\\=\t\\ ").keys = [↑"k=", ↑"l"] ∧
        (parse "\tk\\= = a\r\nl:\\\\\r\\u006B\\=\t\\ ").get? "k=" = some ↑" " := by
  have hfirst : WritesEntry ⟨[107, 61], [97]⟩ [9, 107, 92, 61, 32, 61, 32, 97] :=
    .line (e := ⟨[107, 61], [97]⟩) (by decide : IsGaps [9]) (by decide)
      (.cons (.plain rfl) (.cons (.escaped rfl) .nil))
      (.sign (by decide : IsGaps [32]) (.inl rfl) (by decide : IsGaps [32]))
      (.cons (.plain rfl) .nil)
  have hsecond : WritesEntry ⟨[108], [92]⟩ [108, 58, 92, 92] :=
    .line (e := ⟨[108], [92]⟩) (by decide : IsGaps []) (by decide) (.cons (.plain rfl) .nil)
      (.sign (by decide : IsGaps []) (.inr rfl) (by decide : IsGaps [])) (.cons (.escaped rfl) .nil)
  have hthird : WritesEntry ⟨[107, 61], [32]⟩ [92, 117, 48, 48, 54, 66, 92, 61, 9, 92, 32] :=
    .line (e := ⟨[107, 61], [32]⟩) (by decide : IsGaps []) (by decide)
      (.cons (.numbered (by decide) (by decide) (by decide) (by decide))
        (.cons (.escaped rfl) .nil))
      (.gaps (by decide) (by decide : IsGaps [9])) (.cons (.escaped rfl) .nil)
  have hunits := Writes.cons hfirst (by decide : [13, 10] ∈ terminators)
    (.cons hsecond (by decide : [13] ∈ terminators) (.last hthird))
  have hwrites : Writes [⟨"k=", "a"⟩, ⟨"l", "\\"⟩, ⟨"k=", " "⟩]
      "\tk\\= = a\r\nl:\\\\\r\\u006B\\=\t\\ " := hunits
  obtain ⟨hkeys, hvalue⟩ := parse_of_writes hwrites
  exact ⟨hwrites, hkeys.trans (by decide), (hvalue _).trans (by decide)⟩

/-- All entries can be written, if none has an empty key. -/
theorem exists_writes (h : ∀ e ∈ es, e.key ≠ []) : ∃ t, Writes es t := by
  have hunit (u : CodeUnit) : ∃ piece, WritesUnit u piece := by
    cases hletter : escapeLetter? u with
    | none => exact ⟨_, .plain hletter⟩
    | some letter => exact ⟨_, .escaped hletter⟩
  have htext (t : Text) : ∃ written, WritesText t written := by
    induction t with
    | nil => exact ⟨_, .nil⟩
    | cons u t ih =>
      obtain ⟨piece, hpiece⟩ := hunit u
      obtain ⟨written, hwritten⟩ := ih
      exact ⟨_, .cons hpiece hwritten⟩
  induction es with
  | nil => exact ⟨_, .nil⟩
  | cons e es ih =>
    obtain ⟨key, hkey⟩ := htext e.key
    obtain ⟨value, hvalue⟩ := htext e.value
    obtain ⟨t, ht⟩ := ih fun e' he' => h e' (by simp [he'])
    have hgap : IsSeparation [Text.space] := .gaps (by simp) (by decide)
    have hline := WritesEntry.line (by decide : IsGaps []) (h e (by simp)) hkey hgap hvalue
    exact ⟨_, .cons hline (by decide : [Text.lineFeed] ∈ terminators) ht⟩

end EvalPlan.Manifest
