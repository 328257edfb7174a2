import EvalPlan.Proofs.Lines

/-!
# Blanks at the end of a value

What becomes of the blanks that a line ends in behind its value. They stand behind the raw value of
the line without them (`rawValue_append`), of which at most the first one is left
(`trimValue_append`), namely if a backslash stands right before it. That one backslash is looked at,
and not how many stand there: where their number is odd the first blank is escaped, and where it is
even, but not zero, it stays although nothing escapes it (`value_of_blanks`).
-/

namespace EvalPlan.Manifest

variable {s t run line : Text}

/-- The value of a line as it is written, with all blanks at its end. -/
def rawValue (line : Text) : Text := skipSeparator (splitKey line).2

/-! ## Where the value begins -/

/-- Nothing gets lost where a line is cut at the end of its key. -/
theorem splitKey_join (line : Text) : (splitKey line).1 ++ (splitKey line).2 = line := by
  fun_induction splitKey line <;> simp_all

/-- Where a key has ended, what follows does not change it. -/
theorem splitKey_append (h : (splitKey s).2 ≠ []) (t : Text) :
    splitKey (s ++ t) = ((splitKey s).1, (splitKey s).2 ++ t) := by
  fun_induction splitKey s with
  | case1 => exact absurd rfl h
  | case2 u hu => exact splitKey_of_separator t hu
  | case3 u hu => exact absurd rfl h
  | case4 v rest key tail hkey ih =>
    rw [hkey] at ih
    simp [splitKey, ih h]
  | case5 u v rest hne hu => exact splitKey_of_separator (v :: rest ++ t) hu
  | case6 u v rest hne hu key tail hkey ih =>
    rw [hkey] at ih
    have hrest := ih h
    rw [List.cons_append] at hrest
    simp [splitKey, hne, hu, hrest]

/-- In blanks, nothing but blanks follows the key. -/
theorem IsGaps.splitKey (h : IsGaps run) : IsGaps (splitKey run).2 := by
  rw [← splitKey_join run] at h
  exact fun u hu => h u (List.mem_append_right _ hu)

/-- Where a key has not ended, blanks are followed by blanks only. -/
theorem splitKey_append_gaps (h : (splitKey s).2 = []) (hrun : IsGaps run) :
    IsGaps (splitKey (s ++ run)).2 := by
  fun_induction splitKey s with
  | case1 => exact hrun.splitKey
  | case2 u hu => cases h
  | case3 u hu =>
    cases run with
    | nil => simp [splitKey, hu, IsGaps]
    | cons v rest =>
      have hrest : IsGaps rest := fun w hw => hrun w (List.mem_cons_of_mem v hw)
      -- the key may end in a backslash, which the first blank then joins
      by_cases hback : u = Text.backslash
      · simpa [splitKey, hback] using hrest.splitKey
      · simpa [splitKey, hback, hu] using hrun.splitKey
  | case4 v rest key tail hkey ih =>
    rw [hkey] at ih
    simpa [splitKey] using ih h
  | case5 u v rest hne hu => cases h
  | case6 u v rest hne hu key tail hkey ih =>
    rw [hkey] at ih
    simpa [splitKey, hne, hu] using ih h

/-- Blanks behind blanks are dropped with them, and stay behind anything else. -/
theorem dropWhile_append_gaps (s : Text) (hrun : IsGaps run) : (s ++ run).dropWhile isGap =
    if s.dropWhile isGap = [] then [] else s.dropWhile isGap ++ run := by
  rw [List.dropWhile_append, List.dropWhile_eq_nil_iff.mpr hrun]
  simp only [List.isEmpty_iff]

/-- Blanks at the end are kept with the value, unless they are all there is. -/
theorem skipSeparator_append (s : Text) (hrun : IsGaps run) : skipSeparator (s ++ run) =
    if skipSeparator s = [] then [] else skipSeparator s ++ run := by
  unfold skipSeparator
  rw [dropWhile_append_gaps s hrun]
  cases s.dropWhile isGap with
  | nil => rfl
  | cons u rest =>
    simp only [List.cons_append, reduceCtorEq, if_false]
    split
    · exact dropWhile_append_gaps rest hrun
    · rw [if_neg (List.cons_ne_nil _ _), List.cons_append]

/-- The blanks that a line ends in stand behind its raw value, unless this is empty. -/
theorem rawValue_append (s : Text) (hrun : IsGaps run) :
    rawValue (s ++ run) = if rawValue s = [] then [] else rawValue s ++ run := by
  unfold rawValue
  by_cases htail : (splitKey s).2 = []
  · have hgaps := splitKey_append_gaps htail hrun
    have hskip : skipSeparator (splitKey (s ++ run)).2 = [] := by
      rw [skipSeparator, List.dropWhile_eq_nil_iff.mpr hgaps]
    rw [hskip, htail]
    rfl
  · rw [splitKey_append htail run, skipSeparator_append _ hrun]

/-! ## Where the value ends -/

/-- Blanks at the end are dropped together. -/
theorem dropEndWhile_append_gaps (s : Text) (hrun : IsGaps run) :
    Text.dropEndWhile isGap (s ++ run) = Text.dropEndWhile isGap s := by
  unfold Text.dropEndWhile
  rw [List.reverse_append, List.dropWhile_append_of_pos fun u hu => hrun u (List.mem_reverse.mp hu)]

/-- What is left is the beginning. -/
theorem dropEndWhile_isPrefix (p : CodeUnit → Bool) (t : Text) : Text.dropEndWhile p t <+: t := by
  unfold Text.dropEndWhile
  rw [← List.reverse_suffix, List.reverse_reverse]
  exact List.dropWhile_suffix p

/-- A value that ends with a backslash loses nothing. -/
theorem trimValue_of_backslash (h : s.getLast? = some Text.backslash) : trimValue s = s := by
  obtain ⟨s, rfl⟩ := List.getLast?_eq_some_iff.mp h
  exact trimValue_of_last s (by decide)

/-- Of the blanks behind a value at most the first one is left, if it stands behind a backslash. -/
theorem trimValue_append (s : Text) (hrun : IsGaps run) : trimValue (s ++ run) =
    if s.getLast? = some Text.backslash then s ++ run.take 1 else trimValue s := by
  by_cases hlast : s.getLast? = some Text.backslash
  · obtain ⟨s, rfl⟩ := List.getLast?_eq_some_iff.mp hlast
    have hbody : Text.dropEndWhile isGap (s ++ [Text.backslash]) = s ++ [Text.backslash] := by
      rw [dropEndWhile_concat, if_neg (by decide)]
    rw [if_pos hlast]
    simp only [trimValue, dropEndWhile_append_gaps _ hrun, hbody, hlast, if_true]
    exact List.take_length_add_append 1
  · rw [if_neg hlast]
    simp only [trimValue, dropEndWhile_append_gaps s hrun]
    split
    next hbody =>
      -- a blank stands behind that backslash already
      have hlt : (Text.dropEndWhile isGap s).length < s.length := by
        refine Nat.lt_of_le_of_ne (dropEndWhile_isPrefix isGap s).length_le fun hlength => hlast ?_
        rwa [(dropEndWhile_isPrefix isGap s).eq_of_length hlength] at hbody
      exact List.take_append_of_le_length hlt
    next => rfl

/-! ## Escapes at the end -/

/-- A unit by its number takes four digits. -/
theorem hexHead?_eq_some {unit : CodeUnit} (h : hexHead? s = some unit) :
    ∃ a b c d rest, s = a :: b :: c :: d :: rest ∧ hexUnit? a b c d = some unit := by
  unfold hexHead? at h
  split at h
  next a b c d rest => exact ⟨a, b, c, d, rest, rfl, h⟩
  next => cases h

/-- A unit that is no backslash continues nothing. -/
theorem isContinued_plain {u : CodeUnit} (hu : u ≠ Text.backslash) : isContinued [u] = false := by
  simpa [hu] using isContinued_concat [] u

/-- An escape of one letter continues nothing. -/
theorem isContinued_letter (e : CodeUnit) : isContinued [Text.backslash, e] = false := by
  have hconcat := isContinued_concat [Text.backslash] e
  simpa [isContinued, trailingBackslashes] using hconcat

/-- The last digit of an escape is no backslash. -/
theorem isContinued_numbered {a b c d unit : CodeUnit} (h : hexUnit? a b c d = some unit) :
    isContinued [Text.backslash, 117, a, b, c, d] = false := by
  have hback : d ≠ Text.backslash := by
    rintro rfl
    simp [hexUnit?, show Text.backslash.hexValue? = none from rfl] at h
  have hconcat := isContinued_concat [Text.backslash, 117, a, b, c] d
  simpa [hback] using hconcat

/-- What follows a piece is not continued if the whole is not. -/
theorem isContinued_of_append {piece rest : Text} (hpiece : isContinued piece = false)
    (h : isContinued (piece ++ rest) = false) : isContinued rest = false :=
  (isContinued_append hpiece rest).symm.trans h

/-- What follows a text belongs to no escape in it if it does not begin with a digit. -/
theorem hexHead?_append (s : Text) (ht : ∀ u, t.head? = some u → u.hexValue? = none) :
    hexHead? (s ++ t) = hexHead? s := by
  cases t with
  | nil => rw [List.append_nil]
  | cons v t =>
    have hv := ht v rfl
    -- where one of the four digits is missing, the unit in its place is none
    rcases s with _ | ⟨a, _ | ⟨b, _ | ⟨c, _ | ⟨d, s⟩⟩⟩⟩
    · simp only [hexHead?, List.nil_append]
      split <;> simp_all [hexUnit?]
    · simp only [hexHead?, List.cons_append, List.nil_append]
      split <;> simp_all [hexUnit?]
    · simp only [hexHead?, List.cons_append, List.nil_append]
      split <;> simp_all [hexUnit?]
    · simp [hexHead?, hexUnit?, hv]
    · rfl

/-- An escape with four digits is the unit of that number. -/
theorem unescape_numbered {e unit : CodeUnit} {tail : Text}
    (h : (if e = 117 then hexHead? tail else none) = some unit) :
    unescape (Text.backslash :: e :: tail) = unit :: unescapeFrom 5 (e :: tail) := by
  simp [unescape, unescapeFrom, h]

/-- Any other escape is its letter, resolved. -/
theorem unescape_letter {e : CodeUnit} {tail : Text}
    (h : (if e = 117 then hexHead? tail else none) = none) :
    unescape (Text.backslash :: e :: tail) = escaped e :: unescapeFrom 1 (e :: tail) := by
  simp [unescape, unescapeFrom, h]

/-- What stands behind whole escapes is resolved on its own, unless digits could be taken for
theirs. -/
theorem unescapeFrom_append {n : Nat} (hn : n ≤ s.length) (hs : isContinued (s.drop n) = false)
    (ht : ∀ u, t.head? = some u → u.hexValue? = none) :
    unescapeFrom n (s ++ t) = unescapeFrom n s ++ unescape t := by
  -- along the scan of the first text, in which an escape ends before the second one begins
  fun_induction unescapeFrom n s with
  | case1 n =>
    obtain rfl : n = 0 := Nat.le_zero.mp hn
    rfl
  | case2 skip u rest ih => exact ih (Nat.le_of_succ_le_succ hn) hs
  | case3 => cases hs
  | case4 e tail unit hunit ih =>
    obtain ⟨rfl, hhead⟩ : e = 117 ∧ hexHead? tail = some unit := by
      split at hunit
      next he => exact ⟨he, hunit⟩
      next => cases hunit
    have hhead' := hexHead?_append tail ht
    obtain ⟨a, b, c, d, rest, rfl, hdigits⟩ := hexHead?_eq_some hhead
    have hrest := isContinued_of_append (isContinued_numbered hdigits) hs
    have hboth := unescape_numbered (e := 117) ((if_pos rfl).trans (hhead'.trans hhead))
    exact hboth.trans (congrArg (unit :: ·) (ih (by simp) hrest))
  | case5 e tail hunit ih =>
    have hrest := isContinued_of_append (isContinued_letter e) hs
    have hnone : (if e = 117 then hexHead? (tail ++ t) else none) = none := by
      rwa [hexHead?_append tail ht]
    have hboth := unescape_letter hnone
    exact hboth.trans (congrArg (escaped e :: ·) (ih (by simp) hrest))
  | case6 u rest hu ih =>
    have hrest := isContinued_of_append (isContinued_plain hu) hs
    have hboth := unescape_plain (rest ++ t) hu
    exact hboth.trans (congrArg (u :: ·) (ih (Nat.zero_le _) hrest))

/-- Behind a text that ends in an even number of backslashes, escapes are resolved on their own,
unless digits follow it. -/
theorem unescape_append (hs : isContinued s = false)
    (ht : ∀ u, t.head? = some u → u.hexValue? = none) :
    unescape (s ++ t) = unescape s ++ unescape t :=
  unescapeFrom_append (Nat.zero_le _) hs ht

/-! ## Values -/

/-- A blank stands for itself, behind a backslash as well. -/
theorem unescape_gap {u : CodeUnit} (h : isGap u = true) :
    unescape [u] = [u] ∧ unescape [Text.backslash, u] = [u] := by
  simp only [isGap, Bool.or_eq_true, decide_eq_true_eq] at h
  rcases h with (rfl | rfl) | rfl <;> decide

/-- A blank is no digit. -/
theorem hexValue?_of_isGap {u : CodeUnit} (h : isGap u = true) : u.hexValue? = none := by
  simp only [isGap, Bool.or_eq_true, decide_eq_true_eq] at h
  rcases h with (rfl | rfl) | rfl <;> decide

/-- A text ends with a backslash if it ends with at least one. -/
theorem getLast?_eq_backslash_iff : s.getLast? = some Text.backslash ↔
    trailingBackslashes s ≠ 0 := by
  induction s using List.reverseRecOn with
  | nil => simp [trailingBackslashes]
  | append_singleton s u _ => by_cases hu : u = Text.backslash <;> simp [trailingBackslashes, hu]

/-- A raw value with an even number of backslashes in front of a blank: the blank is not escaped. -/
theorem unescape_append_gap {body : Text} {u : CodeUnit} (hbody : isContinued body = false)
    (hu : isGap u = true) : unescape (body ++ [u]) = unescape body ++ [u] := by
  rw [unescape_append hbody (by rintro v ⟨⟩; exact hexValue?_of_isGap hu), (unescape_gap hu).1]

/-- With an odd number of them, the last one escapes the blank. -/
theorem unescape_append_escaped {body : Text} {u : CodeUnit} (hbody : isContinued body = true)
    (hu : isGap u = true) : unescape (body ++ [u]) = unescape body.dropLast ++ [u] := by
  obtain ⟨hfirst, hlast⟩ := isContinued_dropLast hbody
  have hescape : unescape (body.dropLast ++ [Text.backslash, u]) =
      unescape body.dropLast ++ unescape [Text.backslash, u] :=
    unescape_append hfirst (by rintro v ⟨⟩; decide)
  rw [(unescape_gap hu).2] at hescape
  rw [← hescape]
  conv => lhs; rw [hlast, List.append_assoc]
  rfl

/-- What becomes of blanks that a raw value ends in, whether they are all of those at its end or
not. They are dropped if no backslash stands before them. If an odd number of backslashes does, the
first one is kept, being escaped, and the others are dropped. It is kept as well behind any other
even number, although it is not escaped there. -/
theorem value_of_blanks {stem body run : Text} (hraw : rawValue (stem ++ run) = body ++ run)
    (hrun : IsGaps run) (hne : run ≠ []) :
    (trailingBackslashes body = 0 →
      (Entry.ofLine (stem ++ run)).value = (Entry.ofLine stem).value) ∧
    (trailingBackslashes body % 2 = 1 →
      (Entry.ofLine (stem ++ run)).value = unescape body.dropLast ++ run.take 1) ∧
    (trailingBackslashes body % 2 = 0 → trailingBackslashes body ≠ 0 →
      (Entry.ofLine (stem ++ run)).value = (Entry.ofLine stem).value ++ run.take 1) := by
  have hstem : rawValue stem = body := by
    rw [rawValue_append stem hrun] at hraw
    split at hraw
    · exact absurd (List.append_eq_nil_iff.mp hraw.symm).2 hne
    · exact List.append_cancel_right hraw
  obtain ⟨u, rest, rfl⟩ := List.exists_cons_of_ne_nil hne
  have hu : isGap u = true := hrun u List.mem_cons_self
  -- only the first of the blanks can be kept, and it is if a backslash ends what stands before it
  have hline : (Entry.ofLine (stem ++ u :: rest)).value =
      unescape (if body.getLast? = some Text.backslash then body ++ [u] else trimValue body) := by
    show unescape (trimValue (rawValue (stem ++ u :: rest))) = _
    rw [hraw, trimValue_append body hrun]
    rfl
  have hvalue : (Entry.ofLine stem).value = unescape (trimValue body) := by
    rw [← hstem]
    rfl
  rw [hline, hvalue]
  refine ⟨fun hzero => ?_, fun hodd => ?_, fun heven hpos => ?_⟩
  · rw [if_neg fun hlast => getLast?_eq_backslash_iff.mp hlast hzero]
  · have hlast : body.getLast? = some Text.backslash := getLast?_eq_backslash_iff.mpr (by omega)
    rw [if_pos hlast]
    exact unescape_append_escaped (by simpa [isContinued] using hodd) hu
  · have hlast := getLast?_eq_backslash_iff.mpr hpos
    rw [if_pos hlast, trimValue_of_backslash hlast]
    exact unescape_append_gap (by simp [isContinued, heven]) hu

/-- Behind three backslashes the first blank is escaped, and it alone stays. -/
theorem value_of_blanks_tripled :
    rawValue ("k=a\\\\\\" ++ " \t") = "a\\\\\\" ++ " \t" ∧ IsGaps " \t" ∧ (" \t" : Text) ≠ [] ∧
      trailingBackslashes "a\\\\\\" % 2 = 1 ∧
        (Entry.ofLine ("k=a\\\\\\" ++ " \t")).value = "a\\ " := by
  have hraw : rawValue ("k=a\\\\\\" ++ " \t") = "a\\\\\\" ++ " \t" := by decide
  have hblanks := value_of_blanks hraw (by decide) (by decide)
  exact ⟨hraw, by decide, by decide, by decide, hblanks.2.1 (by decide)⟩

/-- Behind two backslashes a blank is not escaped, and yet the value does not come out as it does
without the blank. -/
theorem escapedBackslash_keepsBlank :
    logicalLines "k=a\\\\ " = [↑"k=a\\\\ "] ∧ rawValue ("k=a\\\\" ++ " ") = "a\\\\" ++ " " ∧
      trailingBackslashes "a\\\\" % 2 = 0 ∧
      (Entry.ofLine ("k=a\\\\" ++ " ")).value = "a\\ " ∧
        (Entry.ofLine "k=a\\\\").value = "a\\" := by
  decide

end EvalPlan.Manifest
