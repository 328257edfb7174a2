import EvalPlan.Proofs.Layout
import EvalPlan.Proofs.Trailing

/-!
# Escapes are whole

No escape of a manifest is cut in two. `Gathers` says how a logical line is put together from
natural lines: what is dropped at the end of each is the one backslash that continues it, so that
the line ends in an even number of backslashes (`Gathers.isContinued`). A text with that property is
made up of whole escapes and of units that stand for themselves (`exists_madeOf`), in one way only
(`MadeOf.unique`). Where the key ends, where the value begins and where it is trimmed are ends of
such pieces, so that the pieces of a line are those of its key and of its value with what stands
between and behind them (`logicalLines_whole`).
-/

namespace EvalPlan.Manifest

variable {s t line : Text}

/-! ## Pieces -/

/-- A part of a raw key or value that stands for one unit. -/
inductive Piece
  /-- A unit that stands for itself. -/
  | plain (u : CodeUnit)
  /-- A backslash and the unit behind it. -/
  | letter (e : CodeUnit)
  /-- A backslash, the letter `u` and four digits, which denote a unit. -/
  | numbered (a b c d unit : CodeUnit)

/-- The unit that the piece stands for. -/
def Piece.unit : Piece → CodeUnit
  | plain u => u
  | letter e => escaped e
  | numbered _ _ _ _ unit => unit

/-- A text is made up of pieces from its beginning to its end. An escape with digits goes before one
with the letter alone. -/
inductive MadeOf : Text → List Piece → Prop
  | nil : MadeOf [] []
  | plain {u : CodeUnit} {t : Text} {ps : List Piece} : u ≠ Text.backslash → MadeOf t ps →
      MadeOf (u :: t) (.plain u :: ps)
  | letter {e : CodeUnit} {t : Text} {ps : List Piece} : (e = 117 → hexHead? t = none) →
      MadeOf t ps →
      MadeOf (Text.backslash :: e :: t) (.letter e :: ps)
  | numbered {a b c d unit : CodeUnit} {t : Text} {ps : List Piece} : hexUnit? a b c d = some unit →
      MadeOf t ps → MadeOf (Text.backslash :: 117 :: a :: b :: c :: d :: t)
        (.numbered a b c d unit :: ps)

variable {ps qs : List Piece}

theorem hexHead?_digits {a b c d unit : CodeUnit} (h : hexUnit? a b c d = some unit) (t : Text) :
    hexHead? (a :: b :: c :: d :: t) = some unit := h

/-- The escapes of a text are resolved one by one. -/
theorem MadeOf.unescape (h : MadeOf t ps) : unescape t = ps.map Piece.unit := by
  induction h with
  | nil => rfl
  | plain hu _ ih => rw [unescape_plain _ hu, ih, List.map_cons, Piece.unit]
  | @letter e t ps hnone _ ih =>
    have hletter : (if e = 117 then hexHead? t else none) = none := by
      split
      next he => exact hnone he
      next => rfl
    rw [List.map_cons, ← ih]
    exact unescape_letter hletter
  | @numbered a b c d unit t ps hunit _ ih =>
    rw [List.map_cons, ← ih]
    exact unescape_numbered (e := 117) ((if_pos rfl).trans (hexHead?_digits hunit t))

/-- A text is made up of pieces in one way only. -/
theorem MadeOf.unique (hp : MadeOf t ps) (hq : MadeOf t qs) : ps = qs := by
  induction hp generalizing qs with
  | nil =>
    cases hq
    rfl
  | plain hu _ ih =>
    cases hq with
    | plain _ hrest => rw [ih hrest]
    | letter _ _ => exact absurd rfl hu
    | numbered _ _ => exact absurd rfl hu
  -- a letter is an escape by number exactly if digits follow, so both cannot be
  | letter hnone _ ih =>
    cases hq with
    | plain hu _ => exact absurd rfl hu
    | letter _ hrest => rw [ih hrest]
    | numbered hunit _ => cases (hexHead?_digits hunit _).symm.trans (hnone rfl)
  | numbered hunit _ ih =>
    cases hq with
    | plain hu _ => exact absurd rfl hu
    | letter hnone _ => cases (hexHead?_digits hunit _).symm.trans (hnone rfl)
    | numbered hunit' hrest =>
      obtain rfl := Option.some.inj (hunit.symm.trans hunit')
      rw [ih hrest]

/-! ## Ends of pieces -/

/-- What is made up of pieces ends in an even number of backslashes. -/
theorem MadeOf.isContinued (h : MadeOf t ps) : isContinued t = false := by
  induction h with
  | nil => rfl
  | plain hu _ ih => exact (isContinued_append (isContinued_plain hu) _).trans ih
  | letter _ _ ih => exact (isContinued_append (isContinued_letter _) _).trans ih
  | numbered hunit _ ih => exact (isContinued_append (isContinued_numbered hunit) _).trans ih

theorem exists_madeOf_drop {n : Nat} (hn : n ≤ t.length) (h : isContinued (t.drop n) = false) :
    ∃ ps, MadeOf (t.drop n) ps := by
  -- escapes are found where they are resolved; what is skipped belongs to the escape before
  fun_induction unescapeFrom n t with
  | case1 n =>
    rw [List.drop_nil]
    exact ⟨[], .nil⟩
  | case2 skip u rest ih => exact ih (Nat.le_of_succ_le_succ hn) h
  | case3 => cases h
  | case4 e tail unit hunit ih =>
    obtain ⟨rfl, hhead⟩ : e = 117 ∧ hexHead? tail = some unit := by
      split at hunit
      next he => exact ⟨he, hunit⟩
      next => cases hunit
    obtain ⟨a, b, c, d, rest, rfl, hdigits⟩ := hexHead?_eq_some hhead
    obtain ⟨ps, hps⟩ := ih (by simp) (isContinued_of_append (isContinued_numbered hdigits) h)
    exact ⟨_, .numbered hdigits hps⟩
  | case5 e tail hnone ih =>
    obtain ⟨ps, hps⟩ := ih (by simp) (isContinued_of_append (isContinued_letter e) h)
    refine ⟨_, .letter (fun he => ?_) hps⟩
    rwa [if_pos he] at hnone
  | case6 u rest hu ih =>
    obtain ⟨ps, hps⟩ := ih (Nat.zero_le _) (isContinued_of_append (isContinued_plain hu) h)
    exact ⟨_, .plain hu hps⟩

/-- A text that ends in an even number of backslashes is made up of pieces. -/
theorem exists_madeOf (h : isContinued t = false) : ∃ ps, MadeOf t ps :=
  exists_madeOf_drop (Nat.zero_le _) h

/-- The pieces of two texts are those of both, if no digit stands at the seam. -/
theorem MadeOf.append (hs : MadeOf s ps) (ht : MadeOf t qs)
    (hseam : ∀ u, t.head? = some u → u.hexValue? = none) : MadeOf (s ++ t) (ps ++ qs) := by
  induction hs with
  | nil => exact ht
  | plain hu _ ih => exact .plain hu ih
  | letter hnone _ ih => exact .letter (fun he => (hexHead?_append _ hseam).trans (hnone he)) ih
  | numbered hunit _ ih => exact .numbered hunit ih

/-- A text without a backslash is made up of its units, whatever follows it. -/
theorem MadeOf.behind (ht : MadeOf t qs) (hs : ∀ u ∈ s, u ≠ Text.backslash) :
    MadeOf (s ++ t) (s.map .plain ++ qs) := by
  induction s with
  | nil => exact ht
  | cons u s ih =>
    obtain ⟨hu, hrest⟩ := List.forall_mem_cons.mp hs
    exact .plain hu (ih hrest)

theorem madeOf_plain (hs : ∀ u ∈ s, u ≠ Text.backslash) : MadeOf s (s.map .plain) := by
  have hbehind := MadeOf.nil.behind hs
  rwa [List.append_nil, List.append_nil] at hbehind

/-! ## The end of a key -/

/-- Where the search for the end of a key stops. It goes over an escape in one move of two units,
whether or not there are two. -/
def keyEnd : Text → Nat
  | [] => 0
  | [u] => if u = Text.backslash then 2 else if isSeparator u then 0 else 1
  | u :: v :: rest =>
    if u = Text.backslash then keyEnd rest + 2
    else if isSeparator u then 0
    else keyEnd (v :: rest) + 1

/-- A line is cut where the search stops. -/
theorem splitKey_eq (line : Text) :
    splitKey line = (line.take (keyEnd line), line.drop (keyEnd line)) := by
  fun_induction keyEnd line with
  | case1 => rfl
  | case2 => decide
  | case3 u hback hu => simp [splitKey, hu]
  | case4 u hback hu => simp [splitKey, hu]
  | case5 v rest ih => simp [splitKey, ih]
  | case6 u v rest hback hu => simp [splitKey, hback, hu]
  | case7 u v rest hback hu ih => simp [splitKey, hback, hu, ih]

/-- The search does not go past the end of a line that ends in an even number of backslashes. -/
theorem keyEnd_le (h : isContinued line = false) : keyEnd line ≤ line.length := by
  fun_induction keyEnd line with
  | case1 => exact Nat.le_refl 0
  | case2 => cases h
  | case3 u hback hu => exact Nat.zero_le _
  | case4 u hback hu => exact Nat.le_refl 1
  | case5 v rest ih =>
    have hrest := isContinued_of_append (isContinued_letter v) h
    exact Nat.add_le_add_right (ih hrest) 2
  | case6 u v rest hback hu => exact Nat.zero_le _
  | case7 u v rest hback hu ih =>
    have hrest := isContinued_of_append (isContinued_plain hback) h
    exact Nat.add_le_add_right (ih hrest) 1

/-- What follows a key begins with a separator. -/
theorem isSeparator_of_splitKey {u : CodeUnit} (h : (splitKey line).2.head? = some u) :
    isSeparator u = true := by
  fun_induction splitKey line with
  | case1 => cases h
  | case2 v hv =>
    cases h
    exact hv
  | case3 => cases h
  | case4 v rest key tail hkey ih =>
    rw [hkey] at ih
    exact ih h
  | case5 v w rest hback hv =>
    cases h
    exact hv
  | case6 v w rest hback hv key tail hkey ih =>
    rw [hkey] at ih
    exact ih h

/-- A key ends in an even number of backslashes if its line does. -/
theorem isContinued_splitKey (h : isContinued line = false) :
    isContinued (splitKey line).1 = false := by
  fun_induction splitKey line with
  | case1 => rfl
  | case2 => rfl
  | case3 => exact h
  | case4 v rest key tail hkey ih =>
    rw [hkey] at ih
    have hfirst := isContinued_letter v
    exact (isContinued_append hfirst key).trans (ih (isContinued_of_append hfirst h))
  | case5 => rfl
  | case6 u v rest hback hu key tail hkey ih =>
    rw [hkey] at ih
    have hfirst := isContinued_plain hback
    exact (isContinued_append hfirst key).trans (ih (isContinued_of_append hfirst h))

theorem hexValue?_of_isSeparator {u : CodeUnit} (h : isSeparator u = true) :
    u.hexValue? = none := by
  simp only [isSeparator, Bool.or_eq_true, decide_eq_true_eq] at h
  rcases h with (rfl | rfl) | h
  · decide
  · decide
  · exact hexValue?_of_isGap h

/-! ## Where a value begins and ends -/

/-- What is skipped in front of a value is a separation, if the key does not go to the end. -/
theorem exists_skipped (ht : ∀ u, t.head? = some u → isSeparator u = true) :
    ∃ gap, (t = [] ∨ IsSeparation gap) ∧ t = gap ++ skipSeparator t := by
  have hgaps := isGaps_takeWhile t
  have hsplit : t.takeWhile isGap ++ t.dropWhile isGap = t := List.takeWhile_append_dropWhile
  unfold skipSeparator
  split
  next hrest =>
    rw [hrest, List.append_nil] at hsplit
    rw [hsplit] at hgaps
    exact ⟨t, or_iff_not_imp_left.mpr fun hne => .gaps hne hgaps, (List.append_nil t).symm⟩
  next u rest hrest =>
    rw [hrest] at hsplit
    split
    next hu =>
      have hsign : u = Text.equals ∨ u = Text.colon := by simpa using hu
      have hafter : rest.takeWhile isGap ++ rest.dropWhile isGap = rest :=
        List.takeWhile_append_dropWhile
      refine ⟨t.takeWhile isGap ++ u :: rest.takeWhile isGap,
        .inr (.sign hgaps hsign (isGaps_takeWhile rest)), ?_⟩
      rw [List.append_assoc, List.cons_append, hafter, hsplit]
    next hu =>
      refine ⟨_, .inr (.gaps (fun hnil => ?_) hgaps), hsplit.symm⟩
      -- the separator that the text begins with is a blank then
      rw [hnil, List.nil_append] at hsplit
      subst hsplit
      have hgap : isGap u = true := by simpa [isSeparator, hu] using ht u rfl
      simp [hgap] at hnil

/-- Behind a value there are blanks, of which the first one is left if a backslash stands before
it. -/
theorem exists_body (t : Text) : ∃ body run, IsGaps run ∧ t = body ++ run ∧
    trimValue t = if body.getLast? = some Text.backslash then body ++ run.take 1 else body := by
  have hsplit : Text.dropEndWhile isGap t ++ (t.reverse.takeWhile isGap).reverse = t := by
    rw [Text.dropEndWhile, ← List.reverse_append, List.takeWhile_append_dropWhile,
      List.reverse_reverse]
  have hgaps : IsGaps (t.reverse.takeWhile isGap).reverse := fun u hu =>
    isGaps_takeWhile t.reverse u (List.mem_reverse.mp hu)
  -- the blanks are gone, so that no more of them are dropped
  have hbody := dropEndWhile_append_gaps (Text.dropEndWhile isGap t) hgaps
  have htrim := trimValue_append (Text.dropEndWhile isGap t) hgaps
  rw [hsplit] at hbody htrim
  refine ⟨_, _, hgaps, hsplit.symm, ?_⟩
  rw [htrim]
  split
  next => rfl
  next hlast => simp only [trimValue, ← hbody, if_neg hlast]

/-- What is dropped behind a value are blanks. -/
theorem exists_trimmed (t : Text) : ∃ blanks, IsGaps blanks ∧ t = trimValue t ++ blanks := by
  obtain ⟨body, run, hgaps, hsplit, htrim⟩ := exists_body t
  rw [htrim]
  split
  · refine ⟨run.drop 1, fun u hu => hgaps u (List.mem_of_mem_drop hu), ?_⟩
    rw [List.append_assoc, List.take_append_drop, hsplit]
  · exact ⟨run, hgaps, hsplit⟩

/-- A value ends in an even number of backslashes if its line does. Those in front of a blank are
not counted, since a blank is left behind them. -/
theorem isContinued_trimValue (h : isContinued t = false) : isContinued (trimValue t) = false := by
  obtain ⟨body, run, hgaps, hsplit, htrim⟩ := exists_body t
  rw [htrim]
  split
  next hlast =>
    cases run with
    | nil => rwa [List.take_nil, ← hsplit]
    | cons u run =>
      have hu : u ≠ Text.backslash := hgaps.ne_backslash u List.mem_cons_self
      simp [isContinued_concat, hu]
  next hlast =>
    rw [getLast?_eq_backslash_iff, not_not] at hlast
    rw [isContinued, hlast]
    rfl

/-! ## Lines that are gathered -/

/-- A logical line is gathered from natural lines, some of which are left. The backslash that
continues a natural line is dropped from it. -/
inductive Gathers : List Text → Text → List Text → Prop
  /-- The line was to be continued, but there is nothing left. -/
  | ended : Gathers [] [] []
  /-- The last line is not continued. -/
  | last {natural : Text} {rest : List Text} : isContinued (strip natural) = false →
      Gathers (natural :: rest) (strip natural) rest
  /-- A line is continued, and an even number of backslashes stands before the one at its end. -/
  | more {natural part line : Text} {naturals rest : List Text} :
      strip natural = part ++ [Text.backslash] → isContinued part = false →
      Gathers naturals line rest → Gathers (natural :: naturals) (part ++ line) rest

/-- The natural lines of a manifest are those that logical lines are gathered from, and those that
hold nothing where no entry goes on. -/
inductive Grouped : List Text → List Text → Prop
  | nil : Grouped [] []
  | idle {natural : Text} {naturals lines : List Text} : IsIdle natural → Grouped naturals lines →
      Grouped (natural :: naturals) lines
  | entry {natural line : Text} {naturals rest lines : List Text} : ¬ IsIdle natural →
      Gathers (natural :: naturals) line rest → Grouped rest lines →
      Grouped (natural :: naturals) (line :: lines)

variable {naturals rest lines : List Text}

/-- A line that is gathered ends in an even number of backslashes. -/
theorem Gathers.isContinued (h : Gathers naturals line rest) : isContinued line = false := by
  induction h with
  | ended => rfl
  | last hlast => exact hlast
  | more _ hpart _ ih => exact (isContinued_append hpart _).trans ih

theorem Gathers.length_le (h : Gathers naturals line rest) : rest.length ≤ naturals.length - 1 := by
  induction h with
  | ended => exact Nat.le_refl 0
  | last _ => exact Nat.le_refl _
  | more _ _ _ ih => exact Nat.le_trans ih (Nat.sub_le _ _)

/-- Behind an entry that waits to be continued, its line is gathered to the end. -/
theorem exists_gathers (pending : Text) (h : isContinued pending = false) (naturals : List Text) :
    ∃ line rest, Gathers naturals line rest ∧
      joinLines (some pending) naturals = (pending ++ line) :: joinLines none rest := by
  induction naturals generalizing pending with
  | nil => exact ⟨[], [], .ended, by rw [List.append_nil]; rfl⟩
  | cons natural naturals ih =>
    -- what waits ends in an even number of backslashes, so that the next line alone decides
    have hjoined : isContinued (pending ++ strip natural) = isContinued (strip natural) :=
      isContinued_append h _
    rw [joinLines, hjoined]
    cases hcontinued : isContinued (strip natural) with
    | false => exact ⟨strip natural, naturals, .last hcontinued, rfl⟩
    | true =>
      obtain ⟨hpart, hstrip⟩ := isContinued_dropLast hcontinued
      obtain ⟨line, rest, hgathers, hrest⟩ := ih _ ((isContinued_append h _).trans hpart)
      refine ⟨(strip natural).dropLast ++ line, rest, .more hstrip hpart hgathers, ?_⟩
      have hdropped : (pending ++ strip natural).dropLast = pending ++ (strip natural).dropLast :=
        List.dropLast_append_of_ne_nil (by rw [hstrip]; simp)
      rw [if_pos rfl, hdropped, hrest, List.append_assoc]

theorem grouped_joinLines (naturals : List Text) : Grouped naturals (joinLines none naturals) := by
  -- a line takes at least one natural line, so that fewer are left
  induction hn : naturals.length using Nat.strong_induction_on generalizing naturals with
  | _ n ih =>
    cases naturals with
    | nil => exact .nil
    | cons natural naturals =>
      subst hn
      by_cases hidle : IsIdle natural
      · rw [joinLines_idle hidle]
        exact .idle hidle (ih _ (Nat.lt_succ_self _) naturals rfl)
      · obtain ⟨line, rest, hgathers, hjoined⟩ := exists_gathers [] rfl (natural :: naturals)
        rw [joinLines_entry (.inr hidle), Option.getD_none, hjoined]
        exact .entry hidle hgathers (ih _ (Nat.lt_succ_of_le hgathers.length_le) rest rfl)

theorem Grouped.isContinued (h : Grouped naturals lines) :
    ∀ line ∈ lines, isContinued line = false := by
  induction h with
  | nil => exact fun _ hline => absurd hline List.not_mem_nil
  | idle _ _ ih => exact ih
  | entry _ hgathers _ ih => exact List.forall_mem_cons.mpr ⟨hgathers.isContinued, ih⟩

/-! ## Lines of whole escapes -/

/-- The escapes of a line lie whole within its key or within its value. -/
structure HoldsWhole (line : Text) : Prop where
  /-- The line ends in an even number of backslashes. -/
  even : trailingBackslashes line % 2 = 0
  /-- The search for the end of the key stops within the line. -/
  inside : keyEnd line ≤ line.length
  /-- The line is cut where it stops. -/
  cut : splitKey line = (line.take (keyEnd line), line.drop (keyEnd line))
  /-- The line is its key alone, or its key, a separation, its value and blanks. The pieces of the
  line are those of the key and those of the value, with the units between and behind them, and each
  piece of the key and of the value becomes one unit. -/
  pieces : ∃ key value gap blanks, (line = (splitKey line).1 ∨ IsSeparation gap) ∧ IsGaps blanks ∧
    line = (splitKey line).1 ++ (gap ++ (trimValue (rawValue line) ++ blanks)) ∧
    MadeOf (splitKey line).1 key ∧ MadeOf (trimValue (rawValue line)) value ∧
    (∀ ps, MadeOf line ps ↔ ps = key ++ (gap.map .plain ++ (value ++ blanks.map .plain))) ∧
    Entry.ofLine line = ⟨key.map Piece.unit, value.map Piece.unit⟩

/-- What holds of every line that ends in an even number of backslashes. -/
theorem holdsWhole (h : isContinued line = false) : HoldsWhole line where
  even := by simpa [isContinued] using h
  inside := keyEnd_le h
  cut := splitKey_eq line
  pieces := by
    have htail : isContinued (splitKey line).2 = false := by
      rw [← isContinued_append (isContinued_splitKey h), splitKey_join, h]
    have hsign : ∀ u, (splitKey line).2.head? = some u → isSeparator u = true := fun u hu =>
      isSeparator_of_splitKey hu
    obtain ⟨gap, hgap, hskipped⟩ := exists_skipped hsign
    have hgapPlain : ∀ u ∈ gap, u ≠ Text.backslash := by
      rcases hgap with hnil | hgap
      · rw [hnil, List.nil_eq, List.append_eq_nil_iff] at hskipped
        rw [hskipped.1]
        exact fun u hu => absurd hu List.not_mem_nil
      · exact hgap.plain.2
    have hraw : isContinued (rawValue line) = false := by
      rw [hskipped, isContinued_append (madeOf_plain hgapPlain).isContinued] at htail
      exact htail
    obtain ⟨blanks, hblanks, htrimmed⟩ := exists_trimmed (rawValue line)
    obtain ⟨key, hkey⟩ := exists_madeOf (isContinued_splitKey h)
    obtain ⟨value, hvalue⟩ := exists_madeOf (isContinued_trimValue hraw)
    have htext : (splitKey line).2 = gap ++ (trimValue (rawValue line) ++ blanks) := by
      rw [← htrimmed]
      exact hskipped
    have hline : line = (splitKey line).1 ++ (gap ++ (trimValue (rawValue line) ++ blanks)) := by
      rw [← htext, splitKey_join]
    -- no digit stands at the seams, so that the key and the value end where a piece does
    have hrest : MadeOf (splitKey line).2 (gap.map .plain ++ (value ++ blanks.map .plain)) := by
      rw [htext]
      refine (hvalue.append (madeOf_plain hblanks.ne_backslash) fun u hu => ?_).behind hgapPlain
      exact hexValue?_of_isGap (hblanks u (List.mem_of_mem_head? hu))
    have hwhole := hkey.append hrest fun u hu => hexValue?_of_isSeparator (hsign u hu)
    rw [splitKey_join] at hwhole
    have hkeyOnly (hnil : (splitKey line).2 = []) : line = (splitKey line).1 := by
      have hjoin := splitKey_join line
      rwa [hnil, List.append_nil, eq_comm] at hjoin
    refine ⟨key, value, gap, blanks, hgap.imp_left hkeyOnly, hblanks, hline, hkey, hvalue,
      fun ps => ?_, ?_⟩
    · exact ⟨fun hps => hps.unique hwhole, fun hps => hps ▸ hwhole⟩
    · rw [← hkey.unescape, ← hvalue.unescape]
      rfl

/-- Every logical line of a text is gathered from natural lines of which nothing but single
backslashes at their ends is dropped, and its escapes lie whole within its key or within its
value. -/
theorem logicalLines_whole (t : Text) : Grouped (naturalLines t) (logicalLines t) ∧
    ∀ line ∈ logicalLines t, HoldsWhole line :=
  have hgrouped := grouped_joinLines (naturalLines t)
  ⟨hgrouped, fun line hline => holdsWhole (hgrouped.isContinued line hline)⟩

/-- An escape with digits goes on in the next line, the blank at the end of the value is escaped,
and the last line waits to be continued when the text is at its end. -/
theorem logicalLines_whole_chain :
    logicalLines "k\\=\\\\\\\n  b = \\u00\\\n41\\\\\\ \t\r\n! c\\\nd\\" =
        [↑"k\\=\\\\b = \\u0041\\\\\\ \t", ↑"d"] ∧
      HoldsWhole "k\\=\\\\b = \\u0041\\\\\\ \t" ∧ HoldsWhole "d" ∧
      Entry.ofLine "k\\=\\\\b = \\u0041\\\\\\ \t" = ⟨"k=\\b", "A\\ "⟩ := by
  have hlines : logicalLines "k\\=\\\\\\\n  b = \\u00\\\n41\\\\\\ \t\r\n! c\\\nd\\" =
      [↑"k\\=\\\\b = \\u0041\\\\\\ \t", ↑"d"] := by decide
  obtain ⟨-, hwhole⟩ := logicalLines_whole "k\\=\\\\\\\n  b = \\u00\\\n41\\\\\\ \t\r\n! c\\\nd\\"
  rw [hlines] at hwhole
  exact ⟨hlines, hwhole _ (by simp), hwhole _ (by simp), by decide⟩

end EvalPlan.Manifest
