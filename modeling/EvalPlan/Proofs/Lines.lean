import EvalPlan.Proofs.Decoding
import Mathlib.Data.List.Induction
import Mathlib.Data.List.TakeWhile

/-!
# Natural and logical lines

Two views of what is done with the lines of a manifest. `Joins` says how natural lines make up a
text, and `joins_iff` that cutting the text gives these lines and no others. `Continues` says after
which natural lines an entry goes on, in terms of the lines alone; `isSome_pendingAfter` says that
this is when joining them keeps an entry waiting. Such an entry ends in an even number of
backslashes (`isContinued_of_pendingAfter`), so that how a line ends depends on the line alone
(`isContinued_append`).
-/

namespace EvalPlan.Manifest

variable {line t : Text} {lines : List Text}

/-! ## Backslashes at the end -/

/-- Behind a line that is not continued, it is what follows that is continued or not. -/
theorem isContinued_append {s : Text} (h : isContinued s = false) (t : Text) :
    isContinued (s ++ t) = isContinued t := by
  induction t using List.reverseRecOn with
  | nil =>
    rw [List.append_nil, h]
    rfl
  | append_singleton t u ih => rw [← List.append_assoc, isContinued_concat, isContinued_concat, ih]

/-- A line of blanks is not continued. -/
theorem IsGaps.isContinued {gaps : Text} (h : IsGaps gaps) : isContinued gaps = false :=
  isContinued_append_of_forall_ne (rfl : Manifest.isContinued [] = false) h.ne_backslash

/-- What stands before the text of a line is blank. -/
theorem isGaps_takeWhile (line : Text) : IsGaps (line.takeWhile isGap) := fun _ hu =>
  List.mem_takeWhile_imp hu

/-- A line is its leading blanks and its text. -/
theorem takeWhile_append_strip (line : Text) : line.takeWhile isGap ++ strip line = line :=
  List.takeWhile_append_dropWhile

/-- Leading blanks do not matter to whether a line is continued. -/
theorem isContinued_strip (line : Text) : isContinued (strip line) = isContinued line := by
  have happend := isContinued_append (isGaps_takeWhile line).isContinued (strip line)
  rw [takeWhile_append_strip] at happend
  exact happend.symm

/-- A line that is continued ends in a backslash, and what stands before that is not continued. -/
theorem isContinued_dropLast (h : isContinued line = true) :
    isContinued line.dropLast = false ∧ line = line.dropLast ++ [Text.backslash] := by
  induction line using List.reverseRecOn with
  | nil => cases h
  | append_singleton line u _ =>
    rw [isContinued_concat, Bool.and_eq_true, decide_eq_true_eq, Bool.not_eq_true'] at h
    rw [List.dropLast_concat, h.1]
    exact ⟨h.2, rfl⟩

/-- One backslash more continues a line that was not continued. -/
theorem isContinued_backslash {s : Text} (h : isContinued s = false) :
    isContinued (s ++ [Text.backslash]) = true := by
  simp [isContinued_concat, h]

/-- A line end is no backslash. -/
theorem isContinued_terminator (s : Text) {terminator : Text} (h : terminator ∈ terminators) :
    isContinued (s ++ terminator) = false := by
  simp only [terminators, List.mem_cons, List.not_mem_nil, or_false] at h
  rcases h with rfl | rfl | rfl
  · simp [isContinued_concat, Text.lineFeed, Text.backslash]
  · simp [isContinued_concat, Text.carriageReturn, Text.backslash]
  · have happend := isContinued_concat (s ++ [Text.carriageReturn]) Text.lineFeed
    simpa [Text.lineFeed, Text.backslash] using happend

/-! ## Lines that make up a text -/

/-- Lines are joined by terminators. A carriage return that ends a line stands before no line feed,
since both together would end it. -/
inductive Joins : List Text → Text → Prop
  | last {line : Text} : IsUnbroken line → Joins [line] line
  | cons {line : Text} {lines : List Text} {terminator t : Text} : IsUnbroken line →
      terminator ∈ terminators →
      ¬ (terminator = [Text.carriageReturn] ∧ t.head? = some Text.lineFeed) → Joins lines t →
      Joins (line :: lines) (line ++ (terminator ++ t))

/-- The empty text has no line end. -/
theorem isUnbroken_nil : IsUnbroken [] := fun _ hu => absurd hu List.not_mem_nil

/-- The empty text is one empty line. -/
theorem joins_nil : Joins [[]] [] := .last isUnbroken_nil

/-- A unit that ends no line is put in front of the first one. -/
theorem Joins.consLine {u : CodeUnit} (hu : u ≠ Text.lineFeed ∧ u ≠ Text.carriageReturn)
    (h : Joins lines t) : Joins (consLine u lines) (u :: t) := by
  have hunbroken {line : Text} (hline : IsUnbroken line) : IsUnbroken (u :: line) :=
    List.forall_mem_cons.mpr ⟨hu, hline⟩
  cases h with
  | last hline => exact .last (hunbroken hline)
  | cons hline hterminator happart hrest => exact .cons (hunbroken hline) hterminator happart hrest

/-- A text is joined from its natural lines. -/
theorem joins_naturalLines (t : Text) : Joins (naturalLines t) t := by
  fun_induction naturalLines t with
  | case1 => exact joins_nil
  | case2 u hu =>
    show Joins _ ([] ++ ([u] ++ []))
    refine .cons isUnbroken_nil ?_ (fun h => absurd h.2 (by decide)) joins_nil
    simpa [terminators] using hu
  | case3 u hu => exact .last (by simpa [IsUnbroken] using hu)
  | case4 u v rest huv ih =>
    simp only [Bool.and_eq_true, decide_eq_true_eq] at huv
    rw [huv.1, huv.2]
    show Joins _ ([] ++ ([Text.carriageReturn, Text.lineFeed] ++ rest))
    exact .cons isUnbroken_nil (by simp [terminators]) (fun h => absurd h.1 (by decide)) ih
  | case5 u v rest huv hu ih =>
    show Joins _ ([] ++ ([u] ++ v :: rest))
    refine .cons isUnbroken_nil (by simpa [terminators] using hu) ?_ ih
    -- the two were not taken together
    rintro ⟨hreturn, hfeed⟩
    simp_all
  | case6 u v rest _ hu ih => exact ih.consLine (by simpa using hu)

/-- There is only one way to join a text from lines. -/
theorem Joins.naturalLines (h : Joins lines t) : naturalLines t = lines := by
  induction h with
  | last hline =>
    have hlines := hline.naturalLines_append (t := []) rfl
    rwa [List.append_nil] at hlines
  | cons hline hterminator hapart _ ih =>
    rw [hline.naturalLines_append (naturalLines_terminator hterminator hapart), ih]

/-- A text is cut into the lines that it was joined from. -/
theorem joins_iff : Joins lines t ↔ naturalLines t = lines :=
  ⟨Joins.naturalLines, fun h => h ▸ joins_naturalLines t⟩

/-- The lines of two texts with a terminator between them are those of both. The terminator is all
that stands between them. -/
theorem Joins.append {lines' : List Text} {body terminator : Text} (h : Joins lines body)
    (hterminator : terminator ∈ terminators)
    (hbefore : ¬ (terminator = [Text.lineFeed] ∧ body.getLast? = some Text.carriageReturn))
    (hafter : ¬ (terminator = [Text.carriageReturn] ∧ t.head? = some Text.lineFeed))
    (ht : Joins lines' t) : Joins (lines ++ lines') (body ++ (terminator ++ t)) := by
  induction h with
  | last hline => exact .cons hline hterminator hafter ht
  | @cons line lines terminator' rest hline hterminator' hapart _ ih =>
    have hrest : ¬ (terminator = [Text.lineFeed] ∧ rest.getLast? = some Text.carriageReturn) := by
      rintro ⟨hfeed, hlast⟩
      exact hbefore ⟨hfeed, by simp [List.getLast?_append, hlast]⟩
    rw [List.append_assoc, List.append_assoc]
    refine .cons hline hterminator' ?_ (ih hrest)
    rintro ⟨rfl, hhead⟩
    cases rest with
    -- the terminator would go on the one before it
    | nil =>
      simp only [terminators, List.mem_cons, List.not_mem_nil, or_false] at hterminator
      rcases hterminator with rfl | rfl | rfl
      · exact hbefore ⟨rfl, by simp⟩
      · simp [Text.carriageReturn, Text.lineFeed] at hhead
      · simp [Text.carriageReturn, Text.lineFeed] at hhead
    | cons u rest => exact hapart ⟨rfl, by simpa using hhead⟩

/-- A text is continued if its last line is. -/
theorem Joins.exists_last (h : Joins lines t) :
    ∃ line, lines.getLast? = some line ∧ isContinued t = isContinued line := by
  induction h with
  | @last line _ => exact ⟨line, rfl, rfl⟩
  | @cons first lines terminator t _ hterminator _ hrest ih =>
    obtain ⟨line, hline, hcontinued⟩ := ih
    refine ⟨line, by rw [List.getLast?_cons, hline]; rfl, ?_⟩
    rw [← List.append_assoc, isContinued_append (isContinued_terminator first hterminator),
      hcontinued]

/-! ## Joining lines one by one -/

/-- The entry that waits to be continued after one more natural line. -/
def waiting (pending : Option Text) (natural : Text) : Option Text :=
  if pending.isNone && isSkipped (strip natural) then none
  else if isContinued (pending.getD [] ++ strip natural) then
    some (pending.getD [] ++ strip natural).dropLast
  else none

/-- The logical line that one more natural line completes, if it does. -/
def completed (pending : Option Text) (natural : Text) : List Text :=
  if pending.isNone && isSkipped (strip natural) then []
  else if isContinued (pending.getD [] ++ strip natural) then []
  else [pending.getD [] ++ strip natural]

/-- The entry that waits to be continued after some natural lines. -/
def pendingAfter (pending : Option Text) (lines : List Text) : Option Text :=
  lines.foldl waiting pending

/-- Each natural line completes a logical line or leaves one waiting. -/
theorem joinLines_cons (pending : Option Text) (natural : Text) (rest : List Text) :
    joinLines pending (natural :: rest) =
      completed pending natural ++ joinLines (waiting pending natural) rest := by
  cases pending with
  | none =>
    simp only [joinLines, waiting, completed, Option.isNone_none, Bool.true_and, Option.getD_none,
      List.nil_append]
    split
    · rfl
    · split <;> rfl
  | some pending =>
    simp only [joinLines, waiting, completed, Option.isNone_some, Bool.false_and, Option.getD_some]
    rw [if_neg Bool.false_ne_true, if_neg Bool.false_ne_true]
    split <;> rfl

/-- Lines may be replaced where they come to the same behind the lines before them. -/
theorem joinLines_replace {pending : Option Text} {rest rest' : List Text} (before : List Text)
    (h : joinLines (pendingAfter pending before) rest = joinLines (pendingAfter pending before) rest') :
    joinLines pending (before ++ rest) = joinLines pending (before ++ rest') := by
  induction before generalizing pending with
  | nil => exact h
  | cons natural before ih =>
    rw [List.cons_append, List.cons_append, joinLines_cons, joinLines_cons, ih h]

/-- Where no entry waits to be continued, lines are joined apart from those before them. -/
theorem joinLines_append {pending : Option Text} {before : List Text}
    (h : pendingAfter pending before = none) (rest : List Text) :
    joinLines pending (before ++ rest) = joinLines pending before ++ joinLines none rest := by
  induction before generalizing pending with
  | nil =>
    obtain rfl : pending = none := h
    rfl
  | cons natural before ih =>
    rw [List.cons_append, joinLines_cons, joinLines_cons, ih h, List.append_assoc]

/-- The backslash that a line is continued with is dropped. -/
theorem isContinued_of_waiting {pending : Option Text} {natural p : Text}
    (h : waiting pending natural = some p) : isContinued p = false := by
  unfold waiting at h
  split at h
  · cases h
  · split at h
    next hcontinued =>
      cases h
      exact (isContinued_dropLast hcontinued).1
    · cases h

/-- What is waiting after a line depends on what was waiting before it. -/
theorem pendingAfter_concat (pending : Option Text) (lines : List Text) (line : Text) :
    pendingAfter pending (lines ++ [line]) = waiting (pendingAfter pending lines) line := by
  simp [pendingAfter]

/-- An entry that waits to be continued ends in an even number of backslashes. -/
theorem isContinued_of_pendingAfter {p : Text} (h : pendingAfter none lines = some p) :
    isContinued p = false := by
  induction lines using List.reverseRecOn with
  | nil => cases h
  | append_singleton lines line _ =>
    rw [pendingAfter_concat] at h
    exact isContinued_of_waiting h

/-! ## Entries that go on -/

/-- A natural line that holds nothing where no entry goes on: a blank line or a comment. -/
def IsIdle (line : Text) : Prop :=
  IsGaps line ∨ ∃ indent mark content, IsGaps indent ∧ (mark = Text.hash ∨ mark = Text.bang) ∧
    line = indent ++ mark :: content

/-- After these natural lines an entry goes on: the last of them belongs to an entry, and ends in an
odd number of backslashes. -/
inductive Continues : List Text → Prop
  /-- The entry begins in the line. -/
  | first {lines : List Text} {line : Text} : ¬ IsIdle line → isContinued line = true →
      Continues (lines ++ [line])
  /-- The entry goes on in the line, whatever the line looks like. -/
  | further {lines : List Text} {line : Text} : Continues lines → isContinued line = true →
      Continues (lines ++ [line])

/-- Nothing is continued before the first line. -/
theorem not_continues_nil : ¬ Continues [] := by
  intro h
  generalize hlines : ([] : List Text) = lines at h
  cases h <;> simp at hlines

/-- A line goes on if it is continued and is not skipped where nothing was waiting. -/
theorem continues_concat : Continues (lines ++ [line]) ↔
    (Continues lines ∨ ¬ IsIdle line) ∧ isContinued line = true := by
  constructor
  · intro h
    generalize hlines : lines ++ [line] = lines' at h
    cases h with
    | first hidle hcontinued =>
      obtain ⟨-, rfl⟩ := List.append_singleton_inj.mp hlines
      exact ⟨.inr hidle, hcontinued⟩
    | further hbefore hcontinued =>
      obtain ⟨rfl, rfl⟩ := List.append_singleton_inj.mp hlines
      exact ⟨.inl hbefore, hcontinued⟩
  · rintro ⟨hbefore | hidle, hcontinued⟩
    · exact .further hbefore hcontinued
    · exact .first hidle hcontinued

/-- If something goes on, the last line is continued. -/
theorem Continues.exists_last (h : Continues lines) :
    ∃ line, lines.getLast? = some line ∧ isContinued line = true := by
  cases h with
  | @first _ line _ hcontinued => exact ⟨line, by simp, hcontinued⟩
  | @further _ line _ hcontinued => exact ⟨line, by simp, hcontinued⟩

/-- What follows the text of a line is not touched by stripping it. -/
theorem strip_append_of_ne_nil {s : Text} (h : strip s ≠ []) (t : Text) :
    strip (s ++ t) = strip s ++ t := by
  unfold strip at h ⊢
  rw [List.dropWhile_append, if_neg (by simpa using h)]

/-- Leading blanks are stripped, however many. -/
theorem strip_append_of_gaps {gaps : Text} (h : IsGaps gaps) (t : Text) :
    strip (gaps ++ t) = strip t := List.dropWhile_append_of_pos h

/-- Nothing is left of blank lines only. -/
theorem strip_eq_nil_iff : strip line = [] ↔ IsGaps line := List.dropWhile_eq_nil_iff

/-- A line that begins with its text is left as it is. -/
theorem strip_of_head {u : CodeUnit} (h : isGap u = false) : strip (u :: t) = u :: t := by
  simp [strip, h]

/-- The lines that are skipped are those that hold nothing. -/
theorem isSkipped_strip_iff : isSkipped (strip line) = true ↔ IsIdle line := by
  constructor
  · intro h
    cases hstrip : strip line with
    | nil => exact .inl (strip_eq_nil_iff.mp hstrip)
    | cons u rest =>
      rw [hstrip] at h
      have hline := takeWhile_append_strip line
      rw [hstrip] at hline
      exact .inr ⟨_, u, rest, isGaps_takeWhile line, by simpa [isSkipped] using h, hline.symm⟩
  · rintro (hgaps | ⟨indent, mark, content, hindent, hmark, rfl⟩)
    · rw [strip_eq_nil_iff.mpr hgaps]
      rfl
    · have hgap : isGap mark = false := by rcases hmark with rfl | rfl <;> decide
      rw [strip_append_of_gaps hindent, strip_of_head hgap]
      simpa [isSkipped] using hmark

/-- Where an entry ends in an even number of backslashes, a line that belongs to it goes on if the
line itself ends in an odd number. -/
theorem isSome_waiting {pending : Option Text} (h : ∀ p, pending = some p → isContinued p = false)
    (natural : Text) : (waiting pending natural).isSome = true ↔
      (pending.isSome = true ∨ ¬ IsIdle natural) ∧ isContinued natural = true := by
  have hcontinued : isContinued (pending.getD [] ++ strip natural) = isContinued natural := by
    rw [← isContinued_strip natural]
    cases pending with
    | none => rfl
    | some p => exact isContinued_append (h p rfl) _
  rw [← isSkipped_strip_iff]
  unfold waiting
  rw [hcontinued]
  cases pending <;> cases hskipped :
    isSkipped (strip natural) <;> cases isContinued natural <;> simp

/-- An entry waits to be continued after the lines after which one goes on. -/
theorem isSome_pendingAfter : (pendingAfter none lines).isSome = true ↔ Continues lines := by
  induction lines using List.reverseRecOn with
  | nil => simp [pendingAfter, not_continues_nil]
  | append_singleton lines line ih =>
    rw [pendingAfter_concat, isSome_waiting fun p => isContinued_of_pendingAfter, ih,
      continues_concat]

/-- Where nothing goes on, nothing is waiting. -/
theorem pendingAfter_eq_none (h : ¬ Continues lines) : pendingAfter none lines = none := by
  rw [← isSome_pendingAfter] at h
  simpa using h

end EvalPlan.Manifest
