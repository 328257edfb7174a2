import EvalPlan.Proofs.Defaults
import EvalPlan.Proofs.Lines

/-!
# Manifests one after another

A manifest whose last line is ended and does not go on (`IsEnded`) can be followed by another one in
the same text: the logical lines are those of both (`logicalLines_append`). To merge such manifests
is therefore to read one manifest that holds their texts one after another (`parse_merged`).
-/

namespace EvalPlan.Manifest

variable {a b : Text}

/-- The last line of a text is ended by a terminator, and no odd number of backslashes stands before
that. A carriage return and a line feed behind it are one terminator. -/
inductive IsEnded : Text → Prop
  | nil : IsEnded []
  | line {body terminator : Text} : isContinued body = false → terminator ∈ terminators →
      ¬ (terminator = [Text.lineFeed] ∧ body.getLast? = some Text.carriageReturn) →
      IsEnded (body ++ terminator)

/-- Behind the lines of a text that is not continued, no entry waits. -/
theorem Joins.pendingAfter_eq_none {lines : List Text} (h : Joins lines a)
    (hcontinued : isContinued a = false) : pendingAfter none lines = none := by
  refine Manifest.pendingAfter_eq_none fun hcontinues => ?_
  obtain ⟨line, hline, hlast⟩ := h.exists_last
  obtain ⟨line', hline', hlast'⟩ := hcontinues.exists_last
  obtain rfl : line = line' := Option.some.inj (hline.symm.trans hline')
  rw [hlast, hlast'] at hcontinued
  cases hcontinued

/-- The logical lines of a text behind one that is ended are not affected by that. -/
theorem logicalLines_append (h : IsEnded a) (b : Text) :
    logicalLines (a ++ b) = logicalLines a ++ logicalLines b := by
  cases h with
  | nil => rfl
  | @line body terminator hcontinued hterminator hapart =>
    have hbody := joins_naturalLines body
    have hnone := hbody.pendingAfter_eq_none hcontinued
    -- nothing waits at the seam, so the lines behind it are joined as if they came first
    have hseam (t : Text) {terminator : Text} (hterminator : terminator ∈ terminators)
        (hbefore : ¬ (terminator = [Text.lineFeed] ∧ body.getLast? = some Text.carriageReturn))
        (hafter : ¬ (terminator = [Text.carriageReturn] ∧ t.head? = some Text.lineFeed)) :
        logicalLines (body ++ (terminator ++ t)) =
          joinLines none (naturalLines body) ++ logicalLines t := by
      have hjoined := hbody.append hterminator hbefore hafter (joins_naturalLines t)
      rw [logicalLines, hjoined.naturalLines, joinLines_append hnone]
      rfl
    have hfirst : logicalLines (body ++ terminator) = joinLines none (naturalLines body) := by
      have hended := hseam [] hterminator hapart fun h => absurd h.2 (by decide)
      rwa [List.append_nil, show logicalLines [] = [] from rfl, List.append_nil] at hended
    rw [hfirst, List.append_assoc]
    by_cases hafter : terminator = [Text.carriageReturn] ∧ b.head? = some Text.lineFeed
    · -- the line feed that the second text begins with goes on the terminator, and ends no line of its own
      obtain ⟨rfl, hhead⟩ := hafter
      obtain ⟨b, rfl⟩ := List.head?_eq_some_iff.mp hhead
      have hboth := hseam b (by decide : [Text.carriageReturn, Text.lineFeed] ∈ terminators)
        (fun h => absurd h.1 (by decide)) (fun h => absurd h.1 (by decide))
      rw [show logicalLines (Text.lineFeed :: b) = logicalLines b by
        rw [logicalLines, naturalLines_lineFeed]
        rfl]
      exact hboth
    · exact hseam b hterminator hapart hafter

theorem rows_append (h : IsEnded a) (b : Text) : rows (a ++ b) = rows a ++ rows b := by
  simp only [rows, entries, logicalLines_append h, List.map_append, List.filter_append]

/-- Reading two manifests in one text is putting the table of the second into that of the first. -/
theorem parse_append (h : IsEnded a) (b : Text) : parse (a ++ b) = (parse a).putAll (parse b) := by
  rw [parse_eq b, Table.putAll_ofRows, parse_eq (a ++ b), parse_eq a, rows_append h, Table.putAll,
    Table.putAll, Table.putAll, List.foldl_append]

/-- Merging manifests whose last lines are ended is reading the rows of all of them in one text. -/
theorem flatMap_rows {texts : List Text} (h : ∀ t ∈ texts, IsEnded t) :
    texts.flatMap rows = rows texts.flatten := by
  induction texts with
  | nil => rfl
  | cons t texts ih =>
    obtain ⟨ht, hrest⟩ := List.forall_mem_cons.mp h
    rw [List.flatMap_cons, List.flatten_cons, rows_append ht, ih hrest]

/-- Behind a manifest whose last line is ended another one can be written: the table of both is that
of the first, into which the rows of the other are put in order. So the table that is merged of such
manifests is the one that a single manifest with all of their texts gives. -/
theorem parse_merged (ha : IsEnded a) (b : Text) {texts : List Text} (h : ∀ t ∈ texts, IsEnded t) :
    parse (a ++ b) = (parse a).putAll (parse b) ∧
      mergeManifests texts = mergeManifests [texts.flatten] := by
  refine ⟨parse_append ha b, ?_⟩
  rw [mergeManifests_eq, mergeManifests_eq, flatMap_rows h, List.flatMap_singleton]

/-- The first text ends in a carriage return, and a line feed begins the second one. -/
theorem parse_merged_seam :
    IsEnded "k=v\r" ∧ (∀ t ∈ ([↑"k=v\r", ↑"\nl=w\\\\\n", ↑"", ↑"k=x\r\n"] : List Text), IsEnded t) ∧
      parse ("k=v\r" ++ "\nk=w") = (parse "k=v\r").putAll (parse "\nk=w") ∧
      mergeManifests ["k=v\r", "\nl=w\\\\\n", "", "k=x\r\n"] =
        mergeManifests [List.flatten ["k=v\r", "\nl=w\\\\\n", "", "k=x\r\n"]] := by
  have hfirst : IsEnded "k=v\r" := @IsEnded.line "k=v" [13] (by decide) (by decide) (by decide)
  have hsecond : IsEnded "\nl=w\\\\\n" :=
    @IsEnded.line "\nl=w\\\\" [10] (by decide) (by decide) (by decide)
  have hlast : IsEnded "k=x\r\n" := @IsEnded.line "k=x" [13, 10] (by decide) (by decide) (by decide)
  have hall : ∀ t ∈ ([↑"k=v\r", ↑"\nl=w\\\\\n", ↑"", ↑"k=x\r\n"] : List Text), IsEnded t := by
    simp only [List.forall_mem_cons, List.not_mem_nil, false_implies, implies_true, and_true]
    exact ⟨hfirst, hsecond, .nil, hlast⟩
  exact ⟨hfirst, hall, parse_merged hfirst "\nk=w" hall⟩

end EvalPlan.Manifest
