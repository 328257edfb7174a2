import EvalPlan.Proofs.Lines
import Mathlib.Logic.Relation

/-!
# The layout of a manifest

How a manifest is laid out does not matter to what it says. `Relays` says what may be done with its
natural lines: blank lines and comments may be put where no entry goes on, lines may be indented,
and a line of an entry may be cut in two. Each of these leaves the logical lines as they are
(`Relays.joinLines`), and so do any number of them; which terminators stand behind the lines does
not matter either (`parse_relaid`).
-/

namespace EvalPlan.Manifest

variable {t t' : Text} {lines lines' : List Text}

/-- The natural lines of a manifest are laid out in another way. -/
inductive Relays : List Text → List Text → Prop
  /-- A blank line or a comment is put where no entry goes on. -/
  | insert {before after : List Text} {line : Text} : ¬ Continues before → IsIdle line →
      Relays (before ++ after) (before ++ line :: after)
  /-- Blanks are put in front of a line. -/
  | indent {before after : List Text} {gaps line : Text} : IsGaps gaps →
      Relays (before ++ line :: after) (before ++ (gaps ++ line) :: after)
  /-- Blanks in front of a line are taken away. -/
  | unindent {before after : List Text} {gaps line : Text} : IsGaps gaps →
      Relays (before ++ (gaps ++ line) :: after) (before ++ line :: after)
  /-- A line that belongs to an entry is cut in two, not within an escape and not before a blank.
  The second part may be indented. -/
  | cut {before after : List Text} {first gaps second : Text} :
      Continues before ∨ ¬ IsIdle (first ++ second) → isContinued first = false →
      (∀ u, second.head? = some u → isGap u = false) → IsGaps gaps →
      Relays (before ++ (first ++ second) :: after)
        (before ++ (first ++ [Text.backslash]) :: (gaps ++ second) :: after)

/-- A line that holds nothing is skipped where no entry waits to be continued. -/
theorem joinLines_idle {line : Text} (h : IsIdle line) (rest : List Text) :
    joinLines none (line :: rest) = joinLines none rest := by
  rw [joinLines, if_pos (isSkipped_strip_iff.mpr h)]

/-- Blanks in front of a line do not count. -/
theorem joinLines_indent {gaps : Text} (h : IsGaps gaps) (pending : Option Text) (line : Text)
    (rest : List Text) :
    joinLines pending ((gaps ++ line) :: rest) = joinLines pending (line :: rest) := by
  rw [joinLines_cons, joinLines_cons, completed, completed, waiting, waiting,
    strip_append_of_gaps h]

/-- A line that belongs to an entry is added to what waits to be continued. -/
theorem joinLines_entry {pending : Option Text} {line : Text}
    (h : pending.isSome = true ∨ ¬ IsIdle line) (rest : List Text) :
    joinLines pending (line :: rest) = joinLines (some (pending.getD [])) (line :: rest) := by
  cases pending with
  | some pending => rfl
  | none =>
    have hskipped : isSkipped (strip line) = false := by
      have hidle := h.resolve_left Bool.false_ne_true
      rwa [← isSkipped_strip_iff, Bool.not_eq_true] at hidle
    simp only [joinLines, hskipped, Option.getD_none, List.nil_append]
    rfl

/-- A line of an entry that is cut in two begins the entry in its first part, since a backslash
stands at the end of that. -/
theorem IsIdle.of_cut {first : Text} (h : IsIdle (first ++ [Text.backslash])) (second : Text) :
    IsIdle (first ++ second) := by
  rw [← isSkipped_strip_iff] at h ⊢
  by_cases hnil : strip first = []
  · rw [strip_append_of_gaps (strip_eq_nil_iff.mp hnil), strip_of_head (by decide)] at h
    exact absurd h (by decide)
  · rw [strip_append_of_ne_nil hnil] at h ⊢
    obtain ⟨u, rest, hu⟩ := List.exists_cons_of_ne_nil hnil
    rw [hu] at h ⊢
    exact h

/-- Where an entry waits that ends in an even number of backslashes, a line may be cut in two. -/
theorem joinLines_cut {pending first gaps second : Text} (hpending : isContinued pending = false)
    (hfirst : isContinued first = false) (hsecond : ∀ u, second.head? = some u → isGap u = false)
    (hgaps : IsGaps gaps) (rest : List Text) :
    joinLines (some pending) ((first ++ [Text.backslash]) :: (gaps ++ second) :: rest) =
      joinLines (some pending) ((first ++ second) :: rest) := by
  have hstrip : strip second = second := dropWhile_gaps (nofun : IsGaps []) hsecond
  -- blanks that the line begins with are dropped, whether something else follows them or not
  have hfront (s : Text) (hs : strip s = s) : strip (first ++ s) = strip first ++ s := by
    by_cases hnil : strip first = []
    · rw [strip_append_of_gaps (strip_eq_nil_iff.mp hnil), hs, hnil, List.nil_append]
    · exact strip_append_of_ne_nil hnil s
  have hcontinued : isContinued (pending ++ strip first ++ [Text.backslash]) = true := by
    refine isContinued_backslash ?_
    rw [isContinued_append hpending, isContinued_strip, hfirst]
  have hopen : joinLines (some pending) ((first ++ [Text.backslash]) :: (gaps ++ second) :: rest) =
      joinLines (some (pending ++ strip first)) ((gaps ++ second) :: rest) := by
    rw [joinLines, hfront _ (strip_of_head (by decide)), ← List.append_assoc]
    simp only [hcontinued, if_true, List.dropLast_concat]
  rw [hopen, joinLines_indent hgaps, joinLines, joinLines, hfront second hstrip, hstrip,
    List.append_assoc]

/-- Laid out in another way, lines are joined to the same logical lines. -/
theorem Relays.joinLines (h : Relays lines lines') :
    joinLines none lines' = joinLines none lines := by
  cases h with
  | @insert before after line hbefore hidle =>
    refine joinLines_replace before ?_
    rw [pendingAfter_eq_none hbefore, joinLines_idle hidle]
  | @indent before after gaps line hgaps =>
    exact joinLines_replace before (joinLines_indent hgaps _ line after)
  | @unindent before after gaps line hgaps =>
    exact joinLines_replace before (joinLines_indent hgaps _ line after).symm
  | @cut before after first gaps second hbelongs hfirst hsecond hgaps =>
    refine joinLines_replace before ?_
    rw [← isSome_pendingAfter] at hbelongs
    have hpending : isContinued ((pendingAfter none before).getD []) = false := by
      cases hwaits : pendingAfter none before with
      | none => rfl
      | some p => exact isContinued_of_pendingAfter hwaits
    have hbelongs' := hbelongs.imp_right fun hidle hfirst => hidle (IsIdle.of_cut hfirst second)
    rw [joinLines_entry hbelongs, joinLines_entry hbelongs',
      joinLines_cut hpending hfirst hsecond hgaps]

/-- Laid out in other ways any number of times, too. -/
theorem joinLines_relaid (h : Relation.ReflTransGen Relays lines lines') :
    Manifest.joinLines none lines' = Manifest.joinLines none lines := by
  induction h with
  | refl => rfl
  | tail _ last ih => exact last.joinLines.trans ih

/-- Laid out in other ways any number of times, and written with whatever terminators, a manifest
describes the same table. The new text is cut into the lines that it is written with, see
`joins_iff`. -/
theorem parse_relaid (relaid : Relation.ReflTransGen Relays (naturalLines t) lines)
    (joined : Joins lines t') : parse t' = parse t := by
  have hlines : logicalLines t' = logicalLines t := by
    rw [logicalLines, logicalLines, joined.naturalLines, joinLines_relaid relaid]
  rw [parse, parse, entries, entries, hlines]

/-- A comment that ends in a backslash is put in front, the second line is not indented anymore, and
its value is cut in two behind an escape, so that the second part looks like a comment. -/
theorem parse_relaid_thrice :
    Relation.ReflTransGen Relays (naturalLines "a=1\n  k=\\\\# b")
      ["! skip\\", "a=1", "k=\\\\\\", "\t# b"] ∧
      Joins ["! skip\\", "a=1", "k=\\\\\\", "\t# b"] "! skip\\\r\na=1\rk=\\\\\\\n\t# b" ∧
      parse "! skip\\\r\na=1\rk=\\\\\\\n\t# b" = parse "a=1\n  k=\\\\# b" := by
  have hinsert : Relays (naturalLines "a=1\n  k=\\\\# b") ["! skip\\", "a=1", "  k=\\\\# b"] :=
    @Relays.insert [] _ "! skip\\" not_continues_nil
      (.inr ⟨[], Text.bang, " skip\\", nofun, .inr rfl, rfl⟩)
  have hunindent : Relays ["! skip\\", "a=1", "  k=\\\\# b"] ["! skip\\", "a=1", "k=\\\\# b"] :=
    @Relays.unindent ["! skip\\", "a=1"] _ "  " "k=\\\\# b" (by decide)
  have hidle : ¬ IsIdle "k=\\\\# b" := by
    rw [← isSkipped_strip_iff]
    decide
  have hcut : Relays ["! skip\\", "a=1", "k=\\\\# b"] ["! skip\\", "a=1", "k=\\\\\\", "\t# b"] :=
    @Relays.cut ["! skip\\", "a=1"] _ "k=\\\\" "\t" "# b" (.inr hidle) (by decide)
      (by rintro u ⟨⟩; decide) (by decide)
  have hrelaid := ((Relation.ReflTransGen.single hinsert).tail hunindent).tail hcut
  have hjoined : Joins ["! skip\\", "a=1", "k=\\\\\\", "\t# b"]
      "! skip\\\r\na=1\rk=\\\\\\\n\t# b" :=
    joins_iff.mpr (by decide)
  exact ⟨hrelaid, hjoined, parse_relaid hrelaid hjoined⟩

end EvalPlan.Manifest
