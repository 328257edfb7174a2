import EvalPlan.Proofs.Crossfolds
import Mathlib.Data.List.DropRight
import Mathlib.Data.List.TakeWhile

/-!
# What builders take values for

A builder of tasks that hold a part of the ratings out compares its fraction, and a builder of
delimited files asks its path and its delimiter for what texts have. Neither asks what kind of value
it holds, so that other values pass for numbers and texts (`takesLoosely`, `fraction_text`).

Of the values that are no objects, exactly the numbers between zero and one and the texts that
denote one pass as a fraction. As a delimiter passes whatever has a length of one, a text of one
unit or not.
-/

namespace EvalPlan

open EvalPlan.Action

/-! ## Fractions -/

namespace Value

/-- The number that a value is taken for where numbers are compared, if it is no object and no
symbol. -/
def taken? : Value → Option Float
  | undefined => some (0.0 / 0.0)
  | null => some 0
  | bool b => some (if b then 1 else 0)
  | number x => some x
  | text t => some (Decimal.ofText t)
  | bigint n => some (Float.ofInt n)
  | symbol _ _ => none
  | ref _ => none

/-- The value is a number between zero and one, or a text that denotes one. -/
inductive PassesAsFraction : Value → Prop
  | number {x : Float} : 0 < x → x < 1 → PassesAsFraction (.number x)
  | text {t : Text} : 0 < Decimal.ofText t → Decimal.ofText t < 1 → PassesAsFraction (.text t)

variable {v : Value} {x : Float}

/-- Nothing else is taken for a number between zero and one. -/
theorem passesAsFraction_iff (hx : v.taken? = some x) : v.PassesAsFraction ↔ 0 < x ∧ x < 1 := by
  -- numbers and texts pass by what they denote; no other value denotes a number strictly between 0
  -- and 1
  cases v with
  | number y =>
    cases hx
    exact ⟨fun | .number hpos hlt => ⟨hpos, hlt⟩, fun h => .number h.1 h.2⟩
  | text t =>
    cases hx
    exact ⟨fun | .text hpos hlt => ⟨hpos, hlt⟩, fun h => .text h.1 h.2⟩
  | undefined =>
    cases hx
    exact ⟨nofun, fun h => absurd h.1 (by decide +kernel)⟩
  | null =>
    cases hx
    exact ⟨nofun, fun h => absurd h.1 (by decide +kernel)⟩
  | bool b =>
    cases hx
    refine ⟨nofun, fun h => ?_⟩
    cases b with
    | true => exact absurd h.2 (by decide +kernel)
    | false => exact absurd h.1 (by decide +kernel)
  | bigint n =>
    cases hx
    exact ⟨nofun, fun h => absurd h (Double.not_fraction_ofInt n)⟩
  | symbol => cases hx
  | ref => cases hx

end Value

/-! ## The builders -/

namespace Heap

variable {h : Heap} {b name fraction source metrics path delimiter header : Value}

/-- The value builds tasks that hold a part of the ratings out. -/
structure BuildsHoldouts (h : Heap) (b name fraction source metrics : Value) : Prop
    extends h.BuildsTasks b name source metrics where
  /-- What it holds as its fraction. -/
  fraction : h.value? b "testFraction" = some fraction
  /-- It builds as the builders of such tasks do. -/
  build : h.Offers b .buildHoldout

/-- The value builds delimited files. -/
structure BuildsFiles (h : Heap) (b path delimiter header : Value) : Prop where
  /-- What it holds as its path. -/
  path : h.value? b "path" = some path
  /-- What it holds as its delimiter. -/
  delimiter : h.value? b "delimiter" = some delimiter
  /-- What it says of the header. -/
  header : h.value? b "hasHeader" = some header
  /-- It builds as the builders of files do. -/
  build : h.Offers b .buildFile

/-- Texts are trimmed by the standard function. -/
def TrimsTexts (h : Heap) : Prop :=
  ∃ f, h.value? (.text []) "trim" = some f ∧ h.callable? f = some (.standard .trim .main)

/-- The value has a length that is the number one. -/
def PassesAsUnit (h : Heap) (v : Value) : Prop :=
  ∃ width, h.value? v "length" = some width ∧ (width == .number 1) = true

/-- The value is a delimited file. -/
structure IsFile (h : Heap) (file path delimiter header : Value) : Prop where
  kin : h.isKin file .csvDataSource = true
  path : h.value? file "path" = some path
  delimiter : h.value? file "delimiter" = some delimiter
  header : h.value? file "hasHeader" = some header

/-- The length of a text. -/
theorem value?_text_length (t : Text) :
    h.value? (.text t) "length" = some (Value.ofNat t.length) := rfl

/-- A natural number equals a short one as a value exactly if it does as a number. -/
theorem ofNat_beq (n : Nat) {k : Nat} (hk : k < 2 ^ 53) (hnan : (Float.ofNat k).isNaN = false) :
    (Value.ofNat n == .number (Float.ofNat k)) = (n == k) := by
  show (Float.ofNat n == Float.ofNat k || ((Float.ofNat n).isNaN && (Float.ofNat k).isNaN)) =
    (n == k)
  rw [hnan, Bool.and_false, Bool.or_false, Double.ofNat_beq n hk]

/-- Of the texts, those of one unit pass. -/
theorem passesAsUnit_text {t : Text} : h.PassesAsUnit (.text t) ↔ t.length = 1 := by
  unfold PassesAsUnit
  have hone : (Value.ofNat t.length == .number 1) = (t.length == 1) :=
    ofNat_beq t.length (by decide) (by decide +kernel)
  simp only [value?_text_length, Option.some_inj, exists_eq_left', hone, beq_iff_eq]

end Heap

/-- Going for the function that trims the value, and for the length of what it answers, gives a
length that is not zero. -/
def World.TrimsToSome (w : World) (ev : Evaluator) (path : Value) : Prop :=
  ∃ trimmed length, ExceptT.run (invoke ev .main path "trim" []) w = (.ok trimmed, w) ∧
    w.heap.value? trimmed "length" = some length ∧ (length == .number 0) = false

/-! ## What building comes to -/

/-- What building a task that holds a part of the ratings out comes to, for what the builder
holds. -/
structure World.BuildsHoldout (w : World) (host : Host) (n : Nat)
    (name fraction source metrics : Value) (outcome : Except Value Value × World) : Prop where
  /-- What passes as a fraction is put into a task as it is, if the source and the metrics are
  valid. -/
  passing : fraction.PassesAsFraction →
    w.MakesTask (evaluator host n) name source metrics "holdout" "testFraction" fraction outcome
  /-- What does not is refused. -/
  refused : (∀ r, fraction ≠ .ref r) →
    (∀ description serial, fraction ≠ .symbol description serial) →
    ¬ fraction.PassesAsFraction → w.Refused (evaluator host (n + 1)) name .badFraction outcome
  /-- A symbol is an error of another kind. -/
  symbol : ∀ description serial, fraction = .symbol description serial → w.Fails outcome
  /-- Objects are taken for the numbers that their own functions give. -/
  converted : ∀ x, ExceptT.run (magnitude (evaluator host (n + 1)) .main fraction) w = (.ok x, w) →
    (0 < x ∧ x < 1 →
      w.MakesTask (evaluator host n) name source metrics "holdout" "testFraction" fraction outcome) ∧
    (¬ (0 < x ∧ x < 1) → w.Refused (evaluator host (n + 1)) name .badFraction outcome)
  /-- What these throw is thrown. -/
  thrown : ∀ thrown w', ExceptT.run (magnitude (evaluator host (n + 1)) .main fraction) w =
    (.error thrown, w') → outcome = (.error thrown, w')

/-- What building a delimited file comes to, for what the builder holds. -/
structure World.BuildsFile (w : World) (ev : Evaluator) (path delimiter header : Value)
    (outcome : Except Value Value × World) : Prop where
  /-- A path that cannot be trimmed is an error of another kind. -/
  noText : path.isNullish = true ∨ w.heap.find? .main path "trim" = none → w.Fails outcome
  /-- A blank path is refused. -/
  blank : ∀ t, path = .text t → Text.isBlankOnly t = true →
    outcome = (.error (.ref w.heap.size), w.adding (problemObject .pathMissing)) ∧
      outcome.2.heap.errorKind? (.ref w.heap.size) = some .configuration
  /-- Any other text is a path. -/
  filled : ∀ t, path = .text t → Text.isBlankOnly t = false → w.TrimsToSome ev path
  /-- A delimiter that has no properties is an error of another kind. -/
  noDelimiter : w.TrimsToSome ev path → delimiter.isNullish = true → w.Fails outcome
  /-- A delimiter without a length, or with another one, is refused, and the refusal says its
  text. -/
  badDelimiter : w.TrimsToSome ev path → delimiter.isNullish = false →
    (∀ getter setter, w.heap.find? .main delimiter "length" ≠ some (.computed getter setter)) →
    ¬ w.heap.PassesAsUnit delimiter → w.Refused ev delimiter .badDelimiter outcome
  /-- Whatever has a length of one is put into the file as it is. -/
  made : w.TrimsToSome ev path → w.heap.PassesAsUnit delimiter → w.heap.Extends outcome.2.heap ∧
    ∃ file, outcome.1 = .ok file ∧ outcome.2.heap.IsFile file path delimiter header

/-- The builders of tasks that hold ratings out and those of files take values for what they
need. -/
structure World.TakesLoosely (w : World) (host : Host) (n : Nat) : Prop where
  holdouts : ∀ b name fraction source metrics,
    w.heap.BuildsHoldouts b name fraction source metrics →
    (∀ items, w.heap.readList? metrics = some items → ∀ m ∈ items, w.heap.Knows m) →
    w.BuildsHoldout host n name fraction source metrics
      (ExceptT.run (invoke (evaluator host (n + 2)) .main b "build" []) w)
  files : ∀ b path delimiter header, w.heap.BuildsFiles b path delimiter header →
    w.BuildsFile (evaluator host (n + 1)) path delimiter header
      (ExceptT.run (invoke (evaluator host (n + 2)) .main b "build" []) w)
  units : ∀ t, w.heap.PassesAsUnit (.text t) ↔ t.length = 1

namespace Action

open Domain

variable {w : World} {ev : Evaluator} {host : Host} {n : Nat}
  {b name fraction source metrics path delimiter header : Value}

/-! ### Tasks that hold ratings out -/

/-- A value that is neither an object nor a symbol is taken for a number without further ado. -/
theorem run_magnitude_taken {v : Value} {x : Float} (hx : v.taken? = some x) :
    ExceptT.run (magnitude ev .main v) w = (.ok x, w) := by
  cases v <;> cases hx <;> rfl

section holdouts

variable (hb : w.heap.BuildsHoldouts b name fraction source metrics)

include hb

/-- The check of a fraction looks at the number that a value is taken for. -/
theorem run_isFraction {x : Float} (hx : ExceptT.run (magnitude ev .main fraction) w = (.ok x, w)) :
    ExceptT.run (isFraction ev b) w = (.ok (decide (0 < x ∧ x < 1)), w) := by
  have hread : ExceptT.run (read ev b "testFraction") w = (.ok fraction, w) := run_read hb.fraction
  unfold isFraction
  rw [run_bind_ok hread, run_bind_ok hx]
  -- the second comparison reads and converts the fraction once more
  by_cases hpos : 0 < x
  · rw [if_pos hpos, run_bind_ok hread, run_bind_ok hx]
    simp only [hpos, true_and]
    rfl
  · rw [if_neg hpos]
    simp only [hpos, false_and, decide_false]
    rfl

/-- With such a number between zero and one, building goes on as for every task. -/
theorem run_buildHoldout {x : Float} (hx : ExceptT.run (magnitude ev .main fraction) w = (.ok x, w))
    (hfraction : 0 < x ∧ x < 1) :
    ExceptT.run (buildHoldout ev b) w = ExceptT.run (makeTask ev b "holdout" "testFraction") w := by
  unfold buildHoldout
  rw [run_bind_ok (run_isFraction hb hx), decide_eq_true hfraction]
  rfl

/-- With any other number building is refused. -/
theorem run_buildHoldout_badFraction {x : Float}
    (hx : ExceptT.run (magnitude ev .main fraction) w = (.ok x, w))
    (hfraction : ¬ (0 < x ∧ x < 1)) :
    ExceptT.run (buildHoldout ev b) w = w.refusingNamed ev name .badFraction := by
  unfold buildHoldout
  rw [run_bind_ok (run_isFraction hb hx), decide_eq_false hfraction]
  exact run_refuseNamed hb.name

/-- What is thrown while the value is taken for a number is what building throws. -/
theorem run_buildHoldout_thrown {thrown : Value} {w' : World}
    (hx : ExceptT.run (magnitude ev .main fraction) w = (.error thrown, w')) :
    ExceptT.run (buildHoldout ev b) w = (.error thrown, w') := by
  have hread : ExceptT.run (read ev b "testFraction") w = (.ok fraction, w) := run_read hb.fraction
  have hfails : ExceptT.run (isFraction ev b) w = (.error thrown, w') := by
    unfold isFraction
    rw [run_bind_ok hread, run_bind_error hx]
  unfold buildHoldout
  rw [run_bind_error hfails]

end holdouts

/-- Building comes to what it should, whatever the builder holds. -/
theorem buildsHoldout (hrooted : w.heap.Rooted)
    (hb : w.heap.BuildsHoldouts b name fraction source metrics)
    (hknown : ∀ items, w.heap.readList? metrics = some items → ∀ m ∈ items, w.heap.Knows m) :
    w.BuildsHoldout host n name fraction source metrics
      (ExceptT.run (invoke (evaluator host (n + 2)) .main b "build" []) w) := by
  have hbuild : ExceptT.run (invoke (evaluator host (n + 2)) .main b "build" []) w =
      ExceptT.run (buildHoldout (evaluator host (n + 1)) b) w :=
        run_invoke_offered (m := .buildHoldout) hb.build
  rw [hbuild]
  -- once the fraction is converted, both comparisons are about the same number
  have hconverted (x : Float)
      (hx : ExceptT.run (magnitude (evaluator host (n + 1)) .main fraction) w = (.ok x, w)) :
      (0 < x ∧ x < 1 →
        w.MakesTask (evaluator host n) name source metrics "holdout" "testFraction" fraction
          (ExceptT.run (buildHoldout (evaluator host (n + 1)) b) w)) ∧
      (¬ (0 < x ∧ x < 1) → w.Refused (evaluator host (n + 1)) name .badFraction
        (ExceptT.run (buildHoldout (evaluator host (n + 1)) b) w)) := by
    constructor
    · intro hfraction
      rw [run_buildHoldout hb hx hfraction]
      exact makesTask hrooted hb.toBuildsTasks hknown hb.fraction (by decide)
    · intro hfraction
      rw [run_buildHoldout_badFraction hb hx hfraction]
      exact World.refused_refusingNamed fun _ => rfl
  constructor
  case converted => exact hconverted
  case thrown => exact fun _ _ hx => run_buildHoldout_thrown hb hx
  case passing =>
    intro hpasses
    obtain ⟨x, hx⟩ : ∃ x, fraction.taken? = some x := by cases hpasses <;> exact ⟨_, rfl⟩
    exact (hconverted x (run_magnitude_taken hx)).1 ((Value.passesAsFraction_iff hx).mp hpasses)
  case refused =>
    intro hobject hsymbol hpasses
    obtain ⟨x, hx⟩ : ∃ x, fraction.taken? = some x := by
      cases fraction with
      | ref r => exact absurd rfl (hobject r)
      | symbol description serial => exact absurd rfl (hsymbol description serial)
      | _ => exact ⟨_, rfl⟩
    exact (hconverted x (run_magnitude_taken hx)).2 (mt (Value.passesAsFraction_iff hx).mpr hpasses)
  case symbol =>
    rintro description serial rfl
    have hthrown : ExceptT.run
      (magnitude (evaluator host (n + 1)) .main (.symbol description serial)) w =
        (.error (.ref w.heap.size), w.adding (errorObject .type .main (some "a symbol is no number"))) := rfl
    rw [run_buildHoldout_thrown hb hthrown]
    exact w.fails_adding _

/-! ### Delimited files -/

/-- Trimming leaves nothing of a text exactly if it is blank. -/
theorem trim_eq_nil {t : Text} : t.trim = [] ↔ Text.isBlankOnly t = true := by
  have hend (s : Text) : Text.dropEndWhile Text.isBlank s = [] ↔ ∀ u ∈ s, Text.isBlank u = true :=
    List.rdropWhile_eq_nil_iff
  unfold Text.trim Text.isBlankOnly
  rw [hend, List.all_eq_true]
  refine ⟨fun h => ?_, fun h u hu => h u (List.dropWhile_subset _ hu)⟩
  -- the first unit that is left would not be blank
  have hnil : t.dropWhile Text.isBlank = [] := by
    cases hrest : t.dropWhile Text.isBlank with
    | nil => rfl
    | cons u rest =>
      have hhead := List.head?_dropWhile_not Text.isBlank t
      rw [hrest] at hhead h
      simp [h u List.mem_cons_self] at hhead
  exact List.dropWhile_eq_nil_iff.mp hnil

/-- The standard function trims texts. -/
theorem run_invoke_trim (htrims : w.heap.TrimsTexts) (t : Text) :
    ExceptT.run (invoke (evaluator host (n + 1)) .main (.text t) "trim" []) w =
      (.ok (.text t.trim), w) := by
  obtain ⟨f, hf, hc⟩ := htrims
  -- all texts inherit the same
  have hheld : w.heap.value? (.text t) "trim" = some f := hf
  rw [run_invoke_held hheld (Heap.isCallable_of_callable? hc), run_call_standard hc]
  rfl

section files

variable (hb : w.heap.BuildsFiles b path delimiter header)

include hb

/-- A path that cannot be trimmed is a failure. -/
theorem run_buildFile_noText
    (hpath : path.isNullish = true ∨ w.heap.find? .main path "trim" = none) :
    w.Fails (ExceptT.run (buildFile ev b) w) := by
  unfold buildFile
  rw [run_bind_ok (run_read hb.path)]
  cases hnullish : path.isNullish with
  | true =>
    have hread : ExceptT.run (property ev .main path "trim") w = _ := run_property_nullish hnullish
    have hthrown : ExceptT.run (invoke ev .main path "trim" []) w = _ := run_bind_error hread
    rw [run_bind_error hthrown]
    exact w.fails_adding _
  | false =>
    -- without `trim` the call finds `undefined`, which is no function
    have hnone := hpath.resolve_left (by simp [hnullish])
    have hread : ExceptT.run (property ev .main path "trim") w = (.ok .undefined, w) := by
      rw [run_property_still hnullish (fun getter setter => by simp [hnone]) rfl, Heap.reading,
        Heap.value?, hnone]
      rfl
    have hthrown : ExceptT.run (invoke ev .main path "trim" []) w = (.error (.ref w.heap.size),
        w.adding (errorObject .type .main (some "what is called is not a function"))) := by
      unfold invoke
      rw [run_bind_ok hread]
      rfl
    rw [run_bind_error hthrown]
    exact w.fails_adding _

/-- A path that is left empty is refused. -/
theorem run_buildFile_blank {trimmed length : Value}
    (htrimmed : ExceptT.run (invoke ev .main path "trim" []) w = (.ok trimmed, w))
    (hlength : w.heap.value? trimmed "length" = some length)
    (hzero : (length == .number 0) = true) : ExceptT.run (buildFile ev b) w =
      (.error (.ref w.heap.size), w.adding (problemObject .pathMissing)) := by
  unfold buildFile
  rw [run_bind_ok (run_read hb.path), run_bind_ok htrimmed, run_bind_ok (run_read hlength),
    if_pos hzero]
  rfl

variable (hpath : w.TrimsToSome ev path)

include hpath

/-- So is a missing delimiter. -/
theorem run_buildFile_noDelimiter (hnullish : delimiter.isNullish = true) :
    w.Fails (ExceptT.run (buildFile ev b) w) := by
  obtain ⟨trimmed, length, htrimmed, hlength, hzero⟩ := hpath
  have hthrown : ExceptT.run (read ev delimiter "length") w = _ := run_property_nullish hnullish
  unfold buildFile
  rw [run_bind_ok (run_read hb.path), run_bind_ok htrimmed, run_bind_ok (run_read hlength),
    if_neg (by simp [hzero]), run_bind_ok (run_read hb.delimiter), run_bind_error hthrown]
  exact w.fails_adding _

/-- A delimiter of another width is refused, and the refusal says its text. -/
theorem run_buildFile_badDelimiter {width : Value}
    (hwidth : ExceptT.run (read ev delimiter "length") w = (.ok width, w))
    (hone : (width == .number 1) = false) :
    ExceptT.run (buildFile ev b) w = w.refusingNamed ev delimiter .badDelimiter := by
  obtain ⟨trimmed, length, htrimmed, hlength, hzero⟩ := hpath
  unfold buildFile
  rw [run_bind_ok (run_read hb.path), run_bind_ok htrimmed, run_bind_ok (run_read hlength),
    if_neg (by simp [hzero]), run_bind_ok (run_read hb.delimiter), run_bind_ok hwidth,
    if_pos (by simp [hone]), run_bind]
  unfold World.refusingNamed
  rcases ExceptT.run (wordsOf ev delimiter) w with ⟨_ | _, _⟩ <;> rfl

/-- A delimited file as an object. -/
def fileObject (path delimiter header : Value) : Object :=
  Object.holding .plain (some (Kin.template .csvDataSource))
    [("path", path), ("delimiter", delimiter), ("hasHeader", header)]

/-- A delimiter whose length is one is taken, and makes a file. -/
theorem run_buildFile (hunit : w.heap.PassesAsUnit delimiter) :
    ExceptT.run (buildFile ev b) w =
      (.ok (.ref w.heap.size), w.adding (fileObject path delimiter header)) := by
  obtain ⟨trimmed, length, htrimmed, hlength, hzero⟩ := hpath
  obtain ⟨width, hwidth, hone⟩ := hunit
  unfold buildFile
  rw [run_bind_ok (run_read hb.path), run_bind_ok htrimmed, run_bind_ok (run_read hlength),
    if_neg (by simp [hzero]), run_bind_ok (run_read hb.delimiter), run_bind_ok (run_read hwidth),
    if_neg (by simp [hone]), run_bind_ok (run_read hb.path), run_bind_ok (run_read hb.header)]
  rfl

end files

/-- Building a file comes to what it should, whatever the builder holds. -/
theorem buildsFile (htrims : w.heap.TrimsTexts) (hb : w.heap.BuildsFiles b path delimiter header) :
    w.BuildsFile (evaluator host (n + 1)) path delimiter header
      (ExceptT.run (invoke (evaluator host (n + 2)) .main b "build" []) w) := by
  have hbuild : ExceptT.run (invoke (evaluator host (n + 2)) .main b "build" []) w =
      ExceptT.run (buildFile (evaluator host (n + 1)) b) w :=
        run_invoke_offered (m := .buildFile) hb.build
  have hzero (t : Text) : (Value.ofNat t.trim.length == .number 0) = Text.isBlankOnly t := by
    have hlength : (Value.ofNat t.trim.length == .number 0) = (t.trim.length == 0) :=
      Heap.ofNat_beq t.trim.length (by decide) (by decide +kernel)
    rw [hlength, Bool.eq_iff_iff, beq_iff_eq, List.length_eq_zero_iff, trim_eq_nil]
  rw [hbuild]
  constructor
  case noText => exact run_buildFile_noText hb
  case blank =>
    rintro t rfl hblank
    rw [run_buildFile_blank hb (run_invoke_trim htrims t) (Heap.value?_text_length _)
      ((hzero t).trans hblank)]
    exact ⟨rfl, Heap.errorKind?_push_self rfl⟩
  case filled =>
    rintro t rfl hfilled
    exact ⟨_, _, run_invoke_trim htrims t, Heap.value?_text_length _, (hzero t).trans hfilled⟩
  case noDelimiter => exact run_buildFile_noDelimiter hb
  case badDelimiter =>
    intro hpath hnullish hheld hunit
    -- what has no length at all has none that is one
    have hone : (w.heap.reading delimiter "length" == .number 1) = false := by
      cases hvalue : w.heap.value? delimiter "length" with
      | none =>
        rw [Heap.reading, hvalue]
        rfl
      | some width =>
        rw [Heap.reading, hvalue]
        exact Bool.eq_false_iff.mpr fun hone => hunit ⟨width, hvalue, hone⟩
    rw [run_buildFile_badDelimiter hb hpath (run_property_still hnullish hheld rfl) hone]
    exact World.refused_refusingNamed fun _ => rfl
  case made =>
    intro hpath hunit
    rw [run_buildFile hb hpath hunit]
    have hnew := w.heap.getElem?_push_self (fileObject path delimiter header)
    exact ⟨w.heap.extends_push _, _, rfl, Heap.isKin_of_parent hnew rfl, Heap.value?_own hnew rfl,
      Heap.value?_own hnew rfl, Heap.value?_own hnew rfl⟩

end Action

/-- The builders take values loosely in every world whose objects inherit from objects that are
there and where texts are trimmed by the standard function. -/
theorem takesLoosely {w : World} (hrooted : w.heap.Rooted) (htrims : w.heap.TrimsTexts)
    (host : Host) (n : Nat) : w.TakesLoosely host n where
  holdouts _ _ _ _ _ hb hknown := buildsHoldout hrooted hb hknown
  files _ _ _ _ hb := buildsFile htrims hb
  units _ := Heap.passesAsUnit_text

namespace Bench

/-- A builder of tasks that hold a part of the ratings out, as an object. -/
def holdouts (fraction : Value) : Object :=
  Object.holding .plain (some (Kin.template .holdoutTaskBuilder))
    [("source", source), ("metrics", list), ("name", "holdout"), ("testFraction", fraction)]

/-- A builder of delimited files, as an object. -/
def files (path delimiter : Value) : Object :=
  Object.holding .plain (some (Kin.template .csvDataSourceBuilder))
    [("path", path), ("delimiter", delimiter), ("hasHeader", .bool true)]

/-- The builder builds tasks with a share held out. -/
theorem buildsHoldouts (fraction : Value) :
    (tidy (holdouts fraction)).heap.BuildsHoldouts builder "holdout" fraction source list := by
  have hbuilder := getElem?_world (holdouts fraction) (some (Realm.main.template .list)) 3
  have hext := extends_world (holdouts fraction) (some (Realm.main.template .list))
  exact
    { name := Heap.value?_own hbuilder rfl
      source := Heap.value?_own hbuilder rfl
      metrics := Heap.value?_own hbuilder rfl
      fraction := Heap.value?_own hbuilder rfl
      requireSource := Heap.offers_of_parent hext hbuilder rfl (by decide) rfl
      requireMetrics := Heap.offers_of_parent hext hbuilder rfl (by decide) rfl
      build := Heap.offers_of_parent hext hbuilder rfl (by decide) rfl }

/-- The builder builds files. -/
theorem buildsFiles (path delimiter : Value) :
    (tidy (files path delimiter)).heap.BuildsFiles builder path delimiter (.bool true) := by
  have hbuilder := getElem?_world (files path delimiter) (some (Realm.main.template .list)) 3
  have hext := extends_world (files path delimiter) (some (Realm.main.template .list))
  exact
    { path := Heap.value?_own hbuilder rfl
      delimiter := Heap.value?_own hbuilder rfl
      header := Heap.value?_own hbuilder rfl
      build := Heap.offers_of_parent hext hbuilder rfl (by decide) rfl }

/-- Texts are trimmed by the standard function. -/
theorem trimsTexts (o : Object) (parent : Option Ref) : (world o parent).heap.TrimsTexts :=
  ⟨.ref (Realm.main.standard .trim), Heap.value?_extends (extends_world o parent) rfl,
    Heap.callable?_extends (extends_world o parent) rfl⟩

/-- The list has one item, and so its length is one. -/
theorem passesAsUnit_list (o : Object) (parent : Option Ref) :
    (world o parent).heap.PassesAsUnit list :=
  ⟨.number 1, Heap.value?_own (getElem?_world o parent 2) rfl, by decide +kernel⟩

end Bench

open Bench

/-- A fifth of the ratings can be held out. -/
theorem takesLoosely_bench : (tidy (holdouts (.number 0.2))).heap.Rooted ∧
    (tidy (holdouts (.number 0.2))).heap.TrimsTexts ∧
      ∃ task, (built (tidy (holdouts (.number 0.2)))).1 = .ok task := by
  have hrooted : (tidy (holdouts (.number 0.2))).heap.Rooted :=
    rooted_tidy _ fun p hp => by cases hp; decide +kernel
  have hloose : (tidy (holdouts (.number 0.2))).TakesLoosely host 6 :=
    takesLoosely hrooted (trimsTexts ..) host 6
  have hbuilds := hloose.holdouts _ _ _ _ _ (buildsHoldouts _) fun items hitems m hm =>
    (isKin_items _ _ hitems m hm).1
  have hmakes := hbuilds.passing (.number (by decide +kernel) (by decide +kernel))
  refine ⟨hrooted, trimsTexts .., (hmakes.exists_ok_iff fun realm => ?_).mpr
    ⟨isKin_source .., walk?_list _, _, readList?_list .., fun m hm => ?_⟩⟩
  · rw [walk?_list]
    nofun
  · exact (isKin_items _ _ (readList?_list ..) m hm).2

/-- A text passes for the number that it denotes, a list of one item for a text of one unit, and
null as a path is no error of the configuration. -/
theorem fraction_text :
    ((tidy (holdouts "0.5")).heap.BuildsHoldouts builder "holdout" "0.5" source list ∧
      ∃ task split, (built (tidy (holdouts "0.5"))).1 = .ok task ∧
        (built (tidy (holdouts "0.5"))).2.heap.value? task "split" = some split ∧
        (built (tidy (holdouts "0.5"))).2.heap.value? split "testFraction" = some "0.5") ∧
    ((tidy (files "data/r.csv" list)).heap.BuildsFiles builder "data/r.csv" list (.bool true) ∧
      ∃ file, (built (tidy (files "data/r.csv" list))).1 = .ok file ∧
        (built (tidy (files "data/r.csv" list))).2.heap.value? file "delimiter" = some list) ∧
    ((tidy (files .null ",")).heap.BuildsFiles builder .null "," (.bool true) ∧
      (tidy (files .null ",")).Fails (built (tidy (files .null ",")))) := by
  have hrooted : (tidy (holdouts "0.5")).heap.Rooted :=
    rooted_tidy _ fun p hp => by cases hp; decide +kernel
  have hholdout : (tidy (holdouts "0.5")).BuildsHoldout host 6 "holdout" "0.5" source list
      (built (tidy (holdouts "0.5"))) :=
    buildsHoldout hrooted (buildsHoldouts _) fun items hitems m hm =>
      (isKin_items _ _ hitems m hm).1
  have hfile (path delimiter : Value) :
      (tidy (files path delimiter)).BuildsFile (evaluator host 7) path delimiter (.bool true)
        (built (tidy (files path delimiter))) :=
    buildsFile (trimsTexts ..) (buildsFiles path delimiter)
  have hpasses : Value.PassesAsFraction "0.5" := .text (by decide +kernel) (by decide +kernel)
  refine ⟨⟨buildsHoldouts _, ?_⟩, ⟨buildsFiles .., ?_⟩, buildsFiles ..,
    (hfile .null ",").noText (.inl rfl)⟩
  · -- the task keeps the text as its fraction
    obtain ⟨-, task, htask, hheld⟩ := (hholdout.passing hpasses).made (isKin_source ..) _
      (readList?_list ..) (walk?_list _) fun m hm => (isKin_items _ _ (readList?_list ..) m hm).2
    obtain ⟨split, hsplit, -, hfraction⟩ := hheld.split
    exact ⟨task, split, htask, hsplit, hfraction⟩
  · -- the file keeps the list as its delimiter
    have hbuilds := hfile "data/r.csv" list
    obtain ⟨-, file, hmade, hheld⟩ :=
      hbuilds.made (hbuilds.filled _ rfl (by decide)) (passesAsUnit_list ..)
    exact ⟨file, hmade, hheld.delimiter⟩

end EvalPlan
