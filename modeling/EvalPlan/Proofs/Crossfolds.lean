import EvalPlan.Proofs.Building
import EvalPlan.Proofs.Doubles

/-!
# Tasks with folds, and metrics

What the builders of tasks that split the ratings into folds, and those of metrics, come to for
everything that a script can give them (`buildsSoundly`). What they build is valid, and what is not
valid is refused for the first reason there is: the folds, then the source, then the metrics.

Two things are beyond the builders. A list is gone through the way it inherits, which a script can
take from it, and a refusal says the name, whose text may be computed by code of the script
(`crossfolds_meddled`).
-/

namespace EvalPlan

open EvalPlan.Action

/-! ## Numbers of folds and cutoffs -/

/-- The value is a number, and this an integer that is not below the least one allowed. -/
def Value.IsIntegerFrom (least : Nat) (v : Value) : Prop :=
  ∃ x, v = .number x ∧ Decimal.isInteger x = true ∧ Float.ofNat least ≤ x

/-- The check of a number accepts the integers from the bound on, as long as the bound is a double
itself. -/
theorem Domain.isIntegerFrom_iff {least : Nat} (hleast : least < 2 ^ 53) {v : Value} :
    isIntegerFrom least v = true ↔ v.IsIntegerFrom least := by
  unfold isIntegerFrom Value.IsIntegerFrom
  split
  next x =>
    simp only [Bool.and_eq_true, Bool.not_eq_true', decide_eq_false_iff_not, Value.number.injEq,
      exists_eq_left']
    exact and_congr_right fun hx => Double.not_lt_ofNat_iff_le hx hleast
  next hother =>
    refine ⟨nofun, ?_⟩
    rintro ⟨x, rfl, -⟩
    exact absurd rfl (hother x)

/-! ## The builders -/

/-- The methods that the instances of a class inherit. -/
def Kin.shared (k : Kin) : List DomainMethod := k.methods ++ (k.base?.map methods).getD []

namespace Heap

variable {h : Heap} {b name folds source metrics cutoff : Value}

/-- The value builds tasks that split the ratings into folds. -/
structure BuildsCrossfolds (h : Heap) (b name folds source metrics : Value) : Prop
    extends h.BuildsTasks b name source metrics where
  /-- What it holds as the number of folds. -/
  folds : h.value? b "folds" = some folds
  /-- It builds as the builders of such tasks do. -/
  build : h.Offers b .buildCrossfold

/-- The value builds metrics. -/
structure BuildsMetrics (h : Heap) (b name cutoff : Value) : Prop where
  /-- What it holds as its name. -/
  name : h.value? b "name" = some name
  /-- What it holds as its cutoff. -/
  cutoff : h.value? b "cutoff" = some cutoff
  /-- It builds as the builders of metrics do. -/
  build : h.Offers b .buildMetric

/-- The object of a method. -/
theorem getElem?_methodRef (m : DomainMethod) : Domain.heap[Kin.methodRef m]? = some m.object := by
  cases m <;> rfl

/-- A class shares its methods, and those of the class it extends. -/
theorem slotWithin_template {k : Kin} {m : DomainMethod} (hm : m ∈ k.shared) :
    Domain.heap.slotWithin m.name 3 k.template = some (.hidden (.ref (Kin.methodRef m))) := by
  cases k <;> cases m <;> first | exact absurd hm (by decide) | rfl

/-- Instances offer the methods of their class, as long as they have nothing of their own under the
name. -/
theorem offers_of_parent (hext : Domain.heap.Extends h) {r : Ref} {o : Object} {k : Kin}
    {m : DomainMethod} (hr : h[r]? = some o) (hparent : o.parent = some k.template)
    (hm : m ∈ k.shared) (hown : o.own? m.name = none) : h.Offers (.ref r) m := by
  have hsize : Domain.heap.size ≤ h.size := size_le_of_extends hext
  have hbound : 4 ≤ Domain.heap.size := by decide +kernel
  have hslot : h.slot? r m.name = some (.hidden (.ref (Kin.methodRef m))) :=
    slot?_of_parent hext (Nat.lt_of_lt_of_le hbound hsize) hr hown hparent (slotWithin_template hm)
  have hmethod := hext _ _ (getElem?_methodRef m)
  refine ⟨.ref (Kin.methodRef m), ?_, ?_⟩
  · simp only [value?, find?, hslot]
    rfl
  · simp only [callable?, shape?, object?, hmethod]
    rfl

end Heap

/-! ## What building comes to -/

/-- What building a task that splits the ratings into folds comes to, for what the builder holds. -/
structure World.BuildsCrossfold (w : World) (host : Host) (n : Nat)
    (name folds source metrics : Value) (outcome : Except Value Value × World) : Prop where
  /-- The number of folds comes first. -/
  badFolds : ¬ folds.IsIntegerFrom 2 → w.Refused (evaluator host (n + 1)) name .badFolds outcome
  /-- Then the source, and then the metrics. -/
  makes : folds.IsIntegerFrom 2 →
    w.MakesTask (evaluator host n) name source metrics "crossfold" "folds" folds outcome
  /-- There is a task exactly if all of them are valid. -/
  exactly : (∀ realm, w.heap.walk? metrics ≠ some (.byText realm)) →
    ((∃ task, outcome.1 = .ok task) ↔ folds.IsIntegerFrom 2 ∧
      w.heap.isKin source .dataSource = true ∧ w.heap.walk? metrics = some .byItems ∧
      ∃ items, w.heap.readList? metrics = some items ∧ ∀ m ∈ items, w.heap.isKin m .metric = true)

/-- What building a metric comes to, for what the builder holds. -/
structure World.BuildsMetric (w : World) (host : Host) (n : Nat) (name cutoff : Value)
    (outcome : Except Value Value × World) : Prop where
  /-- The cutoff is null or a positive integer. -/
  badCutoff : ¬ (cutoff = .null ∨ cutoff.IsIntegerFrom 1) →
    w.Refused (evaluator host n) name .badCutoff outcome
  /-- The metric holds the name and the cutoff. -/
  made : cutoff = .null ∨ cutoff.IsIntegerFrom 1 → w.heap.Extends outcome.2.heap ∧
    ∃ metric, outcome.1 = .ok metric ∧ outcome.2.heap.isKin metric .metric = true ∧
      outcome.2.heap.value? metric "name" = some name ∧
      outcome.2.heap.value? metric "cutoff" = some cutoff
  /-- There is a metric exactly then. -/
  exactly : (∃ metric, outcome.1 = .ok metric) ↔ cutoff = .null ∨ cutoff.IsIntegerFrom 1

/-- The builders of tasks with folds and those of metrics build what is valid and refuse what is
not. -/
structure World.BuildsSoundly (w : World) (host : Host) (n : Nat) : Prop where
  crossfolds : ∀ b name folds source metrics, w.heap.BuildsCrossfolds b name folds source metrics →
    (∀ items, w.heap.readList? metrics = some items → ∀ m ∈ items, w.heap.Knows m) →
    w.BuildsCrossfold host n name folds source metrics
      (ExceptT.run (invoke (evaluator host (n + 2)) .main b "build" []) w)
  metrics : ∀ b name cutoff, w.heap.BuildsMetrics b name cutoff →
    w.BuildsMetric host n name cutoff
      (ExceptT.run (invoke (evaluator host (n + 1)) .main b "build" []) w)

/-- A task is made exactly if its source and its metrics are valid, unless the metrics are gone
through by their text. -/
theorem World.MakesTask.exists_ok_iff {w : World} {ev : Evaluator} {name source metrics v : Value}
    {kind field : Text} {outcome : Except Value Value × World}
    (hmakes : w.MakesTask ev name source metrics kind field v outcome)
    (hwalk : ∀ realm, w.heap.walk? metrics ≠ some (.byText realm)) :
    (∃ task, outcome.1 = .ok task) ↔ w.heap.isKin source .dataSource = true ∧
      w.heap.walk? metrics = some .byItems ∧
      ∃ items, w.heap.readList? metrics = some items ∧
        ∀ m ∈ items, w.heap.isKin m .metric = true := by
  constructor
  · -- the cases are in the order in which the parts are checked
    rintro ⟨task, htask⟩
    cases hsource : w.heap.isKin source .dataSource with
    | false => exact absurd htask ((hmakes.noSource hsource).unanswered task)
    | true =>
      cases hread : w.heap.readList? metrics with
      | none => exact absurd htask ((hmakes.noList hsource hread).unanswered task)
      | some items =>
        cases hwalked : w.heap.walk? metrics with
        | none =>
          obtain ⟨-, thrown, hthrown, -⟩ := hmakes.noWalk hsource items hread hwalked
          cases hthrown.symm.trans htask
        | some walk =>
          cases walk with
          | byText realm => exact absurd hwalked (hwalk realm)
          | byItems =>
            refine ⟨rfl, rfl, items, rfl, fun m hm => ?_⟩
            -- one item that is no metric is enough for the refusal
            by_contra hmetric
            have hbad : ∃ m ∈ items, w.heap.isKin m .metric = false :=
              ⟨m, hm, by simpa using hmetric⟩
            exact (hmakes.badMetric hsource items hread hwalked hbad).unanswered task htask
  · rintro ⟨hsource, hwalked, items, hread, hmetrics⟩
    obtain ⟨-, task, htask, -⟩ := hmakes.made hsource items hread hwalked hmetrics
    exact ⟨task, htask⟩

namespace Action

open Domain

variable {w : World} {host : Host} {n : Nat} {b name folds source metrics cutoff : Value}

/-- A number of folds that is not allowed is refused before anything else is looked at. -/
theorem run_buildCrossfold_badFolds {ev : Evaluator}
    (hb : w.heap.BuildsCrossfolds b name folds source metrics) (hfolds : ¬ folds.IsIntegerFrom 2) :
    ExceptT.run (buildCrossfold ev b) w = w.refusingNamed ev name .badFolds := by
  unfold buildCrossfold
  rw [run_bind_ok (run_read hb.folds), if_neg (mt (isIntegerFrom_iff (by decide)).mp hfolds)]
  exact run_refuseNamed hb.name

/-- With an allowed number of folds, building goes on as for every task. -/
theorem run_buildCrossfold {ev : Evaluator}
    (hb : w.heap.BuildsCrossfolds b name folds source metrics) (hfolds : folds.IsIntegerFrom 2) :
    ExceptT.run (buildCrossfold ev b) w = ExceptT.run (makeTask ev b "crossfold" "folds") w := by
  unfold buildCrossfold
  rw [run_bind_ok (run_read hb.folds), if_pos ((isIntegerFrom_iff (by decide)).mpr hfolds)]

/-- Building comes to what it should, whatever the builder holds. -/
theorem buildsCrossfold (hrooted : w.heap.Rooted)
    (hb : w.heap.BuildsCrossfolds b name folds source metrics)
    (hknown : ∀ items, w.heap.readList? metrics = some items → ∀ m ∈ items, w.heap.Knows m) :
    w.BuildsCrossfold host n name folds source metrics
      (ExceptT.run (invoke (evaluator host (n + 2)) .main b "build" []) w) := by
  have hbuild : ExceptT.run (invoke (evaluator host (n + 2)) .main b "build" []) w =
      ExceptT.run (buildCrossfold (evaluator host (n + 1)) b) w :=
        run_invoke_offered (m := .buildCrossfold) hb.build
  rw [hbuild]
  have hbad (hfolds : ¬ folds.IsIntegerFrom 2) : w.Refused (evaluator host (n + 1)) name .badFolds
      (ExceptT.run (buildCrossfold (evaluator host (n + 1)) b) w) := by
    rw [run_buildCrossfold_badFolds hb hfolds]
    exact World.refused_refusingNamed fun _ => rfl
  have hmakes (hfolds : folds.IsIntegerFrom 2) :
      w.MakesTask (evaluator host n) name source metrics "crossfold" "folds" folds
        (ExceptT.run (buildCrossfold (evaluator host (n + 1)) b) w) := by
    rw [run_buildCrossfold hb hfolds]
    exact makesTask hrooted hb.toBuildsTasks hknown hb.folds (by decide)
  refine ⟨hbad, hmakes, fun hwalk => ?_⟩
  -- where the folds are valid, the rest is what makes any task
  by_cases hfolds : folds.IsIntegerFrom 2
  · rw [(hmakes hfolds).exists_ok_iff hwalk]
    exact (and_iff_right hfolds).symm
  · exact iff_of_false (fun ⟨task, htask⟩ => (hbad hfolds).unanswered task htask) fun h =>
      hfolds h.1

/-- A metric as an object. -/
def metricObject (name cutoff : Value) : Object :=
  Object.holding .plain (some (Kin.template .metric)) [("name", name), ("cutoff", cutoff)]

section

variable {ev : Evaluator} (hb : w.heap.BuildsMetrics b name cutoff)

include hb

/-- A metric is built from a cutoff that is allowed, or from none. -/
theorem run_buildMetric (hcutoff : cutoff = .null ∨ cutoff.IsIntegerFrom 1) :
    ExceptT.run (buildMetric ev b) w =
      (.ok (.ref w.heap.size), w.adding (metricObject name cutoff)) := by
  have hmade : ExceptT.run (do Domain.make .metric [("name", ← read ev b "name"), ("cutoff", cutoff)]) w =
      (.ok (.ref w.heap.size), w.adding (metricObject name cutoff)) := by
    rw [run_bind_ok (run_read hb.name)]
    rfl
  unfold buildMetric
  rw [run_bind_ok (run_read hb.cutoff)]
  -- null is told apart before the cutoff is taken for a number
  obtain rfl | hinteger := hcutoff
  · exact hmade
  · have hvalid := (isIntegerFrom_iff (by decide)).mpr hinteger
    obtain ⟨x, rfl, -⟩ := hinteger
    dsimp only
    rw [if_pos hvalid]
    exact hmade

/-- Any other cutoff is refused. -/
theorem run_buildMetric_badCutoff (hcutoff : ¬ (cutoff = .null ∨ cutoff.IsIntegerFrom 1)) :
    ExceptT.run (buildMetric ev b) w = w.refusingNamed ev name .badCutoff := by
  obtain ⟨hnull, hinteger⟩ := not_or.mp hcutoff
  have hbad := mt (isIntegerFrom_iff (by decide)).mp hinteger
  unfold buildMetric
  rw [run_bind_ok (run_read hb.cutoff)]
  cases cutoff with
  | null => exact absurd rfl hnull
  | _ =>
    dsimp only
    rw [if_neg hbad]
    exact run_refuseNamed hb.name

end

/-- Building a metric comes to what it should, whatever the builder holds. -/
theorem buildsMetric (hb : w.heap.BuildsMetrics b name cutoff) :
    w.BuildsMetric host n name cutoff
      (ExceptT.run (invoke (evaluator host (n + 1)) .main b "build" []) w) := by
  have hbuild : ExceptT.run (invoke (evaluator host (n + 1)) .main b "build" []) w =
      ExceptT.run (buildMetric (evaluator host n) b) w :=
        run_invoke_offered (m := .buildMetric) hb.build
  rw [hbuild]
  have hbad (hcutoff : ¬ (cutoff = .null ∨ cutoff.IsIntegerFrom 1)) :
      w.Refused (evaluator host n) name .badCutoff
        (ExceptT.run (buildMetric (evaluator host n) b) w) := by
    rw [run_buildMetric_badCutoff hb hcutoff]
    exact World.refused_refusingNamed fun _ => rfl
  refine ⟨hbad, fun hcutoff => ?_, ?_⟩
  · rw [run_buildMetric hb hcutoff]
    have hnew := w.heap.getElem?_push_self (metricObject name cutoff)
    exact ⟨w.heap.extends_push _, _, rfl, Heap.isKin_of_parent hnew rfl, Heap.value?_own hnew rfl,
      Heap.value?_own hnew rfl⟩
  · refine ⟨fun ⟨metric, hmetric⟩ => ?_, fun hcutoff => ?_⟩
    · by_contra hcutoff
      exact (hbad hcutoff).unanswered metric hmetric
    · rw [run_buildMetric hb hcutoff]
      exact ⟨_, rfl⟩

end Action

/-- The builders build soundly in every world whose objects inherit from objects that are there. -/
theorem buildsSoundly {w : World} (hrooted : w.heap.Rooted) (host : Host) (n : Nat) :
    w.BuildsSoundly host n where
  crossfolds _ _ _ _ _ hb hknown := buildsCrossfold hrooted hb hknown
  metrics _ _ _ hb := buildsMetric hb

/-! ## A builder at a bench -/

namespace Bench

/-- A source of ratings. -/
def source : Value := .ref Domain.heap.size

/-- A metric. -/
def metric : Value := .ref (Domain.heap.size + 1)

/-- A list. -/
def list : Value := .ref (Domain.heap.size + 2)

/-- A builder. -/
def builder : Value := .ref (Domain.heap.size + 3)

/-- An object that has a text of its own. -/
def namer : Value := .ref (Domain.heap.size + 4)

/-- A function that gives the builder seven folds, and says a name. -/
def naming : Object :=
  Object.function .main
    (.closure .outside "x" [.assign (.const builder) "folds" (.const (.number 7))] (some (.const "n"))) [] 1

/-- A builder of tasks with folds, as an object. -/
def crossfolds (name folds : Value) : Object :=
  Object.holding .plain (some (Kin.template .crossfoldTaskBuilder))
    [("source", source), ("metrics", list), ("name", name), ("folds", folds)]

/-- A source, a metric, a list of the metric that inherits from an object, a builder, and an object
that has a text of its own. -/
def objects (o : Object) (parent : Option Ref) : Heap :=
  #[Object.empty .plain (some (Kin.template .csvDataSource)), metricObject "rmse" .null,
    Object.empty (.ofItems [metric]) parent, o,
    Object.holding .plain none [("toString", .ref (Domain.heap.size + 5))], naming]

/-- A world that has them. -/
def world (o : Object) (parent : Option Ref) : World :=
  World.initial (Domain.heap ++ objects o parent)

/-- A world where the list is one of the main realm. -/
def tidy (o : Object) : World := world o (some (Realm.main.template .list))

/-- An engine that prints what it has to say. -/
def host : Host := Host.engineWithBus (Logger.printing "plans") []

/-- Builds what the builder builds. -/
def built (w : World) : Except Value Value × World :=
  ExceptT.run (invoke (evaluator host 8) .main builder "build" []) w

variable (o : Object) (parent : Option Ref)

/-- The objects are made behind those of the domain. -/
theorem extends_world : Domain.heap.Extends (world o parent).heap :=
  Domain.heap.extends_append (objects o parent)

/-- They stand there in order. -/
theorem getElem?_world (i : Nat) : (world o parent).heap[Domain.heap.size + i]? =
    (objects o parent)[i]? := by
  have hright : (Domain.heap ++ objects o parent)[Domain.heap.size + i]? = _ :=
    Array.getElem?_append_right (Nat.le_add_right Domain.heap.size i)
  rwa [Nat.add_sub_cancel_left] at hright

/-- The list holds one metric. -/
theorem readList?_list : (world o parent).heap.readList? list = some [metric] := by
  have hlist := getElem?_world o parent 2
  have hcell : (Object.empty (.ofItems [metric]) parent).own? (Text.ofNat 0) =
    some (.ordinary metric) := rfl
  refine Heap.readList?_eq_some.mpr ⟨[(0, metric)], 1, ?_, ?_⟩
  · simp only [Heap.shape?, Heap.object?, list, hlist]
    rfl
  · have hitem : (world o parent).heap.item list 0 = metric := by
      rw [Heap.item, list, Heap.value?_own hlist hcell]
      rfl
    simp [Heap.itemsOf, hitem]

/-- The source is one of ratings. -/
theorem isKin_source : (world o parent).heap.isKin source .dataSource = true := by
  have hsource := getElem?_world o parent 0
  have htemplate : Domain.heap[Kin.template .csvDataSource]? =
    some (Kin.templateObject .csvDataSource) := rfl
  exact Heap.isKin_of_base hsource rfl (extends_world o parent _ _ htemplate) rfl
    (Array.getElem?_eq_some_iff.mp htemplate).1

/-- The metric is a metric. -/
theorem isKin_metric : (world o parent).heap.isKin metric .metric = true :=
  Heap.isKin_of_parent (getElem?_world o parent 1) rfl

/-- The items of the list, if it is read, are metrics. -/
theorem isKin_items {items : List Value}
    (hitems : (world o parent).heap.readList? list = some items) :
    ∀ m ∈ items, (world o parent).heap.Knows m ∧ (world o parent).heap.isKin m .metric = true := by
  rw [readList?_list] at hitems
  cases hitems
  intro m hm
  rw [List.mem_singleton.mp hm]
  exact ⟨Heap.knows_of_object? (getElem?_world o parent 1), isKin_metric o parent⟩

/-- Templates come before their objects. -/
theorem rooted_tidy (ho : ∀ p, o.parent = some p → p < Domain.heap.size) :
    (tidy o).heap.Rooted := by
  refine Domain.rooted_heap.append _ fun q hq p hp => ?_
  simp only [objects, List.mem_toArray, List.mem_cons, List.not_mem_nil, or_false] at hq
  obtain rfl | rfl | rfl | rfl | rfl | rfl := hq
  case inr.inr.inr.inl => exact ho p hp
  all_goals
    cases hp
    try decide +kernel

/-- A list of the main realm is gone through by its items. -/
theorem walk?_list : (tidy o).heap.walk? list = some .byItems := by
  have hlist := getElem?_world o (some (Realm.main.template .list)) 2
  have htemplate : Domain.heap[Realm.main.template .list]? =
    some (Family.list.template .main) := rfl
  exact Heap.walk?_of_parent hlist rfl rfl
    (Nat.lt_add_right 2 (Array.getElem?_eq_some_iff.mp htemplate).1)
    (extends_world o _ _ _ htemplate) rfl

/-- The builder builds tasks with folds. -/
theorem buildsCrossfolds (name folds : Value) :
    (world (crossfolds name folds) parent).heap.BuildsCrossfolds
      builder name folds source list := by
  have hbuilder := getElem?_world (crossfolds name folds) parent 3
  have hext := extends_world (crossfolds name folds) parent
  exact
    { name := Heap.value?_own hbuilder rfl
      source := Heap.value?_own hbuilder rfl
      metrics := Heap.value?_own hbuilder rfl
      folds := Heap.value?_own hbuilder rfl
      requireSource := Heap.offers_of_parent hext hbuilder rfl (by decide) rfl
      requireMetrics := Heap.offers_of_parent hext hbuilder rfl (by decide) rfl
      build := Heap.offers_of_parent hext hbuilder rfl (by decide) rfl }

/-- Two folds are enough. -/
theorem isIntegerFrom_two : (.number 2 : Value).IsIntegerFrom 2 :=
  ⟨2, rfl, by decide +kernel, by decide +kernel⟩

/-- One fold is not. -/
theorem not_isIntegerFrom_one : ¬ (.number 1 : Value).IsIntegerFrom 2 :=
  mt (Domain.isIntegerFrom_iff (by decide)).mpr (by decide +kernel)

end Bench

open Bench

/-- A builder with two folds, a source and a list of one metric builds a task. -/
theorem buildsSoundly_bench : (tidy (crossfolds "quick" (.number 2))).heap.Rooted ∧
    ∃ task, (built (tidy (crossfolds "quick" (.number 2)))).1 = .ok task := by
  have hrooted : (tidy (crossfolds "quick" (.number 2))).heap.Rooted :=
    rooted_tidy _ fun p hp => by cases hp; decide +kernel
  have hsound : (tidy (crossfolds "quick" (.number 2))).BuildsSoundly host 6 :=
    buildsSoundly hrooted host 6
  have hbuilds := hsound.crossfolds _ _ _ _ _ (buildsCrossfolds ..) fun items hitems m hm =>
    (isKin_items _ _ hitems m hm).1
  refine ⟨hrooted, (hbuilds.exactly fun realm => ?_).mpr
    ⟨isIntegerFrom_two, isKin_source .., walk?_list _, _, readList?_list .., fun m hm => ?_⟩⟩
  · rw [walk?_list]
    nofun
  · exact (isKin_items _ _ (readList?_list ..) m hm).2

/-- A list that inherits nothing is no metrics for a task, although its items are metrics. And a
builder that is refused is changed by its own name. -/
theorem crossfolds_meddled :
    ((world (crossfolds "quick" (.number 2)) none).heap.BuildsCrossfolds builder "quick" (.number 2)
        source list ∧
      (.number 2 : Value).IsIntegerFrom 2 ∧
      (world (crossfolds "quick" (.number 2)) none).heap.isKin source .dataSource = true ∧
      (world (crossfolds "quick" (.number 2)) none).heap.readList? list = some [metric] ∧
      (world (crossfolds "quick" (.number 2)) none).heap.isKin metric .metric = true ∧
      (built (world (crossfolds "quick" (.number 2)) none)).1.toBool = false) ∧
    ((tidy (crossfolds namer (.number 1))).heap.BuildsCrossfolds
        builder namer (.number 1) source list ∧
      ¬ (.number 1 : Value).IsIntegerFrom 2 ∧
      (ExceptT.run (Domain.wordsOf (evaluator host 8) namer) (tidy (crossfolds namer (.number 1)))).1.toBool =
        true ∧
      ((built (tidy (crossfolds namer (.number 1)))).2.heap.value? builder "folds").any
        (· == .number 7) = true) :=
  ⟨⟨buildsCrossfolds .., isIntegerFrom_two, isKin_source .., readList?_list .., isKin_metric ..,
      by decide +kernel⟩,
    buildsCrossfolds .., not_isIntegerFrom_one, by decide +kernel, by decide +kernel⟩

end EvalPlan
