import EvalPlan.Domain
import EvalPlan.Proofs.Shift.Standard

/-!
# Classes and the domain in moved worlds

Classes that a script makes are made alike in moved worlds, and so are the instances that the
builders of the domain build: what they hold is moved, and what they refuse is refused in the same
words.
-/

namespace EvalPlan

open Script (Scene Answer)

namespace Shift

variable (σ : Shift)

/-- What is said about a moved class. -/
def definition (d : Definition) : Definition :=
  { d with fields := σ.fields d.fields, shared := d.shared.map σ.row }

end Shift

namespace Action

open Shift

variable {role : Role} {σ : Shift} {α β : Type}

/-! ## New classes -/

section realm

variable (realm : Realm) [σ.Fits realm]

/-- Making a method of an object follows. -/
theorem newMethod_follows (name : Text) {m : Method} (hm : σ.FitsCallable (.method m)) :
    Follows role σ σ.value (newMethod realm name m)
      (newMethod (σ.realm realm) name (σ.method m)) :=
  newFunction_follows realm hm name 0

omit [σ.Fits realm] in
/-- The template of a moved class is the moved template. -/
theorem object_templateObject (cls : Value) (parent : Option Ref) (d : Definition) :
    σ.object (templateObject realm .classDefinition cls parent d) =
      templateObject (σ.realm realm) .classDefinition (σ.value cls) (parent.map σ.ref)
        (σ.definition d) := by
  have hshared : σ.slots (d.shared.map fun row => (row.1, Slot.hidden row.2)) =
      (d.shared.map σ.row).map fun row => (row.1, Slot.hidden row.2) := by
    rw [Shift.slots, List.map_map, List.map_map]
    rfl
  have hslots := σ.put_slots (d.shared.map fun row => (row.1, Slot.hidden row.2)) "constructor"
    (.hidden cls)
  rw [hshared] at hslots
  exact congrArg (fun slots => Object.mk .plain (parent.map σ.ref) slots none false none)
    hslots.symm

/-- The object of a moved class is the moved object. -/
theorem object_classObject {d : Definition} (hmaking : d.making = fun _ => .classDefinition)
    (hbase : d.base = none) (template : Ref) :
    σ.object (classObject realm d [] template) =
      classObject (σ.realm realm) (σ.definition d) [] (σ.ref template) := by
  have hclass (realm : Realm) {d : Definition} (hmaking : d.making = fun _ => .classDefinition)
      (hbase : d.base = none) (template : Ref) :
      classObject realm d [] template =
        Object.constructor realm (.blueprint ⟨d.key, .classDefinition, d.fields, d.source, realm⟩)
          d.name 0 (.ref template) := by
    unfold classObject
    rw [hmaking, hbase]
    rfl
  rw [hclass realm hmaking hbase, hclass (σ.realm realm) (d := σ.definition d) hmaking hbase,
    σ.object_constructor]
  rfl

/-- A class of a script extends no other one. -/
theorem newClass_follows {d : Definition} (hmaking : d.making = fun _ => .classDefinition)
    (hbase : d.base = none) :
    Follows role σ σ.value (newClass realm d) (newClass (σ.realm realm) (σ.definition d)) := by
  have hparent : Follows role σ (Option.map σ.ref) (baseTemplate realm d.base)
      (baseTemplate (σ.realm realm) (σ.definition d).base) := by
    rw [show (σ.definition d).base = d.base from rfl, hbase]
    refine .pure_of_eq ?_
    rw [Option.map_some, σ.ref_template realm]
  refine .bind hparent fun parent => .heap fun {h h'} hh => ?_
  have hcls : σ.value (.ref (h.size + 1)) = .ref (h'.size + 1) :=
    congrArg Value.ref hh.ref_succ_size
  have htemplate : Follows role σ σ.value
      (alloc (templateObject realm .classDefinition (.ref (h.size + 1)) parent d)) _ :=
    alloc_follows (fitsObject_of_shape rfl nofun)
  have hclass : Follows role σ σ.value (alloc (classObject realm d [] h.size)) _ :=
    alloc_follows (by
      unfold classObject
      rw [hbase]
      exact fitsObject_of_callable rfl (by rintro _ ⟨⟩; exact ‹σ.Fits realm›))
  rw [object_templateObject, hcls] at htemplate
  rw [object_classObject realm hmaking hbase, hh.ref_size] at hclass
  dsimp only
  rw [show (σ.definition d).making = d.making from rfl, show (σ.definition d).base =
    d.base from rfl, hmaking, hbase]
  exact .bind htemplate fun _ => hclass

end realm

variable {ev : Evaluator} (hev : ev.Follows role σ)

/-! ## The methods of the domain -/

/-- Making an object of a class of the domain follows. -/
theorem makeKin_follows (k : Kin) (fields : List (Text × Value)) :
    Follows role σ σ.value (Domain.make k fields) (Domain.make k (fields.map σ.row)) := by
  have h : Follows role σ σ.value (Domain.make k fields) _ := alloc_follows fitsObject_holding
  rwa [σ.object_holding, Option.map_some, σ.ref_kinTemplate] at h

/-- Whether a value is a whole number from a bound on does not depend on its place. -/
theorem isIntegerFrom_value (least : Nat) (v : Value) :
    Domain.isIntegerFrom least (σ.value v) = Domain.isIntegerFrom least v := by cases v <;> rfl

include hev

/-- A refusal that names the receiver says the same in both worlds. -/
theorem refuseNamed_follows {f : α → β} (this : Value) (p : Text → Problem)
    (hp : ∀ t, σ.problem (p t) = p t) :
    Follows role σ f
      (Domain.read ev this "name" >>= fun name => Domain.wordsOf ev name >>= fun t => refuse (p t))
      (Domain.read ev (σ.value this) "name" >>= fun name => Domain.wordsOf ev name >>= fun t =>
        refuse (p t)) :=
  .bind (nameOf_follows hev this) fun name => .bind (wordsMain_follows hev name) fun t => by
    have h : Follows role σ f (refuse (p t)) _ := refuse_follows f (p t)
    rwa [hp] at h

/-- Building a data file follows. -/
theorem buildFile_follows (this : Value) :
    Follows role σ σ.value (Domain.buildFile ev this) (Domain.buildFile ev (σ.value this)) := by
  refine .bind (propertyMain_follows hev this "path") fun path => ?_
  refine .bind (invokeMain_follows hev path "trim" []) fun trimmed => ?_
  refine .bind (propertyMain_follows hev trimmed "length") fun length => ?_
  refine .cond (σ.same_number length 0) (refuse_follows σ.value .pathMissing) ?_
  refine .bind (propertyMain_follows hev this "delimiter") fun delimiter => ?_
  refine .bind (propertyMain_follows hev delimiter "length") fun width => ?_
  refine .cond (by rw [σ.same_number]) ?_ ?_
  · exact .bind (wordsMain_follows hev delimiter) fun t => refuse_follows σ.value (.badDelimiter t)
  · exact .bind (propertyMain_follows hev this "path") fun path =>
      .bind (propertyMain_follows hev this "hasHeader") fun header =>
        makeKin_follows .csvDataSource [("path", path), ("delimiter", delimiter),
          ("hasHeader", header)]

/-- Describing a data file follows. -/
theorem describeFile_follows (this : Value) :
    Follows role σ σ.value (Domain.describeFile ev this)
      (Domain.describeFile ev (σ.value this)) := by
  refine .bind (propertyMain_follows hev this "delimiter") fun delimiter => ?_
  refine .bind (propertyMain_follows hev this "path") fun path => ?_
  refine .bind (wordsMain_follows hev path) fun path => ?_
  have hshown : (if σ.value delimiter == .text [Text.tab] then (Value.text "\\t") else σ.value delimiter) =
      σ.value (if delimiter == .text [Text.tab] then .text "\\t" else delimiter) := by
    rw [σ.same_text]
    split <;> rfl
  dsimp only
  rw [hshown]
  refine .bind (wordsMain_follows hev _) fun mark => ?_
  refine .answer (propertyMain_follows hev this "hasHeader") fun header => ?_
  rw [σ.isTruthy_value]
  rfl

/-- Requiring the data source of a task follows. -/
theorem requireSource_follows (this : Value) :
    Follows role σ σ.value (Domain.requireSource ev this)
      (Domain.requireSource ev (σ.value this)) := by
  refine .bind (propertyMain_follows hev this "source") fun source => .heap fun hh => ?_
  exact .cond (hh.isKin source .dataSource) (.pure σ.value source)
    (refuseNamed_follows hev this .sourceMissing fun _ => rfl)

/-- Reading the metrics of a list follows. -/
theorem metricsOf_follows (list : Value) (length : Nat) :
    Follows role σ (Option.map (List.map σ.value)) (Domain.metricsOf ev list length)
      (Domain.metricsOf ev (σ.value list) length) := by
  refine .heap fun {h h'} hh => ?_
  rw [hh.walk?]
  cases hw : h.walk? list with
  | none => exact typeError_follows _ _
  | some k =>
    cases k with
    | byItems =>
      have hvalid (x : Value) : (h'.isKin · .metric) (σ.value x) = (h.isKin · .metric) x :=
        hh.isKin x .metric
      exact .pure_of_eq (hh.itemsIf hvalid list length 0)
    | byText realm =>
      have : σ.Fits realm := hh.fits_of_walk? hw
      exact .answer (words_follows hev realm list) fun t => by cases t <;> rfl

/-- Requiring that a task has metrics follows. -/
theorem requireMetrics_follows (this : Value) :
    Follows role σ σ.value (Domain.requireMetrics ev this)
      (Domain.requireMetrics ev (σ.value this)) := by
  refine .bind (propertyMain_follows hev this "metrics") fun metrics => .heap fun {h h'} hh => ?_
  have hrefused := refuseNamed_follows (f := σ.value) hev this .metricsNotList fun _ => rfl
  rw [hh.shape?]
  cases h.shape? metrics with
  | none => exact hrefused
  | some s =>
    cases s with
    | list cells length =>
      refine .bind (metricsOf_follows hev metrics length) fun items => ?_
      cases items with
      | none => exact refuseNamed_follows hev this .metricsNotBuilt fun _ => rfl
      | some items =>
        have hlist : Follows role σ σ.value (newList .main items) _ := newList_follows .main items
        rwa [realm_main] at hlist
    | _ => exact hrefused

/-- Making a task from what its builder was given follows. -/
theorem makeTask_follows (this : Value) (kind field : Text) :
    Follows role σ σ.value (Domain.makeTask ev this kind field)
      (Domain.makeTask ev (σ.value this) kind field) :=
  .bind (propertyMain_follows hev this "name") fun name =>
    .bind (invokeMain_follows hev this "requireSource" []) fun source =>
      .bind (propertyMain_follows hev this field) fun v =>
        .bind (recordMain_follows [("kind", .text kind), (field, v)]) fun split =>
          .bind (invokeMain_follows hev this "requireMetrics" []) fun metrics =>
            makeKin_follows .trainTestTask
              [("name", name), ("source", source), ("split", split), ("metrics", metrics)]

/-- Building a crossfold follows. -/
theorem buildCrossfold_follows (this : Value) :
    Follows role σ σ.value (Domain.buildCrossfold ev this)
      (Domain.buildCrossfold ev (σ.value this)) := by
  refine .bind (propertyMain_follows hev this "folds") fun folds => ?_
  exact .cond (isIntegerFrom_value 2 folds) (makeTask_follows hev this "crossfold" "folds")
    (refuseNamed_follows hev this .badFolds fun _ => rfl)

/-- The test of a fraction answers the same. -/
theorem isFraction_follows (this : Value) :
    Follows role σ id (Domain.isFraction ev this) (Domain.isFraction ev (σ.value this)) :=
  .bind (propertyMain_follows hev this "testFraction") fun fraction =>
    .bind (magnitudeMain_follows hev fraction) fun _ =>
      .ite Iff.rfl
        (.bind (propertyMain_follows hev this "testFraction") fun fraction =>
          .answer (magnitudeMain_follows hev fraction) fun _ => rfl)
        (.pure id _)

/-- Building a holdout follows. -/
theorem buildHoldout_follows (this : Value) :
    Follows role σ σ.value (Domain.buildHoldout ev this) (Domain.buildHoldout ev (σ.value this)) :=
  .bind (isFraction_follows hev this) fun _ =>
    .ite Iff.rfl (makeTask_follows hev this "holdout" "testFraction")
      (refuseNamed_follows hev this .badFraction fun _ => rfl)

/-- A split is described in the same words. -/
theorem describeSplit_follows (split : Value) :
    Follows role σ id (Domain.describeSplit ev split)
      (Domain.describeSplit ev (σ.value split)) := by
  refine .bind (propertyMain_follows hev split "kind") fun kind => ?_
  refine .cond (σ.same_text kind "crossfold") ?_ ?_
  · exact .bind (propertyMain_follows hev split "folds") fun folds =>
      .answer (wordsMain_follows hev folds) fun _ => rfl
  · refine .bind (propertyMain_follows hev split "testFraction") fun fraction => ?_
    have h := toNumber_follows hev .main fraction
    rw [realm_main] at h
    exact .answer h fun _ => rfl

/-- The descriptions of the metrics follow. -/
theorem describeMetrics_follows (metrics : Value) :
    Follows role σ σ.value (Domain.describeMetrics ev metrics)
      (Domain.describeMetrics ev (σ.value metrics)) := by
  refine .bind (propertyMain_follows hev metrics "length") fun length => ?_
  refine .bind (magnitudeMain_follows hev length) fun _ =>
    .ite Iff.rfl ?_ (.pure σ.value (.text "none"))
  have hreader : Follows role σ σ.value (alloc (Object.function .main (.reader "label" .main) [] 1))
      _ :=
    newMainFunction_follows (inferInstanceAs (σ.Fits .main)) [] 1
  rw [Shift.callable, realm_main] at hreader
  exact .bind hreader fun labelOf =>
    .bind (invokeMain_follows hev metrics "map" [labelOf]) fun labels =>
    invokeMain_follows hev labels "join" [.text ", "]

/-- Describing a task follows. -/
theorem describeTask_follows (this : Value) :
    Follows role σ σ.value (Domain.describeTask ev this) (Domain.describeTask ev (σ.value this)) :=
  .bind (propertyMain_follows hev this "split") fun split =>
    .bind (describeSplit_follows hev split) fun _ =>
      .bind (propertyMain_follows hev this "metrics") fun metrics =>
        .bind (describeMetrics_follows hev metrics) fun metrics =>
          .bind (propertyMain_follows hev this "name") fun name =>
            .bind (wordsMain_follows hev name) fun _ =>
              .bind (propertyMain_follows hev this "source") fun source =>
                .bind (invokeMain_follows hev source "describe" []) fun source =>
                  .bind (wordsMain_follows hev source) fun _ =>
                    .answer (wordsMain_follows hev metrics) fun _ => rfl

/-- Building a metric follows. -/
theorem buildMetric_follows (this : Value) :
    Follows role σ σ.value (Domain.buildMetric ev this) (Domain.buildMetric ev (σ.value this)) := by
  refine .bind (propertyMain_follows hev this "cutoff") fun cutoff => .ite ?_ ?_ ?_
  · cases cutoff <;> rfl
  · exact .bind (propertyMain_follows hev this "name") fun name =>
      makeKin_follows .metric [("name", name), ("cutoff", cutoff)]
  · exact refuseNamed_follows hev this .badCutoff fun _ => rfl

/-- The label of a metric follows. -/
theorem metricLabel_follows (this : Value) :
    Follows role σ σ.value (Domain.metricLabel ev this) (Domain.metricLabel ev (σ.value this)) := by
  refine .bind (propertyMain_follows hev this "cutoff") fun cutoff => ?_
  have hname := propertyMain_follows hev this "name"
  have hlabel : Follows role σ σ.value
      (Domain.read ev this "name" >>= fun name => Domain.wordsOf ev name >>= fun name =>
        Domain.wordsOf ev cutoff >>= fun t => pure (Value.text (name ++ "@" ++ t)))
      (Domain.read ev (σ.value this) "name" >>= fun name => Domain.wordsOf ev name >>= fun name =>
        Domain.wordsOf ev (σ.value cutoff) >>= fun t => pure (Value.text (name ++ "@" ++ t))) :=
    .bind hname fun name => .bind (wordsMain_follows hev name) fun _ =>
      .answer (wordsMain_follows hev cutoff) fun _ => rfl
  cases cutoff with
  | null => exact hname
  | _ => exact hlabel

/-- Every method of the domain follows, one case per method. -/
theorem domainMethod_follows (m : DomainMethod) (this : Value) :
    Follows role σ σ.value (Domain.method ev m this) (Domain.method ev m (σ.value this)) := by
  cases m with
  | describeFile => exact describeFile_follows hev this
  | buildFile => exact buildFile_follows hev this
  | describeTask => exact describeTask_follows hev this
  | requireSource => exact requireSource_follows hev this
  | requireMetrics => exact requireMetrics_follows hev this
  | buildCrossfold => exact buildCrossfold_follows hev this
  | buildHoldout => exact buildHoldout_follows hev this
  | metricLabel => exact metricLabel_follows hev this
  | buildMetric => exact buildMetric_follows hev this

end Action

end EvalPlan
