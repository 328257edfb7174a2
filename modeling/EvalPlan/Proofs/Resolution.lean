import EvalPlan.Proofs.Builders
import EvalPlan.Proofs.Calls

/-!
# How builders are found

The builder of a class is that of its latest accepted registration, whatever its marker says;
without one, it is the marker that the class carries itself, if that is a builder. Neither
registrations nor markers of other classes matter, and a registration that is not accepted changes
nothing.
-/

namespace EvalPlan

/-- The builder of the latest accepted registration of a class among marks. -/
def latestBuilder? (ms : List Mark) (r : Ref) :
    Option Value := (ms.filterMap (Mark.builderFor r)).getLast?

/-- What marks say about how builders are found. -/
structure Resolution (w : World) (ms : List Mark) (w' : World) : Prop where
  /-- The builder of the latest accepted registration counts. -/
  registered : ∀ r builder, (latestBuilder? ms r).or (w.mappings.get? (.ref r)) = some builder →
    resolveBuilder? w'.heap w'.mappings (.ref r) = some builder
  /-- Where a class was never registered, its own marker counts, if it is a builder. -/
  marked : ∀ r, (latestBuilder? ms r).or (w.mappings.get? (.ref r)) = none →
    resolveBuilder? w'.heap w'.mappings (.ref r) = (w'.heap.marker? (.ref r)).filter
      w'.heap.isBuilder
  /-- A class carries the marker that it was given last. -/
  marker : ∀ (r : Ref) (o : Object), w.heap[r]? = some o → o.frozen = false →
    w'.heap.marker? (.ref r) = ((ms.filterMap (Mark.markerFor r)).getLast?).or o.marker
  /-- A registration is accepted exactly if what was given for a type is a builder then. -/
  judged : ∀ a type builder accepted b, ms = a ++ .registered type builder accepted :: b →
    ∃ w₁, w₁.history = w.history ++ a ∧ BuildersAfter w a w₁ ∧
      accepted = w₁.heap.accepts type builder
  /-- What is found is a builder now, or was one when it was registered. -/
  genuine : ∀ r builder, resolveBuilder? w'.heap w'.mappings (.ref r) = some builder →
    w.mappings.get? (.ref r) = some builder ∨ w'.heap.isBuilder builder = true ∨
    ∃ a b, ms = a ++ .registered (.ref r) builder true :: b ∧
      ∃ w₁, w₁.history = w.history ++ a ∧ BuildersAfter w a w₁ ∧ w₁.heap.isBuilder builder = true
  /-- The registered classes stand in the order of their first accepted registrations. -/
  order : w'.mappings.classes = w.mappings.classes ++
    ((ms.filterMap fun m => m.enrolled?.bind fun row => row.1.ref?).removeAll
      w.mappings.classes).eraseDups
  /-- Each of them has one entry, with its latest builder. -/
  entries : w.mappings.classes.Nodup → w'.mappings.classes.Nodup ∧
    ∀ r builder, (.ref r, builder) ∈ w'.mappings ↔
      (latestBuilder? ms r).or (w.mappings.get? (.ref r)) = some builder

namespace Resolution

variable {w w' : World} {ms : List Mark}

theorem get?_mappings (h : BuildersAfter w ms w') (r : Ref) :
    w'.mappings.get? (.ref r) = (latestBuilder? ms r).or (w.mappings.get? (.ref r)) := by
  rw [h.mappings, Table.get?_putAll, List.filterMap_filterMap]
  rfl

theorem defaultBuilder?_eq (h : Heap) (v : Value) :
    h.defaultBuilder? v = (h.marker? v).filter h.isBuilder := by
  unfold Heap.defaultBuilder?
  cases h.marker? v with
  | none => rfl
  | some m => cases hm : h.isBuilder m <;> simp [Option.filter, hm]

/-- A builder that was registered last was registered at some moment. -/
theorem exists_registered {r : Ref} {builder : Value} (h : latestBuilder? ms r = some builder) :
    ∃ a b, ms = a ++ .registered (.ref r) builder true :: b := by
  obtain ⟨m, hm, hbuilder⟩ := List.mem_filterMap.mp (List.mem_of_getLast? h)
  obtain ⟨a, b, rfl⟩ := List.append_of_mem hm
  refine ⟨a, b, ?_⟩
  -- only an accepted registration of the class names a builder for it
  cases m with
  | registered type builder' accepted =>
    cases accepted with
    | false => cases hbuilder
    | true =>
      have hvalue : Table.valueFor r (type, builder') = some builder := hbuilder
      unfold Table.valueFor at hvalue
      split at hvalue
      next htype =>
        obtain rfl : type = .ref r := Value.ref?_eq_some.mp htype
        cases hvalue
        rfl
      next => cases hvalue
  | _ => cases hbuilder

/-- Where the marks account for the builders, they say how builders are found. -/
theorem of_accounted (hafter : BuildersAfter w ms w') (hjudged : Judged w ms) :
    Resolution w ms w' := by
  have hregistered :
    ∀ r builder, (latestBuilder? ms r).or (w.mappings.get? (.ref r)) = some builder →
      resolveBuilder? w'.heap w'.mappings (.ref r) = some builder := by
    intro r builder h
    rw [resolveBuilder?, get?_mappings hafter, h]
  have hmarked : ∀ r, (latestBuilder? ms r).or (w.mappings.get? (.ref r)) = none →
      resolveBuilder? w'.heap w'.mappings (.ref r) = (w'.heap.marker? (.ref r)).filter
        w'.heap.isBuilder := by
    intro r h
    rw [resolveBuilder?, get?_mappings hafter, h, defaultBuilder?_eq]
  refine ⟨hregistered, hmarked, ?_, hjudged, ?_, ?_, ?_⟩
  · intro r o hr hfrozen
    obtain ⟨o', hr', -, hmarker⟩ := hafter.markers r o hr
    rw [hfrozen, if_neg Bool.false_ne_true] at hmarker
    rw [← hmarker]
    simp [Heap.marker?, Heap.object?, hr']
  · intro r builder hfound
    -- the builder was registered by the marks, or before them, or it is a marker
    cases hlatest : latestBuilder? ms r with
    | some b =>
      rw [hregistered r b (by rw [hlatest]; rfl)] at hfound
      cases hfound
      obtain ⟨a, c, rfl⟩ := exists_registered hlatest
      obtain ⟨w₁, hw₁, hafter₁, haccepted⟩ := hjudged a _ _ _ c rfl
      refine .inr (.inr ⟨a, c, rfl, w₁, hw₁, hafter₁, ?_⟩)
      simp only [Heap.accepts, Bool.true_eq, Bool.and_eq_true] at haccepted
      exact haccepted.2
    | none =>
      cases hbefore : w.mappings.get? (.ref r) with
      | some b =>
        rw [hregistered r b (by rw [hlatest, hbefore]; rfl)] at hfound
        exact .inl hfound
      | none =>
        rw [hmarked r (by rw [hlatest, hbefore]; rfl)] at hfound
        exact .inr (.inl (Option.filter_eq_some_iff.mp hfound).2)
  · rw [hafter.mappings, Table.classes_putAll, List.filterMap_filterMap]
  · intro hnodup
    have hnodup' : w'.mappings.classes.Nodup := by
      rw [hafter.mappings]
      exact Table.nodup_classes_putAll hnodup _
    refine ⟨hnodup', fun r builder => ?_⟩
    rw [Table.mem_iff_get? hnodup', get?_mappings hafter]

end Resolution

/-! ## Single registrations -/

namespace Action

variable {host : Host} {ev : Evaluator}

theorem run_resolve (w : World) (r : Ref) :
    ExceptT.run (resolve (.ref r)) w = (.ok (resolveBuilder? w.heap w.mappings (.ref r)), w) := rfl

/-- The world after the judgement of a registration. -/
theorem run_enroll (w : World) (type builder : Value) :
    ExceptT.run (enroll type builder) w = (.ok (w.heap.accepts type builder),
      { w with
        mappings := if w.heap.accepts type builder then w.mappings.put type builder else w.mappings
        history := w.history ++ [.registered type builder (w.heap.accepts type builder)] }) := rfl

/-- A registration leaves its mark before anything else. -/
theorem register_marks (hev : ev.Obeys Accounted) (w : World) (type builder : Value) :
    ∃ ms, (ExceptT.run (register host ev type builder) w).2.history =
      w.history ++ .registered type builder (w.heap.accepts type builder) :: ms := by
  have law := Accounted.indifferent.onHost host
  have hrest (accepted : Bool) : Keeps Accounted
      (if accepted then reportRegistration host ev type builder else refuseRegistration ev type builder) := by
    cases accepted with
    | true => exact reportRegistration_keeps law hev _ _
    | false => exact refuseRegistration_keeps law hev _ _
  unfold register
  rw [run_bind_ok (run_enroll w type builder)]
  obtain ⟨ms, hms, -⟩ := hrest (w.heap.accepts type builder) (ExceptT.run (enroll type builder) w).2
  rw [run_enroll] at hms
  refine ⟨ms, hms.trans ?_⟩
  simp

/-- A registration that is not accepted does nothing but to find out what is wrong and to say so. -/
theorem register_rejected (w : World) {type builder : Value}
    (h : w.heap.accepts type builder = false) :
    ExceptT.run (register host ev type builder) w =
      ExceptT.run (do refuse (← registrationProblem ev type builder))
        { w with history := w.history ++ [.registered type builder false] } := by
  unfold register
  rw [run_bind_ok (run_enroll w type builder), h]
  rfl

/-! ## What a refusal leaves -/

theorem run_nameOf_held (w : World) {v name : Value} (hv : ¬ v.isNullish = true)
    (hname : w.heap.heldName? v = some name) : ExceptT.run (nameOf ev v) w = (.ok name, w) := by
  unfold nameOf property
  rw [if_neg hv, run_bind_ok (run_heap w)]
  unfold Heap.heldName? at hname
  -- a name that is computed is no name that is held
  cases hfind : w.heap.find? .main v "name" with
  | none =>
    simp only [hfind] at hname
    cases hname
    rfl
  | some s =>
    simp only [hfind] at hname
    cases s with
    | data x shown fixed =>
      cases hname
      rfl
    | computed getter setter => cases hname

/-- To put a value into text that is no object, nothing is called; a symbol makes an error. -/
theorem run_words_plain (ev : Evaluator) (w : World) {v : Value} (hv : v.ref? = none) :
    (∃ t, ExceptT.run (words ev .main v) w = (.ok t, w)) ∨
    ∃ thrown o, ExceptT.run (words ev .main v) w =
      (.error thrown, { w with heap := w.heap.push o }) := by
  cases v with
  | ref r => cases hv
  | symbol description serial => exact .inr ⟨_, _, rfl⟩
  | bool b => cases b <;> exact .inl ⟨_, rfl⟩
  | _ => exact .inl ⟨_, rfl⟩

theorem run_givenName_held (ev : Evaluator) (w : World) {v name : Value} (hv : ¬ v.isNullish = true)
    (hname : w.heap.heldName? v = some name) (hplain : name.ref? = none) :
    (∃ t, ExceptT.run (givenName ev v) w = (.ok t, w)) ∨
    ∃ thrown o, ExceptT.run (givenName ev v) w =
      (.error thrown, { w with heap := w.heap.push o }) := by
  unfold givenName
  rw [run_bind_ok (run_nameOf_held w hv hname)]
  split
  · exact run_words_plain ev w hplain
  · exact .inl ⟨_, rfl⟩

/-- Where the name of what was given is plainly there, refusing a registration adds an error and
nothing else. -/
theorem register_rejected_held (w : World) {type builder : Value}
    (h : w.heap.accepts type builder = false)
    (hname : type.isNullish = true ∨ builder.isNullish = true ∨
      ∃ name, w.heap.heldName? builder = some name ∧ name.ref? = none) :
    ∃ thrown o, ExceptT.run (register host ev type builder) w =
      (.error thrown, { w with
        heap := w.heap.push o
        history := w.history ++ [.registered type builder false] }) := by
  rw [register_rejected w h]
  unfold registrationProblem
  -- what is missing is found out before the name is asked for
  by_cases htype : type.isNullish = true
  · rw [if_pos htype]
    exact ⟨_, _, rfl⟩
  · rw [if_neg htype]
    by_cases hbuilder : builder.isNullish = true
    · rw [if_pos hbuilder]
      exact ⟨_, _, rfl⟩
    · rw [if_neg hbuilder]
      obtain ⟨name, hheld, hplain⟩ := (hname.resolve_left htype).resolve_left hbuilder
      let w₀ : World := { w with history := w.history ++ [.registered type builder false] }
      rcases run_givenName_held ev w₀ hbuilder hheld hplain with ⟨t, ht⟩ | ⟨thrown, o, ht⟩
      · rw [run_bind, run_bind_ok ht]
        exact ⟨_, _, rfl⟩
      · rw [run_bind, run_bind_error ht]
        exact ⟨_, _, rfl⟩

end Action

/-! ## The theorem -/

/-- Nothing about builders is different, but for an object that was added. -/
structure Untouched (w w' : World) : Prop where
  mappings : w'.mappings = w.mappings
  added : ∃ o, w'.heap = w.heap.push o
  markers : ∀ r, r < w.heap.size → w'.heap.marker? (.ref r) = w.heap.marker? (.ref r)
  found : ∀ r builder, resolveBuilder? w.heap w.mappings (.ref r) = some builder →
    resolveBuilder? w'.heap w'.mappings (.ref r) = some builder
  notices : w'.notices = w.notices

theorem untouched_push (w : World) (o : Object) (history : List Mark) :
    Untouched w { w with heap := w.heap.push o, history } := by
  have hext := w.heap.extends_push o
  refine ⟨rfl, ⟨o, rfl⟩, fun r hr => ?_, fun r builder hfound => ?_, rfl⟩
  · have hobject : w.heap[r]? = some w.heap[r] := Array.getElem?_eq_getElem hr
    simp only [Heap.marker?, Heap.object?, hobject, hext r _ hobject]
  · unfold resolveBuilder? at hfound ⊢
    -- what was registered is found in any heap, and a marker stays a builder
    cases hmapping : w.mappings.get? (.ref r) with
    | some b => simpa [hmapping] using hfound
    | none =>
      simp only [hmapping] at hfound ⊢
      obtain ⟨m, hm, hbuilder⟩ := Option.bind_eq_some_iff.mp hfound
      obtain ⟨c, hc, hmarker⟩ := Option.bind_eq_some_iff.mp hm
      split at hbuilder
      next hgenuine =>
        cases hbuilder
        have hm' : Heap.marker? (w.heap.push o) (.ref r) = some builder := by
          rw [Heap.marker?, Heap.object?_extends hext hc]
          exact hmarker
        rw [Heap.defaultBuilder?, hm']
        exact if_pos (Heap.isBuilder_extends hext hgenuine)
      next => cases hbuilder

/-- How an engine finds builders, whatever is asked of it. -/
structure FindsBuilders (host : Host) (ev : Evaluator) : Prop where
  /-- After every sequence of requests the marks that it left say how builders are found. -/
  session : ∀ w rs, ∃ ms, (Request.session host ev w rs).history = w.history ++ ms ∧
    Resolution w ms (Request.session host ev w rs)
  /-- They are found so when the engine is asked for them. -/
  asked : ∀ (w : World) (r : Ref), ExceptT.run (Action.resolve (.ref r)) w =
    (.ok (resolveBuilder? w.heap w.mappings (.ref r)), w)
  /-- A script that asks the engine for the builder of a class gets the one that is found, if any
  is. -/
  answered : ∀ (w : World) (callee this : Value) (arguments : List Value) (r : Ref),
    w.heap.callable? callee = some (.operation .getBuilderForType) →
    Action.reachesEngine w.heap this = true → Action.argument arguments 0 = .ref r →
    ExceptT.run ((Evaluator.layer host ev).call callee this arguments) w =
      (.ok ((resolveBuilder? w.heap w.mappings (.ref r)).getD .undefined), w)
  /-- A script that asks the engine to register a builder registers the second argument for the
  first one. -/
  requested : ∀ (w : World) (callee this : Value) (arguments : List Value),
    w.heap.callable? callee = some (.operation .registerBuilder) →
    Action.reachesEngine w.heap this = true →
    ExceptT.run ((Evaluator.layer host ev).call callee this arguments) w = ExceptT.run (do
      Action.register host ev (Action.argument arguments 0) (Action.argument arguments 1)
      return .undefined) w
  /-- Every registration leaves a mark that says whether it was accepted. -/
  marks : ∀ (w : World) (type builder : Value), ∃ ms,
    (ExceptT.run (Action.register host ev type builder) w).2.history =
      w.history ++ .registered type builder (w.heap.accepts type builder) :: ms
  /-- One that is rejected throws. It does nothing but to find out what is wrong, which may need the
  name of what was given, and to say so. -/
  rejected : ∀ (w : World) (type builder : Value), w.heap.accepts type builder = false →
    (∃ thrown, (ExceptT.run (Action.register host ev type builder) w).1 = .error thrown) ∧
    ExceptT.run (Action.register host ev type builder) w =
      ExceptT.run (do Action.refuse (← Action.registrationProblem ev type builder))
        { w with history := w.history ++ [.registered type builder false] }
  /-- Where the name is there without anything being called, builders are untouched, and nobody is
  told. -/
  untouched : ∀ (w : World) (type builder : Value), w.heap.accepts type builder = false →
    (type.isNullish = true ∨ builder.isNullish = true ∨
      ∃ name, w.heap.heldName? builder = some name ∧ name.ref? = none) →
    Untouched w (ExceptT.run (Action.register host ev type builder) w).2 ∧
      (ExceptT.run (Action.register host ev type builder) w).2.history =
        w.history ++ [.registered type builder false]

/-- Builders are found by the latest accepted registration of a class, else by its own marker. -/
theorem evaluator_findsBuilders (host : Host) (n : Nat) :
    FindsBuilders host (evaluator host n) where
  session w rs := by
    have law := Accounted.indifferent.onHost host
    obtain ⟨ms, hms, hafter, hjudged⟩ := law.session (law.evaluator n) w rs
    exact ⟨ms, hms, Resolution.of_accounted hafter hjudged⟩
  asked := Action.run_resolve
  answered w callee this arguments r hcallee hthis hr := by
    rw [Action.run_call_atHome _ hcallee hthis, Action.operate, hr]
    exact Action.run_bind_ok (Action.run_resolve w r)
  requested w callee this arguments hcallee hthis := by
    rw [Action.run_call_atHome _ hcallee hthis, Action.operate]
  marks := Action.register_marks ((Accounted.indifferent.onHost host).evaluator n)
  rejected w type builder h := by
    refine ⟨?_, Action.register_rejected w h⟩
    rw [Action.register_rejected w h]
    exact Action.throws_bind (fun _ _ => ⟨_, rfl⟩) _
  untouched w type builder h hname := by
    obtain ⟨thrown, o, hrun⟩ := Action.register_rejected_held w h hname
    rw [hrun]
    exact ⟨untouched_push w o _, rfl⟩

end EvalPlan
