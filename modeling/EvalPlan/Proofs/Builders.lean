import EvalPlan.Proofs.Law.Indifferent
import EvalPlan.Proofs.Table

/-!
# Builders and the history

Every builder that is registered, and every one that a class is marked with, leaves a mark. What an
engine knows of builders is what the marks say: the registered builders are those of the accepted
registrations, put one after another, and the marker of a class is the last one that it was marked
with.
-/

namespace EvalPlan

namespace Mark

/-- The builder that a mark registers, with its type. -/
def enrolled? : Mark → Option (Value × Value)
  | registered type builder true => some (type, builder)
  | _ => none

/-- The builder that a mark registers for a class. -/
def builderFor (r : Ref) (m : Mark) : Option Value := m.enrolled?.bind (Table.valueFor r)

/-- The builder that a mark marks a class with. -/
def markerFor (r : Ref) : Mark → Option Value
  | marked type builder => if type.ref? = some r then some builder else none
  | _ => none

theorem enrolled?_of_isPassing {m : Mark} (hm : m.isPassing = true) : m.enrolled? = none := by
  cases m <;> first | rfl | cases hm

theorem markerFor_of_isPassing {m : Mark} (hm : m.isPassing = true) (r : Ref) :
    m.markerFor r = none := by
  cases m <;> first | rfl | cases hm

end Mark

/-- What marks make of the builders that an engine knows. -/
structure BuildersAfter (w : World) (ms : List Mark) (w' : World) : Prop where
  /-- The accepted registrations were put one after another. -/
  mappings : w'.mappings = w.mappings.putAll (ms.filterMap Mark.enrolled?)
  /-- An object stays frozen or not. If it is not frozen, it carries the last marker that it was
  given. -/
  markers : ∀ (r : Ref) (o : Object), w.heap[r]? = some o → ∃ o', w'.heap[r]? = some o' ∧
    o'.frozen = o.frozen ∧
    o'.marker = if o.frozen then o.marker else
      ((ms.filterMap (Mark.markerFor r)).getLast?).or o.marker

namespace BuildersAfter

variable {w w₁ w₂ : World} {ms ns : List Mark}

/-- Nothing happened to builders. -/
theorem of_objects (hmappings : w₁.mappings = w.mappings)
    (hobjects : ∀ (r : Ref) (o : Object), w.heap[r]? = some o →
      ∃ o', w₁.heap[r]? = some o' ∧ o'.frozen = o.frozen ∧ o'.marker = o.marker)
    (hms : ∀ m ∈ ms, m.enrolled? = none ∧ ∀ r, m.markerFor r = none) : BuildersAfter w ms w₁ := by
  refine ⟨?_, fun r o hr => ?_⟩
  · rw [hmappings, List.filterMap_eq_nil_iff.mpr fun m hm => (hms m hm).1]
    rfl
  · obtain ⟨o', hr', hfrozen, hmarker⟩ := hobjects r o hr
    refine ⟨o', hr', hfrozen, ?_⟩
    rw [List.filterMap_eq_nil_iff.mpr fun m hm => (hms m hm).2 r, hmarker]
    simp

theorem refl (w : World) : BuildersAfter w [] w :=
  of_objects rfl (fun _ o hr => ⟨o, hr, rfl, rfl⟩) fun _ hm => absurd hm List.not_mem_nil

theorem append (h : BuildersAfter w ms w₁) (h' : BuildersAfter w₁ ns w₂) :
    BuildersAfter w (ms ++ ns) w₂ := by
  refine ⟨?_, fun r o hr => ?_⟩
  · rw [h'.mappings, h.mappings, List.filterMap_append, Table.putAll_append]
  · obtain ⟨o₁, hr₁, hfrozen₁, hmarker₁⟩ := h.markers r o hr
    obtain ⟨o₂, hr₂, hfrozen₂, hmarker₂⟩ := h'.markers r o₁ hr₁
    refine ⟨o₂, hr₂, hfrozen₂.trans hfrozen₁, ?_⟩
    -- the later marker wins, and where there is none the earlier one stays
    rw [hmarker₂, hmarker₁, hfrozen₁, List.filterMap_append, List.getLast?_append]
    split
    · rfl
    · rw [Option.or_assoc]

end BuildersAfter

/-- Every registration among marks was accepted or not by what the builder was then. -/
def Judged (w : World) (ms : List Mark) : Prop :=
  ∀ a type builder accepted b, ms = a ++ .registered type builder accepted :: b →
    ∃ w₁, w₁.history = w.history ++ a ∧ BuildersAfter w a w₁ ∧
      accepted = w₁.heap.accepts type builder

/-- What one world knows of builders beyond the other one is what its marks say. -/
def Accounted (w w' : World) : Prop :=
  ∃ ms, w'.history = w.history ++ ms ∧ BuildersAfter w ms w' ∧ Judged w ms

namespace Accounted

theorem trans {a b c : World} (hab : Accounted a b) (hbc : Accounted b c) : Accounted a c := by
  obtain ⟨ms, hms, hafter, hjudged⟩ := hab
  obtain ⟨ns, hns, hafter', hjudged'⟩ := hbc
  refine ⟨ms ++ ns, ?_, hafter.append hafter', ?_⟩
  · rw [hns, hms, List.append_assoc]
  intro p type builder accepted q hsplit
  -- the registration is among the marks of one step or of the other
  rcases List.append_eq_append_iff.mp hsplit with ⟨p', rfl, hq⟩ | ⟨q', hp, hq⟩
  · -- the mark is among the later ones
    obtain ⟨w₁, hw₁, hafter₁, haccepted⟩ := hjudged' p' type builder accepted q hq
    refine ⟨w₁, ?_, hafter.append hafter₁, haccepted⟩
    rw [hw₁, hms, List.append_assoc]
  · cases q' with
    | nil =>
      obtain ⟨w₁, hw₁, hafter₁, haccepted⟩ := hjudged' [] type builder accepted q hq.symm
      rw [List.append_nil] at hp hw₁
      subst hp
      refine ⟨w₁, by rw [hw₁, hms], ?_, haccepted⟩
      have happend := hafter.append hafter₁
      rwa [List.append_nil] at happend
    | cons m q' =>
      cases hq
      exact hjudged p type builder accepted q' hp

/-- A step that leaves no registration. -/
theorem of_step {w w' : World} {ms : List Mark} (hhistory : w'.history = w.history ++ ms)
    (hafter : BuildersAfter w ms w')
    (hms : ∀ type builder accepted, .registered type builder accepted ∉ ms) :
    Accounted w w' := by
  refine ⟨ms, hhistory, hafter, ?_⟩
  rintro a type builder accepted b rfl
  exact absurd (List.mem_append_right a List.mem_cons_self) (hms type builder accepted)

/-- A step that has nothing to do with builders. -/
theorem of_objects {w w' : World} {ms : List Mark} (hhistory : w'.history = w.history ++ ms)
    (hmappings : w'.mappings = w.mappings)
    (hobjects : ∀ (r : Ref) (o : Object), w.heap[r]? = some o →
      ∃ o', w'.heap[r]? = some o' ∧ o'.frozen = o.frozen ∧ o'.marker = o.marker)
    (hms : ∀ m ∈ ms, m.isPassing = true ∨ ∃ r, m = .altered r) : Accounted w w' := by
  refine of_step hhistory (BuildersAfter.of_objects hmappings hobjects fun m hm => ?_)
    fun type builder accepted hm => ?_
  · rcases hms m hm with hpassing | ⟨r, rfl⟩
    · exact ⟨Mark.enrolled?_of_isPassing hpassing, Mark.markerFor_of_isPassing hpassing⟩
    · exact ⟨rfl, fun _ => rfl⟩
  · rcases hms _ hm with hpassing | ⟨r, hr⟩
    · cases hpassing
    · cases hr

/-- A step that leaves no mark and has nothing to do with builders. -/
theorem of_unmarked {w w' : World} (hhistory : w'.history = w.history)
    (hmappings : w'.mappings = w.mappings)
    (hobjects : ∀ (r : Ref) (o : Object), w.heap[r]? = some o →
      ∃ o', w'.heap[r]? = some o' ∧ o'.frozen = o.frozen ∧ o'.marker = o.marker) :
        Accounted w w' := by
  have hmarks : w'.history = w.history ++ [] := by rw [hhistory, List.append_nil]
  exact of_objects hmarks hmappings hobjects fun _ hm => absurd hm List.not_mem_nil

/-- A step that leaves the heap, the registered builders and the history as they are. -/
theorem of_eq {w w' : World} (hhistory : w'.history = w.history)
    (hmappings : w'.mappings = w.mappings)
    (hheap : w'.heap = w.heap) : Accounted w w' :=
  of_unmarked hhistory hmappings fun _ o hr => ⟨o, by rw [hheap, hr], rfl, rfl⟩

end Accounted

/-- A change of an object leaves the markers of all objects, if it leaves that of the object. -/
theorem Heap.getElem?_update_gentle (h : Heap) (v : Value) {f : Object → Object}
    (hf : Action.Gentle f) (r : Ref)
    (o : Object) (hr : h[r]? = some o) :
    ∃ o', (h.update v f)[r]? = some o' ∧ o'.frozen = o.frozen ∧ o'.marker = o.marker := by
  rcases getElem?_update_or v f hr with hsame | ⟨-, hchanged⟩
  · exact ⟨o, hsame, rfl, rfl⟩
  · exact ⟨f o, hchanged, hf.frozen o, hf.marker o⟩

namespace Accounted

open EvalPlan.Action

theorem steady : Steady Accounted where
  refl w := of_eq rfl rfl rfl
  trans := trans
  onAlloc w o _ := of_unmarked rfl rfl fun r o' hr => ⟨o', w.heap.extends_push o r o' hr, rfl, rfl⟩
  onChange w v f hf := by
    refine of_objects rfl rfl (w.heap.getElem?_update_gentle v hf) fun m hm => .inr ?_
    rcases alterations_eq v with h | ⟨r, h⟩
    · rw [h] at hm
      cases hm
    · rw [h] at hm
      exact ⟨r, List.mem_singleton.mp hm⟩
  onFrames _ _ := of_eq rfl rfl rfl
  onQueue _ _ := of_eq rfl rfl rfl
  onJoining _ _ := of_eq rfl rfl rfl
  onNote _ _ _ := of_eq rfl rfl rfl

theorem enroll (type builder : Value) : Keeps Accounted (Action.enroll type builder) := by
  intro w
  have hmappings : (if w.heap.accepts type builder then w.mappings.put type builder else w.mappings) =
      w.mappings.putAll ([Mark.registered type builder (w.heap.accepts type builder)].filterMap
        Mark.enrolled?) := by
    cases w.heap.accepts type builder <;> rfl
  refine ⟨[.registered type builder (w.heap.accepts type builder)], rfl,
    ⟨hmappings, fun _ o hr => ?_⟩, ?_⟩
  · exact ⟨o, hr, rfl, (ite_self _).symm⟩
  · -- the one mark was judged in the world before it
    intro a type' builder' accepted b hsplit
    cases a with
    | nil =>
      cases hsplit
      exact ⟨w, (List.append_nil _).symm, BuildersAfter.refl w, rfl⟩
    | cons m a => cases a <;> cases hsplit

theorem attach (type builder : Value) : Keeps Accounted (Action.attach type builder) := by
  intro w
  have hmarks :
    ∀ t b accepted, .registered t b accepted ∉ [Mark.marked type builder] := fun _ _ _ hm =>
    nomatch List.mem_singleton.mp hm
  refine of_step rfl ⟨rfl, fun r o hr => ?_⟩ hmarks
  show ∃ o', (w.heap.update type _)[r]? = some o' ∧ _
  rw [Heap.getElem?_update, hr]
  by_cases htype : type.ref? = some r
  · -- the object that is marked carries the marker, unless it is frozen
    rw [if_pos htype, Option.map_some]
    refine ⟨_, rfl, ?_, ?_⟩
    · split <;> rfl
    · split
      · rfl
      · simp [Mark.markerFor, htype]
  · rw [if_neg htype]
    refine ⟨o, rfl, rfl, ?_⟩
    simp [Mark.markerFor, htype]

theorem indifferent : Indifferent Accounted where
  toSteady := steady
  onPassing _ _ _ _ _ hms := of_objects rfl rfl (fun _ o hr => ⟨o, hr, rfl, rfl⟩) fun m hm =>
    .inl (hms m hm)
  onImports w r imports :=
    of_unmarked rfl rfl (w.heap.getElem?_update_gentle (.ref r) (gentle_put "imports" imports))
  onEnroll := enroll
  onAttach := attach
  onTypes _ _ := of_eq rfl rfl rfl

end Accounted

end EvalPlan
