import EvalPlan.Proofs.Law.Indifferent

/-!
# What stays in the heap

A relation between heaps that making objects, changing them and marking them keep is kept by
everything an engine does (`HeapLaw.indifferent`). In particular an object that is frozen stays
exactly as it is: the lists of tasks that scripts get from the engine never change.
-/

namespace EvalPlan

/-- A relation between heaps that every change of the heap keeps. -/
structure HeapLaw (Q : Heap → Heap → Prop) : Prop where
  refl : ∀ h, Q h h
  trans : ∀ {a b c}, Q a b → Q b c → Q a c
  onAlloc : ∀ h o, o.HoldsName → Q h (h.push o)
  onChange : ∀ h v f, Action.Gentle f → Q h (h.update v f)
  onMark : ∀ h type builder, Q h (h.mark type builder)

/-- What every change of the heap keeps is kept by everything that an engine does. -/
theorem HeapLaw.indifferent {Q : Heap → Heap → Prop} (law : HeapLaw Q) :
    Action.Indifferent fun w w' => Q w.heap w'.heap where
  refl w := law.refl w.heap
  trans := law.trans
  onAlloc w o h := law.onAlloc w.heap o h
  onChange w v f h := law.onChange w.heap v f h
  onFrames w _ := law.refl w.heap
  onQueue w _ := law.refl w.heap
  onJoining w _ := law.refl w.heap
  onNote w _ _ := law.refl w.heap
  onTypes w _ := law.refl w.heap
  onPassing w _ _ _ _ _ := law.refl w.heap
  onImports w r imports := law.onChange w.heap (.ref r) _ (Action.gentle_put "imports" imports)
  onEnroll _ _ w := law.refl w.heap
  onAttach type builder w := law.onMark w.heap type builder

/-! ## Frozen objects -/

/-- Every frozen object of one heap is in the other one as it was. -/
def KeepsFrozen (h h' : Heap) : Prop :=
  ∀ (r : Ref) (o : Object), h[r]? = some o → o.frozen = true → h'[r]? = some o

/-- A change of an object passes over it if it is frozen. -/
theorem Heap.keepsFrozen_update (h : Heap) (v : Value) (f : Object → Object) :
    KeepsFrozen h (h.update v f) := by
  intro r o hr hfrozen
  rcases getElem?_update_or v f hr with hsame | ⟨hnot, -⟩
  · exact hsame
  · rw [hfrozen] at hnot
    cases hnot

theorem keepsFrozen_law : HeapLaw KeepsFrozen where
  refl _ _ _ hr _ := hr
  trans hab hbc r o hr hfrozen := hbc r o (hab r o hr hfrozen) hfrozen
  onAlloc h o _ r o' hr _ := h.extends_push o r o' hr
  onChange h v f _ := h.keepsFrozen_update v f
  onMark h type _ := h.keepsFrozen_update type _

end EvalPlan
