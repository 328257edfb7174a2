import EvalPlan.Proofs.Heap

/-!
# Parents that come to an end

In a rooted heap the parents of every object come to an end, and all of them are in the heap. What
is read of an object of a rooted heap, found or not, is read the same after objects were added, and
a class is a builder after objects that cannot be called were added exactly if it was one before
(`isBuilder_eq`).
-/

namespace EvalPlan.Heap

/-- The parents of an object come to an end in the heap. The number bounds the objects that are
looked at. -/
def endsWithin (h : Heap) : Nat → Ref → Bool
  | 0, _ => false
  | n + 1, r =>
    match h[r]? with
    | none => false
    | some o =>
      match o.parent with
      | none => true
      | some p => h.endsWithin n p

/-- Nothing inherits from itself or from what is not there. -/
def Rooted (h : Heap) : Prop := ∀ r < h.size, h.endsWithin h.size r = true

instance (h : Heap) : Decidable h.Rooted := Nat.decidableBallLT _ _

/-- Objects were added, and none of them can be called. -/
structure Gains (h h' : Heap) : Prop where
  kept : h.Extends h'
  uncallable : ∀ v, h'.isCallable v = true → h.isCallable v = true

variable {h h' h'' : Heap}

theorem Gains.refl (h : Heap) : h.Gains h := ⟨fun _ _ hr => hr, fun _ hv => hv⟩

theorem Gains.trans (hgains : h.Gains h') (hgains' : h'.Gains h'') : h.Gains h'' :=
  ⟨fun r o hr => hgains'.kept r o (hgains.kept r o hr), fun v hv =>
    hgains.uncallable v (hgains'.uncallable v hv)⟩

/-- An object that cannot be called makes no new types. -/
theorem gains_push (h : Heap) {o : Object} (ho : ∀ c, o.shape ≠ .callable c) :
    h.Gains (h.push o) := by
  refine ⟨h.extends_push o, fun v hv => ?_⟩
  cases v with
  | ref r =>
    by_cases hr : r = h.size
    -- the new object cannot be called
    · exfalso
      subst hr
      simp only [isCallable, callable?, shape?, object?, Array.getElem?_push, if_pos,
        Option.map_some] at hv
      cases hshape : o.shape with
      | callable c => exact ho c hshape
      | _ => simp [hshape] at hv
    · simpa [isCallable, callable?, shape?, object?, Array.getElem?_push, hr] using hv
  | _ => exact hv

/-! ## Adding objects -/

/-- Where the templates of an object end, they end in every heap that extends this one. -/
theorem endsWithin_extends (hext : h.Extends h') {n n' : Nat} (hle : n ≤ n') {r : Ref}
    (hr : h.endsWithin n r = true) : h'.endsWithin n' r = true := by
  -- the induction is on the objects up to the end
  induction n generalizing n' r with
  | zero => cases hr
  | succ n ih =>
    obtain ⟨m, rfl⟩ : ∃ m, n' = m + 1 := Nat.exists_eq_add_one.mpr (by omega)
    cases ho : h[r]? with
    | none => simp [endsWithin, ho] at hr
    | some o =>
      cases hparent : o.parent with
      | none => simp [endsWithin, hext r o ho, hparent]
      | some p =>
        simp only [endsWithin, ho, hparent, hext r o ho] at hr ⊢
        exact ih (by omega) hr

/-- Objects that inherit from what was there leave a heap rooted. -/
theorem Rooted.append (hrooted : h.Rooted) (objects : Heap)
    (hparents : ∀ o ∈ objects, ∀ p, o.parent = some p → p < h.size) : Rooted (h ++ objects) := by
  intro r hr
  rw [Array.size_append] at hr ⊢
  have hext : h.Extends (h ++ objects) := h.extends_append objects
  by_cases hold : r < h.size
  · exact endsWithin_extends hext (Nat.le_add_right _ _) (hrooted r hold)
  · obtain ⟨m, hm⟩ : ∃ m, objects.size = m + 1 := Nat.exists_eq_add_one.mpr (by omega)
    have hnew : (h ++ objects)[r]? = some objects[r - h.size] := by
      rw [Array.getElem?_append_right (Nat.le_of_not_lt hold), Array.getElem?_eq_getElem]
    rw [hm, ← Nat.add_assoc, endsWithin, hnew]
    cases hparent : objects[r - h.size].parent with
    | none => simp [hparent]
    | some p =>
      simp only [hparent]
      exact endsWithin_extends hext (Nat.le_add_right _ _)
        (hrooted p (hparents _ (Array.getElem_mem _) p hparent))

/-! ## Reading what was there before -/

/-- So what is looked for along them is the same, found or not. -/
theorem slotWithin_eq (hext : h.Extends h') {name : Text} {n n' : Nat} (hle : n ≤ n') {r : Ref}
    (hr : h.endsWithin n r = true) : h'.slotWithin name n' r = h.slotWithin name n r := by
  -- the induction is on the objects up to the end
  induction n generalizing n' r with
  | zero => cases hr
  | succ n ih =>
    obtain ⟨m, rfl⟩ : ∃ m, n' = m + 1 := Nat.exists_eq_add_one.mpr (by omega)
    cases ho : h[r]? with
    | none => simp [endsWithin, ho] at hr
    | some o =>
      simp only [slotWithin, ho, hext r o ho]
      split
      · rfl
      · cases hparent : o.parent with
        | none => rfl
        | some p =>
          simp only [endsWithin, ho, hparent] at hr
          exact ih (by omega) hr

/-- An object has the same properties there. -/
theorem value?_eq (hrooted : h.Rooted) (hext : h.Extends h') {v : Value} {o : Object}
    (hv : h.object? v = some o) (name : Text) : h'.value? v name = h.value? v name := by
  cases v with
  | ref r =>
    have hr : r < h.size := (Array.getElem?_eq_some_iff.mp hv).1
    have hslot : h'.slot? r name = h.slot? r name :=
      slotWithin_eq hext (size_le_of_extends hext) (hrooted r hr)
    simp only [value?, find?, hslot]
  | _ => cases hv

/-- The same values can be called there. -/
theorem isCallable_eq (hgains : h.Gains h') (v : Value) : h'.isCallable v = h.isCallable v := by
  rw [Bool.eq_iff_iff]
  exact ⟨hgains.uncallable v, isCallable_extends hgains.kept⟩

/-- A type is what has a template for its instances. -/
theorem isType_iff {v : Value} : h.isType v = true ↔ ∃ t, h.template? v = some t :=
  Option.isSome_iff_exists

/-- The template is an object. -/
theorem object?_of_template? {v t : Value} (ht : h.template? v = some t) :
    ∃ o, h.object? t = some o := by
  unfold template? at ht
  split at ht
  · split at ht
    · split at ht
      next hobject =>
        cases ht
        simp only [isObject, Bool.and_eq_true] at hobject
        exact Option.isSome_iff_exists.mp hobject.1
      · cases ht
    · cases ht
  · cases ht

/-- Whether a class is a builder does not change where no callables are added. -/
theorem isBuilder_eq (hrooted : h.Rooted) (hgains : h.Gains h') {v : Value}
    (hv : h.isType v = true) : h'.isBuilder v = h.isBuilder v := by
  obtain ⟨t, ht⟩ := isType_iff.mp hv
  obtain ⟨o, ho⟩ := object?_of_template? ht
  simp only [isBuilder, ht, template?_extends hgains.kept ht, hasMethod,
    value?_eq hrooted hgains.kept ho]
  split
  · exact isCallable_eq hgains _
  · rfl

/-- A type is neither `undefined` nor `null`. -/
theorem isNullish_of_isType {v : Value} (hv : h.isType v = true) : v.isNullish = false := by
  cases v with
  | undefined => cases hv
  | null => cases hv
  | _ => rfl

end EvalPlan.Heap
