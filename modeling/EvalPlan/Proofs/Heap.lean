import EvalPlan.Value.Guard

/-!
# Reading the heap

What is read of an object that is known: its own properties come before those that it inherits, and
a list that was made of items has these items. A change of one object leaves the others, and what is
read stays where objects are added.
-/

namespace EvalPlan.Heap

variable {h : Heap} {r : Ref} {o : Object}

/-- The property that an object has itself is found first. -/
theorem slot?_own {name : Text} {s : Slot} (hr : h[r]? = some o) (hs : o.own? name = some s) :
    h.slot? r name = some (o.guarded s) := by
  -- there is an object, so that at least one may be looked at
  obtain ⟨n, hn⟩ : ∃ n, h.size = n + 1 :=
    Nat.exists_eq_add_one.mpr (Nat.zero_lt_of_lt (Array.getElem?_eq_some_iff.mp hr).1)
  rw [slot?, hn, slotWithin, hr]
  simp only [hs]

/-- Numbered items are read back in order. -/
theorem itemsFrom_zipIdx (items : List Value) (i : Nat) :
    itemsFrom ((items.zipIdx i).map fun (v, i) => (i, v)) i items.length = items := by
  induction items generalizing i with
  | nil => rfl
  | cons v items ih => simp [itemsFrom, ih]

/-- A list made of items has these items. -/
theorem list?_ofItems {items : List Value} (hr : h[r]? = some o)
    (hshape : o.shape = .ofItems items) :
    h.list? (.ref r) = some items := by
  simp only [list?, shape?, object?, hr, Option.map_some, hshape, Shape.ofItems]
  rw [itemsFrom_zipIdx]

/-- A function does what its object says. -/
theorem callable?_of_shape {c : Callable} (hr : h[r]? = some o) (hshape : o.shape = .callable c) :
    h.callable? (.ref r) = some c := by
  rw [callable?, shape?, object?, hr, Option.map_some, hshape]

/-! ## Changing an object -/

/-- Only the object that a value refers to changes, unless it is frozen. -/
theorem getElem?_update (h : Heap) (v : Value) (f : Object → Object) (r : Ref) :
    (h.update v f)[r]? = if v.ref? = some r then h[r]?.map fun o =>
    if o.frozen then o else f o else h[r]? := by
  cases v with
  | ref s =>
    show (Array.modify h s _)[r]? = _
    rw [Array.getElem?_modify]
    simp only [Value.ref?, Option.some.injEq]
  | _ => rfl

/-- An object after a change is as it was, or it is the one that changed. -/
theorem getElem?_update_or (v : Value) (f : Object → Object) (hr : h[r]? = some o) :
    (h.update v f)[r]? = some o ∨ o.frozen = false ∧ (h.update v f)[r]? = some (f o) := by
  rw [getElem?_update, hr]
  split
  · cases hfrozen : o.frozen with
    | true => exact .inl (by simp [hfrozen])
    | false => exact .inr ⟨rfl, by simp [hfrozen]⟩
  · exact .inl rfl

/-! ## Heaps that grow -/

/-- Every object of one heap is in the other one as it is. -/
def Extends (h h' : Heap) : Prop := ∀ (r : Ref) (o : Object), h[r]? = some o → h'[r]? = some o

/-- A heap with one more object extends the heap. -/
theorem extends_push (h : Heap) (o : Object) : h.Extends (h.push o) := by
  intro r o' hr
  have hlt := (Array.getElem?_eq_some_iff.mp hr).1
  rw [Array.getElem?_push, if_neg (Nat.ne_of_lt hlt)]
  exact hr

/-- So does a heap with more objects. -/
theorem extends_append (h objects : Heap) : h.Extends (h ++ objects) := by
  intro r o hr
  have hlt := (Array.getElem?_eq_some_iff.mp hr).1
  exact (Array.getElem?_append_left hlt).trans hr

/-- It has at least as many objects. -/
theorem size_le_of_extends {h h' : Heap} (hext : h.Extends h') : h.size ≤ h'.size := by
  cases hn : h.size with
  | zero => exact Nat.zero_le _
  | succ n =>
    have hlast : h[n]? = some h[n] := Array.getElem?_eq_getElem (by omega)
    exact (Array.getElem?_eq_some_iff.mp (hext n _ hlast)).1

section extending

variable {h h' : Heap} (hext : h.Extends h')

include hext

/-- An object is the same object there. -/
theorem object?_extends {v : Value} {o : Object} (hv : h.object? v = some o) :
    h'.object? v = some o := by
  cases v with
  | ref r => exact hext r o hv
  | _ => cases hv

/-- A property that is found is found there, for templates are only added. -/
theorem slotWithin_extends {name : Text} {n n' : Nat} (hle : n ≤ n') {r : Ref} {s : Slot}
    (hs : h.slotWithin name n r = some s) : h'.slotWithin name n' r = some s := by
  -- the induction is on the objects that may be looked at; a larger heap allows more of them
  induction n generalizing n' r with
  | zero => cases hs
  | succ n ih =>
    obtain ⟨m, rfl⟩ : ∃ m, n' = m + 1 := Nat.exists_eq_add_one.mpr (by omega)
    unfold slotWithin at hs ⊢
    cases hr : h[r]? with
    | none => simp [hr] at hs
    | some o =>
      rw [hext r o hr]
      simp only [hr] at hs ⊢
      cases hown : o.own? name with
      | some s' => simpa [hown] using hs
      | none =>
        simp only [hown] at hs ⊢
        obtain ⟨p, hp, hps⟩ := Option.bind_eq_some_iff.mp hs
        rw [hp]
        exact ih (by omega) hps

/-- So it is without a bound on the search. -/
theorem slot?_extends {r : Ref} {name : Text} {s : Slot} (hs : h.slot? r name = some s) :
    h'.slot? r name = some s :=
  slotWithin_extends hext (size_le_of_extends hext) hs

/-- So it is from any value. -/
theorem find?_extends {realm : Realm} {v : Value} {name : Text} {s : Slot}
    (hs : h.find? realm v name = some s) :
    h'.find? realm v name = some s := by
  cases v with
  | undefined => cases hs
  | null => cases hs
  | text t =>
    simp only [find?] at hs ⊢
    -- the length and the units of a text are its own, and the rest is inherited
    split
    next s' ht => simpa [ht] using hs
    next ht =>
      simp only [ht] at hs
      exact slot?_extends hext hs
  | _ => exact slot?_extends hext hs

/-- It has the same value there. -/
theorem value?_extends {v x : Value} {name : Text} (hx : h.value? v name = some x) :
    h'.value? v name = some x := by
  obtain ⟨s, hs, hsx⟩ := Option.bind_eq_some_iff.mp hx
  rw [value?, find?_extends hext hs]
  exact hsx

/-- What can be called can be called there. -/
theorem isCallable_extends {v : Value} (hv : h.isCallable v = true) : h'.isCallable v = true := by
  cases ho : h.object? v with
  | none => simp [isCallable, callable?, shape?, ho] at hv
  | some o => simpa [isCallable, callable?, shape?, ho, object?_extends hext ho] using hv

/-- What is an object is one there. -/
theorem isObject_extends {v : Value} (hv : h.isObject v = true) : h'.isObject v = true := by
  cases ho : h.object? v with
  | none => simp [isObject, ho] at hv
  | some o => simpa [isObject, isCallable, callable?, shape?, ho, object?_extends hext ho] using hv

/-- Instances have the same template there. -/
theorem template?_extends {v t : Value} (ht : h.template? v = some t) :
    h'.template? v = some t := by
  unfold template? at ht ⊢
  -- a class can be called, and holds an object as its template
  split at ht
  next hv =>
    rw [if_pos (isCallable_extends hext hv)]
    split at ht
    next t' hprototype =>
      rw [value?_extends hext hprototype]
      split at ht
      next hobject =>
        simp only
        rw [if_pos (isObject_extends hext hobject), ht]
      next => cases ht
    next => cases ht
  next => cases ht

/-- A builder stays one where objects are added. -/
theorem isBuilder_extends {v : Value} (hv : h.isBuilder v = true) : h'.isBuilder v = true := by
  unfold isBuilder at hv ⊢
  split at hv
  next t ht =>
    rw [template?_extends hext ht]
    simp only
    unfold hasMethod at hv ⊢
    split at hv
    next build hbuild =>
      rw [value?_extends hext hbuild]
      exact isCallable_extends hext hv
    next => cases hv
  next => cases hv

end extending

end EvalPlan.Heap
