import EvalPlan.Proofs.Lookup
import EvalPlan.Proofs.Shift

/-!
# Moved heaps

`Shift.Heaps` relates a heap to one in which the same objects stand with other objects in between:
what was there from the beginning stands in its place, and what came later stands further behind.
Whatever can be asked of the one heap has the moved answer in the other one.
-/

namespace EvalPlan

namespace Shift

variable (σ : Shift)

/-! ## Values -/

/-- A symbol moves with the object that makes it different from the others. -/
@[simp] theorem value_undefined : σ.value .undefined = .undefined := rfl
@[simp] theorem value_null : σ.value .null = .null := rfl
@[simp] theorem value_bool (b : Bool) : σ.value (.bool b) = .bool b := rfl
@[simp] theorem value_number (x : Float) : σ.value (.number x) = .number x := rfl
@[simp] theorem value_text (t : Text) : σ.value (.text t) = .text t := rfl
@[simp] theorem value_bigint (n : Int) : σ.value (.bigint n) = .bigint n := rfl
@[simp] theorem value_symbol (description : Text) (serial : Nat) :
    σ.value (.symbol description serial) = .symbol description (σ.ref serial) := rfl
/-- A reference moves with its object. -/
@[simp] theorem value_ref (r : Ref) : σ.value (.ref r) = .ref (σ.ref r) := rfl

/-- Whether a value is missing does not depend on the move. -/
@[simp] theorem isNullish_value (v : Value) : (σ.value v).isNullish = v.isNullish := by
  cases v <;> rfl

/-- Nor does whether it counts as true. -/
@[simp] theorem isTruthy_value (v : Value) : (σ.value v).isTruthy = v.isTruthy := by
  cases v <;> rfl

/-- A text stays the text that it is. -/
@[simp] theorem text?_value (v : Value) : (σ.value v).text? = v.text? := by cases v <;> rfl

/-- What a moved value refers to is the moved object. -/
@[simp] theorem ref?_value (v : Value) : (σ.value v).ref? = v.ref?.map σ.ref := by cases v <;> rfl

/-- Two values are the same exactly if they are after the move. -/
@[simp] theorem same_value (v x : Value) : (σ.value v == σ.value x) = (v == x) := by
  show Value.same _ _ = Value.same _ _
  cases v <;> cases x <;> simp [Value.same]

/-- A value that names nothing is compared as it is. -/
theorem same_text (v : Value) (t : Text) : (σ.value v == .text t) = (v == .text t) :=
  σ.same_value v (.text t)

/-- Whether a value is a certain number does not depend on the move. -/
theorem same_number (v : Value) (x : Float) : (σ.value v == .number x) = (v == .number x) :=
  σ.same_value v (.number x)

/-! ## Tables -/

/-- Looking a key up in a table whose values are mapped is mapping what is found. -/
theorem get?_map {α β γ : Type} [BEq α] (f : β → γ) (t : Table α β) (k : α) :
    Table.get? (t.map fun row => (row.1, f row.2)) k = (t.get? k).map f := by
  induction t with
  | nil => rfl
  | cons row rest ih =>
    simp only [List.map_cons, Table.get?]
    split
    · rfl
    · exact ih

/-- Putting a mapped value into a mapped table is mapping the table with the value in it. -/
theorem put_map {α β γ : Type} [BEq α] (f : β → γ) (t : Table α β) (k : α) (v : β) :
    Table.put (t.map fun row => (row.1, f row.2)) k (f v) =
      (t.put k v).map fun row => (row.1, f row.2) := by
  induction t with
  | nil => rfl
  | cons row rest ih =>
    simp only [List.map_cons, Table.put]
    split
    · rfl
    · rw [ih, List.map_cons]

/-- A moved property is found under its name. -/
@[simp] theorem get?_slots (t : Table Text Slot) (name : Text) :
    (σ.slots t).get? name = (t.get? name).map σ.slot := get?_map _ _ _

/-- Setting a property commutes with the move. -/
@[simp] theorem put_slots (t : Table Text Slot) (name : Text) (s : Slot) :
    (σ.slots t).put name (σ.slot s) = σ.slots (t.put name s) := put_map _ _ _ _

/-- A variable of a moved frame has the moved value. -/
@[simp] theorem get?_bindings (t : Table Text (Option Value)) (name : Text) :
    (σ.bindings t).get? name = (t.get? name).map (Option.map σ.value) := get?_map _ _ _

/-- Giving a variable a value commutes with the move. -/
@[simp] theorem put_bindings (t : Table Text (Option Value)) (name : Text) (v : Value) :
    (σ.bindings t).put name (some (σ.value v)) = σ.bindings (t.put name (some v)) :=
  put_map (Option.map σ.value) t name (some v)

/-- Moved values are looked up among moved values. -/
theorem get?_mappings (t : Table Value Value) (k : Value) :
    Table.get? (t.map fun row => (σ.value row.1, σ.value row.2)) (σ.value k) =
      (t.get? k).map σ.value := by
  induction t with
  | nil => rfl
  | cons row rest ih =>
    simp only [List.map_cons, Table.get?, same_value]
    split
    · rfl
    · exact ih

/-- So does registering a builder, whose class moves along with it. -/
theorem put_mappings (t : Table Value Value) (k v : Value) :
    Table.put (t.map fun row => (σ.value row.1, σ.value row.2)) (σ.value k) (σ.value v) =
      (t.put k v).map fun row => (σ.value row.1, σ.value row.2) := by
  induction t with
  | nil => rfl
  | cons row rest ih =>
    simp only [List.map_cons, Table.put, same_value]
    split
    · rfl
    · rw [ih, List.map_cons]

/-! ## Properties -/

/-- The value of a moved property is the moved value, if it is not computed. -/
@[simp] theorem value?_slot (s : Slot) : (σ.slot s).value? = s.value?.map σ.value := by
  cases s <;> rfl

/-- Whether a property is enumerated does not depend on the move. -/
@[simp] theorem isShown_slot (s : Slot) : (σ.slot s).isShown = s.isShown := by cases s <;> rfl

/-- So does a hidden one. -/
@[simp] theorem slot_ordinary (v : Value) : σ.slot (.ordinary v) = .ordinary (σ.value v) := rfl
@[simp] theorem slot_hidden (v : Value) : σ.slot (.hidden v) = .hidden (σ.value v) := rfl

/-- What a text has of its own names nothing. -/
theorem slot_ofText? (t name : Text) : (Heap.ofText? t name).map σ.slot = Heap.ofText? t name := by
  unfold Heap.ofText?
  split
  · rfl
  · cases name.toIndex?.bind fun i => t[i]? <;> rfl

/-- The items of a moved list stand in their places. -/
theorem lookup_cells (cells : List (Nat × Value)) (i : Nat) :
    (cells.map σ.cell).lookup i = (cells.lookup i).map σ.value := by
  induction cells with
  | nil => rfl
  | cons c rest ih =>
    obtain ⟨j, v⟩ := c
    simp only [List.map_cons, List.lookup_cons, cell]
    cases i == j with
    | true => rfl
    | false => exact ih

/-- A moved object has the moved properties. -/
theorem own?_object (o : Object) (name : Text) :
    (σ.object o).own? name = (o.own? name).map σ.slot := by
  unfold Object.own? object
  cases o.shape with
  | list cells length =>
    simp only [shape]
    split
    · rfl
    · rw [show (name.toIndex?.bind fun i => (cells.map σ.cell).lookup i) =
          (name.toIndex?.bind fun i => cells.lookup i).map σ.value by
        cases name.toIndex? <;> simp [lookup_cells]]
      cases name.toIndex?.bind fun i => cells.lookup i with
      | none => exact σ.get?_slots _ _
      | some v => rfl
  | plain | error _ | callable _ => exact σ.get?_slots _ _

/-- Freezing protects a moved property in the same way. -/
theorem guarded_object (o : Object) (s : Slot) :
    (σ.object o).guarded (σ.slot s) = σ.slot (o.guarded s) := by cases s <;> rfl

/-! ## The other heap -/

/-- The other heap holds the moved objects of a heap. -/
structure Heaps (h h' : Heap) : Prop where
  /-- There are that many more of them. -/
  size : h'.size = h.size + σ.objectsBy
  /-- Those that stay are there. -/
  objects_le : σ.objects ≤ h.size
  /-- The objects are the moved ones. -/
  get : ∀ r : Nat, h'[σ.ref r]? = (h[r]?).map σ.object
  /-- No realm of theirs is torn apart. -/
  fits : ∀ (r : Nat) o, h[r]? = some o → σ.FitsObject o

variable {σ} {h h' : Heap}

namespace Heaps

variable (hh : σ.Heaps h h')

include hh

/-- The next object moves to the next object. -/
theorem ref_size : σ.ref h.size = h'.size := by
  rw [hh.size, ref, if_neg (Nat.not_lt.mpr hh.objects_le)]

/-- The object after the next one goes to the place after the next one. -/
theorem ref_succ_size : σ.ref (h.size + 1) = h'.size + 1 := by
  rw [hh.size, ref, if_neg (Nat.not_lt.mpr (Nat.le_succ_of_le hh.objects_le)), Nat.add_right_comm]

/-- The objects from the next one on move by the same distance. -/
theorem fits_next : σ.Fits ⟨h.size⟩ where
  move i _ := by
    show σ.ref (h.size + i) = σ.ref h.size + i
    unfold ref
    rw [if_neg (Nat.not_lt.mpr (Nat.le_trans hh.objects_le (Nat.le_add_right _ _))),
      if_neg (Nat.not_lt.mpr hh.objects_le), Nat.add_right_comm]

/-- A moved value refers to the moved object. -/
@[simp] theorem object? (v : Value) : h'.object? (σ.value v) = (h.object? v).map σ.object := by
  cases v <;> first | rfl | exact hh.get _

/-- The object there has the moved shape. -/
theorem shape? (v : Value) : h'.shape? (σ.value v) = (h.shape? v).map σ.shape := by
  unfold Heap.shape?
  rw [hh.object?]
  cases h.object? v <;> rfl

/-- A moved value is called like the one that it comes from. -/
theorem callable? (v : Value) : h'.callable? (σ.value v) = (h.callable? v).map σ.callable := by
  unfold Heap.callable?
  rw [hh.shape?]
  cases h.shape? v with
  | none => rfl
  | some s => cases s <;> rfl

/-- The realm of a callable is not torn apart. -/
theorem fitsCallable {v : Value} {c : Callable} (hc : h.callable? v = some c) :
    σ.FitsCallable c := by
  unfold Heap.callable? Heap.shape? at hc
  cases v with
  | ref r =>
    simp only [Heap.object?] at hc
    cases ho : h[r]? with
    | none => simp [ho] at hc
    | some o =>
      rw [ho, Option.map_some] at hc
      cases hs : o.shape with
      | callable c' =>
        rw [hs] at hc
        cases hc
        exact (hh.fits r o ho).callable c hs
      | _ => simp [hs] at hc
  | _ => cases hc

/-- Whether a value can be called is the same in both heaps. -/
theorem isCallable (v : Value) : h'.isCallable (σ.value v) = h.isCallable v := by
  unfold Heap.isCallable
  rw [hh.callable?, Option.isSome_map]

/-- So is whether it is an object. -/
theorem isObject (v : Value) : h'.isObject (σ.value v) = h.isObject v := by
  unfold Heap.isObject
  rw [hh.object?, hh.isCallable, Option.isSome_map]

/-- So is whether it is a list. -/
theorem isList (v : Value) : h'.isList (σ.value v) = h.isList v := by
  unfold Heap.isList
  rw [hh.shape?]
  cases h.shape? v with
  | none => rfl
  | some s => cases s <;> rfl

/-- An error is of the same kind in both heaps. -/
theorem errorKind? (v : Value) : h'.errorKind? (σ.value v) = h.errorKind? v := by
  unfold Heap.errorKind?
  rw [hh.shape?]
  cases h.shape? v with
  | none => rfl
  | some s => cases s <;> rfl

/-- A described class moves with its description. -/
theorem blueprint? (v : Value) : h'.blueprint? (σ.value v) = (h.blueprint? v).map σ.blueprint := by
  unfold Heap.blueprint?
  rw [hh.callable?]
  cases h.callable? v with
  | none => rfl
  | some c => cases c <;> rfl

/-! ### Along the parents -/

/-- The property that an object has or inherits is the moved one, by induction along its parents. -/
theorem slot? (r : Ref) (name : Text) : h'.slot? (σ.ref r) name = (h.slot? r name).map σ.slot := by
  have hsteps (n : Nat) (r : Ref) :
      h'.slotWithin name n (σ.ref r) = (h.slotWithin name n r).map σ.slot := by
    induction n generalizing r with
    | zero => rfl
    | succ n ih =>
      unfold Heap.slotWithin
      rw [hh.get]
      cases h[r]? with
      | none => rfl
      | some o =>
        simp only [Option.map_some, own?_object]
        cases o.own? name with
        | some s => exact congrArg some (guarded_object σ o s)
        | none =>
          show (o.parent.map σ.ref).bind (h'.slotWithin name n) = _
          cases o.parent with
          | none => rfl
          | some p => exact ih p
  rw [← h.slotWithin_of_le name (hh.size ▸ Nat.le_add_right h.size σ.objectsBy) r, ← hsteps]
  rfl

/-- Whether one object inherits from another is the same in both heaps. -/
theorem inherits (v : Value) (ancestor : Ref) :
    h'.inherits (σ.value v) (σ.ref ancestor) = h.inherits v ancestor := by
  have hsteps (n : Nat) (r : Ref) :
      h'.inheritsWithin (σ.ref ancestor) n (σ.ref r) = h.inheritsWithin ancestor n r := by
    induction n generalizing r with
    | zero => rfl
    | succ n ih =>
      rw [Heap.inheritsWithin_succ, Heap.inheritsWithin_succ, Heap.parent?, Heap.parent?, hh.get]
      cases h[r]? with
      | none => rfl
      | some o => cases hp : o.parent <;> simp [hp, object, ih]
  cases v with
  | ref r =>
    show h'.inheritsWithin _ h'.size _ = h.inheritsWithin ancestor h.size r
    rw [← h.inheritsWithin_of_le ancestor (hh.size ▸ Nat.le_add_right h.size σ.objectsBy) r, hsteps]
  | _ => rfl

/-- The way to go through a value moves with the value. -/
theorem walk? (v : Value) : h'.walk? (σ.value v) = (h.walk? v).map σ.walk := by
  -- the chain of templates is climbed in both heaps together
  have hsteps (n : Nat) (r : Ref) : h'.walkWithin n (σ.ref r) = (h.walkWithin n r).map σ.walk := by
    induction n generalizing r with
    | zero => rfl
    | succ n ih =>
      unfold Heap.walkWithin
      rw [hh.get]
      cases h[r]? with
      | none => rfl
      | some o =>
        simp only [Option.map_some, object]
        cases o.walk with
        | some k => rfl
        | none =>
          cases o.parent with
          | none => rfl
          | some p => exact ih p
  cases v with
  | ref r =>
    show h'.walkWithin h'.size _ = (h.walkWithin h.size r).map σ.walk
    -- the other heap allows a longer climb, which finds no more
    rw [← h.walkWithin_of_le (hh.size ▸ Nat.le_add_right h.size σ.objectsBy) r, hsteps]
  | _ => rfl

/-- The realm whose code asks for the text of what is gone through is not torn apart. -/
theorem fits_of_walk? {v : Value} {realm : Realm} (hw : h.walk? v = some (.byText realm)) :
    σ.Fits realm := by
  have hsteps (n : Nat) (r : Ref) (hw : h.walkWithin n r = some (.byText realm)) :
      σ.Fits realm := by
    induction n generalizing r with
    | zero => cases hw
    | succ n ih =>
      unfold Heap.walkWithin at hw
      split at hw
      · cases hw
      next o ho =>
        split at hw
        next k hk =>
          cases hw
          exact (hh.fits r o ho).walk realm hk
        next =>
          obtain ⟨p, -, hw⟩ := Option.bind_eq_some_iff.mp hw
          exact ih p hw
  cases v with
  | ref r => exact hsteps _ r hw
  | _ => cases hw

/-- The property of any value is found in both heaps, also where it comes from the realm. -/
theorem find? (realm : Realm) [σ.Fits realm] (v : Value) (name : Text) :
    h'.find? (σ.realm realm) (σ.value v) name = (h.find? realm v name).map σ.slot := by
  have htemplate (f : Family) : h'.slot? ((σ.realm realm).template f) name =
      (h.slot? (realm.template f) name).map σ.slot := by
    rw [← σ.ref_template realm f, hh.slot?]
  cases v with
  | undefined | null => rfl
  | bool | number | bigint | symbol => exact htemplate _
  | text t =>
    have htext := σ.slot_ofText? t name
    unfold Heap.find?
    simp only [value_text]
    cases ht : Heap.ofText? t name with
    | none => exact htemplate _
    | some s =>
      rw [ht] at htext
      exact htext.symm
  | ref r => exact hh.slot? r name

/-- The value of a property is the moved one. -/
theorem value? (v : Value) (name : Text) :
    h'.value? (σ.value v) name = (h.value? v name).map σ.value := by
  have hfind := hh.find? .main v name
  rw [realm_main] at hfind
  unfold Heap.value?
  rw [hfind]
  cases h.find? .main v name with
  | none => rfl
  | some s => exact σ.value?_slot s

/-- An item of a list is the moved one. -/
theorem item (v : Value) (i : Nat) : h'.item (σ.value v) i = σ.value (h.item v i) := by
  unfold Heap.item
  rw [hh.value?]
  cases h.value? v (Text.ofNat i) <;> rfl

/-- The items of a list are the moved ones, and they are all valid in both heaps or in neither. -/
theorem itemsIf {valid valid' : Value → Bool} (hvalid : ∀ x, valid' (σ.value x) = valid x)
    (v : Value) (n i : Nat) :
    h'.itemsIf valid' (σ.value v) n i = (h.itemsIf valid v n i).map (List.map σ.value) := by
  induction n generalizing i with
  | zero => rfl
  | succ n ih =>
    simp only [Heap.itemsIf, hh.item, hvalid, ih]
    split
    · cases h.itemsIf valid v n (i + 1) <;> rfl
    · rfl

/-- The text of a property is the same in both heaps. -/
theorem text? (v : Value) (name : Text) : h'.text? (σ.value v) name = h.text? v name := by
  unfold Heap.text?
  rw [hh.value?]
  cases h.value? v name with
  | none => rfl
  | some x => exact σ.text?_value x

/-- An object has the same methods in both heaps. -/
theorem hasMethod (v : Value) (name : Text) :
    h'.hasMethod (σ.value v) name = h.hasMethod v name := by
  unfold Heap.hasMethod
  rw [hh.value?]
  cases h.value? v name with
  | none => rfl
  | some x => exact hh.isCallable x

/-- It is called the same. -/
theorem nameOf (v : Value) : h'.nameOf (σ.value v) = h.nameOf v := by
  unfold Heap.nameOf
  rw [hh.text?]

/-! ### Lists and members -/

omit hh in
/-- The items from a position on are moved one by one. -/
theorem itemsFrom_cells (cells : List (Nat × Value)) (i n : Nat) :
    Heap.itemsFrom (cells.map σ.cell) i n = (Heap.itemsFrom cells i n).map σ.value := by
  induction n generalizing cells i with
  | zero => simp [Heap.itemsFrom]
  | succ n ih =>
    cases cells with
    | nil => exact congrArg _ (ih [] (i + 1))
    | cons c rest =>
      obtain ⟨j, v⟩ := c
      simp only [List.map_cons, Heap.itemsFrom, Shift.cell]
      split
      · exact congrArg _ (ih rest (i + 1))
      · exact congrArg _ (ih ((j, v) :: rest) (i + 1))

/-- A moved list holds the moved items. -/
theorem list? (v : Value) : h'.list? (σ.value v) = (h.list? v).map (List.map σ.value) := by
  unfold Heap.list?
  rw [hh.shape?]
  cases h.shape? v with
  | none => rfl
  | some s =>
    cases s with
    | list cells length => exact congrArg some (itemsFrom_cells cells 0 length)
    | _ => rfl

omit hh in
/-- Sorting a row in by its index does not look at what the row holds. -/
theorem insertIndexed_map {α β : Type} (f : α → β) (i : Nat) (x : α) (rows : List (Nat × α)) :
    Heap.insertIndexed i (f x) (rows.map fun row => (row.1, f row.2)) =
      (Heap.insertIndexed i x rows).map fun row => (row.1, f row.2) := by
  induction rows with
  | nil => rfl
  | cons row rest ih =>
    simp only [List.map_cons, Heap.insertIndexed]
    split
    · rfl
    · split
      · rfl
      · rw [ih, List.map_cons]

omit hh in
/-- Indices come first in a moved list of properties, too. -/
theorem indexedFirst_rows (rows : List (Text × Value)) :
    Heap.indexedFirst (rows.map σ.row) = (Heap.indexedFirst rows).map σ.row := by
  unfold Heap.indexedFirst
  simp only [List.map_append]
  congr 1
  · let moved (acc : List (Nat × (Text × Value))) := acc.map fun row => (row.1, σ.row row.2)
    have hrows (acc) : (acc.map (·.2)).map σ.row = (moved acc).map (·.2) := by
      rw [List.map_map, List.map_map]
      rfl
    rw [List.foldl_map, hrows]
    show (List.foldl _ (moved []) rows).map (·.2) = _
    refine congrArg (List.map (·.2)) (List.foldl_hom moved fun acc row => ?_)
    simp only [Shift.row]
    cases row.1.toIndex? with
    | none => rfl
    | some i => exact insertIndexed_map σ.row i row acc
  · induction rows with
    | nil => rfl
    | cons row rest ih =>
      simp only [List.map_cons, List.filter_cons, Shift.row]
      split
      · rw [List.map_cons, ih]; rfl
      · exact ih

omit hh in
/-- The enumerated properties are the moved ones. -/
theorem shownOf_slots (slots : Table Text Slot) :
    Heap.shownOf (σ.slots slots) = (Heap.shownOf slots).map σ.row := by
  induction slots with
  | nil => rfl
  | cons row rest ih =>
    obtain ⟨name, s⟩ := row
    show Heap.shownOf ((name, σ.slot s) :: σ.slots rest) = _
    unfold Heap.shownOf at ih ⊢
    cases s with
    | computed getter setter => simpa [slot] using ih
    | data v shown fixed => cases shown <;> simpa [slot, Shift.row] using ih

/-- What enumerating an object shows moves with its values. -/
theorem members (v : Value) : h'.members (σ.value v) = (h.members v).map σ.row := by
  unfold Heap.members
  rw [hh.object?]
  cases h.object? v with
  | none => rfl
  | some o =>
    have hown : Heap.indexedFirst (Heap.shownOf (σ.slots o.slots)) =
        (Heap.indexedFirst (Heap.shownOf o.slots)).map σ.row := by
      rw [shownOf_slots, indexedFirst_rows]
    simp only [Option.map_some, object]
    cases o.shape with
    | list cells length =>
      simp only [shape, List.map_append, List.map_map]
      rw [hown]
      rfl
    | plain | error _ | callable _ => exact hown

/-! ### Guards -/

/-- An assignment is taken, handed to a setter or refused alike in both heaps. -/
theorem assignment (realm : Realm) [σ.Fits realm] (v : Value) (name : Text) :
    h'.assignment (σ.realm realm) (σ.value v) name =
      match h.assignment realm v name with
      | .taken => .taken
      | .handed setter => .handed (σ.value setter)
      | .refused => .refused := by
  unfold Heap.assignment
  rw [hh.find?, hh.object?]
  cases h.find? realm v name with
  | none =>
    cases h.object? v with
    | none => rfl
    | some o =>
      -- a name that is not there is added, unless the object is frozen
      show (if o.frozen then _ else _) = _
      cases hfrozen : o.frozen <;> simp [hfrozen]
  | some s =>
    cases s with
    | computed getter setter =>
      simp only [Option.map_some, slot, hh.isCallable]
      cases h.isCallable setter <;> rfl
    | data x shown fixed =>
      cases fixed with
      | true => rfl
      | false =>
        cases h.object? v with
        | none => rfl
        | some o =>
          show (if o.frozen then _ else _) = _
          cases hfrozen : o.frozen <;> simp [hfrozen]

/-- The prototype of a class is the moved one. -/
theorem template? (v : Value) : h'.template? (σ.value v) = (h.template? v).map σ.value := by
  unfold Heap.template?
  rw [hh.isCallable, hh.value?]
  cases h.isCallable v with
  | false => rfl
  | true =>
    cases h.value? v "prototype" with
    | none => rfl
    | some t =>
      simp only [if_true, Option.map_some, hh.isObject]
      cases h.isObject t <;> rfl

/-- Whether a value is a class is the same in both heaps. -/
theorem isType (v : Value) : h'.isType (σ.value v) = h.isType v := by
  unfold Heap.isType
  rw [hh.template?, Option.isSome_map]

/-- So is whether it is a builder. -/
theorem isBuilder (v : Value) : h'.isBuilder (σ.value v) = h.isBuilder v := by
  unfold Heap.isBuilder
  rw [hh.template?]
  cases h.template? v with
  | none => rfl
  | some t => exact hh.hasMethod t _

/-- So is whether it is a task. -/
theorem isTask (v : Value) : h'.isTask (σ.value v) = h.isTask v := by
  unfold Heap.isTask
  rw [hh.isObject, hh.text?]

/-- A registration is accepted in both heaps or in neither. -/
theorem accepts (type builder : Value) :
    h'.accepts (σ.value type) (σ.value builder) = h.accepts type builder := by
  unfold Heap.accepts
  rw [isNullish_value, isNullish_value, hh.isBuilder]

/-- The builder that a class names itself is the moved one. -/
theorem defaultBuilder? (type : Value) :
    h'.defaultBuilder? (σ.value type) = (h.defaultBuilder? type).map σ.value := by
  unfold Heap.defaultBuilder? Heap.marker?
  rw [hh.object?]
  cases h.object? type with
  | none => rfl
  | some o =>
    show (o.marker.map σ.value).bind _ = (o.marker.bind _).map σ.value
    cases o.marker with
    | none => rfl
    | some m =>
      simp only [Option.map_some, Option.bind_some, hh.isBuilder]
      cases h.isBuilder m <;> rfl

/-- Whether a value belongs to a class of the domain is the same in both heaps. -/
theorem isKin (v : Value) (k : Kin) : h'.isKin (σ.value v) k = h.isKin v k := by
  unfold Heap.isKin
  rw [← hh.inherits, σ.ref_kinTemplate]

end Heaps

/-! ## Changing both heaps -/

namespace Heaps

/-- Both heaps get an object. -/
theorem push (hh : σ.Heaps h h') {o : Object} (ho : σ.FitsObject o) :
    σ.Heaps (h.push o) (h'.push (σ.object o)) where
  size := by simp [hh.size, Nat.add_right_comm]
  objects_le := by simpa using Nat.le_succ_of_le hh.objects_le
  get r := by
    by_cases hr : r = h.size
    · rw [hr, hh.ref_size]
      simp
    · have hr' : σ.ref r ≠ h'.size := fun heq => hr (σ.ref_injective (heq.trans hh.ref_size.symm))
      rw [Array.getElem?_push, if_neg hr', Array.getElem?_push, if_neg hr, hh.get]
  fits r o' h' := by
    rw [Array.getElem?_push] at h'
    split at h'
    · cases h'
      exact ho
    · exact hh.fits r o' h'

/-- Both heaps have an object changed. -/
theorem update (hh : σ.Heaps h h') (v : Value) {f f' : Object → Object}
    (hmove : ∀ o, f' (σ.object o) = σ.object (f o))
    (hfits : ∀ o, σ.FitsObject o → σ.FitsObject (f o)) :
    σ.Heaps (h.update v f) (h'.update (σ.value v) f') := by
  cases v with
  | ref r =>
    refine ⟨by simp [Heap.update, hh.size], by simpa [Heap.update] using hh.objects_le,
      fun s => ?_, fun s o ho => ?_⟩
    · -- objects at other places are those of before, and so is one that is frozen
      simp only [Heap.update, value_ref, Array.getElem?_modify, ref_inj, hh.get s]
      split
      · cases h[s]? with
        | none => rfl
        | some o =>
          simp only [Option.map_some]
          show some (if o.frozen then σ.object o else f' (σ.object o)) = _
          split
          · rfl
          · rw [hmove]
      · rfl
    · simp only [Heap.update, Array.getElem?_modify] at ho
      split at ho
      · cases hs : h[s]? with
        | none => simp [hs] at ho
        | some o' =>
          rw [hs] at ho
          cases ho
          dsimp only
          split
          · exact hh.fits s o' hs
          · exact hfits o' (hh.fits s o' hs)
      · exact hh.fits s o ho
  | _ => exact hh

end Heaps

end Shift

end EvalPlan
