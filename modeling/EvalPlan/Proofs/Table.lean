import EvalPlan.Table
import EvalPlan.Value

/-!
# Tables of classes

Tables with values as keys are read here at the keys that refer to objects: such a key is the same
as no other key. After rows were put, the value under a key is that of its last row, and the keys
stand in the order of their first rows.
-/

namespace EvalPlan

namespace Value

variable {r : Ref} {v : Value}

/-- A value equals a reference if it is that reference. -/
theorem beq_ref : (v == .ref r) = true ↔ v = .ref r := by
  cases v with
  | ref s =>
    show (s == r) = true ↔ Value.ref s = Value.ref r
    rw [beq_iff_eq, Value.ref.injEq]
  | _ => exact ⟨nofun, nofun⟩

/-- The same from the other side. -/
theorem ref_beq : ((.ref r : Value) == v) = true ↔ v = .ref r := by
  cases v with
  | ref s =>
    show (r == s) = true ↔ Value.ref s = Value.ref r
    rw [beq_iff_eq, Value.ref.injEq, eq_comm]
  | _ => exact ⟨nofun, nofun⟩

/-- Only references refer to objects. -/
theorem ref?_eq_some : v.ref? = some r ↔ v = .ref r := by
  cases v with
  | ref s =>
    show some s = some r ↔ Value.ref s = Value.ref r
    rw [Option.some.injEq, Value.ref.injEq]
  | _ => exact ⟨nofun, nofun⟩

end Value

namespace Table

/-- Putting a value under a key leaves what is under another key. -/
theorem get?_put_of_ne {α β : Type} [BEq α] [LawfulBEq α] (t : Table α β)
    {k k' : α} (h : k ≠ k') (v : β) :
    (t.put k v).get? k' = t.get? k' := by
  induction t with
  | nil =>
    show (if (k == k') = true then some v else none) = none
    rw [if_neg fun heq => h (eq_of_beq heq)]
  | cons row rest ih =>
    obtain ⟨key, value⟩ := row
    unfold put
    split
    -- the row that is replaced has the other key
    next hkey =>
      have hne : ¬ (key == k') = true := fun heq => h ((eq_of_beq hkey).symm.trans (eq_of_beq heq))
      show (if (key == k') = true then some v else _) = if (key == k') = true then some value else _
      rw [if_neg hne, if_neg hne]
    next =>
      show (if (key == k') = true then some value else _) = if (key == k') =
        true then some value else _
      rw [ih]

variable {β : Type}

/-- The value of a row whose key refers to an object. -/
def valueFor (r : Ref) (row : Value × β) : Option β :=
  if row.1.ref? = some r then some row.2 else none

/-- The keys that refer to objects. -/
def classes (t : Table Value β) : List Ref := t.filterMap fun row => row.1.ref?

/-- A row for an object has a value for it. -/
theorem valueFor_self (r : Ref) (v : β) : valueFor r (.ref r, v) = some v := if_pos rfl

/-- A row for something else has none. -/
theorem valueFor_of_ne {r : Ref} {k : Value} (h : k ≠ .ref r) (v : β) : valueFor r (k, v) = none :=
  if_neg fun heq => h (Value.ref?_eq_some.mp heq)

/-- The first row for an object decides. -/
theorem get?_cons (row : Value × β) (t : Table Value β) (r : Ref) :
    get? (row :: t) (.ref r) = (valueFor r row).or (t.get? (.ref r)) := by
  obtain ⟨k, v⟩ := row
  show (if (k == .ref r) = true then some v else get? t (.ref r)) = _
  by_cases hk : k = .ref r
  · rw [if_pos (Value.beq_ref.mpr hk), hk, valueFor_self]
    rfl
  · rw [if_neg fun h => hk (Value.beq_ref.mp h), valueFor_of_ne hk]
    rfl

/-- What is put for an object replaces what was there. -/
theorem get?_put (t : Table Value β) (k : Value) (v : β) (r : Ref) :
    (t.put k v).get? (.ref r) = (valueFor r (k, v)).or (t.get? (.ref r)) := by
  induction t with
  | nil => exact get?_cons (k, v) [] r
  | cons row rest ih =>
    obtain ⟨k', v'⟩ := row
    unfold put
    split
    -- the first row is replaced
    next hk =>
      rw [get?_cons, get?_cons]
      by_cases hrow : k' = .ref r
      · rw [hrow, Value.ref_beq] at hk
        rw [hrow, hk, valueFor_self, valueFor_self]
        rfl
      · have hne : k ≠ .ref r := fun heq => hrow (Value.beq_ref.mp (heq ▸ hk))
        rw [valueFor_of_ne hrow, valueFor_of_ne hrow, valueFor_of_ne hne]
        rfl
    next hk =>
      rw [get?_cons, get?_cons, ih]
      by_cases hrow : k' = .ref r
      · have hne : k ≠ .ref r := fun heq => hk (by rw [heq, hrow]; exact Value.beq_ref.mpr rfl)
        rw [valueFor_of_ne hne]
        rfl
      · rw [valueFor_of_ne hrow]
        rfl

/-- Rows are put one part after the other. -/
theorem putAll_append (t : Table Value β) (rows rows' : List (Value × β)) :
    t.putAll (rows ++ rows') = (t.putAll rows).putAll rows' := List.foldl_append

/-- Of rows that are put the last one for an object decides. -/
theorem get?_putAll (t : Table Value β) (rows : List (Value × β)) (r : Ref) :
    (t.putAll rows).get? (.ref r) = ((rows.filterMap (valueFor r)).getLast?).or
      (t.get? (.ref r)) := by
  -- the first row is put, and the others come after it
  induction rows generalizing t with
  | nil => rfl
  | cons row rows ih =>
    show ((t.put row.1 row.2).putAll rows).get? (.ref r) = _
    rw [ih, get?_put]
    cases hrow : valueFor r row with
    | none => simp [hrow]
    | some v =>
      cases hlast :
        (rows.filterMap (valueFor r)).getLast? <;> simp [hrow, List.getLast?_cons, hlast]

/-! ## The order of the keys -/

/-- An object is among the keys if there is a row for it. -/
theorem mem_classes {t : Table Value β} {r : Ref} : r ∈ t.classes ↔ ∃ v, (Value.ref r, v) ∈ t := by
  simp only [classes, List.mem_filterMap, Value.ref?_eq_some]
  constructor
  · rintro ⟨⟨k, v⟩, hmem, rfl⟩
    exact ⟨v, hmem⟩
  · rintro ⟨v, hmem⟩
    exact ⟨(.ref r, v), hmem, rfl⟩

/-- An object comes to be among the keys once. -/
theorem classes_put (t : Table Value β) (k : Value) (v : β) :
    (t.put k v).classes =
      match k.ref? with
      | some r => if r ∈ t.classes then t.classes else t.classes ++ [r]
      | none => t.classes := by
  induction t with
  | nil => cases hk : k.ref? <;> simp [put, classes, hk]
  | cons row rest ih =>
    unfold put
    split
    -- the key stands here already
    next hrow =>
      cases hk : k.ref? with
      | none => rfl
      | some r =>
        rw [Value.ref?_eq_some.mp hk, Value.beq_ref] at hrow
        have hmem : r ∈ classes (row :: rest) :=
          mem_classes.mpr ⟨row.2, by rw [← hrow]; exact List.mem_cons_self⟩
        simp only [if_pos hmem]
        rfl
    next hrow =>
      -- the key is sought behind the first row, which keeps its own
      have hcons (t : Table Value β) : classes (row :: t) = row.1.ref?.toList ++ t.classes := by
        unfold classes
        cases h : row.1.ref? <;> simp [h]
      rw [hcons, hcons, ih]
      cases hk : k.ref? with
      | none => rfl
      | some r =>
        have hne : row.1.ref? ≠ some r := fun heq => hrow (by
          rw [Value.ref?_eq_some.mp hk]
          exact Value.beq_ref.mpr (Value.ref?_eq_some.mp heq))
        have hmem : r ∈ row.1.ref?.toList ++ classes rest ↔ r ∈ classes rest := by
          simp [hne]
        simp only [hmem]
        split
        · rfl
        · rw [List.append_assoc]

/-- The keys stay where they are, and new ones come after them in the order of their first rows. -/
theorem classes_putAll (t : Table Value β) (rows : List (Value × β)) :
    (t.putAll rows).classes =
      t.classes ++ ((rows.filterMap fun row => row.1.ref?).removeAll t.classes).eraseDups := by
  induction rows generalizing t with
  | nil => exact (List.append_nil _).symm
  | cons row rows ih =>
    show ((t.put row.1 row.2).putAll rows).classes = _
    rw [ih, classes_put]
    cases hrow : row.1.ref? with
    | none => simp [hrow]
    | some r =>
      by_cases hmem : r ∈ t.classes
      · simp [hrow, hmem, List.cons_removeAll]
      · simp only [if_neg hmem, List.filterMap_cons, hrow, List.cons_removeAll]
        simp [hmem, List.eraseDups_cons, List.removeAll, List.filter_filter,
          Bool.and_comm, Bool.beq_eq_decide_eq]

/-- So no object is there twice. -/
theorem nodup_classes_putAll {t : Table Value β} (ht : t.classes.Nodup) (rows : List (Value × β)) :
    (t.putAll rows).classes.Nodup := by
  induction rows generalizing t with
  | nil => exact ht
  | cons row rows ih =>
    refine ih ?_
    show (t.put row.1 row.2).classes.Nodup
    rw [classes_put]
    split
    next r hr =>
      split
      · exact ht
      -- a key that is added was not there
      next hmem =>
        refine List.nodup_append.mpr
          ⟨ht, List.nodup_cons.mpr ⟨List.not_mem_nil, List.nodup_nil⟩, ?_⟩
        rintro a ha b hb rfl
        exact hmem (List.mem_singleton.mp hb ▸ ha)
    next => exact ht

/-- A table without two rows of one key holds what is found in it. -/
theorem mem_iff_get? {t : Table Value β} (hnodup : t.classes.Nodup) {r : Ref} {v : β} :
    (.ref r, v) ∈ t ↔ t.get? (.ref r) = some v := by
  induction t with
  | nil => exact ⟨nofun, nofun⟩
  | cons row rest ih =>
    obtain ⟨k, v'⟩ := row
    rw [get?_cons, List.mem_cons]
    by_cases hk : k = .ref r
    · subst hk
      -- the key has no other row
      have hnot : (.ref r, v) ∉ rest := fun hmem =>
        (List.nodup_cons.mp hnodup).1 (mem_classes.mpr ⟨v, hmem⟩)
      simp [valueFor_self, hnot, eq_comm]
    · have hrest : (classes rest).Nodup :=
        hnodup.sublist (List.Sublist.filterMap _ (List.sublist_cons_self _ _))
      rw [valueFor_of_ne hk, Option.none_or, ← ih hrest]
      simp [Ne.symm hk]

end Table

end EvalPlan
