import EvalPlan.Proofs.Table

/-!
# Tables with plain keys

Where keys are the same exactly if they are equal, a table says of each key what was put under it
last, and lists the keys in the order in which they were first put (`get?_putRows`, `keys_putRows`).
-/

namespace EvalPlan.Table

variable {α β : Type} [BEq α] [LawfulBEq α]

/-- The value of the last row that has a key. -/
def lastValue? (rows : List (α × β)) (k : α) : Option β :=
  (rows.reverse.find? (·.1 == k)).map (·.2)

omit [LawfulBEq α] in
/-- A later row decides, if there is one with the key. -/
theorem lastValue?_cons (row : α × β) (rows : List (α × β)) (k : α) :
    lastValue? (row :: rows) k =
      (lastValue? rows k).or (if row.1 == k then some row.2 else none) := by
  rw [lastValue?, List.reverse_cons, List.find?_append, Option.map_or]
  cases h : row.1 == k <;> simp [lastValue?, h]

/-- The value is that of one of the rows. -/
theorem mem_of_lastValue? {rows : List (α × β)} {k : α} {v : β} (h : lastValue? rows k = some v) :
    (k, v) ∈ rows := by
  obtain ⟨row, found, rfl⟩ := Option.map_eq_some_iff.mp h
  have key : row.1 = k := by simpa using List.find?_some found
  rw [← key]
  exact List.mem_reverse.mp (List.mem_of_find?_eq_some found)

/-- There is none if no row has the key. -/
theorem lastValue?_eq_none_iff {rows : List (α × β)} {k : α} :
    lastValue? rows k = none ↔ ∀ row ∈ rows, row.1 ≠ k := by
  simp [lastValue?]

/-- What was put is found. -/
theorem get?_put_same (t : Table α β) (k : α) (v : β) : (t.put k v).get? k = some v := by
  induction t with
  | nil => simp [put, get?]
  | cons row rest ih =>
    obtain ⟨k', v'⟩ := row
    by_cases h : k' = k
    · simp [put, get?, h]
    · simp [put, get?, h, ih]

/-- Any other key has the value it had. -/
theorem get?_putRow (t : Table α β) (row : α × β) (k : α) :
    (t.put row.1 row.2).get? k = (if row.1 == k then some row.2 else none).or (t.get? k) := by
  by_cases h : row.1 = k
  · subst h
    simp [get?_put_same]
  · rw [get?_put_of_ne t h, if_neg (by simpa using h), Option.none_or]

/-- The last row of a key counts. -/
theorem get?_putRows (t : Table α β) (rows : List (α × β)) (k : α) :
    (t.putAll rows).get? k = (lastValue? rows k).or (t.get? k) := by
  -- the first row is put, and the others come after it
  induction rows generalizing t with
  | nil => rfl
  | cons row rows ih =>
    show ((t.put row.1 row.2).putAll rows).get? k = _
    rw [ih, get?_putRow, lastValue?_cons, Option.or_assoc]

/-! ## The order of the keys -/

/-- A new key comes last, and a known one stays where it is. -/
theorem keys_put (t : Table α β) (k : α) (v : β) :
    (t.put k v).keys = if k ∈ t.keys then t.keys else t.keys ++ [k] := by
  induction t with
  | nil => simp [put, keys]
  | cons row rest ih =>
    obtain ⟨k', v'⟩ := row
    by_cases h : k' = k
    -- the key stands here already
    · simp [put, keys, h]
    · have hcons (t : Table α β) : keys ((k', v') :: t) = k' :: t.keys := rfl
      have hput : put ((k', v') :: rest) k v = (k', v') :: put rest k v := by simp [put, h]
      have hmem : k ∈ k' :: keys rest ↔ k ∈ keys rest := by simp [Ne.symm h]
      rw [hput, hcons, hcons, ih]
      simp only [hmem]
      split <;> simp

/-- The keys stay where they are, and new ones come after them in the order of their first rows. -/
theorem keys_putRows (t : Table α β) (rows : List (α × β)) :
    (t.putAll rows).keys = t.keys ++ ((rows.map (·.1)).removeAll t.keys).eraseDups := by
  induction rows generalizing t with
  | nil => exact (List.append_nil _).symm
  | cons row rows ih =>
    show ((t.put row.1 row.2).putAll rows).keys = _
    rw [ih, keys_put]
    by_cases hmem : row.1 ∈ t.keys
    · simp [hmem, List.cons_removeAll]
    · have hkept (k : α) : (!(t.keys ++ [row.1]).elem k) = (!(k == row.1) && !t.keys.elem k) := by
        cases h : k == row.1 <;> simp_all
      simp only [if_neg hmem, List.map_cons, List.cons_removeAll]
      simp only [List.removeAll, hkept, ← List.filter_filter]
      simp [hmem, List.eraseDups_cons]

/-- Rows that are put into an empty table list each key once, where it first came. -/
theorem keys_ofRows (rows : List (α × β)) :
    keys (putAll [] rows) = (rows.map (·.1)).eraseDups := by
  have hall (l : List α) : l.removeAll [] = l := by simp [List.removeAll]
  rw [keys_putRows]
  exact congrArg List.eraseDups (hall _)

/-- In a table of rows the last row of a key decides. -/
theorem get?_ofRows (rows : List (α × β)) (k : α) :
    get? (putAll [] rows) k = lastValue? rows k := by
  rw [get?_putRows]
  exact Option.or_none

/-! ## Putting a table into another one -/

/-- No key is there twice. -/
theorem nodup_keys_put {t : Table α β} (ht : t.keys.Nodup) (k : α) (v : β) :
    (t.put k v).keys.Nodup := by
  rw [keys_put]
  split
  · exact ht
  next hmem => exact List.nodup_append.mpr ⟨ht, by simp, by rintro a ha b hb rfl; simp_all⟩

/-- Puts under different keys commute where one of the keys has its place already. -/
theorem put_put_comm {t : Table α β} {k k' : α} (hk : k ∈ t.keys) (hne : k' ≠ k) (v v' : β) :
    (t.put k' v').put k v = (t.put k v).put k' v' := by
  induction t with
  | nil => cases hk
  | cons row t ih =>
    obtain ⟨a, b⟩ := row
    by_cases ha : a = k
    · subst ha
      simp [put, hne.symm]
    · have hmem : k ∈ keys t := by simpa [keys, Ne.symm ha] using hk
      by_cases ha' : a = k'
      · simp [put, ha', hne]
      · simp [put, ha, ha', ih hmem]

/-- A value that is put again replaces what came between. -/
theorem put_put_same (t : Table α β) (k : α) (v v' : β) : (t.put k v').put k v = t.put k v := by
  induction t with
  | nil => simp [put]
  | cons row t ih =>
    obtain ⟨a, b⟩ := row
    by_cases ha : a = k <;> simp [put, ha, ih]

/-- Other rows may be put before or after it. -/
theorem put_putAll {t : Table α β} {k : α} {rows : List (α × β)} (hk : k ∈ t.keys)
    (hrows : k ∉ rows.map (·.1)) (v : β) : (t.putAll rows).put k v = (t.put k v).putAll rows := by
  induction rows generalizing t with
  | nil => rfl
  | cons row rows ih =>
    simp only [List.map_cons, List.mem_cons, not_or] at hrows
    have hkept : k ∈ (t.put row.1 row.2).keys := by
      rw [keys_put]
      split <;> simp [hk]
    have hstep := ih hkept hrows.2
    rw [put_put_comm hk (Ne.symm hrows.1)] at hstep
    exact hstep

/-- A row that is put into a table is put behind the others where the table is put into another. -/
theorem putAll_put (t : Table α β) {s : Table α β} (hs : s.keys.Nodup) (k : α) (v : β) :
    t.putAll (s.put k v) = (t.putAll s).put k v := by
  induction s generalizing t with
  | nil => rfl
  | cons row s ih =>
    obtain ⟨a, b⟩ := row
    obtain ⟨ha, hnodup⟩ := List.nodup_cons.mp hs
    by_cases hak : a = k
    · subst hak
      -- the row is replaced in its place, behind which the key does not come again
      have hput : put ((a, b) :: s) a v = (a, v) :: s := by simp [put]
      have hmem : a ∈ (t.put a b).keys := by
        rw [keys_put]
        split <;> simp [*]
      have hlast := put_putAll hmem ha v
      rw [put_put_same] at hlast
      rw [hput]
      exact hlast.symm
    · have hput : put ((a, b) :: s) k v = (a, b) :: put s k v := by simp [put, hak]
      rw [hput]
      exact ih (t.put a b) hnodup

/-- It does not matter whether rows are put one by one or made into a table before. -/
theorem putAll_ofRows (t : Table α β) (rows : List (α × β)) :
    t.putAll (putAll [] rows) = t.putAll rows := by
  suffices h : ∀ s : Table α β, s.keys.Nodup → t.putAll (s.putAll rows) =
    (t.putAll s).putAll rows from
    h [] List.nodup_nil
  intro s hs
  induction rows generalizing s with
  | nil => rfl
  | cons row rows ih =>
    have hstep := ih (s.put row.1 row.2) (nodup_keys_put hs _ _)
    rw [putAll_put t hs] at hstep
    exact hstep

/-! ## Rows in another order -/

/-- Where keys are there once, the rows of a table are what is found in it. -/
theorem get?_eq_some_iff_mem {t : Table α β} (ht : t.keys.Nodup) {k : α} {v : β} :
    t.get? k = some v ↔ (k, v) ∈ t := by
  induction t with
  | nil => simp [get?]
  | cons row t ih =>
    obtain ⟨k', v'⟩ := row
    obtain ⟨hk', hrest⟩ := List.nodup_cons.mp ht
    by_cases h : k' = k
    · subst h
      -- the key does not come again
      have habsent : (k', v) ∉ t := fun hmem => hk' (List.mem_map.mpr ⟨(k', v), hmem, rfl⟩)
      simp [get?, habsent, eq_comm]
    · simp [get?, h, ih hrest, Ne.symm h]

/-- Where keys are there once, it does not matter in which order the rows stand. -/
theorem get?_eq_of_perm {t t' : Table α β} (ht : t.keys.Nodup) (h : t'.Perm t) (k : α) :
    t'.get? k = t.get? k := by
  have ht' : t'.keys.Nodup := (List.Perm.nodup_iff (h.map Prod.fst)).mpr ht
  ext v
  rw [get?_eq_some_iff_mem ht', get?_eq_some_iff_mem ht]
  exact h.mem_iff

/-! ## Taking rows away -/

/-- Only keys that are there have values. -/
theorem get?_eq_none_iff {t : Table α β} {k : α} : t.get? k = none ↔ k ∉ t.keys := by
  induction t with
  | nil => simp [get?, keys]
  | cons row t ih =>
    obtain ⟨k', v'⟩ := row
    by_cases h : k' = k
    · simp [get?, keys, h]
    · simp [get?, h, ih, keys, Ne.symm h]

/-- A key that is erased is gone. -/
theorem keys_erase (t : Table α β) (k : α) : (t.erase k).keys = t.keys.erase k := by
  induction t with
  | nil => rfl
  | cons row t ih =>
    obtain ⟨k', v'⟩ := row
    by_cases h : k' = k
    · simp [erase, keys, h]
    · have hne : (k' == k) = false := by simpa using h
      simpa [erase, keys, h, List.erase_cons, hne] using ih

/-- Where keys are there once, a key whose row is taken away is gone. -/
theorem get?_erase_same {t : Table α β} (ht : t.keys.Nodup) (k : α) :
    (t.erase k).get? k = none := by
  rw [get?_eq_none_iff, keys_erase]
  exact ht.not_mem_erase

/-- No other key is touched. -/
theorem get?_erase_of_ne (t : Table α β) {k k' : α} (h : k ≠ k') :
    (t.erase k).get? k' = t.get? k' := by
  induction t with
  | nil => rfl
  | cons row t ih =>
    obtain ⟨a, b⟩ := row
    by_cases ha : a = k
    · subst ha
      simp [erase, get?, h]
    · by_cases ha' : a = k'
      · subst ha'
        simp [erase, get?, ha]
      · simp [erase, get?, ha, ha', ih]

end EvalPlan.Table
