import EvalPlan.Proofs.Defaults
import EvalPlan.Proofs.Law.Declaring
import EvalPlan.Proofs.Law.Indifferent

/-!
# What type names stand for

A name may stand for the type of its own full name, or for that of the name behind a namespace that
is imported. `StandsFor` is the rule by which the first of these names counts that is defined, and
`run_loadType` says that types are loaded by it. Namespaces that are imported behind others leave
what a name stands for already (`StandsFor.append`).

Only definitions change which types are known: a definition is refused or puts one row into the
table (`types_define`), and nothing that scripts do changes it (`keepsTypes_aloof`).
-/

namespace EvalPlan

open EvalPlan.Action

/-! ## Names and tables -/

/-- The name stands for the type: that of the first defined one of the names that it may stand
for. -/
def StandsFor (table : Table Text Value) (imports : List Text) (name : Text) (type : Value) :
    Prop :=
  ∃ before full after, candidates imports name = before ++ full :: after ∧
    (∀ other ∈ before, table.get? other = none) ∧ table.get? full = some type

/-- None of the names that the name may stand for is defined. -/
def Unknown (table : Table Text Value) (imports : List Text) (name : Text) : Prop :=
  ∀ full ∈ candidates imports name, table.get? full = none

section

variable {table : Table Text Value} {imports : List Text} {name : Text} {type : Value}

/-- A name stands for the type under the first candidate that is defined. -/
theorem standsFor_iff_find? : StandsFor table imports name type ↔
    ∃ full, (candidates imports name).find? table.has = some full ∧
      table.get? full = some type := by
  simp only [List.find?_eq_some_iff_append, Table.has]
  constructor
  · rintro ⟨before, full, after, split, undefined, defined⟩
    exact ⟨full, ⟨by rw [defined]; rfl, before, after, split,
      fun other hother => by rw [undefined other hother]; rfl⟩, defined⟩
  · rintro ⟨full, ⟨-, before, after, split, undefined⟩, defined⟩
    exact ⟨before, full, after, split, fun other hother => by simpa using undefined other hother,
      defined⟩

/-- It is unknown if no candidate is defined. -/
theorem unknown_iff_find? :
    Unknown table imports name ↔ (candidates imports name).find? table.has = none := by
  simp [Unknown, Table.has]

/-- There is no third case. -/
theorem standsFor_or_unknown (table : Table Text Value) (imports : List Text) (name : Text) :
    (∃ type, StandsFor table imports name type) ∨ Unknown table imports name := by
  cases found : (candidates imports name).find? table.has with
  | none => exact .inr (unknown_iff_find?.mpr found)
  | some full =>
    have has : table.has full = true := List.find?_some found
    obtain ⟨type, defined⟩ := Option.isSome_iff_exists.mp has
    exact .inl ⟨type, standsFor_iff_find?.mpr ⟨full, found, defined⟩⟩

/-- Namespaces that come behind others leave what a name stands for. -/
theorem StandsFor.append (h : StandsFor table imports name type) (more : List Text) :
    StandsFor table (imports ++ more) name type := by
  obtain ⟨before, full, after, split, undefined, defined⟩ := h
  refine ⟨before, full, after ++ more.map fun space => qualified space name, ?_, undefined, defined⟩
  have longer : candidates (imports ++ more) name =
      candidates imports name ++ more.map fun space => qualified space name := by
    simp [candidates]
  rw [longer, split, List.append_assoc, List.cons_append]

/-- What a name stands for depends on the names that it may stand for, and on no others. -/
theorem StandsFor.of_eq {table' : Table Text Value} (h : StandsFor table imports name type)
    (same : ∀ full ∈ candidates imports name, table'.get? full = table.get? full) :
    StandsFor table' imports name type := by
  obtain ⟨before, full, after, split, undefined, defined⟩ := h
  rw [split] at same
  refine ⟨before, full, after, split, fun other hother => ?_, ?_⟩
  · rw [same other (List.mem_append_left _ hother), undefined other hother]
  · rw [same full (by simp), defined]

end

/-! ## Loading types -/

section load

variable {w : World} (whole : w.types.broken = none)

include whole

/-- A name that stands for a type is loaded as this type. -/
theorem run_loadType_of_standsFor {imports : List Text} {name : Text} {type : Value}
    (h : StandsFor w.types.table imports name type) :
    ExceptT.run (loadType imports name) w = (.ok type, w) := by
  obtain ⟨full, found, defined⟩ := standsFor_iff_find?.mp h
  unfold loadType
  rw [run_bind_ok (run_get w)]
  -- the name that was found is loaded exactly
  simp only [found]
  exact run_loadExact_known whole defined

/-- A name that is unknown is an error that says it. -/
theorem run_loadType_of_unknown {imports : List Text} {name : Text}
    (h : Unknown w.types.table imports name) :
    ExceptT.run (loadType imports name) w =
      (.error (.ref w.heap.size), w.adding (problemObject (.unknownType (.text name) name))) := by
  unfold loadType
  rw [run_bind_ok (run_get w)]
  -- the name itself is loaded, and its error is the one that is thrown
  simp only [unknown_iff_find?.mp h]
  exact run_loadExact_unknown whole (h name List.mem_cons_self)

/-- A type is loaded exactly if the name stands for it. -/
theorem run_loadType_eq_ok_iff {imports : List Text} {name : Text} {type : Value} {w' : World} :
    ExceptT.run (loadType imports name) w = (.ok type, w') ↔
      StandsFor w.types.table imports name type ∧ w' = w := by
  constructor
  · intro run
    rcases standsFor_or_unknown w.types.table imports name with ⟨type', h⟩ | h
    · rw [run_loadType_of_standsFor whole h] at run
      cases run
      exact ⟨h, rfl⟩
    · rw [run_loadType_of_unknown whole h] at run
      cases run
  · rintro ⟨h, rfl⟩
    exact run_loadType_of_standsFor whole h

/-- An error is thrown exactly if no name is defined that the name may stand for; it holds the name
as it was given. -/
theorem run_loadType_eq_error_iff {imports : List Text} {name : Text} {thrown : Value}
    {w' : World} : ExceptT.run (loadType imports name) w = (.error thrown, w') ↔
      Unknown w.types.table imports name ∧ thrown = .ref w.heap.size ∧
        w' = w.adding (problemObject (.unknownType (.text name) name)) := by
  constructor
  · intro run
    rcases standsFor_or_unknown w.types.table imports name with ⟨type', h⟩ | h
    · rw [run_loadType_of_standsFor whole h] at run
      cases run
    · rw [run_loadType_of_unknown whole h] at run
      cases run
      exact ⟨h, rfl, rfl⟩
  · rintro ⟨h, rfl, rfl⟩
    exact run_loadType_of_unknown whole h

omit whole in
/-- A script that asks the engine for a type by a text gets the one that the text stands for, where
the engine still holds the namespaces as a list of texts. -/
theorem run_loadNamedType_text {host : Host} {ev : Evaluator} (role : host.role = .engine)
    {spaces : Value} {imports : List Text}
    (holds : ExceptT.run (property ev .main (.ref host.role.facade) "imports") w = (.ok spaces, w))
    (listed : w.heap.list? spaces = some (imports.map Value.text)) (name : Text) :
    ExceptT.run (loadNamedType host ev (.text name)) w = ExceptT.run (loadType imports name) w := by
  unfold loadNamedType
  simp only [role] at holds ⊢
  rw [run_bind_ok (run_get w)]
  split
  next full =>
    -- a full name comes first
    have found : (candidates imports name).find? w.types.table.has = some name :=
      List.find?_cons_of_pos full
    unfold loadType
    rw [run_bind_ok (run_get w)]
    simp only [found]
  next =>
    have items : ExceptT.run (itemsOf spaces) w = (.ok (imports.map Value.text), w) := by
      unfold itemsOf
      rw [run_bind_ok (run_heap w), listed]
      rfl
    have texts : (imports.map Value.text).mapM Value.text? = some imports :=
      List.mapM_map.trans ((List.mapM_pure (m := Option)).trans (congrArg some (List.map_id imports)))
    rw [run_bind_ok holds, run_bind_ok items, texts]

end load

/-! ## Definitions -/

namespace TypeSource

/-- The types after rows were defined one after another. -/
def adding (s : TypeSource) (rows : List (Text × Value)) : TypeSource :=
  { s with table := s.table.putAll rows }

/-- No rows change nothing. -/
@[simp] theorem adding_nil (s : TypeSource) : s.adding [] = s := rfl

/-- Rows are added one part after the other. -/
theorem adding_append (s : TypeSource) (rows rows' : List (Text × Value)) :
    s.adding (rows ++ rows') = (s.adding rows).adding rows' := by
  simp [adding, Table.putAll]

end TypeSource

namespace World

/-- The world in which rows are known, too. -/
def knowing (w : World) (rows : List (Text × Value)) : World :=
  { w with types := w.types.adding rows }

/-- Types are known without new objects. -/
@[simp] theorem heap_knowing (w : World) (rows : List (Text × Value)) :
    (w.knowing rows).heap = w.heap := rfl

/-- They are known by the rows that were added. -/
@[simp] theorem types_knowing (w : World) (rows : List (Text × Value)) :
    (w.knowing rows).types = w.types.adding rows := rfl

/-- The definition of a type under a name is accepted: the name has more than blanks, and the type
is a class. -/
def accepts (w : World) (row : Text × Value) : Bool :=
  !Text.isBlankOnly row.1 && w.heap.isType row.2

/-- The world after a type was defined, or refused, under a name. -/
def define (w : World) (row : Text × Value) : World := (ExceptT.run (defineType row.1 row.2) w).2

/-- The world after types were defined one after another, whatever was refused. -/
def defining (w : World) (rows : List (Text × Value)) : World := rows.foldl define w

/-- Those of the definitions that are accepted. -/
def definitions : World → List (Text × Value) → List (Text × Value)
  | _, [] => []
  | w, row :: rest => (if w.accepts row then [row] else []) ++ (w.define row).definitions rest

/-- A definition that is accepted puts one row into the table. -/
theorem run_defineType_of_accepts {w : World} {row : Text × Value} (h : w.accepts row = true) :
    ExceptT.run (defineType row.1 row.2) w = (.ok ⟨⟩, w.knowing [row]) := by
  obtain ⟨filled, isType⟩ := Bool.and_eq_true_iff.mp h
  unfold defineType
  rw [run_bind_ok (run_get w), if_neg (by simpa using filled), if_neg (by simp [isType])]
  rfl

/-- A definition that is not accepted changes nothing but the objects. -/
theorem types_define_of_not_accepts {w : World} {row : Text × Value} (h : w.accepts row = false) :
    (w.define row).types = w.types := by
  unfold define defineType
  rw [run_bind_ok (run_get w)]
  split
  · rfl
  next filled =>
    split
    · rfl
    next isType => simp_all [accepts]

/-- A definition adds a row if it is accepted. -/
theorem types_define (w : World) (row : Text × Value) :
    (w.define row).types = w.types.adding (if w.accepts row then [row] else []) := by
  cases h : w.accepts row with
  | true =>
    rw [define, run_defineType_of_accepts h]
    rfl
  | false => exact types_define_of_not_accepts h

/-- The table after any definitions holds the rows that were accepted, put one after another. -/
theorem types_defining (w : World) (rows : List (Text × Value)) :
    (w.defining rows).types = w.types.adding (w.definitions rows) := by
  induction rows generalizing w with
  | nil => rfl
  | cons row rest ih =>
    show ((w.define row).defining rest).types = _
    rw [ih, types_define, definitions, TypeSource.adding_append]

end World

/-! ## What leaves the types alone -/

namespace Action

/-- Nothing but definitions changes which types are known. -/
theorem keepsTypes_aloof : Aloof fun w w' => w'.types = w.types where
  refl _ := rfl
  trans h h' := h'.trans h
  onAlloc _ _ _ := rfl
  onChange _ _ _ _ := rfl
  onFrames _ _ := rfl
  onQueue _ _ := rfl
  onJoining _ _ := rfl
  onNote _ _ _ := rfl
  onPassing _ _ _ _ _ _ := rfl
  onImports _ _ _ := rfl
  onEnroll _ _ _ := rfl
  onAttach _ _ _ := rfl

/-- Declaring classes and importing modules leaves the types alone, until rows are defined. -/
theorem keepsTypes_declaring : Declaring (.keeping fun w w' => w'.types = w.types) where
  toStable := keepsTypes_aloof.toSteady.stable
  define _ _ _ := rfl
  attach _ _ _ := rfl
  keepModule _ _ _ := rfl

/-- No script changes which types are known. -/
theorem evaluator_keepsTypes (host : Host) (n : Nat) :
    (evaluator host n).Meets (.keeping fun w w' => w'.types = w.types) :=
  (keepsTypes_aloof.uniform host).rules.evaluator n

/-- No start of an engine does. -/
theorem startEngine_keepsTypes (host : Host) {ev : Evaluator}
    (hev : ev.Meets (.keeping fun w w' => w'.types = w.types)) :
    Keeps (fun w w' => w'.types = w.types) (startEngine host ev) :=
  startEngine_holds (keepsTypes_aloof.uniform host).rules hev

end Action

end EvalPlan
