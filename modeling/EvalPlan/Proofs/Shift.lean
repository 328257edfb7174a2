import EvalPlan.Session

/-!
# Moving names

What is made later gets a later name: the number of an object, of a frame of variables, of a run. A
`Shift` moves the names from certain ones on and leaves the earlier ones as they are. It moves
everything that holds names along with them: values, programs, callables, objects.

A shift must not tear a realm apart, whose objects are named by the first of them; `Fits` says that
it does not.
-/

namespace EvalPlan

open Script (Scene Expr Answer Stmt Program)

/-- The number of objects that every world begins with. -/
def Domain.bound : Nat := Fixture.bound + 2 * Kin.all.length + DomainMethod.all.length

/-- How far names are moved. Those below the given ones stay. -/
structure Shift where
  /-- Objects move from this one on. -/
  objects : Nat
  /-- That is how far objects move. -/
  objectsBy : Nat
  /-- Frames move from this one on. -/
  frames : Nat
  /-- That is how far frames move. -/
  framesBy : Nat
  /-- Runs move from this one on. -/
  runs : Nat
  /-- That is how far runs move. -/
  runsBy : Nat
  /-- What every world begins with stays. -/
  bound : Domain.bound ≤ objects

namespace Shift

variable (σ : Shift)

/-- A moved object. -/
def ref (r : Nat) : Nat := if r < σ.objects then r else r + σ.objectsBy

/-- A moved frame. -/
def frame (f : Nat) : Nat := if f < σ.frames then f else f + σ.framesBy

/-- A moved run. -/
def run (id : Nat) : Nat := if id < σ.runs then id else id + σ.runsBy

/-- A moved realm. -/
def realm (realm : Realm) : Realm := ⟨σ.ref realm.base⟩

/-- A moved scene. -/
def scene (s : Scene) : Scene :=
  { s with
    frames := s.frames.map σ.frame
    global := s.global.map σ.ref
    realm := σ.realm s.realm }

/-- A moved value. A symbol is told apart by the object that stands for it. -/
def value : Value → Value
  | .symbol description serial => .symbol description (σ.ref serial)
  | .ref r => .ref (σ.ref r)
  | v => v

/-- The moved values under names. -/
def row (row : Text × Value) : Text × Value := (row.1, σ.value row.2)

/-! ### Programs -/

mutual

/-- A moved expression. -/
def expr : Expr → Expr
  | .const v => .const (σ.value v)
  | .symbol description => .symbol description
  | .list items => .list (exprs items)
  | .record members => .record (fields members)
  | .bareRecord members => .bareRecord (fields members)
  | .cycle => .cycle
  | .fault kind message => .fault kind (expr message)
  | .construct cls => .construct (expr cls)
  | .jsonAs a => .jsonAs (answer a)
  | .described name a => .described (expr name) (answer a)
  | .variable name => .variable name
  | .property o name => .property (expr o) name
  | .concat items => .concat (exprs items)
  | .names list => .names (expr list)
  | .type name => .type (expr name)
  | .build target configuration => .build (expr target) (option configuration)
  | .task task => .task (expr task)
  | .engine operation arguments => .engine operation (exprs arguments)
  | .run name p => .run name (program p)
  | .function param body result => .function param (stmts body) (option result)
  | .cls name product => .cls name (option product)

/-- A moved expression that may be left out. -/
def option : Option Expr → Option Expr
  | none => none
  | some e => some (expr e)

/-- Moved expressions. -/
def exprs : List Expr → List Expr
  | [] => []
  | e :: rest => expr e :: exprs rest

/-- Moved expressions under names. -/
def fields : List (Text × Expr) → List (Text × Expr)
  | [] => []
  | (name, e) :: rest => (name, expr e) :: fields rest

/-- A moved answer. -/
def answer : Answer → Answer
  | .returns e => .returns (expr e)
  | .throws e => .throws (expr e)
  | .value e => .value (expr e)

/-- A moved statement. -/
def stmt : Stmt → Stmt
  | .bind name e => .bind name (expr e)
  | .assign o name e => .assign (expr o) name (expr e)
  | .perform e => .perform (expr e)
  | .raise e => .raise (expr e)
  | .attempt body name handler => .attempt (stmts body) name (stmts handler)
  | .loop count body => .loop count (stmts body)
  | .log level message data => .log level (expr message) (option data)
  | .later body => .later (stmts body)

/-- Moved statements. -/
def stmts : List Stmt → List Stmt
  | [] => []
  | s :: rest => stmt s :: stmts rest

/-- A moved program. -/
def program : Program → Program
  | .block body result => .block (stmts body) (option result)
  | .invalid t => .invalid t

end

/-! ### Objects -/

/-- How a moved class came about. -/
def making : Making → Making
  | .bound target => .bound (σ.ref target)
  | m => m

/-- A moved description of a class. -/
def blueprint (b : Blueprint) : Blueprint :=
  { b with
    making := σ.making b.making
    fields := σ.fields b.fields
    realm := σ.realm b.realm }

/-- A moved method. -/
def method : Method → Method
  | .answer scene a => .answer (σ.scene scene) (σ.answer a)
  | .produces cls copied declares => .produces (σ.value cls) copied declares
  | m => m

/-- A moved callable. -/
def callable : Callable → Callable
  | .blueprint b => .blueprint (σ.blueprint b)
  | .closure scene param body result =>
    .closure (σ.scene scene) param (σ.stmts body) (σ.option result)
  | .method m => .method (σ.method m)
  | .verb v id onTask => .verb v (σ.run id) (σ.value onTask)
  | .operation o => .operation o
  | .logging level => .logging level
  | .standard f realm => .standard f (σ.realm realm)
  | .maker f realm => .maker f (σ.realm realm)
  | .bound target this arguments =>
    .bound (σ.value target) (σ.value this) (arguments.map σ.value)
  | .reader name realm => .reader name (σ.realm realm)
  | .segmentTest => .segmentTest
  | .scopeState id => .scopeState (σ.run id)

/-- An item of a moved list. -/
def cell (cell : Nat × Value) : Nat × Value := (cell.1, σ.value cell.2)

/-- A moved shape. -/
def shape : Shape → Shape
  | .plain => .plain
  | .list cells length => .list (cells.map σ.cell) length
  | .error kind => .error kind
  | .callable c => .callable (σ.callable c)

/-- A moved property. -/
def slot : Slot → Slot
  | .data v shown fixed => .data (σ.value v) shown fixed
  | .computed getter setter => .computed (σ.value getter) (σ.value setter)

/-- Moved properties. -/
def slots (slots : Table Text Slot) : Table Text Slot := slots.map fun row => (row.1, σ.slot row.2)

/-- A moved way to be gone through. -/
def walk : Walk → Walk
  | .byItems => .byItems
  | .byText realm => .byText (σ.realm realm)

/-- A moved object. -/
def object (o : Object) : Object :=
  { o with
    shape := σ.shape o.shape
    parent := o.parent.map σ.ref
    slots := σ.slots o.slots
    marker := o.marker.map σ.value
    walk := o.walk.map σ.walk }

/-- Moved variables. -/
def bindings (frame : Table Text (Option Value)) : Table Text (Option Value) :=
  frame.map fun row => (row.1, row.2.map σ.value)

/-! ### Realms that stay together -/

/-- The objects of a realm move by the same distance. -/
class Fits (realm : Realm) : Prop where
  /-- Each moves as the first does. -/
  move : ∀ i < Realm.size, σ.ref (realm.base + i) = σ.ref realm.base + i

/-- The realm that a callable belongs to moves as a whole. -/
def FitsCallable : Callable → Prop
  | .blueprint b => σ.Fits b.realm
  | .closure scene _ _ _ => σ.Fits scene.realm
  | .method (.answer scene _) => σ.Fits scene.realm
  | .standard _ realm => σ.Fits realm
  | .maker _ realm => σ.Fits realm
  | .reader _ realm => σ.Fits realm
  | _ => True

/-- The realms that an object belongs to move as a whole. -/
structure FitsObject (o : Object) : Prop where
  /-- The realm of a callable does. -/
  callable : ∀ c, o.shape = .callable c → σ.FitsCallable c
  /-- The realm whose code asks for the text of what is gone through does. -/
  walk : ∀ realm, o.walk = some (.byText realm) → σ.Fits realm

/-! ### What stays -/

/-- The objects that exist before any request stay where they are. -/
theorem ref_of_lt {r : Nat} (h : r < Domain.bound) : σ.ref r = r :=
  if_pos (Nat.lt_of_lt_of_le h σ.bound)

/-- Different objects go to different places. -/
theorem ref_injective : Function.Injective σ.ref := by
  intro r s h
  unfold ref at h
  split at h <;> split at h <;> omega

/-- Two objects go to the same place only if they are the same. -/
@[simp] theorem ref_inj {r s : Nat} : σ.ref r = σ.ref s ↔ r = s := σ.ref_injective.eq_iff

/-- Whether two references are the same is the same after the move. -/
@[simp] theorem ref_beq (r s : Nat) : (σ.ref r == σ.ref s) = (r == s) := by
  rw [Bool.eq_iff_iff, beq_iff_eq, beq_iff_eq, ref_inj]

/-- Different runs stay different. -/
@[simp] theorem run_inj {id id' : Nat} : σ.run id = σ.run id' ↔ id = id' := by
  unfold run
  split <;> split <;> omega

/-- Different frames stay different. -/
@[simp] theorem frame_inj {f f' : Nat} : σ.frame f = σ.frame f' ↔ f = f' := by
  unfold frame
  split <;> split <;> omega

/-- The first object of all stays. -/
theorem ref_zero : σ.ref 0 = 0 := σ.ref_of_lt (by decide)

instance : σ.Fits Realm.main where
  move i hi := by
    have hbound : Realm.size ≤ Domain.bound := by decide
    have hzero : Realm.main.base = 0 := rfl
    rw [hzero, σ.ref_zero, Nat.zero_add, σ.ref_of_lt (Nat.lt_of_lt_of_le hi hbound)]

/-- The main realm stays. -/
@[simp] theorem realm_main : σ.realm Realm.main = Realm.main := by
  unfold realm
  rw [show Realm.main.base = 0 from rfl, σ.ref_zero]
  rfl

section fits

variable (realm : Realm) [hfits : σ.Fits realm]

include hfits

/-- What a family inherits from in a realm goes to its place in the moved realm. -/
theorem ref_template (f : Family) : σ.ref (realm.template f) = (σ.realm realm).template f := by
  have hindex : 2 * f.index < Realm.size := by
    cases f <;> first | decide | (rename_i kind; cases kind <;> decide)
  unfold Realm.template
  rw [hfits.move _ hindex]
  rfl

/-- So does the maker of a family. -/
theorem ref_maker (f : Family) : σ.ref (realm.maker f) = (σ.realm realm).maker f := by
  have hindex : 2 * f.index + 1 < Realm.size := by
    cases f <;> first | decide | (rename_i kind; cases kind <;> decide)
  unfold Realm.maker
  rw [Nat.add_assoc, hfits.move _ hindex, Nat.add_assoc]
  rfl

/-- So does a built-in function. -/
theorem ref_standard (f : Standard) : σ.ref (realm.standard f) = (σ.realm realm).standard f := by
  have hindex : 2 * Family.all.length + f.index < Realm.size := by cases f <;> decide
  unfold Realm.standard
  rw [Nat.add_assoc, hfits.move _ hindex, Nat.add_assoc]
  rfl

end fits

/-- The fixtures of an engine stay. -/
theorem ref_fixture (x : Fixture) : σ.ref x.ref = x.ref := by
  refine σ.ref_of_lt ?_
  cases x with
  | operation o => cases o <;> decide
  | logging l => cases l <;> decide
  | _ => decide

/-- The object by which scripts reach the engine stays. -/
theorem ref_facade (role : Role) : σ.ref role.facade = role.facade := by
  cases role <;> exact σ.ref_fixture _

/-- The classes of the domain stay. -/
theorem ref_kin (k : Kin) : σ.ref k.ref = k.ref := by
  refine σ.ref_of_lt ?_
  cases k <;> decide

/-- So does what their instances inherit from. -/
theorem ref_kinTemplate (k : Kin) : σ.ref k.template = k.template := by
  refine σ.ref_of_lt ?_
  cases k <;> decide

/-- So do their methods. -/
theorem ref_domainMethod (m : DomainMethod) : σ.ref (Kin.methodRef m) = Kin.methodRef m := by
  refine σ.ref_of_lt ?_
  cases m <;> decide

end Shift

end EvalPlan
