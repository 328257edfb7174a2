import EvalPlan.Script.Binding
import EvalPlan.World.Words

/-!
# Variables

The variables of scripts live in frames. A variable of a block that is not bound yet is there, but
cannot be read. A name that belongs to no frame is a property of the global object, which every run
has for itself.
-/

namespace EvalPlan.Action

open Script (Scene Stmt)

/-- Opens a frame with some variables. -/
def openFrame (scene : Scene) (frame : Table Text (Option Value)) : Action Scene := do
  let w ← get
  set { w with frames := w.frames.push frame }
  return { scene with frames := w.frames.size :: scene.frames }

/-- Opens the frame of a block, none of whose variables is bound yet. -/
def openBlock (scene : Scene) (body : List Stmt) : Action Scene :=
  openFrame scene ((Script.bound body).map fun name => (name, none))

/-- Binds a variable of the innermost frame. -/
def bindVariable (scene : Scene) (name : Text) (v : Value) : Action Unit :=
  modify fun w =>
    match scene.frames with
    | f :: _ => { w with frames := w.frames.modify f fun frame => frame.put name (some v) }
    | [] => w

/-- What is known of a variable: whether it is there, and its value if it has one. It is there in
the innermost frame that it belongs to, or else as a property of the global object. -/
def known? (w : World) (scene : Scene) (name : Text) : Option (Option Value) :=
  match scene.frames.findSome? fun f => (w.frames[f]?).bind fun frame => frame.get? name with
  | some v => some v
  | none => scene.global.bind fun g => (w.heap.value? (.ref g) name).map some

/-- The value of a variable, which must have one. -/
def readVariable (scene : Scene) (name : Text) : Action Value := do
  match known? (← get) scene name with
  | some (some v) => return v
  | some none => crashIn scene.realm .reference ("Cannot access '" ++ name ++ "' before initialization")
  | none => crashIn scene.realm .reference (name ++ " is not defined")

/-- The argument at a position, undefined if there is none. -/
def argument (arguments : List Value) (i : Nat) : Value := (arguments[i]?).getD .undefined

end EvalPlan.Action
