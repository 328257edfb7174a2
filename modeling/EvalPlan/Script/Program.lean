import EvalPlan.Value.Realm

/-!
# Script programs

The language of configuration scripts: expressions, statements and programs. A program is a block
of statements and an expression for its completion value.

Scripts reach the engine through names of their global object. `build`, `task` and `type` are such
names, and so are `engine` and `logger`; the forms of this language that call them look the names
up when they are evaluated.
-/

namespace EvalPlan

namespace Script

/-- Where an expression is evaluated: the frames of variables in scope, the innermost first, the
global object behind them, the realm of the objects it makes, and whether an assignment that is
refused is an error. -/
structure Scene where
  /-- The frames in scope. -/
  frames : List Nat
  /-- The global object. -/
  global : Option Ref
  /-- The realm of the code. -/
  realm : Realm
  /-- A refused assignment is an error. -/
  insisting : Bool
deriving Inhabited

/-- Where the program around the scripts evaluates its own expressions. -/
def Scene.outside : Scene := ⟨[], none, .main, true⟩

mutual

/-- An expression. -/
inductive Expr
  /-- A value that is known beforehand. -/
  | const (v : Value)
  /-- A new symbol. -/
  | symbol (description : Text)
  /-- A new list. -/
  | list (items : List Expr)
  /-- A new object with these properties. -/
  | record (members : List (Text × Expr))
  /-- A new object that inherits nothing. -/
  | bareRecord (members : List (Text × Expr))
  /-- A new object that holds itself under the name `self`. -/
  | cycle
  /-- A new error object. -/
  | fault (kind : ErrorKind) (message : Expr)
  /-- A new instance of a class. -/
  | construct (cls : Expr)
  /-- A new object that decides on its own JSON form. -/
  | jsonAs (answer : Answer)
  /-- A new object with a name and a description of its own. -/
  | described (name : Expr) (answer : Answer)
  /-- The value of a variable. -/
  | variable (name : Text)
  /-- A property of an object. -/
  | property (object : Expr) (name : Text)
  /-- The texts of the values one after another. -/
  | concat (items : List Expr)
  /-- The names of the objects of a list, joined by commas. -/
  | names (list : Expr)
  /-- The type of a name. -/
  | type (name : Expr)
  /-- Builds an object, after the configuration if there is one. -/
  | build (target : Expr) (configuration : Option Expr)
  /-- Declares a task. -/
  | task (task : Expr)
  /-- Calls an operation of the engine. -/
  | engine (operation : Text) (arguments : List Expr)
  /-- Runs another program. -/
  | run (name : Text) (program : Program)
  /-- A new function of one parameter. -/
  | function (param : Text) (body : List Stmt) (result : Option Expr)
  /-- A new class whose instances build the value of the expression, if there is one. -/
  | cls (name : Text) (product : Option Expr)

/-- What a callable does when it is called, or what stands in its place. -/
inductive Answer
  /-- It returns the value. -/
  | returns (value : Expr)
  /-- It throws the value. -/
  | throws (value : Expr)
  /-- The value itself stands there. -/
  | value (value : Expr)

/-- A statement. -/
inductive Stmt
  /-- Binds a variable of the enclosing block. -/
  | bind (name : Text) (value : Expr)
  /-- Assigns a property. -/
  | assign (object : Expr) (name : Text) (value : Expr)
  /-- Evaluates an expression for its effects. -/
  | perform (value : Expr)
  /-- Throws a value. -/
  | raise (value : Expr)
  /-- Runs a block and, when it throws, another with the thrown value bound. -/
  | attempt (body : List Stmt) (name : Text) (handler : List Stmt)
  /-- Runs a block a number of times. -/
  | loop (count : Nat) (body : List Stmt)
  /-- Writes to the log. -/
  | log (level : Text) (message : Expr) (data : Option Expr)
  /-- Queues a block to run after the script. -/
  | later (body : List Stmt)

/-- A program. -/
inductive Program
  /-- A block and the expression for the completion value. -/
  | block (body : List Stmt) (result : Option Expr)
  /-- A text that is no program. -/
  | invalid (text : Text)

end

instance : Inhabited Expr := ⟨.const .undefined⟩
instance : Inhabited Stmt := ⟨.perform default⟩
instance : Inhabited Program := ⟨.block [] none⟩

end Script

end EvalPlan
