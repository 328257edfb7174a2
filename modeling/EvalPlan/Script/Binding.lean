import EvalPlan.Script.Program

/-!
# Bindings

A block binds each of its variables once. A program in which a block binds a variable twice, or in
which the body of a function binds the parameter again, does not compile: `Program.bindsOnce` says
whether that is so. A program that another one runs is compiled on its own.

A variable belongs to its block from the beginning on, where it has no value yet: it hides what has
its name around the block even before the statement that binds it.
-/

namespace EvalPlan.Script

/-- The variables that the statements of a block bind, in order. -/
def bound : List Stmt → List Text
  | [] => []
  | .bind name _ :: rest => name :: bound rest
  | _ :: rest => bound rest

/-- No name comes twice. -/
def distinct : List Text → Bool
  | [] => true
  | name :: rest => !rest.contains name && distinct rest

mutual

/-- The blocks within an expression bind each variable once. -/
def Expr.bindsOnce : Expr → Bool
  | .list items => exprsBindOnce items
  | .record members => membersBindOnce members
  | .bareRecord members => membersBindOnce members
  | .fault _ message => message.bindsOnce
  | .construct cls => cls.bindsOnce
  | .jsonAs answer => answer.bindsOnce
  | .described name answer => name.bindsOnce && answer.bindsOnce
  | .property object _ => object.bindsOnce
  | .concat items => exprsBindOnce items
  | .names list => list.bindsOnce
  | .type name => name.bindsOnce
  | .build target configuration => target.bindsOnce && optionBindsOnce configuration
  | .task task => task.bindsOnce
  | .engine _ arguments => exprsBindOnce arguments
  | .function param body result =>
    distinct (param :: bound body) && stmtsBindOnce body && optionBindsOnce result
  | .cls _ product => optionBindsOnce product
  | .const _ => true
  | .symbol _ => true
  | .cycle => true
  | .variable _ => true
  | .run _ _ => true

/-- The blocks within an expression that may be left out bind each variable once. -/
def optionBindsOnce : Option Expr → Bool
  | none => true
  | some e => e.bindsOnce

/-- The blocks within expressions bind each variable once. -/
def exprsBindOnce : List Expr → Bool
  | [] => true
  | e :: rest => e.bindsOnce && exprsBindOnce rest

/-- The blocks within the properties of a new object bind each variable once. -/
def membersBindOnce : List (Text × Expr) → Bool
  | [] => true
  | (_, e) :: rest => e.bindsOnce && membersBindOnce rest

/-- The blocks within what a callable does bind each variable once. -/
def Answer.bindsOnce : Answer → Bool
  | .returns e => e.bindsOnce
  | .throws e => e.bindsOnce
  | .value e => e.bindsOnce

/-- The blocks within a statement bind each variable once. -/
def Stmt.bindsOnce : Stmt → Bool
  | .bind _ e => e.bindsOnce
  | .assign object _ e => object.bindsOnce && e.bindsOnce
  | .perform e => e.bindsOnce
  | .raise e => e.bindsOnce
  | .attempt body name handler =>
    distinct (bound body) && stmtsBindOnce body && distinct (name :: bound handler) && stmtsBindOnce handler
  | .loop _ body => distinct (bound body) && stmtsBindOnce body
  | .log _ message data => message.bindsOnce && optionBindsOnce data
  | .later body => distinct (bound body) && stmtsBindOnce body

/-- The blocks within statements bind each variable once. -/
def stmtsBindOnce : List Stmt → Bool
  | [] => true
  | s :: rest => s.bindsOnce && stmtsBindOnce rest

end

/-- The blocks of a program bind each variable once. -/
def Program.bindsOnce : Program → Bool
  | .block body result => distinct (bound body) && stmtsBindOnce body && optionBindsOnce result
  | .invalid _ => true

end EvalPlan.Script
