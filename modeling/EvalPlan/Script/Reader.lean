import EvalPlan.Json.Writer
import EvalPlan.Script.Program

/-!
# Reading programs

Programs are written as JSON trees. Null, truth values, numbers and texts stand for themselves; any
other expression, and every statement, is an object whose first member names its form. A statement
whose first member names no form is refused, and so is an expression.
-/

namespace EvalPlan.Script

/-- Why a tree is no program: the message that says so. -/
abbrev Reading := Except Text

/-- What class keys stand for. -/
abbrev ClassKeys := Text → Value

/-- The kind of error that a name stands for. -/
def errorKind (name : Text) : ErrorKind :=
  if name = "TypeError" then .type
  else if name = "RangeError" then .range
  else if name = "SyntaxError" then .grammar
  else if name = "ReferenceError" then .reference
  else if name = "Configuration" then .configuration
  else .general

/-- An integer in a text, with a sign. -/
def readInt (t : Text) : Int :=
  match t with
  | 45 :: rest => -(((Text.toNat? rest).getD 0 : Nat) : Int)
  | _ => (t.toNat?.getD 0 : Nat)

/-- The text that a tree is, empty if it is none. -/
def textOf (j : Json) : Text := j.text?.getD []

/-- The tree is no expression. -/
def badExpr {α : Type} (j : Json) : Reading α := .error ("bad expression " ++ j.write)

/-- The tree is no statement. -/
def badStmt {α : Type} (j : Json) : Reading α := .error ("bad statement " ++ j.write)

mutual

/-- Reads an expression; the number bounds the nesting. -/
def readExpr (keys : ClassKeys) : Nat → Json → Reading Expr
  | 0, j => badExpr j
  | n + 1, j =>
    match j with
    | .null => .ok (.const .null)
    | .bool b => .ok (.const (.bool b))
    | .number x => .ok (.const (.number x))
    | .text t => .ok (.const (.text t))
    | .list _ => badExpr j
    | .object [] => badExpr j
    | .object ((form, v) :: _) =>
      if form = "undef" then .ok (.const .undefined)
      else if form = "num" then .ok (.const (.number (Decimal.ofText (textOf v))))
      else if form = "bigint" then .ok (.const (.bigint (readInt (textOf v))))
      else if form = "symbol" then .ok (.symbol (textOf v))
      else if form = "list" then return .list (← readExprs keys n v.items)
      else if form = "obj" then return .record (← readMembers keys n v.items)
      else if form = "nullobj" then return .bareRecord (← readMembers keys n v.items)
      else if form = "cycle" then .ok .cycle
      else if form = "err" then
        match v.items with
        | [kind, message] => return .fault (errorKind (textOf kind)) (← readExpr keys n message)
        | [kind] => .ok (.fault (errorKind (textOf kind)) (.const .undefined))
        | _ => badExpr j
      else if form = "cls" then .ok (.const (keys (textOf v)))
      else if form = "inst" then .ok (.construct (.const (keys (textOf v))))
      else if form = "toJSON" then return .jsonAs (← readAnswer keys n v)
      else if form = "describes" then
        return .described (← readExpr keys n ((v.get? "name").getD .null)) (← readAnswer keys n v)
      else if form = "var" then .ok (.variable (textOf v))
      else if form = "get" then
        match v.items with
        | [o, name] => return .property (← readExpr keys n o) (textOf name)
        | _ => badExpr j
      else if form = "cat" then return .concat (← readExprs keys n v.items)
      else if form = "names" then return .names (← readExpr keys n v)
      else if form = "type" then return .type (← readExpr keys n v)
      else if form = "build" then
        match v.items with
        | [target] => return .build (← readExpr keys n target) none
        | [target, configuration] =>
          return .build (← readExpr keys n target) (some (← readExpr keys n configuration))
        | _ => badExpr j
      else if form = "task" then return .task (← readExpr keys n v)
      else if form = "engine" then
        match v.items with
        | operation :: arguments => return .engine (textOf operation) (← readExprs keys n arguments)
        | [] => badExpr j
      else if form = "run" then
        match v.items with
        | [name, program] => return .run (textOf name) (← readProgram keys n program)
        | _ => badExpr j
      else if form = "fn" then
        match v.items with
        | [param, body] => return .function (textOf param) (← readStmts keys n body.items) none
        | [param, body, result] =>
          return .function (textOf param) (← readStmts keys n body.items) (some (← readExpr keys n result))
        | _ => badExpr j
      else if form = "class" then
        match v.items with
        | [name] => .ok (.cls (textOf name) none)
        | [name, product] => return .cls (textOf name) (some (← readExpr keys n product))
        | _ => badExpr j
      else if form = "new" then return .construct (← readExpr keys n v)
      else badExpr j

/-- Reads expressions. -/
def readExprs (keys : ClassKeys) : Nat → List Json → Reading (List Expr)
  | _, [] => .ok []
  | 0, j :: _ => badExpr j
  | n + 1, j :: rest => do
    let e ← readExpr keys n j
    let es ← readExprs keys n rest
    return e :: es

/-- Reads the properties of an object, each a pair. -/
def readMembers (keys : ClassKeys) : Nat → List Json → Reading (List (Text × Expr))
  | _, [] => .ok []
  | 0, j :: _ => badExpr j
  | n + 1, j :: rest =>
    match j.items with
    | [name, value] => do
      let e ← readExpr keys n value
      let es ← readMembers keys n rest
      return (textOf name, e) :: es
    | _ => badExpr j

/-- Reads what a callable does. -/
def readAnswer (keys : ClassKeys) : Nat → Json → Reading Answer
  | 0, j => badExpr j
  | n + 1, j =>
    match j.get? "returns", j.get? "throws", j.get? "value" with
    | some e, _, _ => return .returns (← readExpr keys n e)
    | none, some e, _ => return .throws (← readExpr keys n e)
    | none, none, some e => return .value (← readExpr keys n e)
    | none, none, none => badExpr j

/-- Reads a statement. -/
def readStmt (keys : ClassKeys) : Nat → Json → Reading Stmt
  | 0, j => badStmt j
  | n + 1, j =>
    match j with
    | .object ((form, v) :: _) =>
      if form = "let" then
        match v.items with
        | [name, e] => return .bind (textOf name) (← readExpr keys n e)
        | _ => badStmt j
      else if form = "set" then
        match v.items with
        | [o, name, e] => return .assign (← readExpr keys n o) (textOf name) (← readExpr keys n e)
        | _ => badStmt j
      else if form = "do" then return .perform (← readExpr keys n v)
      else if form = "throw" then return .raise (← readExpr keys n v)
      else if form = "try" then
        match ((j.get? "catch").getD .null).items with
        | [name, handler] =>
          return .attempt (← readStmts keys n v.items) (textOf name) (← readStmts keys n handler.items)
        | _ => badStmt j
      else if form = "repeat" then
        match v.items with
        | [count, body] => return .loop (count.nat?.getD 0) (← readStmts keys n body.items)
        | _ => badStmt j
      else if form = "log" then
        match v.items with
        | [level, message] => return .log (textOf level) (← readExpr keys n message) none
        | [level, message, data] =>
          return .log (textOf level) (← readExpr keys n message) (some (← readExpr keys n data))
        | _ => badStmt j
      else if form = "later" then return .later (← readStmts keys n v.items)
      else badStmt j
    | _ => badStmt j

/-- Reads statements. -/
def readStmts (keys : ClassKeys) : Nat → List Json → Reading (List Stmt)
  | _, [] => .ok []
  | 0, j :: _ => badStmt j
  | n + 1, j :: rest => do
    let s ← readStmt keys n j
    let ss ← readStmts keys n rest
    return s :: ss

/-- Reads a program. An invalid text that is empty is the empty program. -/
def readProgram (keys : ClassKeys) : Nat → Json → Reading Program
  | 0, j => badExpr j
  | n + 1, j =>
    match j.get? "invalid" with
    | some t => .ok (if (textOf t).isEmpty then .block [] none else .invalid (textOf t))
    | none => do
      let body ← readStmts keys n ((j.get? "body").getD .null).items
      match j.get? "result" with
      | none => return .block body none
      | some e => return .block body (some (← readExpr keys n e))

end

/-- How deep programs may be nested, counting each statement of a block as one. -/
def readingBound : Nat := 100000

/-- The expression that a tree describes. -/
def Expr.ofJson (keys : ClassKeys) (j : Json) : Reading Expr := readExpr keys readingBound j

/-- The program that a tree describes. -/
def Program.ofJson (keys : ClassKeys) (j : Json) : Reading Program :=
  readProgram keys readingBound j

end EvalPlan.Script
