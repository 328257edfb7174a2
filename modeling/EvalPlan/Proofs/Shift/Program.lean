import Mathlib.Logic.Basic
import EvalPlan.Script.Binding
import EvalPlan.Script.Quoted
import EvalPlan.Proofs.Shift

/-!
# Moved programs

A moved program binds the same variables. A program that was read from plain text names nothing, so
that moving it leaves it as it is; and where no value moves, no program does.
-/

namespace EvalPlan

open Script (Expr Answer Stmt Program)

namespace Shift

variable (σ : Shift)

/-! ## Variables -/

/-- A moved block binds the same names. -/
theorem bound_stmts (body : List Stmt) : Script.bound (σ.stmts body) = Script.bound body := by
  induction body with
  | nil => rfl
  | cons s rest ih => cases s <;> simp [stmts, stmt, Script.bound, ih]

mutual

/-- A moved expression binds each name once exactly if the expression does, by recursion on it. -/
theorem bindsOnce_expr : (e : Expr) → (σ.expr e).bindsOnce = e.bindsOnce
  | .const _ | .symbol _ | .cycle | .variable _ | .run _ _ => rfl
  | .list items => bindsOnce_exprs items
  | .record members => bindsOnce_fields members
  | .bareRecord members => bindsOnce_fields members
  | .fault _ message => bindsOnce_expr message
  | .construct cls => bindsOnce_expr cls
  | .jsonAs a => bindsOnce_answer a
  | .described name a => congrArg₂ and (bindsOnce_expr name) (bindsOnce_answer a)
  | .property o _ => bindsOnce_expr o
  | .concat items => bindsOnce_exprs items
  | .names list => bindsOnce_expr list
  | .type name => bindsOnce_expr name
  | .build target configuration =>
    congrArg₂ and (bindsOnce_expr target) (bindsOnce_option configuration)
  | .task task => bindsOnce_expr task
  | .engine _ arguments => bindsOnce_exprs arguments
  | .function param body result => by
    simp only [expr, Expr.bindsOnce, bound_stmts, bindsOnce_stmts body, bindsOnce_option result]
  | .cls _ product => bindsOnce_option product

/-- The same holds for an expression that may be left out, -/
theorem bindsOnce_option : (e : Option Expr) →
    Script.optionBindsOnce (σ.option e) = Script.optionBindsOnce e
  | none => rfl
  | some e => bindsOnce_expr e

/-- for lists of expressions, -/
theorem bindsOnce_exprs : (es : List Expr) → Script.exprsBindOnce (σ.exprs es) =
    Script.exprsBindOnce es
  | [] => rfl
  | e :: rest => congrArg₂ and (bindsOnce_expr e) (bindsOnce_exprs rest)

/-- for the members of objects, -/
theorem bindsOnce_fields : (members : List (Text × Expr)) →
    Script.membersBindOnce (σ.fields members) = Script.membersBindOnce members
  | [] => rfl
  | (_, e) :: rest => congrArg₂ and (bindsOnce_expr e) (bindsOnce_fields rest)

/-- for the answers of methods, -/
theorem bindsOnce_answer : (a : Answer) → (σ.answer a).bindsOnce = a.bindsOnce
  | .returns e => bindsOnce_expr e
  | .throws e => bindsOnce_expr e
  | .value e => bindsOnce_expr e

/-- for statements, -/
theorem bindsOnce_stmt : (s : Stmt) → (σ.stmt s).bindsOnce = s.bindsOnce
  | .bind _ e => bindsOnce_expr e
  | .assign o _ e => congrArg₂ and (bindsOnce_expr o) (bindsOnce_expr e)
  | .perform e => bindsOnce_expr e
  | .raise e => bindsOnce_expr e
  | .attempt body name handler => by
    simp only [stmt, Stmt.bindsOnce, bound_stmts, bindsOnce_stmts body, bindsOnce_stmts handler]
  | .loop _ body => by simp only [stmt, Stmt.bindsOnce, bound_stmts, bindsOnce_stmts body]
  | .log _ message data => congrArg₂ and (bindsOnce_expr message) (bindsOnce_option data)
  | .later body => by simp only [stmt, Stmt.bindsOnce, bound_stmts, bindsOnce_stmts body]

/-- and for lists of statements. -/
theorem bindsOnce_stmts : (body : List Stmt) →
    Script.stmtsBindOnce (σ.stmts body) = Script.stmtsBindOnce body
  | [] => rfl
  | s :: rest => congrArg₂ and (bindsOnce_stmt s) (bindsOnce_stmts rest)

end

/-- A moved program binds each name once exactly if the program does. -/
@[simp] theorem bindsOnce_program (program : Program) :
    (σ.program program).bindsOnce = program.bindsOnce := by
  cases program with
  | block body result =>
    simp only [Shift.program, Program.bindsOnce, bound_stmts, bindsOnce_stmts, bindsOnce_option]
  | invalid t => rfl

/-! ## Plain text -/

mutual

/-- A program that is data holds no objects, so that nothing in it moves. -/
theorem expr_ofData : (j : Json) → σ.expr (.ofData j) = .ofData j
  | .null | .bool _ | .number _ | .text _ => rfl
  | .list items => congrArg Expr.list (exprs_dataItems items)
  | .object members => congrArg Expr.record (fields_dataMembers members)

/-- Neither do the items of a list of data, -/
theorem exprs_dataItems : (items : List Json) →
    σ.exprs (Script.dataItems items) = Script.dataItems items
  | [] => rfl
  | j :: rest => congrArg₂ List.cons (expr_ofData j) (exprs_dataItems rest)

/-- nor the members of an object of data. -/
theorem fields_dataMembers : (members : List (Text × Json)) →
    σ.fields (Script.dataMembers members) = Script.dataMembers members
  | [] => rfl
  | (name, j) :: rest =>
    congrArg₂ (fun e es => (name, e) :: es) (expr_ofData j) (fields_dataMembers rest)

end

/-- A program that is written as a text does not move. -/
@[simp] theorem program_ofText (t : Text) : σ.program (Program.ofText t) = Program.ofText t := by
  have hexpr (t : Text) {e : Expr} (h : Expr.ofText? t = some e) : σ.expr e = e := by
    unfold Expr.ofText? at h
    split at h
    · cases h
    next j _ _ =>
      split at h
      · cases h
      · cases h
        exact σ.expr_ofData j
    · split at h
      · cases h
        rfl
      · split at h <;> cases h
        rfl
  unfold Program.ofText
  dsimp only
  split
  · rfl
  · split
    next e he => exact congrArg (fun e => Program.block [] (some e)) (hexpr _ he)
    next => rfl

/-! ## Where nothing moves -/

variable {σ}

mutual

/-- Where no value moves, no expression does, by recursion on it. -/
theorem expr_eq (h : ∀ v, σ.value v = v) : (e : Expr) → σ.expr e = e
  | .const v => congrArg Expr.const (h v)
  | .symbol _ | .cycle | .variable _ => rfl
  | .list items => congrArg Expr.list (exprs_eq h items)
  | .record members => congrArg Expr.record (fields_eq h members)
  | .bareRecord members => congrArg Expr.bareRecord (fields_eq h members)
  | .fault kind message => congrArg (Expr.fault kind) (expr_eq h message)
  | .construct cls => congrArg Expr.construct (expr_eq h cls)
  | .jsonAs a => congrArg Expr.jsonAs (answer_eq h a)
  | .described name a => congrArg₂ Expr.described (expr_eq h name) (answer_eq h a)
  | .property o name => congrArg (Expr.property · name) (expr_eq h o)
  | .concat items => congrArg Expr.concat (exprs_eq h items)
  | .names list => congrArg Expr.names (expr_eq h list)
  | .type name => congrArg Expr.type (expr_eq h name)
  | .build target configuration =>
      congrArg₂ Expr.build (expr_eq h target) (option_eq h configuration)
  | .task task => congrArg Expr.task (expr_eq h task)
  | .engine operation arguments => congrArg (Expr.engine operation) (exprs_eq h arguments)
  | .run name p => congrArg (Expr.run name) (program_eq h p)
  | .function param body result => congrArg₂ (Expr.function param) (stmts_eq h body)
      (option_eq h result)
  | .cls name product => congrArg (Expr.cls name) (option_eq h product)

/-- Nor does one that may be left out, -/
theorem option_eq (h : ∀ v, σ.value v = v) : (e : Option Expr) → σ.option e = e
  | none => rfl
  | some e => congrArg some (expr_eq h e)

/-- nor a list of expressions, -/
theorem exprs_eq (h : ∀ v, σ.value v = v) : (es : List Expr) → σ.exprs es = es
  | [] => rfl
  | e :: rest => congrArg₂ List.cons (expr_eq h e) (exprs_eq h rest)

/-- nor the members of an object, -/
theorem fields_eq (h : ∀ v, σ.value v = v) : (members : List (Text × Expr)) →
    σ.fields members = members
  | [] => rfl
  | (name, e) :: rest => congrArg₂ (fun e es => (name, e) :: es) (expr_eq h e) (fields_eq h rest)

/-- nor the answer of a method, -/
theorem answer_eq (h : ∀ v, σ.value v = v) : (a : Answer) → σ.answer a = a
  | .returns e => congrArg Answer.returns (expr_eq h e)
  | .throws e => congrArg Answer.throws (expr_eq h e)
  | .value e => congrArg Answer.value (expr_eq h e)

/-- nor a statement, -/
theorem stmt_eq (h : ∀ v, σ.value v = v) : (s : Stmt) → σ.stmt s = s
  | .bind name e => congrArg (Stmt.bind name) (expr_eq h e)
  | .assign o name e => congrArg₂ (Stmt.assign · name ·) (expr_eq h o) (expr_eq h e)
  | .perform e => congrArg Stmt.perform (expr_eq h e)
  | .raise e => congrArg Stmt.raise (expr_eq h e)
  | .attempt body name handler => congrArg₂ (Stmt.attempt · name ·) (stmts_eq h body)
      (stmts_eq h handler)
  | .loop count body => congrArg (Stmt.loop count) (stmts_eq h body)
  | .log level message data => congrArg₂ (Stmt.log level) (expr_eq h message) (option_eq h data)
  | .later body => congrArg Stmt.later (stmts_eq h body)

/-- nor a list of statements. -/
theorem stmts_eq (h : ∀ v, σ.value v = v) : (body : List Stmt) → σ.stmts body = body
  | [] => rfl
  | s :: rest => congrArg₂ List.cons (stmt_eq h s) (stmts_eq h rest)

/-- Where no value moves, no program does. -/
theorem program_eq (h : ∀ v, σ.value v = v) : (p : Program) → σ.program p = p
  | .block body result => congrArg₂ Program.block (stmts_eq h body) (option_eq h result)
  | .invalid _ => rfl

end

end Shift

end EvalPlan
