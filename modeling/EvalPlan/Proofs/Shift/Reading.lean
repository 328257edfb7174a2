import EvalPlan.Proofs.Delivery
import EvalPlan.Proofs.Shift.Steps

/-!
# Reading properties in moved worlds

Reading, calling and assigning properties, and putting values into text, follow each other in moved
worlds if the parts of scripts do (`Evaluator.Follows`): what is found on an object is found on the
moved one.
-/

namespace EvalPlan

/-- The parts of scripts do in moved worlds what they do in the one. -/
structure Evaluator.Follows (role : Role) (σ : Shift) (ev : Evaluator) : Prop where
  expr : ∀ (scene : Script.Scene) (e : Script.Expr), σ.Fits scene.realm →
    Action.Follows role σ σ.value (ev.expr scene e) (ev.expr (σ.scene scene) (σ.expr e))
  block : ∀ (scene : Script.Scene) (body : List Script.Stmt), σ.Fits scene.realm → σ.Inner scene →
    Action.Follows role σ id (ev.block scene body) (ev.block (σ.scene scene) (σ.stmts body))
  call : ∀ (callee this : Value) (arguments : List Value),
    Action.Follows role σ σ.value (ev.call callee this arguments)
      (ev.call (σ.value callee) (σ.value this) (arguments.map σ.value))
  construct : ∀ (realm : Realm) (cls : Value), σ.Fits realm →
    Action.Follows role σ σ.value (ev.construct realm cls)
      (ev.construct (σ.realm realm) (σ.value cls))
  json : ∀ (path : List Ref) (key : Text) (v : Value),
    Action.Follows role σ id (ev.json path key v) (ev.json (path.map σ.ref) key (σ.value v))
  run : ∀ (name : Text) (program : Script.Program),
    Action.Follows role σ σ.value (ev.run name program) (ev.run name (σ.program program))
  bus : ev.Obeys fun w w' => w'.bus = w.bus

namespace Action

open Shift

variable {role : Role} {σ : Shift} {α β : Type}

namespace Follows

variable {f : α → β}

/-- What is decided alike. -/
theorem ite {p p' : Prop} [Decidable p] [Decidable p'] (hp : p' ↔ p) {x y : Action α}
    {x' y' : Action β} (hx : Follows role σ f x x') (hy : Follows role σ f y y') :
    Follows role σ f (if p then x else y) (if p' then x' else y') := by
  by_cases h : p
  · rw [if_pos h, if_pos (hp.mpr h)]
    exact hx
  · rw [if_neg h, if_neg fun h' => h (hp.mp h')]
    exact hy

/-- What is decided alike, where the decision is a truth value. -/
theorem cond {b b' : Bool} (hb : b' = b) {x y : Action α} {x' y' : Action β}
    (hx : Follows role σ f x x') (hy : Follows role σ f y y') :
    Follows role σ f (if b then x else y) (if b' then x' else y') := ite (by rw [hb]) hx hy

/-- An answer that is worked out before it is given. -/
theorem answer {x : Action α} {x' : Action β} (hx : Follows role σ f x x') {γ δ : Type} {g : γ → δ}
    {j : α → γ} {j' : β → δ} (hj : ∀ a, j' (f a) = g (j a)) :
    Follows role σ g (x >>= fun a => Pure.pure (j a)) (x' >>= fun b => Pure.pure (j' b)) :=
  bind hx fun a => pure_of_eq (hj a)

end Follows

variable {ev : Evaluator} (hev : ev.Follows role σ)

/-! ## Properties -/

section realm

variable (realm : Realm) [σ.Fits realm]

include hev

/-- Reading a property follows, also where a getter computes it. -/
theorem property_follows (v : Value) (name : Text) :
    Follows role σ σ.value (property ev realm v name)
      (property ev (σ.realm realm) (σ.value v) name) := by
  unfold property
  refine .cond (σ.isNullish_value v) (crashIn_follows _ realm _ _) (.heap fun {h h'} hh => ?_)
  rw [hh.find? realm]
  cases h.find? realm v name with
  | none => exact .pure σ.value .undefined
  | some s =>
    cases s with
    | data x shown fixed => exact .pure σ.value x
    | computed getter setter => exact hev.call getter v []

/-- Calling what was read as a property follows. -/
theorem callProperty_follows (callee owner : Value) (arguments : List Value) :
    Follows role σ σ.value (callProperty ev realm callee owner arguments)
      (callProperty ev (σ.realm realm) (σ.value callee) (σ.value owner) (arguments.map σ.value)) :=
  .heap fun hh =>
    .cond (hh.isCallable callee) (hev.call callee owner arguments) (crashIn_follows _ realm _ _)

/-- Calling a method follows. -/
theorem invoke_follows (v : Value) (name : Text) (arguments : List Value) :
    Follows role σ σ.value (invoke ev realm v name arguments)
      (invoke ev (σ.realm realm) (σ.value v) name (arguments.map σ.value)) :=
  .bind (property_follows hev realm v name) fun callee =>
    callProperty_follows hev realm callee v arguments

/-! ### Numbers -/

/-- Turning an object into a plain value follows, by induction on the methods that are asked. -/
theorem plainBy_follows (v : Value) (names : List Text) :
    Follows role σ σ.value (plainBy ev realm v names)
      (plainBy ev (σ.realm realm) (σ.value v) names) := by
  induction names with
  | nil => exact crashIn_follows _ realm _ _
  | cons name rest ih =>
    refine .bind (property_follows hev realm v name) fun f => .heap fun hh => ?_
    refine .cond (hh.isCallable f) (.bind (hev.call f v []) fun x => ?_) ih
    cases x with
    | ref r => exact ih
    | _ => exact .pure σ.value _

/-- Turning any value into a plain one follows. -/
theorem plain_follows (wish : Wish) (v : Value) :
    Follows role σ σ.value (plain ev realm wish v) (plain ev (σ.realm realm) wish (σ.value v)) := by
  cases v with
  | ref r => exact plainBy_follows hev realm (.ref r) wish.methods
  | _ => exact .pure σ.value _

/-- Taking a value for a number gives the same number in both worlds. -/
theorem magnitude_follows (v : Value) :
    Follows role σ id (magnitude ev realm v) (magnitude ev (σ.realm realm) (σ.value v)) := by
  refine .bind (plain_follows hev realm .other v) fun x => ?_
  cases x with
  | symbol | ref => exact crashIn_follows _ realm _ _
  | _ => exact .pure id _

/-- So does converting it to a number. -/
theorem toNumber_follows (v : Value) :
    Follows role σ id (toNumber ev realm v) (toNumber ev (σ.realm realm) (σ.value v)) := by
  refine .bind (plain_follows hev realm .other v) fun x => ?_
  cases x with
  | bigint => exact crashIn_follows _ realm _ _
  | undefined | null | bool | number | text => exact magnitude_follows hev realm _
  | symbol description serial => exact magnitude_follows hev realm (.symbol description serial)
  | ref r => exact magnitude_follows hev realm (.ref r)

/-! ### Assigning -/

/-- Setting the length of a list follows. -/
theorem resize_follows (v length : Value) :
    Follows role σ id (resize ev realm v length)
      (resize ev (σ.realm realm) (σ.value v) (σ.value length)) := by
  refine .bind (toNumber_follows hev realm length) fun _ => ?_
  refine .bind (toNumber_follows hev realm length) fun x => ?_
  dsimp only [id_eq]
  cases listLength? x with
  | none => exact crashIn_follows _ realm _ _
  | some n => exact change_follows v (resize_object n) fun _ => fitsObject_resize

/-- An assignment follows, whether it is taken, handed to a setter or refused. -/
theorem assign_follows (insisting : Bool) (v : Value) (name : Text) (x : Value) :
    Follows role σ id (assign ev realm insisting v name x)
      (assign ev (σ.realm realm) insisting (σ.value v) name (σ.value x)) := by
  unfold assign
  refine .cond (σ.isNullish_value v) (crashIn_follows _ realm _ _) (.heap fun {h h'} hh => ?_)
  rw [hh.assignment realm, hh.isList]
  cases h.assignment realm v name with
  | taken =>
    exact .ite Iff.rfl (resize_follows hev realm v x)
      (change_follows v (put_object name x) fun _ => fitsObject_put)
  | handed setter => exact .bind (hev.call setter v [x]) fun _ => .pure id _
  | refused => exact .ite Iff.rfl (crashIn_follows _ realm _ _) (.pure id _)

end realm

/-! ## What the library reads -/

section main

include hev

/-- Reading a property for the main realm follows. -/
theorem propertyMain_follows (v : Value) (name : Text) :
    Follows role σ σ.value (property ev .main v name) (property ev .main (σ.value v) name) := by
  have h := property_follows hev .main v name
  rwa [realm_main] at h

/-- Calling what was read follows for the main realm. -/
theorem callPropertyMain_follows (callee owner : Value) (arguments : List Value) :
    Follows role σ σ.value (callProperty ev .main callee owner arguments)
      (callProperty ev .main (σ.value callee) (σ.value owner) (arguments.map σ.value)) := by
  have h := callProperty_follows hev .main callee owner arguments
  rwa [realm_main] at h

/-- Calling a method follows for the main realm. -/
theorem invokeMain_follows (v : Value) (name : Text) (arguments : List Value) :
    Follows role σ σ.value (invoke ev .main v name arguments)
      (invoke ev .main (σ.value v) name (arguments.map σ.value)) := by
  have h := invoke_follows hev .main v name arguments
  rwa [realm_main] at h

/-- Asking a value for its name follows. -/
theorem nameOf_follows (v : Value) :
    Follows role σ σ.value (nameOf ev v) (nameOf ev (σ.value v)) :=
  propertyMain_follows hev v "name"

/-- Taking a value for a number follows for the main realm. -/
theorem magnitudeMain_follows (v : Value) :
    Follows role σ id (magnitude ev .main v) (magnitude ev .main (σ.value v)) := by
  have h := magnitude_follows hev .main v
  rwa [realm_main] at h

/-- An assignment follows for the main realm. -/
theorem assignMain_follows (insisting : Bool) (v : Value) (name : Text) (x : Value) :
    Follows role σ id (assign ev .main insisting v name x)
      (assign ev .main insisting (σ.value v) name (σ.value x)) := by
  have h := assign_follows hev .main insisting v name x
  rwa [realm_main] at h

/-- Assigning several properties follows, one by one. -/
theorem assignAll_follows (v : Value) (members : List (Text × Value)) :
    Follows role σ id (assignAll ev v members) (assignAll ev (σ.value v) (members.map σ.row)) := by
  induction members with
  | nil => exact .pure id _
  | cons m members ih => exact .bind (assignMain_follows hev true v m.1 m.2) fun _ => ih

end main

/-! ## Text -/

/-- A plain value is put into the same text in both worlds. -/
theorem plainWords_follows (realm : Realm) [σ.Fits realm] (v : Value) :
    Follows role σ id (plainWords realm v) (plainWords (σ.realm realm) (σ.value v)) := by
  cases v with
  | bool b => cases b <;> exact .pure id _
  | symbol | ref => exact crashIn_follows _ realm _ _
  | _ => exact .pure id _

section text

variable (realm : Realm) [σ.Fits realm]

include hev

/-- So is any value whose conversion follows. -/
theorem words_follows (v : Value) :
    Follows role σ id (words ev realm v) (words ev (σ.realm realm) (σ.value v)) :=
  .bind (plain_follows hev realm .text v) fun x => plainWords_follows realm x

/-- So is a value that is added to a text. -/
theorem addedWords_follows (v : Value) :
    Follows role σ id (addedWords ev realm v) (addedWords ev (σ.realm realm) (σ.value v)) :=
  .bind (plain_follows hev realm .other v) fun x => plainWords_follows realm x

/-- So is a message that may be missing. -/
theorem givenWords_follows (v : Value) :
    Follows role σ id (givenWords ev realm v) (givenWords ev (σ.realm realm) (σ.value v)) := by
  have hgiven : Follows role σ (@id (Option Text)) (words ev realm v >>= fun t => pure (some t))
      (words ev (σ.realm realm) (σ.value v) >>= fun t => pure (some t)) :=
    .answer (words_follows hev realm v) fun _ => rfl
  cases v with
  | undefined => exact .pure id none
  | _ => exact hgiven

/-- So is a value that is displayed. -/
theorem display_follows (v : Value) :
    Follows role σ id (display ev realm v) (display ev (σ.realm realm) (σ.value v)) := by
  have hwords := words_follows hev realm v
  cases v with
  | symbol => exact .pure id _
  | _ => exact hwords

end text

include hev

/-- Putting a value into text follows for the main realm. -/
theorem wordsMain_follows (v : Value) :
    Follows role σ id (words ev .main v) (words ev .main (σ.value v)) := by
  have h := words_follows hev .main v
  rwa [realm_main] at h

/-- Describing a thrown value gives the same words in both worlds. -/
theorem describe_follows (v : Value) :
    Follows role σ id (describe ev v) (describe ev (σ.value v)) := by
  refine .heap fun {h h'} hh => ?_
  rw [hh.isObject, hh.text?]
  cases (if h.isObject v then h.text? v "message" else none) with
  | some message => exact .pure id message
  | none =>
    have h := display_follows hev .main v
    rwa [realm_main] at h

/-- Taking a thrown value for a cause follows as taking the moved value for one. -/
theorem cause_follows (v : Value) :
    Follows role σ σ.cause (cause ev v) (cause ev (σ.value v)) :=
  .answer (describe_follows hev v) fun _ => rfl

end Action

end EvalPlan
