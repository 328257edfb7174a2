import EvalPlan.Proofs.Shift.Runs
import EvalPlan.Proofs.Shift.Telling

/-!
# Variables and standard functions in moved worlds

Variables have the moved values, and the functions that the templates of a realm offer do to moved
receivers what they do to the receivers themselves. Functions that go through the items of a
receiver are followed position by position.
-/

namespace EvalPlan

namespace Action

open Script (Scene Stmt)
open Shift

variable {role : Role} {σ : Shift} {α β : Type} {ev : Evaluator} (hev : ev.Follows role σ)

/-! ## Variables -/

/-- A name is known in the moved scene exactly where it is known, with the moved value. -/
theorem known?_follows {s : Surroundings} {a c : World} (hw : σ.Worlds s a c) (scene : Scene)
    (name : Text) :
    known? c (σ.scene scene) name = (known? a scene name).map (Option.map σ.value) := by
  -- frames are searched from the inside out, and each has its moved names at its moved place
  have hframes (frames : List Nat) :
      (frames.map σ.frame).findSome? (fun f => (c.frames[f]?).bind fun frame => frame.get? name) =
        (frames.findSome? fun f => (a.frames[f]?).bind fun frame => frame.get? name).map
          (Option.map σ.value) := by
    induction frames with
    | nil => rfl
    | cons f rest ih =>
      have hfound : (c.frames[σ.frame f]?).bind (fun frame => frame.get? name) =
          ((a.frames[f]?).bind fun frame => frame.get? name).map (Option.map σ.value) := by
        rw [hw.frame]
        cases a.frames[f]? with
        | none => rfl
        | some frame => exact σ.get?_bindings frame name
      rw [List.map_cons, List.findSome?_cons, List.findSome?_cons, hfound]
      cases (a.frames[f]?).bind fun frame => frame.get? name with
      | none => exact ih
      | some v => rfl
  unfold known?
  rw [show (σ.scene scene).frames = scene.frames.map σ.frame from rfl,
    show (σ.scene scene).global = scene.global.map σ.ref from rfl, hframes]
  cases scene.frames.findSome? fun f => (a.frames[f]?).bind fun frame => frame.get? name with
  | some v => rfl
  | none =>
    cases scene.global with
    | none => rfl
    | some g =>
      show (c.heap.value? (σ.value (.ref g)) name).map some =
        ((a.heap.value? (.ref g) name).map some).map (Option.map σ.value)
      rw [hw.heaps.value?]
      cases a.heap.value? (.ref g) name <;> rfl

/-- Reading a variable follows, also one that is not defined. -/
theorem readVariable_follows (scene : Scene) [σ.Fits scene.realm] (name : Text) :
    Follows role σ σ.value (readVariable scene name) (readVariable (σ.scene scene) name) := by
  refine .get fun {s a c} hw => ?_
  rw [known?_follows hw]
  cases known? a scene name with
  | none => exact crashIn_follows _ scene.realm _ _
  | some v =>
    cases v with
    | none => exact crashIn_follows _ scene.realm _ _
    | some v => exact .pure σ.value v

/-- The arguments of a moved call are the moved arguments. -/
theorem argument_map (arguments : List Value) (i : Nat) :
    argument (arguments.map σ.value) i = σ.value (argument arguments i) := by
  unfold argument
  rw [List.getElem?_map]
  cases arguments[i]? <;> rfl

/-! ## Receivers -/

section realm

variable (realm : Realm) [σ.Fits realm]

/-- What refuses `undefined` and `null` follows. -/
theorem something_follows (this : Value) :
    Follows role σ σ.value (something realm this) (something (σ.realm realm) (σ.value this)) :=
  .cond (σ.isNullish_value this) (crashIn_follows _ realm _ _) (.pure σ.value this)

/-- What refuses values that cannot be called follows. -/
theorem callableReceiver_follows (this : Value) :
    Follows role σ id (callableReceiver realm this)
      (callableReceiver (σ.realm realm) (σ.value this)) := by
  refine .heap fun hh => ?_
  exact .cond (by rw [hh.isCallable]) (crashIn_follows _ realm _ _) (.pure id _)

include hev

/-- The number of items that a receiver claims is the same in both worlds. -/
theorem countOf_follows (v : Value) :
    Follows role σ id (countOf ev realm v) (countOf ev (σ.realm realm) (σ.value v)) :=
  .bind (property_follows hev realm v "length") fun length =>
    .bind (toNumber_follows hev realm length) fun _ => .ite Iff.rfl (.pure id _) (.pure id _)

/-! ## Lists -/

/-- The text of one item is the same. -/
theorem itemText_follows (x : Value) :
    Follows role σ id (itemText ev realm x) (itemText ev (σ.realm realm) (σ.value x)) :=
  .cond (σ.isNullish_value x) (.pure id _) (words_follows hev realm x)

/-- So are the texts of all of them, by induction on the number of items left. -/
theorem itemTexts_follows (v : Value) (n i : Nat) :
    Follows role σ id (itemTexts ev realm v n i)
      (itemTexts ev (σ.realm realm) (σ.value v) n i) := by
  induction n generalizing i with
  | zero => exact .pure id _
  | succ n ih =>
    exact .bind (property_follows hev realm v _) fun x =>
      .bind (itemText_follows hev realm x) fun _ =>
      .bind (ih (i + 1)) fun _ => .pure id _

/-- The separator of a list is the same text. -/
theorem separatorText_follows (separator : Value) :
    Follows role σ id (separatorText ev realm separator)
      (separatorText ev (σ.realm realm) (σ.value separator)) := by
  have hwords := words_follows hev realm separator
  cases separator with
  | undefined => exact .pure id _
  | _ => exact hwords

/-- Joining the items of a list gives the same text. -/
theorem joinItems_follows (this separator : Value) :
    Follows role σ id (joinItems ev realm this separator)
      (joinItems ev (σ.realm realm) (σ.value this) (σ.value separator)) := by
  refine .bind (something_follows realm this) fun v => ?_
  have hplain (v : Value) : Follows role σ id
      (countOf ev realm v >>= fun count => itemTexts ev realm v count 0 >>= fun ts =>
        pure (Text.join "," ts))
      (countOf ev (σ.realm realm) (σ.value v) >>= fun count =>
        itemTexts ev (σ.realm realm) (σ.value v) count 0 >>= fun ts => pure (Text.join "," ts)) :=
    .bind (countOf_follows hev realm v) fun count =>
      .bind (itemTexts_follows hev realm v count 0) fun _ => .pure id _
  cases v with
  | ref r =>
    refine .get fun hw => .cond (hw.joining r) (.pure id _) (whileJoining_follows r ?_)
    exact .bind (countOf_follows hev realm this) fun count =>
      .bind (separatorText_follows hev realm separator) fun _ =>
        .bind (itemTexts_follows hev realm this count 0) fun _ => .pure id _
  | symbol description serial => exact hplain (.symbol description serial)
  | _ => exact hplain _

/-- Calling a function on every item follows, position by position. -/
theorem mapItems_follows (v f : Value) (n i : Nat) :
    Follows role σ (List.map σ.cell) (mapItems ev realm v f n i)
      (mapItems ev (σ.realm realm) (σ.value v) (σ.value f) n i) := by
  induction n generalizing i with
  | zero => exact .pure _ []
  | succ n ih =>
    refine .heap fun {h h'} hh => .ite ?_ ?_ (ih (i + 1))
    · rw [hh.find? realm, Option.isSome_map]
    · exact .bind (property_follows hev realm v _) fun x =>
        .bind (hev.call f .undefined [x, Value.ofNat i, v]) fun y =>
          .bind (ih (i + 1)) fun ys => .pure (List.map σ.cell) ((i, y) :: ys)

/-- Asking whether a function accepts every item follows. -/
theorem everyItem_follows (v f : Value) (n i : Nat) :
    Follows role σ id (everyItem ev realm v f n i)
      (everyItem ev (σ.realm realm) (σ.value v) (σ.value f) n i) := by
  induction n generalizing i with
  | zero => exact .pure id _
  | succ n ih =>
    refine .heap fun {h h'} hh => .ite ?_ ?_ (ih (i + 1))
    · rw [hh.find? realm, Option.isSome_map]
    · exact .bind (property_follows hev realm v _) fun x =>
        .bind (hev.call f .undefined [x, Value.ofNat i, v]) fun answer =>
          .cond (σ.isTruthy_value answer) (ih (i + 1)) (.pure id _)

/-- Looking for a value among the items follows. -/
theorem anyItem_follows (v sought : Value) (n i : Nat) :
    Follows role σ id (anyItem ev realm v sought n i)
      (anyItem ev (σ.realm realm) (σ.value v) (σ.value sought) n i) := by
  induction n generalizing i with
  | zero => exact .pure id _
  | succ n ih =>
    exact .bind (property_follows hev realm v _) fun x =>
      .cond (σ.same_value x sought) (.pure id _) (ih (i + 1))

/-- Writing items into a list follows. -/
theorem putItems_follows (v : Value) (i : Nat) (items : List Value) :
    Follows role σ id (putItems ev realm v i items)
      (putItems ev (σ.realm realm) (σ.value v) i (items.map σ.value)) := by
  induction items generalizing i with
  | nil => exact .pure id _
  | cons x rest ih => exact .bind (assign_follows hev realm true v _ x) fun _ => ih (i + 1)

/-! ## Texts -/

/-- The text that a receiver stands for is the same. -/
theorem textOf_follows (this : Value) :
    Follows role σ id (textOf ev realm this) (textOf ev (σ.realm realm) (σ.value this)) :=
  .bind (something_follows realm this) fun v => words_follows hev realm v

/-! ## Objects -/

omit hev [σ.Fits realm] in
/-- The text of a plain object names its kind, which does not move. -/
theorem objectText_follows {h h' : Heap} (hh : σ.Heaps h h') (v : Value) :
    objectText h' (σ.value v) = objectText h v := by
  have htag : tagOf h' (σ.value v) = tagOf h v := by
    cases v with
    | ref r =>
      have hshape := hh.shape? (.ref r)
      rw [value_ref] at hshape ⊢
      unfold tagOf
      rw [hshape]
      cases h.shape? (.ref r) with
      | none => rfl
      | some s => cases s <;> rfl
    | _ => rfl
  rw [objectText, htag]
  rfl

/-- Putting a list into text follows, also with a `join` of its own. -/
theorem listText_follows (this : Value) :
    Follows role σ σ.value (listText ev realm this)
      (listText ev (σ.realm realm) (σ.value this)) := by
  refine .bind (something_follows realm this) fun v => ?_
  refine .bind (property_follows hev realm v "join") fun join => .heap fun {h h'} hh => ?_
  rw [objectText_follows hh]
  exact .cond (hh.isCallable join) (hev.call join v []) (.pure σ.value (.text (objectText h v)))

/-- A part of the text of an error is the same in both worlds. -/
theorem errorPart_follows (v : Value) (name fallback : Text) :
    Follows role σ id (errorPart ev realm v name fallback)
      (errorPart ev (σ.realm realm) (σ.value v) name fallback) := by
  refine .bind (property_follows hev realm v name) fun x => ?_
  have hwords := words_follows hev realm x
  cases x with
  | undefined => exact .pure id _
  | _ => exact hwords

/-- So is the whole text. -/
theorem errorText_follows (this : Value) :
    Follows role σ id (errorText ev realm this) (errorText ev (σ.realm realm) (σ.value this)) := by
  cases this with
  | ref r =>
    exact .bind (errorPart_follows hev realm (.ref r) "name" "Error") fun name =>
      .bind (errorPart_follows hev realm (.ref r) "message" []) fun message =>
        .ite Iff.rfl (.pure id _) (.ite Iff.rfl (.pure id _) (.pure id _))
  | _ => exact crashIn_follows _ realm _ _

omit hev [σ.Fits realm] in
/-- A function shows the same declaration. -/
theorem declaration_follows {h h' : Heap} (hh : σ.Heaps h h') (callee : Value) :
    declaration h' (σ.value callee) = declaration h callee := by
  unfold declaration
  rw [hh.blueprint?, hh.nameOf]
  cases h.blueprint? callee <;> rfl

omit hev in
/-- The template of a moved value is the moved template. -/
theorem parentOf_follows {h h' : Heap} (hh : σ.Heaps h h') (v : Value) :
    parentOf h' (σ.realm realm) (σ.value v) = σ.value (parentOf h realm v) := by
  have htemplate (f : Family) :
      Value.ref ((σ.realm realm).template f) = σ.value (.ref (realm.template f)) := by
    rw [σ.value_ref, σ.ref_template realm]
  cases v with
  | ref r =>
    show (((h'.object? (σ.value (.ref r))).bind (·.parent)).map Value.ref).getD .null = _
    rw [hh.object?]
    unfold parentOf
    cases h.object? (.ref r) with
    | none => rfl
    | some o =>
      show ((o.parent.map σ.ref).map Value.ref).getD .null =
        σ.value ((o.parent.map Value.ref).getD .null)
      cases o.parent <;> rfl
  | undefined | null => rfl
  | text | number | bool | bigint | symbol => exact htemplate _

omit hev [σ.Fits realm] in
/-- Giving an object another template moves both. -/
theorem adopt_object (parent : Option Ref) (o : Object) :
    Object.adopt (parent.map σ.ref) (σ.object o) = σ.object (Object.adopt parent o) := rfl

omit hev in
/-- Setting the template of a value follows. -/
theorem adopt_follows (v parent : Value) :
    Follows role σ id (adopt realm v parent)
      (adopt (σ.realm realm) (σ.value v) (σ.value parent)) := by
  refine .heap fun {h h'} hh => ?_
  have hchange (v : Value) (p : Option Ref) : Follows role σ (@id PUnit) (change v (Object.adopt p))
      (change (σ.value v) (Object.adopt (p.map σ.ref))) :=
    change_follows v (adopt_object p) fun _ ho => ⟨ho.callable, ho.walk⟩
  cases v with
  | ref r =>
    have hobject := hh.object? (.ref r)
    rw [hobject]
    cases h.object? (.ref r) with
    | none => exact .pure id _
    | some o =>
      cases parent with
      | ref p =>
        refine .ite ?_ (.pure id _)
          (.cond ?_ (crashIn_follows _ realm _ _) (hchange (.ref r) (some p)))
        -- a parent that is there already, and a cycle, are noticed at the moved places too
        · show (o.parent.map σ.ref == some (σ.ref p)) = true ↔ _
          cases o.parent <;> simp
        · rw [hh.inherits, σ.ref_beq]
          rfl
      | null =>
        refine .ite ?_ (.pure id _)
          (.cond rfl (crashIn_follows _ realm _ _) (hchange (.ref r) none))
        show (o.parent.map σ.ref).isNone = true ↔ _
        rw [Option.isNone_map]
      | _ => exact .pure id _
  | _ => exact .pure id _

/-- The values of a list that is handed over as arguments follow. -/
theorem argumentList_follows (v : Value) :
    Follows role σ (List.map σ.value) (argumentList ev realm v)
      (argumentList ev (σ.realm realm) (σ.value v)) := by
  refine .cond (σ.isNullish_value v) (.pure (List.map σ.value) [])
    (.bind (countOf_follows hev realm v) fun count => ?_)
  have h : Follows role σ (List.map σ.value)
      ((List.range count).mapM fun (i : Nat) => property ev realm v (Text.ofNat i))
      (((List.range count).map id).mapM fun (i : Nat) =>
        property ev (σ.realm realm) (σ.value v) (Text.ofNat i)) :=
    .mapM fun i => property_follows hev realm v (Text.ofNat i)
  rwa [List.map_id] at h

/-- Looking for a property of the value's own follows. -/
theorem ownSlot?_follows (this name : Value) :
    Follows role σ (Option.map σ.slot) (ownSlot? ev realm this name)
      (ownSlot? ev (σ.realm realm) (σ.value this) (σ.value name)) := by
  refine .bind (words_follows hev realm name) fun t => .heap fun {h h'} hh => ?_
  have hown (v : Value) : ((h'.object? (σ.value v)).bind fun o => o.own? t) =
      ((h.object? v).bind fun o => o.own? t).map σ.slot := by
    rw [hh.object?]
    cases h.object? v with
    | none => rfl
    | some o => exact σ.own?_object o t
  cases this with
  | text x => exact .pure_of_eq (σ.slot_ofText? x t).symm
  | _ => exact .pure_of_eq (hown _)

/-! ## Standard functions -/

/-- Every standard function follows, one case per function. -/
theorem callStandard_follows (f : Standard) (this : Value) (arguments : List Value) :
    Follows role σ σ.value (callStandard ev realm f this arguments)
      (callStandard ev (σ.realm realm) f (σ.value this) (arguments.map σ.value)) := by
  -- most functions first look at their receiver, which is there or callable on both sides
  have hsomething : Follows role σ σ.value (something realm this) _ := something_follows realm this
  have hcallable (v : Value) : Follows role σ id (callableReceiver realm v) _ :=
    callableReceiver_follows realm v
  unfold callStandard
  rw [argument_map]
  generalize argument arguments 0 = first
  cases f with
  | call =>
    refine .bind (hcallable this) fun _ => ?_
    rw [← List.map_drop]
    exact hev.call this first _
  | apply =>
    refine .bind (hcallable this) fun _ => ?_
    rw [argument_map]
    exact .bind (argumentList_follows hev realm _) fun given => hev.call this first given
  | bind =>
    refine .bind (hcallable this) fun _ => .heap fun hh => ?_
    rw [hh.nameOf, ← List.map_drop]
    exact newFunction_follows realm (c := .bound this first (arguments.drop 1)) trivial _ 0
  | declaration =>
    refine .bind (hcallable this) fun _ => .heap fun hh => ?_
    rw [declaration_follows hh]
    exact .pure σ.value (.text _)
  | idle => exact .pure σ.value .undefined
  | objectText =>
    refine .heap fun hh => ?_
    rw [objectText_follows hh]
    exact .pure σ.value (.text _)
  | itself => exact hsomething
  | localText => exact invoke_follows hev realm this "toString" []
  | owns =>
    exact .bind (ownSlot?_follows hev realm this first) fun slot =>
      .pure_of_eq (by rw [Option.isSome_map]; rfl)
  | shows =>
    refine .bind (ownSlot?_follows hev realm this first) fun slot => .pure_of_eq ?_
    cases slot with
    | none => rfl
    | some s => exact congrArg Value.bool (σ.isShown_slot s)
  | isAncestor =>
    cases this with
    | ref r => exact .heap fun hh => .pure_of_eq (congrArg Value.bool (hh.inherits first r))
    | _ => exact .pure σ.value (.bool false)
  | parent => exact .heap fun hh => .bind hsomething fun v =>
      .pure_of_eq (parentOf_follows realm hh v)
  | setParent =>
    exact .bind hsomething fun v => .bind (adopt_follows realm v first) fun _ =>
      .pure σ.value .undefined
  | join => exact .answer (joinItems_follows hev realm this first) fun _ => rfl
  | listText => exact listText_follows hev realm this
  | map =>
    refine .bind hsomething fun v => .bind (countOf_follows hev realm v) fun count => ?_
    refine .bind (hcallable first) fun _ =>
      .bind (mapItems_follows hev realm v first count 0) fun cells => ?_
    rw [← σ.ref_template realm]
    exact alloc_follows (fitsObject_of_shape rfl nofun)
  | every =>
    exact .bind hsomething fun v => .bind (countOf_follows hev realm v) fun count =>
      .bind (hcallable first) fun _ =>
        .answer (everyItem_follows hev realm v first count 0) fun _ => rfl
  | includes =>
    exact .bind hsomething fun v => .bind (countOf_follows hev realm v) fun count =>
      .answer (anyItem_follows hev realm v first count 0) fun _ => rfl
  | push =>
    exact .bind hsomething fun v => .bind (countOf_follows hev realm v) fun count =>
      .bind (putItems_follows hev realm v count arguments) fun count =>
        .bind (assign_follows hev realm true v "length" (Value.ofNat count)) fun _ =>
          .pure σ.value (Value.ofNat count)
  | errorText => exact .answer (errorText_follows hev realm this) fun _ => rfl
  | textIncludes =>
    exact .bind (textOf_follows hev realm this) fun t =>
      .answer (words_follows hev realm first) fun _ => rfl
  | split =>
    refine .bind (textOf_follows hev realm this) fun t => ?_
    have hpieces : Follows role σ σ.value
        (words ev realm first >>= fun separator =>
          newList realm ((pieces separator t).map Value.text))
        (words ev (σ.realm realm) (σ.value first) >>= fun separator =>
          newList (σ.realm realm) ((pieces separator t).map Value.text)) := by
      refine .bind (words_follows hev realm first) fun separator => ?_
      have h : Follows role σ σ.value (newList realm ((pieces separator t).map Value.text)) _ :=
        newList_follows realm _
      rwa [List.map_map] at h
    cases first with
    | undefined => exact newList_follows realm [.text t]
    | _ => exact hpieces
  | trim => exact .answer (textOf_follows hev realm this) fun _ => rfl
  | plainText =>
    have hwords : Follows role σ σ.value (plainWords realm this >>= fun t => pure (Value.text t))
        (plainWords (σ.realm realm) (σ.value this) >>= fun t => pure (Value.text t)) :=
      .answer (plainWords_follows realm this) fun _ => rfl
    cases this with
    | symbol description serial =>
      exact .answer (display_follows hev realm (.symbol description serial)) fun _ => rfl
    | _ => exact hwords
  | plainValue =>
    cases this with
    | ref r => exact crashIn_follows _ realm _ _
    | _ => exact hsomething
  | description =>
    cases this with
    | symbol description serial => exact .pure σ.value (.text description)
    | _ => exact crashIn_follows _ realm _ _
  | unsaid => exact crashIn_follows _ realm _ _

/-! ## Makers -/

omit hev in
/-- Making an empty value of a family follows. -/
theorem make_follows (f : Family) :
    Follows role σ σ.value (make realm f) (make (σ.realm realm) f) := by
  have hplain (f : Family) : Follows role σ σ.value
      (alloc (Object.empty .plain (some (realm.template f))))
      (alloc (Object.empty .plain (some ((σ.realm realm).template f)))) := by
    rw [← σ.ref_template realm]
    exact alloc_follows (fitsObject_of_shape rfl nofun)
  cases f with
  | list => exact newList_follows realm []
  | error kind => exact newError_follows kind realm none
  | function => exact newFunction_follows realm (c := .standard .idle realm) ‹_› "anonymous" 0
  | _ => exact hplain _

/-- Calling the constructor of a family without `new` follows. -/
theorem convert_follows (f : Family) (arguments : List Value) :
    Follows role σ σ.value (convert ev realm f arguments)
      (convert ev (σ.realm realm) f (arguments.map σ.value)) := by
  unfold convert
  rw [argument_map]
  generalize argument arguments 0 = first
  cases f with
  | object =>
    refine .heap fun {h h'} hh => .ite ?_ (.pure σ.value first) (make_follows realm .object)
    rw [hh.object?, Option.isSome_map]
  | list => exact newList_follows realm arguments
  | text =>
    refine .ite ?_ (.pure σ.value (.text []))
      (.answer (display_follows hev realm first) fun _ => rfl)
    rw [List.isEmpty_map]
  | number =>
    refine .ite ?_ (.pure σ.value (.number 0))
      (.answer (magnitude_follows hev realm first) fun _ => rfl)
    rw [List.isEmpty_map]
  | truth => exact .pure_of_eq (congrArg Value.bool (σ.isTruthy_value first))
  | integer =>
    refine .bind (plain_follows hev realm .other first) fun x => ?_
    cases x with
    | bigint n => exact .pure σ.value (.bigint n)
    | bool b => exact .pure σ.value (.bigint _)
    | _ => exact crashIn_follows _ realm _ _
  | symbol =>
    refine .bind (alloc_follows (fitsObject_of_shape rfl nofun)) fun mark => ?_
    -- a symbol is told apart by the object that was made for it, and that object is moved
    refine .answer (givenWords_follows hev realm first) fun t => ?_
    rw [σ.ref?_value]
    cases mark <;> simp [Value.ref?, σ.ref_zero]
  | error kind =>
    refine .ite Iff.rfl (crashIn_follows _ realm _ _) ?_
    exact .bind (givenWords_follows hev realm first) fun t => newError_follows kind realm t
  | refusal => exact crashIn_follows _ realm _ _
  | function => exact make_follows realm .function

end realm

end Action

end EvalPlan
