import EvalPlan.Proofs.Law.Reading

/-!
# Variables, standard functions and new classes follow the rules

The functions that the templates of a realm offer go through the items of whatever they are called
on, so the proofs about them follow the recursion over positions.
-/

namespace EvalPlan.Action

open Script (Scene Stmt Expr)

variable {T : Trait} {ev : Evaluator}

/-! ## Variables -/

section frames

variable (law : Stable T)

include law

/-- Entering a block of a script opens a frame. -/
theorem openBlock_holds (scene : Scene) (body : List Stmt) : T.holds (openBlock scene body) :=
  law.openFrame _ _

/-- Reading a variable looks the scene up, and throws where the variable has no value. -/
theorem readVariable_holds (scene : Scene) (name : Text) : T.holds (readVariable scene name) := by
  unfold readVariable
  refine law.read (fun _ => rfl) fun w => ?_
  split
  · exact law.pure _
  · exact law.crashIn _ _ _
  · exact law.crashIn _ _ _

end frames

/-! ## Going through items -/

/-- What is done while a list is being joined is done in the world that knows of it, and afterwards
the world knows of the earlier ones only. -/
theorem run_whileJoining {α : Type} (r : Ref) (act : Action α) (w : World) :
    ExceptT.run (whileJoining r act) w =
      ((ExceptT.run act { w with joining := r :: w.joining }).1,
        { (ExceptT.run act { w with joining := r :: w.joining }).2 with joining := w.joining }) :=
          rfl

section items

variable (law : Stable T)

include law

/-- A receiver that is missing is complained of; any other is taken. -/
theorem something_holds (realm : Realm) (this : Value) : T.holds (something realm this) := by
  unfold something
  split
  · exact law.crashIn _ _ _
  · exact law.pure _

/-- A receiver that cannot be called is complained of. -/
theorem callableReceiver_holds (realm : Realm) (this : Value) :
    T.holds (callableReceiver realm this) := by
  unfold callableReceiver
  refine law.bind law.heap fun h => ?_
  split
  · exact law.crashIn _ _ _
  · exact law.pure _

/-- Giving an object another parent changes the object or complains. -/
theorem adopt_holds (realm : Realm) (v parent : Value) : T.holds (adopt realm v parent) := by
  unfold adopt
  refine law.bind law.heap fun h => ?_
  split
  · split
    · exact law.pure _
    · split
      · exact law.crashIn _ _ _
      · exact law.change _ (gentle_adopt _)
  · split
    · exact law.pure _
    · split
      · exact law.crashIn _ _ _
      · exact law.change _ (gentle_adopt _)
  · exact law.pure _

variable (hev : ev.Meets T)

include hev

/-- The length of what a list function is called on is read and converted. -/
theorem countOf_holds (realm : Realm) (v : Value) : T.holds (countOf ev realm v) := by
  unfold countOf
  refine law.bind (property_holds law hev _ _ _) fun x =>
    law.bind (toNumber_holds law hev _ _) fun n => ?_
  split <;> exact law.pure _

/-- The text of an item is empty where the item is missing, and its words otherwise. -/
theorem itemText_holds (realm : Realm) (x : Value) : T.holds (itemText ev realm x) := by
  unfold itemText
  split
  · exact law.pure _
  · exact words_holds law hev _ _

/-- The texts of the items of a list are collected one by one. -/
theorem itemTexts_holds (realm : Realm) (v : Value) (n i : Nat) :
    T.holds (itemTexts ev realm v n i) := by
  induction n generalizing i with
  | zero => exact law.pure _
  | succ n ih =>
    exact law.bind (property_holds law hev _ _ _) fun _ =>
      law.bind (itemText_holds law hev _ _) fun _ => law.bind (ih _) fun _ => law.pure _

/-- The separator is put into text unless it is left out. -/
theorem separatorText_holds (realm : Realm) (separator : Value) :
    T.holds (separatorText ev realm separator) := by
  unfold separatorText
  split
  · exact law.pure _
  · exact words_holds law hev _ _

/-- Joining a list has a trait that collecting the texts of its items has; while it is joined the
list counts as empty. -/
theorem joinItems_holds (realm : Realm) (this separator : Value) :
    T.holds (joinItems ev realm this separator) := by
  unfold joinItems
  refine law.bind (something_holds law _ _) fun v => ?_
  split
  · refine law.read (fun _ => rfl) fun w => ?_
    split
    · exact law.pure _
    · -- a list that is being joined already adds nothing to itself
      exact law.whileJoining _ (law.bind (countOf_holds law hev _ _) fun _ =>
        law.bind (separatorText_holds law hev _ _) fun _ =>
          law.bind (itemTexts_holds law hev _ _ _ _) fun _ => law.pure _)
  · exact law.bind (countOf_holds law hev _ _) fun _ =>
      law.bind (itemTexts_holds law hev _ _ _ _) fun _ => law.pure _

/-- Mapping a list calls the function with each item that is there. -/
theorem mapItems_holds (realm : Realm) (v f : Value) (n i : Nat) :
    T.holds (mapItems ev realm v f n i) := by
  induction n generalizing i with
  | zero => exact law.pure _
  | succ n ih =>
    refine law.bind law.heap fun h => ?_
    -- places of a list at which nothing stands are passed over
    split
    · exact law.bind (property_holds law hev _ _ _) fun _ => law.bind (hev.call _ _ _) fun _ =>
        law.bind (ih _) fun _ => law.pure _
    · exact ih _

/-- Testing all items calls the function until an item fails the test. -/
theorem everyItem_holds (realm : Realm) (v f : Value) (n i : Nat) :
    T.holds (everyItem ev realm v f n i) := by
  induction n generalizing i with
  | zero => exact law.pure _
  | succ n ih =>
    refine law.bind law.heap fun h => ?_
    split
    · refine law.bind (property_holds law hev _ _ _) fun _ =>
        law.bind (hev.call _ _ _) fun answer => ?_
      split
      · exact ih _
      · exact law.pure _
    · exact ih _

/-- Looking for a value reads one item after another and calls nothing else. -/
theorem anyItem_holds (realm : Realm) (v sought : Value) (n i : Nat) :
    T.holds (anyItem ev realm v sought n i) := by
  induction n generalizing i with
  | zero => exact law.pure _
  | succ n ih =>
    refine law.bind (property_holds law hev _ _ _) fun x => ?_
    split
    · exact law.pure _
    · exact ih _

/-- Adding items to a list assigns each of them. -/
theorem putItems_holds (realm : Realm) (v : Value) (i : Nat) (items : List Value) :
    T.holds (putItems ev realm v i items) := by
  induction items generalizing i with
  | nil => exact law.pure _
  | cons x rest ih => exact law.bind (assign_holds law hev _ _ _ _ _) fun _ => ih _

/-- The arguments of a call that are given as a list are read item by item. -/
theorem argumentList_holds (realm : Realm) (v : Value) : T.holds (argumentList ev realm v) := by
  unfold argumentList
  split
  · exact law.pure _
  · exact law.bind (countOf_holds law hev _ _) fun _ => law.mapM fun _ =>
      property_holds law hev _ _ _

end items

/-! ## Texts and objects -/

section objects

variable (law : Stable T) (hev : ev.Meets T)

include law hev

/-- The receiver of a function for texts is put into words unless it is missing. -/
theorem textOf_holds (realm : Realm) (this : Value) : T.holds (textOf ev realm this) :=
  law.bind (something_holds law _ _) fun _ => words_holds law hev _ _

/-- The text of a list is what its own way of joining answers, or that of an object. -/
theorem listText_holds (realm : Realm) (this : Value) : T.holds (listText ev realm this) := by
  unfold listText
  refine law.bind (something_holds law _ _) fun v =>
    law.bind (property_holds law hev _ _ _) fun join =>
    law.bind law.heap fun h => ?_
  split
  · exact hev.call _ _ _
  · exact law.pure _

/-- A part of the text of an error is read and converted, unless it is missing. -/
theorem errorPart_holds (realm : Realm) (v : Value) (name fallback : Text) :
    T.holds (errorPart ev realm v name fallback) := by
  unfold errorPart
  refine law.bind (property_holds law hev _ _ _) fun x => ?_
  split
  · exact law.pure _
  · exact words_holds law hev _ _

/-- The text of an error reads its name and its message. -/
theorem errorText_holds (realm : Realm) (this : Value) : T.holds (errorText ev realm this) := by
  unfold errorText
  split
  · refine law.bind (errorPart_holds law hev _ _ _ _) fun name =>
      law.bind (errorPart_holds law hev _ _ _ _) fun message => ?_
    split
    · exact law.pure _
    · split <;> exact law.pure _
  · exact law.crashIn _ _ _

/-- Looking for a property of an object itself converts the name first. -/
theorem ownSlot?_holds (realm : Realm) (this name : Value) :
    T.holds (ownSlot? ev realm this name) :=
  law.bind (words_holds law hev _ _) fun _ => law.bind law.heap fun _ => law.pure _

end objects

/-! ## Standard functions and makers -/

section standard

variable (law : Stable T)

include law

/-- Making an instance of a built-in family only adds an object. -/
theorem make_holds (realm : Realm) (f : Family) : T.holds (make realm f) := by
  unfold make
  split
  · exact law.newList _ _
  · exact law.alloc (Object.holdsName_errorObject _ _ _)
  · exact law.alloc (Object.holdsName_function _ _ _ _)
  · exact law.alloc (Object.holdsName_empty _ _)

variable (hev : ev.Meets T)

include hev

/-- Calling a maker converts its argument or makes an instance. -/
theorem convert_holds (realm : Realm) (f : Family) (arguments : List Value) :
    T.holds (convert ev realm f arguments) := by
  unfold convert
  -- each family of objects converts what it is given in its own way
  dsimp only
  split
  · refine law.bind law.heap fun h => ?_
    split
    · exact law.pure _
    · exact make_holds law _ _
  · exact law.newList _ _
  · split
    · exact law.pure _
    · exact law.bind (display_holds law hev _ _) fun _ => law.pure _
  · split
    · exact law.pure _
    · exact law.bind (magnitude_holds law hev _ _) fun _ => law.pure _
  · exact law.pure _
  · refine law.bind (plain_holds law hev _ _ _) fun x => ?_
    split
    · exact law.pure _
    · exact law.pure _
    · exact law.crashIn _ _ _
  · exact law.bind (law.alloc (Object.holdsName_empty _ _)) fun _ =>
      law.bind (givenWords_holds law hev _ _) fun _ => law.pure _
  · split
    · exact law.crashIn _ _ _
    · exact law.bind (givenWords_holds law hev _ _) fun _ =>
        law.alloc (Object.holdsName_errorObject _ _ _)
  · exact law.crashIn _ _ _
  · exact make_holds law _ _

/-- Each of the built-in functions has a trait that calls, conversions and changes of objects
have. -/
theorem callStandard_holds (realm : Realm) (f : Standard) (this : Value) (arguments : List Value) :
    T.holds (callStandard ev realm f this arguments) := by
  -- one case for each function that a realm offers
  cases f with
  | call => exact law.bind (callableReceiver_holds law _ _) fun _ => hev.call _ _ _
  | apply =>
    exact law.bind (callableReceiver_holds law _ _) fun _ =>
      law.bind (argumentList_holds law hev _ _) fun _ => hev.call _ _ _
  | bind =>
    exact law.bind (callableReceiver_holds law _ _) fun _ => law.bind law.heap fun _ =>
      law.alloc (Object.holdsName_function _ _ _ _)
  | declaration =>
    exact law.bind (callableReceiver_holds law _ _) fun _ => law.bind law.heap fun _ => law.pure _
  | idle => exact law.pure _
  | objectText => exact law.bind law.heap fun _ => law.pure _
  | itself => exact something_holds law _ _
  | localText => exact invoke_holds law hev _ _ _ _
  | owns => exact law.bind (ownSlot?_holds law hev _ _ _) fun _ => law.pure _
  | shows => exact law.bind (ownSlot?_holds law hev _ _ _) fun _ => law.pure _
  | isAncestor =>
    cases this with
    | ref r => exact law.bind law.heap fun _ => law.pure _
    | _ => exact law.pure _
  | parent =>
    exact law.bind law.heap fun _ => law.bind (something_holds law _ _) fun _ => law.pure _
  | setParent =>
    exact law.bind (something_holds law _ _) fun _ => law.bind (adopt_holds law _ _ _) fun _ =>
      law.pure _
  | join => exact law.bind (joinItems_holds law hev _ _ _) fun _ => law.pure _
  | listText => exact listText_holds law hev _ _
  | map =>
    exact law.bind (something_holds law _ _) fun _ => law.bind (countOf_holds law hev _ _) fun _ =>
      law.bind (callableReceiver_holds law _ _) fun _ =>
        law.bind (mapItems_holds law hev _ _ _ _ _) fun _ =>
        law.alloc (Object.holdsName_empty _ _)
  | every =>
    exact law.bind (something_holds law _ _) fun _ => law.bind (countOf_holds law hev _ _) fun _ =>
      law.bind (callableReceiver_holds law _ _) fun _ =>
        law.bind (everyItem_holds law hev _ _ _ _ _) fun _ => law.pure _
  | includes =>
    exact law.bind (something_holds law _ _) fun _ => law.bind (countOf_holds law hev _ _) fun _ =>
      law.bind (anyItem_holds law hev _ _ _ _ _) fun _ => law.pure _
  | push =>
    exact law.bind (something_holds law _ _) fun _ => law.bind (countOf_holds law hev _ _) fun _ =>
      law.bind (putItems_holds law hev _ _ _ _) fun _ =>
        law.bind (assign_holds law hev _ _ _ _ _) fun _ => law.pure _
  | errorText => exact law.bind (errorText_holds law hev _ _) fun _ => law.pure _
  | textIncludes =>
    exact law.bind (textOf_holds law hev _ _) fun _ => law.bind (words_holds law hev _ _) fun _ =>
      law.pure _
  | split =>
    refine law.bind (textOf_holds law hev _ _) fun _ => ?_
    split
    · exact law.newList _ _
    · exact law.bind (words_holds law hev _ _) fun _ => law.newList _ _
  | trim => exact law.bind (textOf_holds law hev _ _) fun _ => law.pure _
  | plainText =>
    cases this with
    | symbol _ _ => exact law.bind (display_holds law hev _ _) fun _ => law.pure _
    | _ => exact law.bind (plainWords_holds law _ _) fun _ => law.pure _
  | plainValue =>
    cases this with
    | ref r => exact law.crashIn _ _ _
    | _ => exact something_holds law _ _
  | description =>
    cases this with
    | symbol _ _ => exact law.pure _
    | _ => exact law.crashIn _ _ _
  | unsaid => exact law.crashIn _ _ _

end standard

/-! ## New classes -/

section classes

variable (law : Stable T)

include law

/-- Making a method adds one object. -/
theorem newMethod_holds (realm : Realm) (name : Text) (m : Method) :
    T.holds (newMethod realm name m) :=
  law.alloc (Object.holdsName_function _ _ _ _)

/-- What the instances of a class inherit is read off the class that it extends. -/
theorem baseTemplate_holds (realm : Realm) (base : Option Value) :
    T.holds (baseTemplate realm base) := by
  unfold baseTemplate
  split
  · exact law.pure _
  · refine law.bind law.heap fun h => ?_
    split
    · exact law.crashIn _ _ _
    · split
      · exact law.pure _
      · exact law.pure _
      · exact law.crashIn _ _ _

omit law in
/-- What the instances of a class share holds its name, if it has one. -/
theorem holdsName_templateObject (realm : Realm) (making : Making) (cls : Value)
    (parent : Option Ref)
    (d : Definition) : (templateObject realm making cls parent d).HoldsName := by
  have hshared : ∀ row ∈ (d.shared.map fun row => (row.1, Slot.hidden row.2) : Table Text Slot),
      row.2.value?.isSome = true := by
    intro row hrow
    obtain ⟨r, -, rfl⟩ := List.mem_map.mp hrow
    rfl
  have hput (name : Text) (v : Value) : ∀ row ∈ Table.put
      (d.shared.map fun row => (row.1, Slot.hidden row.2) : Table Text Slot) name (.hidden v),
      row.2.value?.isSome = true := by
    intro row hrow
    rcases Table.mem_put hrow with h | ⟨h, -⟩
    · exact hshared row h
    · rw [h]
      rfl
  unfold templateObject
  dsimp only
  -- what kind of template it is decides what stands among its slots
  split
  · exact Object.holdsName_of_held hshared
  · intro row hrow hname
    rcases List.mem_append.mp hrow with h | h
    · exact Object.holdsName_function _ _ _ _ row h hname
    · exact hshared row h
  · exact Object.holdsName_of_held (hput _ _)
  · exact Object.holdsName_of_held (hput _ _)

omit law in
/-- A class holds its name. -/
theorem holdsName_classObject (realm : Realm) (d : Definition) (fields : List (Text × Expr))
    (template : Ref) :
    (classObject realm d fields template).HoldsName := by
  have hslot {making slot} (h : templateSlot? making template = some slot) :
      slot.value?.isSome = true := by
    unfold templateSlot? at h
    split at h <;> cases h <;> rfl
  have hfunction := Object.holdsName_function realm (.blueprint
    { key := d.key, making := d.making template, fields := fields ++ d.fields, source :=
      d.source, realm })
    d.name 0
  intro row hrow hname
  simp only [classObject] at hrow
  split at hrow
  next h => exact hfunction.put "prototype" (hslot h) row hrow hname
  next => exact hfunction row hrow hname

/-- Making a class adds the class and what its instances share. -/
theorem newClass_holds (realm : Realm) (d : Definition) : T.holds (newClass realm d) :=
  law.bind (baseTemplate_holds law _ _) fun _ => law.bind law.heap fun _ =>
    law.bind (law.alloc (holdsName_templateObject _ _ _ _ _)) fun _ =>
      law.alloc (holdsName_classObject _ _ _ _)

end classes

end EvalPlan.Action
