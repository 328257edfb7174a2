import EvalPlan.Proofs.Law.Session
import EvalPlan.Proofs.Sorting

/-!
# Traits of loading modules

Modules are loaded before an engine starts, and what they declare comes about in steps of its own:
descriptions are carried out on objects that are there already, and what a module exports is kept
for later imports. `Declaring` asks for these steps beside those that occur everywhere. A trait that
they have is had by importing a module (`importModule_holds`), and by loading directories of
modules, if to define a type has it too (`loadModuleDirs_holds`).
-/

namespace EvalPlan.Action

open Script (ClassKeys)

/-- A property of actions that the steps have by which classes are declared. -/
structure Declares (T : Trait) : Prop extends Stable T where
  define : ∀ (v : Value) (f : Object → Object), T.holds (Action.change v f)
  attach : ∀ type builder, T.holds (attach type builder)

/-- A property of actions that the steps have by which classes are declared and modules imported. -/
structure Declaring (T : Trait) : Prop extends Declares T where
  keepModule : ∀ file exported,
    T.holds (modify fun w => { w with modules := w.modules.put file exported })

variable {T : Trait} {ev : Evaluator}

/-! ## Declaring classes -/

section declare

variable (law : Stable T)

include law

/-- Accepting what was read throws where it could not be read. -/
theorem accept_holds {α : Type} (r : Script.Reading α) : T.holds (accept r) := by
  unfold accept
  split
  · exact law.pure _
  · exact law.crash _ _

/-- Reserving classes adds an object for each new one. -/
theorem reserve_holds (known : Table Text Value) (ds : List Declaration) :
    T.holds (reserve known ds) := by
  induction ds generalizing known with
  | nil => exact law.pure _
  | cons d rest ih =>
    unfold reserve
    split
    · exact ih known
    · exact law.bind (law.alloc (Object.holdsName_empty _ _)) fun _ => ih _

/-- The methods that a declaration shares are made one by one. -/
theorem newMethods_holds (shares : List (Text × Share)) : T.holds (newMethods shares) := by
  induction shares with
  | nil => exact law.pure _
  | cons row rest ih =>
    obtain ⟨name, m | v⟩ := row
    · exact law.bind (newMethod_holds law _ _ _) fun _ => law.bind ih fun _ => law.pure _
    · exact ih

variable (hev : ev.Meets T)

include hev

/-- A value that is described as data is read and evaluated outside of any block. -/
theorem describedValue_holds (keys : ClassKeys) (j : Json) : T.holds (describedValue ev keys j) :=
  law.bind (accept_holds law _) fun _ => hev.expr _ _

end declare

section classes

variable (law : Declares T)

include law

/-- Defining a class puts the class and what its instances share in their reserved places. -/
theorem defineClass_holds (realm : Realm) (cls : Value) (d : Definition) :
    T.holds (defineClass realm cls d) :=
  law.bind (baseTemplate_holds law.toStable _ _) fun _ => law.bind law.heap fun _ =>
    law.bind (law.alloc (holdsName_templateObject _ _ _ _ _)) fun _ => law.define _ _

/-- Filling a class in makes its methods and defines it. -/
theorem fillClass_holds (keys : ClassKeys) (v : Value) (d : Declaration) :
    T.holds (fillClass keys v d) :=
  law.bind (accept_holds law.toStable _) fun _ => law.bind (accept_holds law.toStable _) fun _ =>
    law.bind (newMethods_holds law.toStable _) fun _ => defineClass_holds law _ _ _

variable (hev : ev.Meets T)

include hev

/-- The declared classes are filled in one by one. -/
theorem fillClasses_holds (known : Table Text Value) (ds : List Declaration) :
    T.holds (fillClasses ev known ds) := by
  induction ds generalizing known with
  | nil => exact law.pure _
  | cons d rest ih =>
    unfold fillClasses
    dsimp only
    split
    · exact law.bind (describedValue_holds law.toStable hev _ _) fun _ => ih _
    · exact law.bind (fillClass_holds law _ _ _) fun _ => ih _

/-- The values that instances share are evaluated and put in place one by one. -/
theorem shareValues_holds (cls : Value) (shares : List (Text × Share)) :
    T.holds (shareValues ev cls shares) := by
  induction shares with
  | nil => exact law.pure _
  | cons row rest ih =>
    obtain ⟨name, m | e⟩ := row
    · exact ih
    · exact law.bind (hev.expr _ _) fun _ => law.bind law.heap fun _ =>
        law.bind (law.define _ _) fun _ => ih

/-- A class is marked with the builder that its declaration names, if it names one. -/
theorem markClass_holds (keys : ClassKeys) (cls : Value) (spec : Json) :
    T.holds (markClass ev keys cls spec) := by
  unfold markClass
  split
  · exact law.pure _
  · exact law.bind (describedValue_holds law.toStable hev _ _) fun _ => law.attach _ _

/-- The declared classes are completed one by one. -/
theorem completeClasses_holds (known : Table Text Value) (ds : List Declaration) :
    T.holds (completeClasses ev known ds) := by
  induction ds with
  | nil => exact law.pure _
  | cons d rest ih =>
    unfold completeClasses
    dsimp only
    split
    · exact law.bind (accept_holds law.toStable _) fun _ =>
        law.bind (shareValues_holds law hev _ _) fun _ =>
          law.bind (markClass_holds law hev _ _ _) fun _ => ih
    · exact ih

/-- Declaring classes reserves, fills and completes them. -/
theorem declare_holds (known : Table Text Value) (ds : List Declaration) :
    T.holds (declare ev known ds) :=
  law.bind (reserve_holds law.toStable _ _) fun _ =>
    law.bind (fillClasses_holds law hev _ _) fun _ =>
    law.bind (completeClasses_holds law hev _ _) fun _ => law.pure _

end classes

/-! ## Importing modules -/

section modules

variable (law : Declaring T) (hev : ev.Meets T)

include law hev

/-- Importing a module answers its exports or throws. -/
theorem importModule_holds (path : Text) : T.holds (importModule ev path) := by
  unfold importModule
  refine law.read (fun w => ?_) fun w => ?_
  · -- where a module lies and what it is does not depend on the order of files
    simp only [World.readable, World.visible, w.files.alike_canonical.absolute,
      w.files.alike_canonical.nodeAt]
  · dsimp only
    split
    · exact law.pure _
    · split
      · split
        · exact law.bind (describedValue_holds law.toStable hev _ _) fun _ => law.throw _
        · exact law.bind (declare_holds law.toDeclares hev _ _) fun _ =>
            law.bind (law.keepModule _ _) fun _ => law.pure _
      · split
        · exact law.pure _
        · exact law.crash _ _
      · exact law.crash _ _

variable (defines : ∀ name type, T.holds (defineType name type)) {host : Host}
  (hlog : T.Permits host.loggers.modules.sink)

include defines hlog

/-- An export that is a class is defined as a type; anything else is passed over. -/
theorem defineExport_holds (path space : Text) (row : Text × Value) :
    T.holds (defineExport host ev path space row) := by
  unfold defineExport
  refine law.bind law.heap fun h => ?_
  split
  · exact law.pure _
  · split
    · exact law.bind (log_holds law.toStable hev hlog _ _ _) fun _ => law.pure _
    · exact law.bind (defines _ _) fun _ =>
        law.bind (log_holds law.toStable hev hlog _ _ _) fun _ =>
        law.pure _

/-- The exports of a module are defined one by one. -/
theorem defineExports_holds (path space : Text) (exported : List (Text × Value)) :
    T.holds (defineExports host ev path space exported) := by
  induction exported with
  | nil => exact law.pure _
  | cons row rest ih =>
    exact law.bind (defineExport_holds law hev defines hlog _ _ _) fun _ =>
      law.bind ih fun _ => law.pure _

/-- A module file is imported and its exports are defined; a failing one is logged. -/
theorem loadModuleFile_holds (dir : ModuleDir) (file : Text) :
    T.holds (loadModuleFile host ev dir file) :=
  law.tryCatch
    (law.bind (importModule_holds law hev _) fun _ =>
    defineExports_holds law hev defines hlog _ _ _)
    fun _ => law.bind (describe_holds law.toStable hev _) fun _ =>
      law.bind (log_holds law.toStable hev hlog _ _ _) fun _ => law.pure _

/-- The module files of a directory are loaded one by one. -/
theorem loadModuleFiles_holds (dir : ModuleDir) (files : List Text) :
    T.holds (loadModuleFiles host ev dir files) := by
  induction files with
  | nil => exact law.pure _
  | cons file rest ih =>
    exact law.bind (loadModuleFile_holds law hev defines hlog _ _) fun _ =>
      law.bind ih fun _ => law.pure _

/-- A directory is listed, its module files are loaded and what came of it is logged. -/
theorem loadModuleDir_holds (dir : ModuleDir) : T.holds (loadModuleDir host ev dir) := by
  unfold loadModuleDir
  refine law.read (fun w => ?_) fun w => ?_
  · have names : Plugin.moduleNames (w.files.canonical.listing dir.path) =
        Plugin.moduleNames (w.files.listing dir.path) :=
      congrArg (List.filter _) (Text.sort_eq_of_perm (w.files.alike_canonical.listing dir.path))
    simp only [World.readable, w.files.alike_canonical.contains,
      w.files.alike_canonical.isDirectory, names]
  · dsimp only
    split
    · exact law.bind (log_holds law.toStable hev hlog _ _ _) fun _ => law.pure _
    · split
      · exact law.bind (log_holds law.toStable hev hlog _ _ _) fun _ => law.pure _
      · exact law.bind (loadModuleFiles_holds law hev defines hlog _ _) fun _ =>
          law.bind (log_holds law.toStable hev hlog _ _ _) fun _ => law.pure _

/-- Module directories are loaded one after another. -/
theorem loadModuleDirs_holds (dirs : List ModuleDir) : T.holds (loadModuleDirs host ev dirs) := by
  induction dirs with
  | nil => exact law.pure _
  | cons dir rest ih =>
    exact law.bind (loadModuleDir_holds law hev defines hlog _) fun _ =>
      law.bind ih fun _ => law.pure _

end modules

end EvalPlan.Action
