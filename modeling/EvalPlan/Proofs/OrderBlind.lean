import EvalPlan.Proofs.Law.Declaring
import EvalPlan.Proofs.Law.Uniform
import EvalPlan.Proofs.Run

/-!
# The order of files does not matter

The entries of a directory come in no useful order, and whatever is made of them is sorted before.
So an action comes out in the same way over files that are listed in another order: `OrderBlind`
says so of two runs of one action. Each step of an engine is blind to the order of files
(`orderBlind_uniform`), and so is everything that it does, the loading of modules included
(`loadModuleDirs_orderBlind`).
-/

namespace EvalPlan

open EvalPlan.Action

/-- An action comes out the same in whichever order files are listed, and changes no file. -/
structure OrderBlind {α : Type} (act : Action α) : Prop where
  same : ∀ (w : World) (files : Files), w.files.Alike files →
    ExceptT.run act { w with files } = ((ExceptT.run act w).1, { (ExceptT.run act w).2 with files })
  kept : ∀ w, (ExceptT.run act w).2.files = w.files

namespace OrderBlind

variable {α β : Type}

/-- One action after the other is blind to the order, if both are. -/
theorem bind {x : Action α} {f : α → Action β} (hx : OrderBlind x) (hf : ∀ a, OrderBlind (f a)) :
    OrderBlind (x >>= f) where
  same w files alike := by
    have first := hx.same w files alike
    have kept := hx.kept w
    rw [run_bind, run_bind, first]
    cases run : ExceptT.run x w with
    | mk r w₁ =>
      rw [run] at kept
      cases r with
      -- the second part begins where the first one left both worlds
      | ok a => exact (hf a).same w₁ files (kept ▸ alike)
      | error v => rfl
  kept w := by
    have kept := hx.kept w
    rw [run_bind]
    cases run : ExceptT.run x w with
    | mk r w₁ =>
      rw [run] at kept
      cases r with
      | ok a => exact ((hf a).kept w₁).trans kept
      | error v => exact kept

/-- So is an action with what it does about a fault. -/
theorem tryCatch {x : Action α} {f : Value → Action α} (hx : OrderBlind x)
    (hf : ∀ v, OrderBlind (f v)) : OrderBlind (tryCatch x f) where
  same w files alike := by
    have first := hx.same w files alike
    have kept := hx.kept w
    rw [run_tryCatch, run_tryCatch, first]
    cases run : ExceptT.run x w with
    | mk r w₁ =>
      rw [run] at kept
      cases r with
      | ok a => rfl
      -- both throw the same, and it is handled in what they left
      | error v => exact (hf v).same w₁ files (kept ▸ alike)
  kept w := by
    have kept := hx.kept w
    rw [run_tryCatch]
    cases run : ExceptT.run x w with
    | mk r w₁ =>
      rw [run] at kept
      cases r with
      | ok a => exact kept
      | error v => exact ((hf v).kept w₁).trans kept

/-- What is read of the world is the same for files that are alike. -/
theorem read {k : World → Action α} (readable : ∀ w, k w = k w.readable)
    (hk : ∀ w, OrderBlind (k w)) : OrderBlind (get >>= k) where
  same w files alike := by
    have alikeRead : World.readable { w with files } = w.readable := by
      simp only [World.readable, World.visible, alike.canonical_eq]
    have sameStep : k { w with files } =
      k w := by rw [readable { w with files }, alikeRead, ← readable w]
    rw [run_bind_ok (run_get _), run_bind_ok (run_get w), sameStep]
    exact (hk w).same w files alike
  kept w := (hk w).kept w

/-- So is an action while a list is joined. -/
theorem whileJoining (r : Ref) {act : Action α} (h : OrderBlind act) :
    OrderBlind (whileJoining r act) where
  same w files alike := by
    have inside := h.same { w with joining := r :: w.joining } files alike
    rw [run_whileJoining, run_whileJoining, inside]
  kept w := by
    rw [run_whileJoining]
    exact h.kept { w with joining := r :: w.joining }

/-- So is one with another run bound. -/
theorem withBinding (binding : Option RunId) {act : Action α} (h : OrderBlind act) :
    OrderBlind (withBinding binding act) where
  same w files alike := by
    have inside := h.same (w.enter binding) files alike
    have entered : World.enter { w with files } binding = { w.enter binding with files } := rfl
    rw [run_withBinding, run_withBinding, entered, inside]
    rfl
  kept w := by
    rw [run_withBinding]
    exact h.kept (w.enter binding)

/-- So is one whose scope is ended behind it. -/
theorem endingScope (id : RunId) (script : Text) {act : Action α} (h : OrderBlind act) :
    OrderBlind (endingScope id script act) where
  same w files alike := by
    rw [run_endingScope, run_endingScope, h.same w files alike]
    rfl
  kept w := by
    rw [run_endingScope]
    exact h.kept w

/-- A step that neither reads nor changes the files. -/
theorem of_step {act : Action α}
    (h : ∀ (w : World) (files : Files), ExceptT.run act { w with files } =
    ((ExceptT.run act w).1, { (ExceptT.run act w).2 with files })) : OrderBlind act where
  same w files _ := h w files
  kept w := by
    have own := h w w.files
    rw [show ({ w with files := w.files } : World) = w from rfl] at own
    exact congrArg (·.2.files) own

/-- Binding a variable does not look at files. -/
theorem bindVariable (scene : Script.Scene) (name : Text) (v : Value) :
    OrderBlind (bindVariable scene name v) := by
  refine .of_step fun w files => ?_
  unfold Action.bindVariable
  cases scene.frames with
  | nil => rfl
  | cons f _ => rfl

/-- Neither does defining a type. -/
theorem defineType (name : Text) (type : Value) : OrderBlind (defineType name type) := by
  refine .of_step fun w files => ?_
  unfold Action.defineType
  rw [run_bind_ok (run_get _), run_bind_ok (run_get w)]
  dsimp only
  split
  · rfl
  · split <;> rfl

end OrderBlind

/-- To be blind to the order of files. -/
def Action.Trait.orderBlind : Trait := { holds := fun act => OrderBlind act }

/-! ## Events -/

section publish

/-- What a delivery comes to does not depend on the order of files. -/
def SameDelivery (files : Files) (w : World) (r r' : Option (Except Value Unit × World)) : Prop :=
  r' = r.map (fun p => (p.1, { p.2 with files })) ∧ ∀ p, r = some p → p.2.files = w.files

variable {host : Host} {ev : Evaluator} (delivers : ∀ event s, OrderBlind (deliver host ev event s))
  (event : Event) {files : Files}

include delivers

/-- Delivering an event calls one subscriber after another; the induction is on the calls that are
left. -/
theorem walk_orderBlind (c n serial : Nat) {w : World} (alike : w.files.Alike files) :
    SameDelivery files w ((hub host ev).walk event c n serial w)
      ((hub host ev).walk event c n serial { w with files }) := by
  induction n generalizing serial w with
  | zero => exact ⟨rfl, nofun⟩
  | succ n ih =>
    unfold Hub.walk
    rw [show (hub host ev).bus { w with files } = (hub host ev).bus w from rfl]
    cases ((hub host ev).bus w).next? c serial with
    | none => exact ⟨rfl, fun p hp => by cases hp; rfl⟩
    | some sub =>
      have first := (delivers event sub.handler).same w files alike
      have kept := (delivers event sub.handler).kept w
      have handled : (hub host ev).handle event sub.handler { w with files } = _ := first
      dsimp only
      rw [handled]
      cases run : ExceptT.run (deliver host ev event sub.handler) w with
      | mk r w₁ =>
        rw [run] at kept
        have handled' : (hub host ev).handle event sub.handler w = (r, w₁) := run
        rw [handled']
        cases r with
        -- the walk goes on in what the subscriber left of both worlds
        | ok u =>
          obtain ⟨same, files⟩ := ih (sub.serial + 1) (kept ▸ alike)
          exact ⟨same, fun p hp => (files p hp).trans kept⟩
        | error v => exact ⟨rfl, fun p hp => by cases hp; exact kept⟩

/-- Delivering to one channel is blind to the order if every delivery is. -/
theorem dispatch_orderBlind (bound : Nat) (type : Text) {w : World} (alike : w.files.Alike files) :
    SameDelivery files w ((hub host ev).dispatch bound type event w)
      ((hub host ev).dispatch bound type event { w with files }) := by
  unfold Hub.dispatch
  rw [show (hub host ev).bus { w with files } = (hub host ev).bus w from rfl]
  cases ((hub host ev).bus w).table.get? type with
  | none => exact ⟨rfl, fun p hp => by cases hp; rfl⟩
  | some c => exact walk_orderBlind delivers event c bound 0 alike

/-- So is emitting. -/
theorem hub_emit_orderBlind (bound : Nat) {w : World} (alike : w.files.Alike files) :
    SameDelivery files w ((hub host ev).emit bound event w)
      ((hub host ev).emit bound event { w with files }) := by
  obtain ⟨same, kept⟩ := dispatch_orderBlind delivers event bound event.type alike
  unfold Hub.emit
  rw [same]
  cases told : (hub host ev).dispatch bound event.type event w with
  | none => exact ⟨rfl, nofun⟩
  | some p =>
    have kept := kept p told
    obtain ⟨_ | u, w₁⟩ := p
    · exact ⟨rfl, fun p hp => by cases hp; exact kept⟩
    · -- the handlers of every event come after those of the type
      obtain ⟨same', kept'⟩ := dispatch_orderBlind delivers event bound Event.any (w := w₁)
        (kept ▸ alike)
      exact ⟨same', fun p hp => (kept' p hp).trans kept⟩

end publish

/-- So is publishing. -/
theorem publish_orderBlind {host : Host} {ev : Evaluator}
    (delivers : ∀ event s, OrderBlind (deliver host ev event s)) (type : Text)
    (data : Option Portrait) (run : Option RunId) : OrderBlind (publish host ev type data run) := by
  have told (w : World) (files : Files) (alike : w.files.Alike files) :=
    hub_emit_orderBlind delivers ⟨type, Clock.iso w.clock, run, data⟩ (w.bus.serial + 1) alike
  constructor
  · intro w files alike
    obtain ⟨same, -⟩ := told w files alike
    unfold publish
    rw [run_bind_ok (run_get _), run_bind_ok (run_get w)]
    dsimp only
    rw [same]
    rcases (hub host ev).emit (w.bus.serial + 1) ⟨type, Clock.iso w.clock, run, data⟩ w with
      _ | ⟨_ | u, w₁⟩ <;> rfl
  · intro w
    obtain ⟨-, kept⟩ := told w w.files (.refl _)
    unfold publish
    rw [run_bind_ok (run_get w)]
    dsimp only
    split
    next h => exact kept _ h
    next h => exact kept _ h
    · rfl

/-! ## Everything that an engine does -/

/-- Being blind to the order is stable under the ways to put actions together. -/
theorem orderBlind_stable : Stable .orderBlind where
  pure _ := .of_step fun _ _ => rfl
  throw _ := .of_step fun _ _ => rfl
  bind := .bind
  tryCatch := .tryCatch
  read := .read
  alloc _ := .of_step fun _ _ => rfl
  change _ _ _ := .of_step fun _ _ => rfl
  note _ _ _ := .of_step fun _ _ => rfl
  print _ _ _ _ := .of_step fun _ _ => rfl
  openFrame _ _ := .of_step fun _ _ => rfl
  bindVariable := .bindVariable
  postpone _ _ := .of_step fun _ _ => rfl
  takeQueue := .of_step fun _ _ => rfl
  whileJoining r _ h := .whileJoining r h

/-- It holds of everything that an engine does in the same way everywhere. -/
theorem orderBlind_uniform (host : Host) : Uniform host .orderBlind where
  toStable := orderBlind_stable
  loggers := Action.Trait.permitsAll (fun _ => trivial) host.loggers
  mark _ := .of_step fun _ _ => rfl
  withBinding binding _ h := .withBinding binding h
  beginScope _ := .of_step fun _ _ => rfl
  endingScope id script _ h := .endingScope id script h
  countDiscarded _ := .of_step fun _ _ => rfl
  declareIn _ _ := .of_step fun _ _ => rfl
  offer _ := .of_step fun _ _ => rfl
  enroll _ _ := .of_step fun _ _ => rfl
  attach _ _ := .of_step fun _ _ => rfl
  provideImports _ := .of_step fun _ _ => rfl
  publish hev := publish_orderBlind fun _ _ =>
    deliver_holds orderBlind_stable hev (fun _ _ _ => trivial)
      (.bind (.of_step fun _ _ => rfl) fun _ => .of_step fun _ _ => rfl) fun _ _ _ _ _ => trivial

/-- It holds of everything that is done with declarations. -/
theorem orderBlind_declaring : Declaring .orderBlind where
  toStable := orderBlind_stable
  define _ _ := .of_step fun _ _ => rfl
  attach _ _ := .of_step fun _ _ => rfl
  keepModule _ _ := .of_step fun _ _ => rfl

/-- Scripts are blind to the order of files, however deeply they are nested. -/
theorem evaluator_orderBlind (host : Host) (n : Nat) : (evaluator host n).Meets .orderBlind :=
  (orderBlind_uniform host).rules.evaluator n

/-- Modules are loaded in the same way in whichever order their files are listed. -/
theorem loadModuleDirs_orderBlind (host : Host) {ev : Evaluator} (hev : ev.Meets .orderBlind)
    (dirs : List ModuleDir) : OrderBlind (loadModuleDirs host ev dirs) :=
  loadModuleDirs_holds orderBlind_declaring hev OrderBlind.defineType (fun _ _ _ => trivial) dirs

end EvalPlan
