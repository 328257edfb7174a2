import EvalPlan.Scope.Schedule

/-!
# The rules of schedules

The rules say which steps are carried out with which bindings, what they do and what they answer;
what scopes take and hand over is left open. Every schedule is carried out by them, however deeply
its steps are nested (`runEach_done`).
-/

namespace EvalPlan.Schedule

variable {ε : Type}

mutual

/-- A step that is carried out with bindings comes out, and leads from a state to another. -/
inductive Done : Bindings → Step ε → State ε → Except ε (Answer ε) → State ε → Prop
  | start {b name s isOpen size id scopes} : Done b (.start name) s (.ok (.state isOpen size))
      { s.did (.began id) with scopes, names := s.names.put name id }
  /-- The answer is whether the task was taken. -/
  | register {b name task s taken scopes} : Done b (.register name task) s (.ok (.truth taken))
      { s.did (.offered (s.scope name) task taken) with scopes }
  /-- The task is offered to the scope that is bound where the step is carried out. -/
  | registerCurrent {b tracker task s taken scopes} :
    Done b (.registerCurrent tracker task) s (.ok (.truth taken))
      { s.did (.offeredCurrent tracker (Table.get? b tracker) task taken) with scopes }
  /-- The answer is what the scope hands over. -/
  | finish {b name s tasks scopes} : Done b (.finish name) s (.ok (.tasks tasks))
      { s.did (.ended (s.scope name) tasks) with scopes }
  | run {b tracker name steps s rs t}
    (h : DoneAll (b.bind tracker (s.scope name)) steps
      (s.did (.entered tracker (s.scope name))) rs t) :
    Done b (.run tracker name steps) s (rs.map .steps) (t.did .left)
  | spawn {b tracker name segments s} : Done b (.spawn tracker name none segments) s (.ok .nothing)
      { s.did (.spawned name none) with fibers := s.fibers.put name ⟨b, segments⟩ }
  | spawnBound {b tracker name scope segments s} :
    Done b (.spawn tracker name (some scope) segments) s (.ok .nothing)
      { s.did (.spawned name (some (tracker, s.scope scope))) with
        fibers := s.fibers.put name ⟨b.bind tracker (s.scope scope), segments⟩ }
  /-- A segment has the bindings of its fiber. -/
  | resume {b name bound segment rest s rs t}
    (hfiber : s.fibers.get? name = some ⟨bound, segment :: rest⟩)
    (h : DoneAll bound segment
      { s.did (.resumed name) with fibers := s.fibers.put name ⟨bound, rest⟩ } rs t) :
    Done b (.resume name) s (rs.map .steps) (t.did .left)
  /-- No segment is left. -/
  | idle {b name s} (hfiber : ∀ fiber, s.fibers.get? name = some fiber → fiber.segments = []) :
    Done b (.resume name) s (.ok .nothing) s
  | state {b name s r} : Done b (.state name) s r s
  | current {b tracker s r} : Done b (.current tracker) s r s
  | distinct {b names s r} : Done b (.distinct names) s r s
  | wellNamed {b name s r} : Done b (.wellNamed name) s r s
  | fail {b thrown s} : Done b (.fail thrown) s (.error thrown) s

/-- Steps are carried out one after another; a step that is there to throw ends them. -/
inductive DoneAll : Bindings → List (Step ε) → State ε →
    Except ε (List (Except ε (Answer ε))) → State ε → Prop
  | nil {b s} : DoneAll b [] s (.ok []) s
  | fail {b thrown rest s} : DoneAll b (.fail thrown :: rest) s (.error thrown) s
  | cons {b step rest s t u r rs} (hthrows : ∀ thrown, step ≠ .fail thrown)
    (hstep : Done b step s r t) (hrest : DoneAll b rest t rs u) :
    DoneAll b (step :: rest) s (rs.map (r :: ·)) u

end

/-- The steps of a schedule are carried out one after another with nothing bound. -/
inductive DoneEach : List (Step ε) → State ε → List (Except ε (Answer ε)) → State ε → Prop
  | nil {s} : DoneEach [] s [] s
  | cons {step rest s t u r rs} (hstep : Done [] step s r t) (hrest : DoneEach rest t rs u) :
    DoneEach (step :: rest) s (r :: rs) u

variable {b : Bindings} {s : State ε} {e : Exec ε}

/-- Steps are carried out one after another; a step that is there to throw ends them. -/
theorem runSteps_cons (e : Exec ε) (b : Bindings) (step : Step ε) (rest : List (Step ε))
    (s : State ε) :
    (∃ thrown, step = .fail thrown ∧ runSteps e b (step :: rest) s = (.error thrown, s)) ∨
      (∀ thrown, step ≠ .fail thrown) ∧ runSteps e b (step :: rest) s =
        let (r, s) := e b step s
        let (rs, s) := runSteps e b rest s
        (rs.map (r :: ·), s) := by
  cases step with
  | fail thrown => exact .inl ⟨thrown, rfl, rfl⟩
  | _ => exact .inr ⟨nofun, rfl⟩

/-! ## How deeply steps are nested -/

/-- A fiber that is put takes the place of the one of its name. -/
theorem fibersWeight_put (fibers : Table Text (Fiber ε)) (name : Text) (fiber : Fiber ε) :
    fibersWeight (fibers.put name fiber) +
        ((fibers.get? name).map fun old => segmentsWeight old.segments).getD 0 =
      fibersWeight fibers + segmentsWeight fiber.segments := by
  induction fibers with
  | nil => simp [Table.put, Table.get?, fibersWeight]
  | cons row rest ih =>
    obtain ⟨other, old⟩ := row
    by_cases h : other = name
    · simp [Table.put, Table.get?, fibersWeight, h]
      omega
    · simp [Table.put, Table.get?, fibersWeight, h] at ih ⊢
      omega

/-- To resume a fiber uses up one of its segments. -/
theorem fibersWeight_resume {fibers : Table Text (Fiber ε)} {name : Text} {bound : Bindings}
    {segment : List (Step ε)} {rest : List (List (Step ε))}
    (h : fibers.get? name = some ⟨bound, segment :: rest⟩) :
    fibersWeight (fibers.put name ⟨bound, rest⟩) + stepsWeight segment + 1 =
      fibersWeight fibers := by
  have hput := fibersWeight_put fibers name ⟨bound, rest⟩
  simp only [h, Option.map_some, Option.getD_some, segmentsWeight] at hput
  omega

/-- Whatever is carried out is part of the step or of a fiber, and is used up. -/
def UsesUp (e : Exec ε) : Prop :=
  ∀ b step s, (e b step s).2.weight ≤ s.weight + step.weight

/-- Steps use up their weight. -/
theorem runSteps_usesUp (he : UsesUp e) (b : Bindings) (steps : List (Step ε)) (s : State ε) :
    (runSteps e b steps s).2.weight ≤ s.weight + stepsWeight steps := by
  induction steps generalizing s with
  | nil => exact Nat.le_refl _
  | cons step rest ih =>
    obtain ⟨thrown, -, hthrown⟩ | ⟨-, hcons⟩ := runSteps_cons e b step rest s
    · rw [hthrown]
      exact Nat.le_add_right _ _
    · have hstep := he b step s
      have hrest := ih (e b step s).2
      rw [hcons, stepsWeight]
      show (runSteps e b rest (e b step s).2).2.weight ≤ _
      omega

/-- So does one step, if those within it do. -/
theorem execStep_usesUp (he : UsesUp e) : UsesUp (execStep e) := by
  intro b step s
  cases step with
  | run tracker name steps =>
    have hsteps := runSteps_usesUp he (b.bind tracker (s.scope name)) steps
      (s.did (.entered tracker (s.scope name)))
    rw [Step.weight]
    exact Nat.le_succ_of_le hsteps
  | spawn tracker name scope segments =>
    rw [Step.weight]
    exact Nat.le_succ_of_le (Nat.le_of_add_right_le
      (Nat.le_of_eq (fibersWeight_put s.fibers name ⟨_, segments⟩)))
  | resume name =>
    simp only [execStep]
    split
    · exact Nat.le_add_right _ _
    · exact Nat.le_add_right _ _
    next bound segment rest hfiber =>
      -- the segment that is run has the weight that the fibre loses
      have hleft := fibersWeight_resume hfiber
      have hsegment := runSteps_usesUp he bound segment
        { s.did (.resumed name) with fibers := s.fibers.put name ⟨bound, rest⟩ }
      show (runSteps e bound segment _).2.weight ≤ fibersWeight s.fibers + _
      refine Nat.le_trans hsegment ?_
      show fibersWeight (s.fibers.put name ⟨bound, rest⟩) + _ ≤ _
      omega
  | current tracker =>
    simp only [execStep]
    split <;> exact Nat.le_add_right _ _
  | _ => exact Nat.le_add_right _ _

/-- So it does with any fuel. -/
theorem exec_usesUp (n : Nat) : UsesUp (exec n : Exec ε) := by
  induction n with
  | zero => exact fun b step s => Nat.le_add_right _ _
  | succ n ih => exact execStep_usesUp ih

/-- Every step weighs something. -/
theorem Step.weight_pos (step : Step ε) : 0 < step.weight := by
  cases step <;> simp [Step.weight]

/-! ## Schedules follow the rules -/

/-- Steps that are not too heavy are carried out by the rules. -/
def DoesUpTo (n : Nat) (e : Exec ε) : Prop :=
  ∀ b step s, step.weight + s.weight ≤ n → Done b step s (e b step s).1 (e b step s).2

/-- With as much fuel as they weigh, steps are done by the rules. -/
theorem runSteps_done {n : Nat} (he : UsesUp e) (hdoes : DoesUpTo n e) (b : Bindings)
    {steps : List (Step ε)} (hn : stepsWeight steps + s.weight ≤ n) :
    DoneAll b steps s (runSteps e b steps s).1 (runSteps e b steps s).2 := by
  induction steps generalizing s with
  | nil => exact .nil
  | cons step rest ih =>
    rw [stepsWeight] at hn
    have hweight := he b step s
    obtain ⟨thrown, rfl, -⟩ | ⟨hthrows, hcons⟩ := runSteps_cons e b step rest s
    · exact .fail
    · rw [hcons]
      exact .cons hthrows (hdoes b step s (by omega)) (ih (by omega))

/-- A step is done by the rules with one more than those within it need. -/
theorem execStep_done {n : Nat} (he : UsesUp e) (hdoes : DoesUpTo n e) :
    DoesUpTo (n + 1) (execStep e) := by
  intro b step s hn
  cases step with
  | start name => exact .start
  | register name task => exact .register
  | registerCurrent tracker task => exact .registerCurrent
  | finish name => exact .finish
  | run tracker name steps =>
    rw [Step.weight] at hn
    have hinner : stepsWeight steps + s.weight ≤ n := by omega
    exact .run (runSteps_done he hdoes _ hinner)
  | spawn tracker name scope segments =>
    cases scope with
    | none => exact .spawn
    | some scope => exact .spawnBound
  | resume name =>
    simp only [execStep]
    split
    next hfiber => exact .idle (by simp [hfiber])
    next hfiber => exact .idle (by simp [hfiber])
    next bound segment rest hfiber =>
      -- the weight that is left allows for the segment, since resuming it counts one itself
      have hleft : _ = s.weight := fibersWeight_resume hfiber
      have hinner : stepsWeight segment + fibersWeight (s.fibers.put name ⟨bound, rest⟩) ≤ n := by
        have hone : (Step.resume name : Step ε).weight = 1 := by simp [Step.weight]
        omega
      exact .resume hfiber (runSteps_done he hdoes bound hinner)
  | current tracker =>
    simp only [execStep]
    split <;> exact .current
  | state name => exact .state
  | distinct names => exact .distinct
  | wellNamed name => exact .wellNamed
  | fail thrown => exact .fail

/-- So it is with as much fuel as it weighs. -/
theorem exec_done (n : Nat) : DoesUpTo n (exec n : Exec ε) := by
  induction n with
  | zero =>
    -- every step weighs something
    intro b step s hn
    have hpos := step.weight_pos
    omega
  | succ n ih => exact execStep_done (exec_usesUp n) ih

/-- So are all steps of a schedule, each outside of the others. -/
theorem runEach_done {n : Nat} {steps : List (Step ε)} (hn : bound steps s ≤ n) :
    DoneEach steps s (runEach n steps s).1 (runEach n steps s).2 := by
  induction steps generalizing s with
  | nil => exact .nil
  | cons step rest ih =>
    rw [bound, stepsWeight] at hn
    -- what the first step uses up is not left for the others
    have hweight := exec_usesUp n [] step s
    have hrest : bound rest (exec n [] step s).2 ≤ n := by
      rw [bound]
      omega
    exact .cons (exec_done n [] step s (by omega)) (ih hrest)

end EvalPlan.Schedule
