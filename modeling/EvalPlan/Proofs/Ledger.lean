import EvalPlan.Proofs.Scope
import EvalPlan.World

/-!
# Replaying a history

A ledger holds what a history accounts for: the scopes of runs, the runs that were bound around the
code that executes, the runs whose scripts are being carried out, and the registered builders. Every
mark says what it does to a ledger, and what the ledger must be like where the mark is left.
`Ledger.Replay` carries a whole history out.

What holds of every replay from a sound ledger is proved here about histories alone: the tasks that
are handed over when a run ends are the tasks that were declared for it since it began.
-/

namespace EvalPlan

/-- What a history accounts for. -/
structure Ledger where
  /-- The scopes of runs. -/
  scopes : Scopes Value
  /-- The runs that were bound, the innermost first. -/
  bindings : List (Option RunId)
  /-- The runs that began and have not ended, the innermost first. -/
  running : List RunId
  /-- The registered builders by type. -/
  builders : Table Value Value

namespace Mark

/-- What a mark does to the runs that were bound around the code. -/
def rebind (bindings : List (Option RunId)) : Mark → List (Option RunId)
  | entered binding => binding :: bindings
  | left => bindings.tail
  | _ => bindings

/-- The task that a mark declares for a run. -/
def taskFor (r : RunId) : Mark → Option Value
  | declared run task _ _ => if run = r then some task else none
  | offered run task _ _ => if run = some r then some task else none
  | _ => none

/-- The task that a mark declares was taken. -/
def isTaken : Mark → Bool
  | declared _ _ _ taken => taken
  | offered _ _ _ taken => taken
  | _ => false

end Mark

namespace Ledger

/-- A ledger after a mark. -/
def after (l : Ledger) (m : Mark) : Ledger :=
  { scopes := match m with
      | .began _ _ => l.scopes.start.2
      | .declared run task _ _ => (l.scopes.register run task).2
      | .offered run task _ _ => (l.scopes.registerCurrent run task).2
      | .ended run _ _ => (l.scopes.finish run).2
      | _ => l.scopes
    bindings := m.rebind l.bindings
    running := match m with
      | .began run _ => run :: l.running
      | .abandoned _ => l.running.tail
      | .ended _ _ _ => l.running.tail
      | _ => l.running
    builders := match m with
      | .registered type builder true => l.builders.put type builder
      | _ => l.builders }

/-- What a ledger must be like where a mark is left. -/
def Fits (l : Ledger) : Mark → Prop
  | .began run _ => run = l.scopes.start.1
  | .abandoned run => l.running.head? = some run
  | .declared run task _ taken => taken = (l.scopes.register run task).1
  | .offered run task _ taken =>
    l.bindings.head? = some run ∧ taken = (l.scopes.registerCurrent run task).1
  | .counted run discarded => l.running.head? = some run ∧ discarded = l.scopes.size run
  | .undescribed run => l.running.head? = some run
  | .failed run _ _ => l.running.head? = some run
  | .ended run _ tasks => l.running.head? = some run ∧ ∀ ts, tasks = some ts →
    ts = (l.scopes.finish run).1
  | _ => True

/-- Marks lead from one ledger to another, each fitting the ledger where it is left. -/
inductive Replay : Ledger → List Mark → Ledger → Prop
  | nil {l : Ledger} : Replay l [] l
  | cons {l l' : Ledger} {m : Mark} {ms : List Mark} :
      l.Fits m → Replay (l.after m) ms l' → Replay l (m :: ms) l'

namespace Replay

variable {l l₁ l₂ : Ledger} {m : Mark} {ms ns : List Mark}

/-- A mark that says nothing about a ledger leaves it as it is. -/
theorem single (h : l.Fits m) : Replay l [m] (l.after m) := .cons h .nil

theorem append (h₁ : Replay l ms l₁) (h₂ : Replay l₁ ns l₂) : Replay l (ms ++ ns) l₂ := by
  induction h₁ with
  | nil => exact h₂
  | cons hm _ ih => exact .cons hm (ih h₂)

theorem split (h : Replay l (ms ++ ns) l₂) : ∃ l₁, Replay l ms l₁ ∧ Replay l₁ ns l₂ := by
  induction ms generalizing l with
  | nil => exact ⟨l, .nil, h⟩
  | cons m ms ih =>
    cases h with
    | cons hm hrest =>
      obtain ⟨l₁, h₁, h₂⟩ := ih hrest
      exact ⟨l₁, .cons hm h₁, h₂⟩

/-- Where a mark stands within a history, it fits the ledger that the marks before it lead to. -/
theorem at_mark (h : Replay l (ms ++ m :: ns) l₂) :
    ∃ l₁, Replay l ms l₁ ∧ l₁.Fits m ∧ Replay (l₁.after m) ns l₂ := by
  obtain ⟨l₁, h₁, h₂⟩ := h.split
  cases h₂ with
  | cons hm hrest => exact ⟨l₁, h₁, hm, hrest⟩

theorem bindings_eq (h : Replay l ms l₁) : l₁.bindings = ms.foldl Mark.rebind l.bindings := by
  induction h with
  | nil => rfl
  | cons _ _ ih => exact ih

end Replay

/-! ## Sound ledgers -/

/-- The runs that are being carried out are different runs, whose scopes are open. -/
structure Sound (l : Ledger) : Prop where
  nodup : l.running.Nodup
  isOpen : ∀ r ∈ l.running, l.scopes.isOpen r = true

variable {l l' : Ledger} {m : Mark} {ms : List Mark}

theorem Sound.lt (h : l.Sound) {r : RunId} (hr : r ∈ l.running) : r < l.scopes.tasks.size := by
  obtain ⟨tasks, htasks⟩ := l.scopes.isOpen_iff.mp (h.isOpen r hr)
  exact l.scopes.open?_lt htasks

/-- A task that is registered leaves every scope open that was. -/
theorem isOpen_register (s : Scopes Value) (id : RunId) (task : Value)
    {r : RunId} (h : s.isOpen r = true) :
    (s.register id task).2.isOpen r = true := by
  rw [Scopes.isOpen, Scopes.open?_register]
  split
  next heq =>
    rw [Option.isSome_map, ← heq]
    exact h
  next => exact h

theorem isOpen_registerCurrent (s : Scopes Value) (binding : Option RunId)
    (task : Value) {r : RunId}
    (h : s.isOpen r = true) : (s.registerCurrent binding task).2.isOpen r = true := by
  cases binding with
  | none => exact h
  | some id =>
    rw [Scopes.registerCurrent_some]
    exact isOpen_register s id task h

/-- The run that ends is not among those that are carried out on. -/
theorem Sound.ne_of_mem_tail (h : l.Sound) {run r : RunId} (hhead : l.running.head? = some run)
    (hr : r ∈ l.running.tail) : r ≠ run := by
  obtain ⟨rest, hrest⟩ : ∃ rest, l.running = run :: rest := List.head?_eq_some_iff.mp hhead
  have hnodup := h.nodup
  rw [hrest] at hnodup hr
  rintro rfl
  exact (List.nodup_cons.mp hnodup).1 hr

theorem Sound.after (h : l.Sound) (hm : l.Fits m) : (l.after m).Sound := by
  -- one case for each mark that changes the scopes or the runs that are carried out
  cases m with
  | began run script =>
    obtain rfl : run = l.scopes.tasks.size := hm
    -- a new run has a number of its own
    refine ⟨List.nodup_cons.mpr ⟨fun hmem => Nat.lt_irrefl _ (h.lt hmem), h.nodup⟩, fun r hr => ?_⟩
    show l.scopes.start.2.isOpen r = true
    rw [Scopes.isOpen, Scopes.open?_start]
    split
    · rfl
    next hne => exact h.isOpen r ((List.mem_cons.mp hr).resolve_left hne)
  | abandoned run =>
    exact ⟨h.nodup.sublist (List.tail_sublist _), fun r hr => h.isOpen r (List.mem_of_mem_tail hr)⟩
  | declared run task name taken =>
    exact ⟨h.nodup, fun r hr => isOpen_register _ _ _ (h.isOpen r hr)⟩
  | offered run task name taken =>
    exact ⟨h.nodup, fun r hr => isOpen_registerCurrent _ _ _ (h.isOpen r hr)⟩
  | ended run script tasks =>
    refine ⟨h.nodup.sublist (List.tail_sublist _), fun r hr => ?_⟩
    show (l.scopes.finish run).2.isOpen r = true
    -- only the scope of the run that ends is closed
    rw [Scopes.isOpen, Scopes.open?_finish, if_neg (h.ne_of_mem_tail hm.1 hr)]
    exact h.isOpen r (List.mem_of_mem_tail hr)
  | _ => exact ⟨h.nodup, h.isOpen⟩

theorem Replay.sound (h : Replay l ms l') (hl : l.Sound) : l'.Sound := by
  induction h with
  | nil => exact hl
  | cons hm _ ih => exact ih (hl.after hm)

/-! ## The tasks of a run -/

theorem size_le_after (l : Ledger) (m : Mark) :
    l.scopes.tasks.size ≤ (l.after m).scopes.tasks.size := by
  cases m <;> simp [after]

theorem Replay.size_le (h : Replay l ms l') : l.scopes.tasks.size ≤ l'.scopes.tasks.size := by
  induction h with
  | nil => exact Nat.le_refl _
  | cons _ _ ih => exact Nat.le_trans (size_le_after _ _) ih

/-- A run that began before some marks and is carried out after them was carried out all the
time. -/
theorem Replay.mem_running (h : Replay l ms l') {r : RunId} (hlt : r < l.scopes.tasks.size)
    (hr : r ∈ l'.running) : r ∈ l.running := by
  induction h with
  | nil => exact hr
  | @cons l l' m ms hm _ ih =>
    -- the induction goes backwards from the last mark
    have hmem := ih (Nat.lt_of_lt_of_le hlt (size_le_after l m)) hr
    cases m with
    | began run script =>
      obtain rfl : run = l.scopes.tasks.size := hm
      exact (List.mem_cons.mp hmem).resolve_left (Nat.ne_of_lt hlt)
    | abandoned run => exact List.mem_of_mem_tail hmem
    | ended run script tasks => exact List.mem_of_mem_tail hmem
    | _ => exact hmem

/-- A run begins with an empty scope. -/
theorem Fits.open?_began {r : RunId} {script : Text} (h : l.Fits (.began r script)) :
    (l.after (.began r script)).scopes.open? r = some [] := by
  have hr : r = l.scopes.tasks.size := h
  show l.scopes.start.2.open? r = _
  rw [Scopes.open?_start, if_pos hr]

/-- What one mark does to the tasks of a run that is carried out before and after it. -/
theorem open?_after (hl : l.Sound) (hm : l.Fits m) {r : RunId} (hr : r ∈ l.running)
    (hr' : r ∈ (l.after m).running) {tasks : List Value} (h : l.scopes.open? r = some tasks) :
    (l.after m).scopes.open? r = some (tasks ++ (m.taskFor r).toList) := by
  -- a task that is registered goes to the scope of its run only
  have hregister (id : RunId) (task : Value) : (l.scopes.register id task).2.open? r =
      some (tasks ++ (if id = r then some task else none).toList) := by
    rw [Scopes.open?_register]
    by_cases hid : id = r
    · subst hid
      simp [h]
    · have hne : ¬ r = id := fun heq => hid heq.symm
      simp [h, hid, hne]
  cases m with
  | began run script =>
    have hne : r ≠ l.scopes.tasks.size := Nat.ne_of_lt (hl.lt hr)
    show l.scopes.start.2.open? r = _
    rw [Scopes.open?_start, if_neg hne, h]
    simp [Mark.taskFor]
  | declared run task name taken => exact hregister run task
  | offered run task name taken =>
    cases run with
    | none => simpa [after, Mark.taskFor] using h
    | some id =>
      show (l.scopes.registerCurrent (some id) task).2.open? r = _
      rw [Scopes.registerCurrent_some, hregister]
      simp [Mark.taskFor]
  | ended run script ts =>
    show (l.scopes.finish run).2.open? r = _
    rw [Scopes.open?_finish, if_neg (hl.ne_of_mem_tail hm.1 hr'), h]
    simp [Mark.taskFor]
  | _ => simpa [after, Mark.taskFor] using h

/-- While a run is carried out its scope collects the tasks that are declared for it, in order. -/
theorem Replay.open?_eq (h : Replay l ms l') (hl : l.Sound) {r : RunId} (hr : r ∈ l.running)
    (hr' : r ∈ l'.running) {tasks : List Value} (htasks : l.scopes.open? r = some tasks) :
    l'.scopes.open? r = some (tasks ++ ms.filterMap (Mark.taskFor r)) := by
  induction h generalizing tasks with
  | nil => simpa using htasks
  | @cons l l' m ms hm hrest ih =>
    have hsound := hl.after hm
    -- the run is carried out at every mark between
    have hmem : r ∈ (l.after m).running :=
      hrest.mem_running (Nat.lt_of_lt_of_le (hl.lt hr) (size_le_after l m)) hr'
    rw [ih hsound hmem hr' (open?_after hl hm hr hmem htasks)]
    cases ht : m.taskFor r <;> simp [ht]

/-- The tasks that are handed over when a run ends are those that were declared for it since it
began. -/
theorem Replay.tasks_eq {a b c : List Mark} {r : RunId} {script script' : Text} {ts : List Value}
    (h : Replay l (a ++ .began r script :: (b ++ .ended r script' (some ts) :: c)) l')
    (hl : l.Sound) :
    ts = b.filterMap (Mark.taskFor r) := by
  obtain ⟨l₁, h₁, hbegan, hrest⟩ := h.at_mark
  obtain ⟨l₂, h₂, ⟨hhead, htasks⟩, -⟩ := hrest.at_mark
  have hsound := (h₁.sound hl).after hbegan
  have hfinal := h₂.open?_eq hsound List.mem_cons_self (List.mem_of_mem_head? hhead)
    hbegan.open?_began
  rw [htasks ts rfl, Scopes.finish_fst, hfinal]
  rfl

/-! ## Before, within and after a run -/

/-- A run is carried out wherever a mark stands between those that it begins and ends with. -/
theorem Replay.at_mark_within {a b c d : List Mark} {r : RunId} {script script' : Text}
    {o : Option (List Value)}
    (h : Replay l (a ++ .began r script :: ((b ++ m :: c) ++ .ended r script' o :: d)) l')
    (hl : l.Sound) :
    ∃ l₁ l₂ l₃, Replay l a l₁ ∧ l₁.Fits (.began r script) ∧
      Replay (l₁.after (.began r script)) b l₂ ∧
      l₂.Fits m ∧ Replay (l₂.after m) c l₃ ∧ l₃.Fits (.ended r script' o) ∧
      (l₁.after (.began r script)).Sound ∧ r ∈ l₂.running := by
  obtain ⟨l₁, h₁, hbegan, hrest⟩ := h.at_mark
  obtain ⟨l₃, hinside, hended, -⟩ := hrest.at_mark
  obtain ⟨l₂, h₂, hfits, h₃⟩ := hinside.at_mark
  have hsound := (h₁.sound hl).after hbegan
  have hlt : r < l₂.scopes.tasks.size := Nat.lt_of_lt_of_le (hsound.lt List.mem_cons_self)
    h₂.size_le
  -- it is the innermost one when it ends, and it began before
  have hrunning :
    r ∈ l₂.running := (Replay.cons hfits h₃).mem_running hlt (List.mem_of_mem_head? hended.1)
  exact ⟨l₁, l₂, l₃, h₁, hbegan, h₂, hfits, h₃, hended, hsound, hrunning⟩

/-- A run that is carried out after some marks, and was not before them, began among them. -/
theorem Replay.exists_began (h : Replay l ms l') {r : RunId} (hr : r ∈ l'.running)
    (hnot : r ∉ l.running) :
    ∃ a b script, ms = a ++ .began r script :: b := by
  induction h with
  | nil => exact absurd hr hnot
  | @cons l l' m ms hm hrest ih =>
    -- it began with this mark, or the run is not carried out after it either
    by_cases hmem : r ∈ (l.after m).running
    · cases m with
      | began run script =>
        obtain rfl : r = run := (List.mem_cons.mp hmem).resolve_right hnot
        exact ⟨[], ms, script, rfl⟩
      | abandoned run => exact absurd (List.mem_of_mem_tail hmem) hnot
      | ended run script tasks => exact absurd (List.mem_of_mem_tail hmem) hnot
      | _ => exact absurd hmem hnot
    · obtain ⟨a, b, script, rfl⟩ := ih hr hmem
      exact ⟨m :: a, b, script, rfl⟩

/-- A scope that was begun and is closed stays closed. -/
theorem closed_after (hm : l.Fits m) {r : RunId} (hlt : r < l.scopes.tasks.size)
    (h : l.scopes.open? r = none) : (l.after m).scopes.open? r = none := by
  -- a closed scope takes no task
  have hregister (id : RunId) (task : Value) : (l.scopes.register id task).2.open? r = none := by
    rw [Scopes.open?_register]
    split
    next heq => rw [← heq, h]; rfl
    next => exact h
  cases m with
  | began run script =>
    show l.scopes.start.2.open? r = none
    rw [Scopes.open?_start, if_neg (Nat.ne_of_lt hlt), h]
  | declared run task name taken => exact hregister run task
  | offered run task name taken =>
    cases run with
    | none => exact h
    | some id =>
      show (l.scopes.registerCurrent (some id) task).2.open? r = none
      rw [Scopes.registerCurrent_some]
      exact hregister id task
  | ended run script tasks =>
    show (l.scopes.finish run).2.open? r = none
    rw [Scopes.open?_finish]
    split
    · rfl
    · exact h
  | _ => exact h

theorem Replay.closed (h : Replay l ms l') {r : RunId} (hlt : r < l.scopes.tasks.size)
    (hclosed : l.scopes.open? r = none) : l'.scopes.open? r = none := by
  induction h with
  | nil => exact hclosed
  | cons hm _ ih =>
    exact ih (Nat.lt_of_lt_of_le hlt (size_le_after _ _)) (closed_after hm hlt hclosed)

/-- A mark says whether the run took the task that it declares for it. -/
theorem Fits.isTaken (hm : l.Fits m) {r : RunId} (hr : (m.taskFor r).isSome = true) :
    m.isTaken = l.scopes.isOpen r := by
  cases m with
  | declared run task name taken =>
    by_cases hrun : run = r
    · subst hrun
      exact Eq.trans hm (Scopes.register_fst _ _ _)
    · simp [Mark.taskFor, hrun] at hr
  | offered run task name taken =>
    by_cases hrun : run = some r
    · subst hrun
      rw [Mark.isTaken, hm.2, Scopes.registerCurrent_some, Scopes.register_fst]
    · simp [Mark.taskFor, hrun] at hr
  | _ => cases hr

end Ledger

end EvalPlan
