import EvalPlan.Proofs.Isolation
import Mathlib.Data.List.Basic

/-!
# Moments of runs

Of what a history says about a run, five kinds of marks reach the outside: that the run began, that
it took a task, how many tasks it discards, that it ended well and that it failed. `RunMoment` lists
them, and `Orderly` says how the moments of many runs stand to each other: those of one run lie
between its beginning and its end, and runs are nested in each other. A history that accounts for
itself, and in which every run that began has ended, has orderly moments.
-/

namespace EvalPlan

/-- A moment of a run that subscribers are told or that is logged. -/
inductive RunMoment
  /-- The run began. -/
  | started (run : RunId) (script : Text)
  /-- The run took a task, which held this as its name. -/
  | registered (run : RunId) (task : Value) (name : Option Value)
  /-- It is logged how many tasks the run discards, since it fails. -/
  | counted (run : RunId) (discarded : Nat)
  /-- The run ended well and handed these tasks over. -/
  | completed (run : RunId) (script : Text) (tasks : List Value)
  /-- The run failed. -/
  | failed (run : RunId) (script : Text)

namespace RunMoment

/-- The run that a moment belongs to. -/
def run : RunMoment → RunId
  | started run _ => run
  | registered run _ _ => run
  | counted run _ => run
  | completed run _ _ => run
  | failed run _ => run

/-- The run begins with the moment. -/
def starts (r : RunId) : RunMoment → Prop
  | started run _ => run = r
  | _ => False

/-- The run ends with the moment. -/
def ends (r : RunId) : RunMoment → Prop
  | completed run _ _ => run = r
  | failed run _ => run = r
  | _ => False

/-- The moment is neither the beginning nor the end of a run. -/
def isWithin : RunMoment → Bool
  | registered _ _ _ => true
  | counted _ _ => true
  | _ => false

/-- The task that a run takes at a moment. -/
def taskOf (r : RunId) : RunMoment → Option Value
  | registered run task _ => if run = r then some task else none
  | _ => none

end RunMoment

namespace Mark

/-- The moment of a run that a mark stands for. -/
def moment? : Mark → Option RunMoment
  | began run script => some (.started run script)
  | declared run task name true => some (.registered run task name)
  | offered (some run) task name true => some (.registered run task name)
  | counted run discarded => some (.counted run discarded)
  | ended run script (some tasks) => some (.completed run script tasks)
  | ended run script none => some (.failed run script)
  | _ => none

/-- The mark is about a run that was given up. -/
def isAbandoned : Mark → Bool
  | abandoned _ => true
  | _ => false

/-- A mark stands for a moment of a run. -/
inductive StandsFor : Mark → RunMoment → Prop
  | began (run : RunId) (script : Text) : StandsFor (.began run script) (.started run script)
  | declared (run : RunId) (task : Value) (name : Option Value) :
      StandsFor (.declared run task name true) (.registered run task name)
  | offered (run : RunId) (task : Value) (name : Option Value) :
      StandsFor (.offered (some run) task name true) (.registered run task name)
  | counted (run : RunId) (discarded : Nat) :
    StandsFor (.counted run discarded) (.counted run discarded)
  | completed (run : RunId) (script : Text) (tasks : List Value) :
      StandsFor (.ended run script (some tasks)) (.completed run script tasks)
  | failed (run : RunId) (script : Text) : StandsFor (.ended run script none) (.failed run script)

variable {m : Mark} {t : RunMoment} {r : RunId}

/-- A mark stands for the moment that is computed from it. -/
theorem standsFor_of_moment? (ht : m.moment? = some t) : m.StandsFor t := by
  unfold moment? at ht
  split at ht
  · cases ht
    exact .began _ _
  · cases ht
    exact .declared _ _ _
  · cases ht
    exact .offered _ _ _
  · cases ht
    exact .counted _ _
  · cases ht
    exact .completed _ _ _
  · cases ht
    exact .failed _ _
  · cases ht

/-- The mark that a run begins with stands for its beginning. -/
theorem moment?_starts (ht : m.moment? = some t) : t.starts r ↔ ∃ script, m = .began r script := by
  cases standsFor_of_moment? ht with
  | began run script =>
    constructor
    · rintro rfl
      exact ⟨script, rfl⟩
    · rintro ⟨_, h⟩
      cases h
      rfl
  | _ => exact ⟨nofun, nofun⟩

/-- The mark that a run ends with stands for its end. -/
theorem moment?_ends (ht : m.moment? = some t) :
    t.ends r ↔ ∃ script tasks, m = .ended r script tasks := by
  cases standsFor_of_moment? ht with
  | completed run script tasks =>
    constructor
    · rintro rfl
      exact ⟨script, some tasks, rfl⟩
    · rintro ⟨_, _, h⟩
      cases h
      rfl
  | failed run script =>
    constructor
    · rintro rfl
      exact ⟨script, none, rfl⟩
    · rintro ⟨_, _, h⟩
      cases h
      rfl
  | _ => exact ⟨nofun, nofun⟩

/-- The end of a scope is the last moment of its run. -/
theorem moment?_ended (r : RunId) (script : Text) (tasks : Option (List Value)) :
    ∃ t, (ended r script tasks).moment? = some t ∧ t.ends r := by
  cases tasks with
  | none => exact ⟨_, rfl, rfl⟩
  | some tasks => exact ⟨_, rfl, rfl⟩

/-- A task that was taken is the task of the moment. -/
theorem taskOf_moment? (h : (m.taskFor r).isSome = true → m.isTaken = true) :
    (m.moment?.bind (RunMoment.taskOf r)) = m.taskFor r := by
  cases m with
  | declared run task name taken =>
    -- what was declared for another run is no task of this one
    by_cases hrun : run = r
    · subst hrun
      have htaken : taken = true := h (by simp [taskFor])
      subst htaken
      simp [moment?, RunMoment.taskOf, taskFor]
    · cases taken <;> simp [moment?, RunMoment.taskOf, taskFor, hrun]
  | offered run task name taken =>
    by_cases hrun : run = some r
    · subst hrun
      have htaken : taken = true := h (by simp [taskFor])
      subst htaken
      simp [moment?, RunMoment.taskOf, taskFor]
    · cases run <;> cases taken <;> simp_all [moment?, RunMoment.taskOf, taskFor]
  | ended run script tasks => cases tasks <;> rfl
  | _ => rfl

end Mark

/-! ## Ledgers of runs that end -/

namespace Ledger

/-- Every open scope belongs to a run that is being carried out. -/
def Covers (l : Ledger) : Prop := ∀ r, l.scopes.isOpen r = true → r ∈ l.running

/-- No run is being carried out, and no scope is open. -/
structure AtRest (l : Ledger) : Prop where
  running : l.running = []
  closed : ∀ r, l.scopes.isOpen r = false

variable {l l' : Ledger} {m : Mark} {ms : List Mark} {r : RunId}

/-- Where no run is carried out, the ledger is sound. -/
theorem AtRest.sound (h : l.AtRest) : l.Sound :=
  ⟨by rw [h.running]; exact List.nodup_nil, by rw [h.running]; nofun⟩

/-- Where no scope is open, none is left over. -/
theorem AtRest.covers (h : l.AtRest) : l.Covers := by
  intro r hopen
  rw [h.closed r] at hopen
  cases hopen

/-- A scope that is open after a task was offered was open before. -/
theorem isOpen_of_register (s : Scopes Value) (id : RunId) (task : Value)
    (h : (s.register id task).2.isOpen r = true) : s.isOpen r = true := by
  rw [Scopes.isOpen, Scopes.open?_register] at h
  split at h
  next heq =>
    rw [Option.isSome_map] at h
    rw [heq]
    exact h
  next => exact h

/-- A mark leaves no scope over, unless it is about a run that was given up. -/
theorem Covers.after (h : l.Covers) (hm : l.Fits m) (hkept : m.isAbandoned = false) :
    (l.after m).Covers := by
  intro r hopen
  -- a scope is opened only by the beginning of a run, and then the run is carried out
  cases m with
  | began run script =>
    obtain rfl : run = l.scopes.tasks.size := hm
    have hstart : l.scopes.start.2.isOpen r = true := hopen
    rw [Scopes.isOpen, Scopes.open?_start] at hstart
    split at hstart
    next heq => exact heq ▸ List.mem_cons_self
    next => exact List.mem_cons_of_mem _ (h r hstart)
  | abandoned run => cases hkept
  | declared run task name taken => exact h r (isOpen_of_register _ _ _ hopen)
  | offered run task name taken =>
    cases run with
    | none => exact h r hopen
    | some id =>
      have hregister : (l.scopes.registerCurrent (some id) task).2.isOpen r = true := hopen
      rw [Scopes.registerCurrent_some] at hregister
      exact h r (isOpen_of_register _ _ _ hregister)
  | ended run script tasks =>
    have hfinish : (l.scopes.finish run).2.isOpen r = true := hopen
    rw [Scopes.isOpen, Scopes.open?_finish] at hfinish
    split at hfinish
    next => cases hfinish
    next hne =>
      obtain ⟨rest, hrest⟩ : ∃ rest, l.running = run :: rest := List.head?_eq_some_iff.mp hm.1
      have hmem : r ∈ l.running := h r hfinish
      show r ∈ l.running.tail
      rw [hrest] at hmem ⊢
      exact (List.mem_cons.mp hmem).resolve_left hne
  | _ => exact h r hopen

/-- So none is left over if no run was given up. -/
theorem Replay.covers (h : l.Replay ms l') (hl : l.Covers)
    (hkept : ∀ m ∈ ms, m.isAbandoned = false) :
    l'.Covers := by
  induction h with
  | nil => exact hl
  | cons hm _ ih =>
    exact ih (hl.after hm (hkept _ List.mem_cons_self)) fun m hmem =>
      hkept m (List.mem_cons_of_mem _ hmem)

/-- A run that is carried out before some marks, and not after them, ended among them. -/
theorem Replay.exists_ended (h : l.Replay ms l') (hkept : ∀ m ∈ ms, m.isAbandoned = false)
    (hr : r ∈ l.running)
    (hnot : r ∉ l'.running) : ∃ a b script tasks, ms = a ++ .ended r script tasks :: b := by
  induction h with
  | nil => exact absurd hr hnot
  | @cons l l' m ms hm _ ih =>
    -- it ended with this mark, or it is carried out after it too
    by_cases hmem : r ∈ (l.after m).running
    · obtain ⟨a, b, script, tasks, rfl⟩ := ih (fun m' hm' => hkept m' (List.mem_cons_of_mem _ hm'))
        hmem hnot
      exact ⟨m :: a, b, script, tasks, rfl⟩
    · cases m with
      | ended run script tasks =>
        obtain ⟨rest, hrest⟩ : ∃ rest, l.running = run :: rest := List.head?_eq_some_iff.mp hm.1
        have hgone : r ∉ l.running.tail := hmem
        rw [hrest] at hr hgone
        obtain rfl : r = run := (List.mem_cons.mp hr).resolve_right hgone
        exact ⟨[], ms, script, tasks, rfl⟩
      | began run script => exact absurd (List.mem_cons_of_mem _ hr) hmem
      | abandoned run => cases hkept _ List.mem_cons_self
      | _ => exact absurd hr hmem

/-- While a run is carried out, the runs that were being carried out when it began stay below it. -/
theorem Replay.stack (h : l.Replay ms l') (hl : l.Sound) (above : List RunId) {below : List RunId}
    (hrunning : l.running = above ++ r :: below) (hr : r ∈ l'.running) :
    ∃ above', l'.running = above' ++ r :: below := by
  induction h generalizing above with
  | nil => exact ⟨above, hrunning⟩
  | @cons l l' m ms hm hrest ih =>
    have hsound := hl.after hm
    have hlt : r < (l.after m).scopes.tasks.size :=
      Nat.lt_of_lt_of_le (hl.lt (by rw [hrunning]; simp)) (size_le_after l m)
    have hmem : r ∈ (l.after m).running := hrest.mem_running hlt hr
    -- the run is carried out on, so that it is not the one that is taken off
    have htail (hpop : (l.after m).running = l.running.tail) :
        ∃ above', l'.running = above' ++ r :: below := by
      cases above with
      | nil =>
        rw [hpop, hrunning] at hmem
        have hnodup := hl.nodup
        rw [hrunning] at hnodup
        exact absurd hmem (List.nodup_cons.mp hnodup).1
      | cons s above =>
        refine ih hsound above ?_ hr
        rw [hpop, hrunning]
        rfl
    cases m with
    | began run script =>
      refine ih hsound (run :: above) ?_ hr
      show run :: l.running = _
      rw [hrunning]
      rfl
    | abandoned run => exact htail rfl
    | ended run script tasks => exact htail rfl
    | _ => exact ih hsound above hrunning hr

/-- The run of a moment is being carried out, unless it begins with it. -/
theorem Fits.running (hm : l.Fits m) (hl : l.Covers) {t : RunMoment} (ht : m.moment? = some t) :
    (∃ script, m = .began t.run script) ∨ t.run ∈ l.running := by
  cases Mark.standsFor_of_moment? ht with
  | began run script => exact .inl ⟨script, rfl⟩
  | declared run task name =>
    -- it took the task, so that its scope is open
    have hopen : l.scopes.isOpen run = true := by
      rw [← Scopes.register_fst _ _ task]
      exact Eq.symm hm
    exact .inr (hl run hopen)
  | offered run task name =>
    have hopen : l.scopes.isOpen run = true := by
      rw [← Scopes.register_fst _ _ task, ← Scopes.registerCurrent_some]
      exact hm.2.symm
    exact .inr (hl run hopen)
  | counted run discarded => exact .inr (List.mem_of_mem_head? hm.1)
  | completed run script tasks => exact .inr (List.mem_of_mem_head? hm.1)
  | failed run script => exact .inr (List.mem_of_mem_head? hm.1)

/-- The run of a moment began at the moment or before. -/
theorem Replay.began_at_or_before {a b : List Mark} (h : l.Replay (a ++ m :: b) l') (hl : l.AtRest)
    (hkept : ∀ m ∈ a, m.isAbandoned = false) {t : RunMoment} (ht : m.moment? = some t) :
    ∃ a₁ a₂ script, a ++ [m] = a₁ ++ .began t.run script :: a₂ := by
  obtain ⟨l₁, h₁, hfits, -⟩ := h.at_mark
  rcases hfits.running (h₁.covers hl.covers hkept) ht with ⟨script, rfl⟩ | hrunning
  · exact ⟨a, [], script, rfl⟩
  · obtain ⟨a₁, a₂, script, rfl⟩ := h₁.exists_began hrunning
      (by rw [hl.running]; exact List.not_mem_nil)
    exact ⟨a₁, a₂ ++ [m], script, by simp⟩

end Ledger

/-! ## Histories in which every run ends -/

/-- A run whose script failed counted its tasks before it ended. -/
def CountsDiscarded (ms : List Mark) : Prop :=
  ∀ a b r script, ms = a ++ .ended r script none :: b → ∃ a₁ a₂ d, a = a₁ ++ .counted r d :: a₂

/-- How the moments of many runs stand to each other. -/
structure Orderly (ts : List RunMoment) : Prop where
  /-- The moments of a run are its beginning, one end, and what lies within. -/
  bracket : ∀ t ∈ ts, ∃ a b c script last, ts = a ++ .started t.run script :: (b ++ last :: c) ∧
    last.ends t.run ∧ (∀ x ∈ a, x.run ≠ t.run) ∧ (∀ x ∈ b, x.run = t.run → x.isWithin = true) ∧
    ∀ x ∈ c, x.run ≠ t.run
  /-- No two runs have the same name. -/
  distinct : ∀ a b c r script script', ts ≠ a ++ .started r script :: (b ++ .started r script' :: c)
  /-- The runs that begin within a run are those that end within it. -/
  nested : ∀ a b c r script last, ts = a ++ .started r script :: (b ++ last :: c) → last.ends r →
    ∀ s, (∃ x ∈ b, x.starts s) ↔ ∃ x ∈ b, x.ends s
  /-- A run that ends well hands over the tasks that it took, in order. -/
  completed : ∀ a b c r script script' tasks,
    ts = a ++ .started r script :: (b ++ .completed r script' tasks :: c) →
    tasks = b.filterMap (RunMoment.taskOf r)
  /-- A run that fails counts the tasks that it took before. -/
  failed : ∀ a b c r script script', ts = a ++ .started r script :: (b ++ .failed r script' :: c) →
    ∃ b₁ b₂ d, b = b₁ ++ .counted r d :: b₂ ∧ (b₁.filterMap (RunMoment.taskOf r)).length = d

/-- Moments that follow each other are moments of marks that do. -/
theorem moments_split {ms : List Mark} {A B : List RunMoment} {t : RunMoment}
    (h : ms.filterMap Mark.moment? = A ++ t :: B) :
      ∃ a m b, ms = a ++ m :: b ∧ a.filterMap Mark.moment? = A ∧
      m.moment? = some t ∧ b.filterMap Mark.moment? = B := by
  obtain ⟨a, rest, rfl, hA, hrest⟩ := List.filterMap_eq_append_iff.mp h
  -- marks that stand for no moment may come before the one that does
  obtain ⟨silent, m, b, rfl, hsilent, hm, hB⟩ := List.filterMap_eq_cons_iff.mp hrest
  refine ⟨a ++ silent, m, b, by simp, ?_, hm, hB⟩
  rw [List.filterMap_append, hA, List.filterMap_eq_nil_iff.mpr hsilent, List.append_nil]

/-- A run that is taken to be within its bounds neither begins nor ends. -/
theorem RunMoment.isWithin_or (t : RunMoment) :
    t.isWithin = true ∨ t.starts t.run ∨ t.ends t.run := by
  cases t with
  | started run script => exact .inr (.inl rfl)
  | completed run script tasks => exact .inr (.inr rfl)
  | failed run script => exact .inr (.inr rfl)
  | _ => exact .inl rfl

namespace Ledger

/-- A run is not the innermost one where others are carried out above it. -/
theorem Sound.not_mem_below {l : Ledger} (hl : l.Sound) {above below : List RunId} {q r : RunId}
    (hrunning : l.running = above ++ q :: below) (hhead : l.running.head? = some r) :
      r ∉ below := by
  intro hmem
  have hnodup := hl.nodup
  rw [hrunning] at hnodup hhead
  cases above with
  | nil =>
    obtain rfl : q = r := Option.some.inj hhead
    exact (List.nodup_cons.mp hnodup).1 hmem
  | cons s above =>
    obtain rfl : s = r := Option.some.inj hhead
    exact (List.nodup_cons.mp hnodup).1 (by simp [hmem])

/-- A history that accounts for itself, in which every run that began has ended. -/
structure Whole (l : Ledger) (ms : List Mark) (l' : Ledger) : Prop where
  replay : l.Replay ms l'
  bound : ∃ outer, l.bindings = [outer]
  rest : l.AtRest
  ended : l'.running = []
  kept : ∀ m ∈ ms, m.isAbandoned = false
  counts : CountsDiscarded ms

namespace Whole

variable {l l' : Ledger} {ms : List Mark}

/-- Every run has its own tasks. -/
theorem isolated (h : l.Whole ms l') : ∃ outer, Isolated outer ms := by
  obtain ⟨outer, houter⟩ := h.bound
  exact ⟨outer, h.replay.isolated h.rest.running houter⟩

/-- A run whose moment is among the marks began and ended among them. -/
theorem exists_bracket (h : l.Whole ms l') {m : Mark} (hm : m ∈ ms) {t : RunMoment}
    (ht : m.moment? = some t) :
    ∃ a b c script script' tasks,
      ms = a ++ .began t.run script :: (b ++ .ended t.run script' tasks :: c) := by
  obtain ⟨x, y, rfl⟩ := List.append_of_mem hm
  have hkept :
    ∀ m' ∈ x, m'.isAbandoned = false := fun m' hm' => h.kept m' (List.mem_append_left _ hm')
  -- it began at the mark or before, and every run that began has ended
  obtain ⟨a, rest, script, hbegan⟩ := h.replay.began_at_or_before h.rest hkept ht
  have hms : x ++ m :: y = a ++ .began t.run script :: (rest ++ y) := by
    rw [List.append_cons, hbegan]
    simp
  have hreplay := h.replay
  rw [hms] at hreplay ⊢
  obtain ⟨l₁, -, -, hrest⟩ := hreplay.at_mark
  obtain ⟨b, c, script', tasks, hended⟩ := hrest.exists_ended
    (fun m' hm' => h.kept m' (by rw [hms]; simp [hm'])) List.mem_cons_self
    (by rw [h.ended]; exact List.not_mem_nil)
  exact ⟨a, b, c, script, script', tasks, by rw [hended]⟩

section bracket

variable {a b c : List Mark} {r : RunId} {script script' : Text} {tasks : Option (List Value)}
  (h : l.Whole (a ++ .began r script :: (b ++ .ended r script' tasks :: c)) l')

include h

/-- There is no moment of a run before it began. -/
theorem before {m : Mark} (hm : m ∈ a) {t : RunMoment} (ht : m.moment? = some t) : t.run ≠ r := by
  rintro rfl
  obtain ⟨outer, hisolated⟩ := h.isolated
  obtain ⟨x, y, rfl⟩ := List.append_of_mem hm
  have hreplay := h.replay
  rw [List.append_assoc, List.cons_append] at hreplay
  -- the run would have begun before, and then again
  obtain ⟨a₁, a₂, script₁, hbegan⟩ := hreplay.began_at_or_before h.rest
    (fun m' hm' => h.kept m' (by simp [hm'])) ht
  refine hisolated.fresh a₁ (a₂ ++ y) (b ++ .ended t.run script' tasks :: c) t.run script₁ script ?_
  rw [List.append_cons x, hbegan]
  simp

/-- Within a run it neither begins nor ends. -/
theorem within {m : Mark} (hm : m ∈ b) {t : RunMoment} (ht : m.moment? = some t) (hr : t.run = r) :
    t.isWithin = true := by
  subst hr
  obtain ⟨outer, hisolated⟩ := h.isolated
  obtain ⟨x, y, rfl⟩ := List.append_of_mem hm
  -- it would begin again, or end before it ends
  rcases t.isWithin_or with hwithin | hstarts | hends
  · exact hwithin
  · obtain ⟨script₁, rfl⟩ := (Mark.moment?_starts ht).mp hstarts
    exact absurd (by simp) (hisolated.fresh a x (y ++ .ended t.run script' tasks :: c)
      t.run script script₁)
  · obtain ⟨script₁, tasks₁, rfl⟩ := (Mark.moment?_ends ht).mp hends
    exact absurd (by simp)
      (hisolated.once (a ++ .began t.run script :: x) y c t.run script₁ script' tasks₁ tasks)

/-- There is no moment of a run after it ended. -/
theorem after {m : Mark} (hm : m ∈ c) {t : RunMoment} (ht : m.moment? = some t) : t.run ≠ r := by
  rintro rfl
  obtain ⟨outer, hisolated⟩ := h.isolated
  obtain ⟨x, y, rfl⟩ := List.append_of_mem hm
  have hreplay : l.Replay ((a ++ .began t.run script :: b) ++ .ended t.run
      script' tasks :: (x ++ m :: y)) l' := by
    simpa using h.replay
  have hkept :
    ∀ m' ∈ (a ++ .began t.run script :: b) ++ .ended t.run script' tasks :: (x ++ m :: y),
      m'.isAbandoned = false := by
    simpa using h.kept
  obtain ⟨l₁, h₁, hended, hrest⟩ := hreplay.at_mark
  obtain ⟨l₂, h₂, hfits, -⟩ := hrest.at_mark
  have hsound₁ := h₁.sound h.rest.sound
  have hsound₂ := h₂.sound (hsound₁.after hended)
  have hcovers₁ := h₁.covers h.rest.covers fun m' hm' => hkept m' (List.mem_append_left _ hm')
  have hcovers₂ := h₂.covers (hcovers₁.after hended rfl) fun m' hm' => hkept m' (by simp [hm'])
  -- the run would begin again, or be carried out with its scope closed
  rcases hfits.running hcovers₂ ht with ⟨script₁, rfl⟩ | hrunning
  · refine hisolated.fresh a (b ++ .ended t.run script' tasks :: x) y t.run script script₁ ?_
    simp
  · have hopen := hsound₂.isOpen _ hrunning
    rw [h₁.isOpen_of_ended h.rest.sound hended h₂] at hopen
    cases hopen

/-- A run that begins within another one ends within it. -/
theorem ended_within {q : RunId} {script₁ : Text} (hq : .began q script₁ ∈ b) :
    ∃ script₂ tasks₂, .ended q script₂ tasks₂ ∈ b := by
  obtain ⟨x, y, rfl⟩ := List.append_of_mem hq
  obtain ⟨l₁, l₂, l₃, -, -, h₂, hinner, h₃, hended, hsound₁, hr⟩ :=
    h.replay.at_mark_within h.rest.sound
  have hsound₂ := (h₂.sound hsound₁).after hinner
  -- the outer run is below the inner one, and it ends as the innermost one
  have hnot : q ∉ l₃.running := fun hmem => by
    obtain ⟨above, habove⟩ := h₃.stack (r := q) hsound₂ [] rfl hmem
    exact (h₃.sound hsound₂).not_mem_below habove hended.1 hr
  obtain ⟨y₁, y₂, script₂, tasks₂, rfl⟩ := h₃.exists_ended
    (fun m' hm' => h.kept m' (by simp [hm'])) List.mem_cons_self hnot
  exact ⟨script₂, tasks₂, by simp⟩

/-- A run that ends within another one began within it. -/
theorem began_within {q : RunId} {script₁ : Text} {tasks₁ : Option (List Value)}
    (hq : .ended q script₁ tasks₁ ∈ b) : ∃ script₂, .began q script₂ ∈ b := by
  obtain ⟨outer, hisolated⟩ := h.isolated
  obtain ⟨x, y, rfl⟩ := List.append_of_mem hq
  obtain ⟨l₁, l₂, l₃, -, -, h₂, hinner, -, -, hsound₁, hr⟩ := h.replay.at_mark_within h.rest.sound
  have hne : q ≠ r := by
    rintro rfl
    exact absurd (by simp)
      (hisolated.once (a ++ .began q script :: x) y c q script₁ script' tasks₁ tasks)
  -- what was carried out when the outer run began is still below it when the inner one ends
  obtain ⟨above, habove⟩ := h₂.stack (r := r) hsound₁ [] rfl hr
  have hnot : q ∉ (l₁.after (.began r script)).running := fun hmem =>
    (h₂.sound hsound₁).not_mem_below habove hinner.1 ((List.mem_cons.mp hmem).resolve_left hne)
  obtain ⟨x₁, x₂, script₂, rfl⟩ := h₂.exists_began (List.mem_of_mem_head? hinner.1) hnot
  exact ⟨script₂, by simp⟩

/-- The tasks that a run took are the tasks that were declared for it. -/
theorem taken_eq (b₁ b₂ : List Mark) (hb : b = b₁ ++ b₂) :
    (b₁.filterMap Mark.moment?).filterMap (RunMoment.taskOf r) = b₁.filterMap (Mark.taskFor r) := by
  obtain ⟨outer, hisolated⟩ := h.isolated
  rw [List.filterMap_filterMap]
  refine List.filterMap_congr fun m hm => Mark.taskOf_moment? fun htask => ?_
  exact hisolated.taken a b c r script script' tasks rfl m
    (by rw [hb]; exact List.mem_append_left _ hm) htask

end bracket

/-- The moments between the beginning and the end of a run are those of the marks between. -/
theorem exists_marks (h : l.Whole ms l') {A B C : List RunMoment} {r : RunId}
    {script : Text} {last : RunMoment}
    (hts : ms.filterMap Mark.moment? = A ++ .started r script :: (B ++ last :: C))
    (hlast : last.ends r) :
    ∃ a b c script₁ script' tasks, ms = a ++ .began r script₁ ::
      (b ++ .ended r script' tasks :: c) ∧
      b.filterMap Mark.moment? = B ∧ (Mark.ended r script' tasks).moment? = some last := by
  obtain ⟨a, m, rest, rfl, -, hm, hrest⟩ := moments_split hts
  obtain ⟨b, m', c, rfl, hB, hm', -⟩ := moments_split hrest
  obtain ⟨script₁, rfl⟩ := (Mark.moment?_starts hm).mp rfl
  obtain ⟨script', tasks, rfl⟩ := (Mark.moment?_ends hm').mp hlast
  exact ⟨a, b, c, script₁, script', tasks, rfl, hB, hm'⟩

/-- Moments of a run lie between its beginning and its end. -/
theorem bracket_moments (h : l.Whole ms l') {t : RunMoment} (ht : t ∈ ms.filterMap Mark.moment?) :
    ∃ a b c script last, ms.filterMap Mark.moment? = a ++ .started t.run
      script :: (b ++ last :: c) ∧
      last.ends t.run ∧ (∀ x ∈ a, x.run ≠ t.run) ∧ (∀ x ∈ b, x.run = t.run → x.isWithin = true) ∧
      ∀ x ∈ c, x.run ≠ t.run := by
  obtain ⟨m, hm, hmt⟩ := List.mem_filterMap.mp ht
  obtain ⟨a, b, c, script, script', tasks, rfl⟩ := h.exists_bracket hm hmt
  obtain ⟨last, hlast, hends⟩ := Mark.moment?_ended t.run script' tasks
  refine ⟨a.filterMap Mark.moment?, b.filterMap Mark.moment?, c.filterMap Mark.moment?,
    script, last, ?_, hends,
    fun x hx => ?_, fun x hx => ?_, fun x hx => ?_⟩
  · have hbegan : (Mark.began t.run script).moment? = some (.started t.run script) := rfl
    rw [List.filterMap_append, List.filterMap_cons_some hbegan, List.filterMap_append,
      List.filterMap_cons_some hlast]
  · obtain ⟨m', hm', hx⟩ := List.mem_filterMap.mp hx
    exact h.before hm' hx
  · obtain ⟨m', hm', hx⟩ := List.mem_filterMap.mp hx
    exact h.within hm' hx
  · obtain ⟨m', hm', hx⟩ := List.mem_filterMap.mp hx
    exact h.after hm' hx

/-- No run begins twice. -/
theorem distinct_moments (h : l.Whole ms l') (A B C : List RunMoment) (r : RunId)
    (script script' : Text) :
    ms.filterMap Mark.moment? ≠ A ++ .started r script :: (B ++ .started r script' :: C) := by
  intro hts
  obtain ⟨a, m, rest, rfl, -, hm, hrest⟩ := moments_split hts
  obtain ⟨b, m', c, rfl, -, hm', -⟩ := moments_split hrest
  obtain ⟨script₁, rfl⟩ := (Mark.moment?_starts (r := r) hm).mp rfl
  obtain ⟨script₂, rfl⟩ := (Mark.moment?_starts (r := r) hm').mp rfl
  obtain ⟨outer, hisolated⟩ := h.isolated
  exact hisolated.fresh a b c r script₁ script₂ rfl

/-- What begins within a run ends within it. -/
theorem nested_moments (h : l.Whole ms l') {A B C : List RunMoment} {r : RunId}
    {script : Text} {last : RunMoment}
    (hts : ms.filterMap Mark.moment? = A ++ .started r script :: (B ++ last :: C))
    (hlast : last.ends r) (s : RunId) :
    (∃ x ∈ B, x.starts s) ↔ ∃ x ∈ B, x.ends s := by
  obtain ⟨a, b, c, script₁, script', tasks, rfl, rfl, -⟩ := h.exists_marks hts hlast
  constructor
  · rintro ⟨x, hx, hstarts⟩
    obtain ⟨m, hm, hmx⟩ := List.mem_filterMap.mp hx
    obtain ⟨script₂, rfl⟩ := (Mark.moment?_starts hmx).mp hstarts
    obtain ⟨script₃, tasks₃, hended⟩ := h.ended_within hm
    obtain ⟨x', hx', hends⟩ := Mark.moment?_ended s script₃ tasks₃
    exact ⟨x', List.mem_filterMap.mpr ⟨_, hended, hx'⟩, hends⟩
  · rintro ⟨x, hx, hends⟩
    obtain ⟨m, hm, hmx⟩ := List.mem_filterMap.mp hx
    obtain ⟨script₂, tasks₂, rfl⟩ := (Mark.moment?_ends hmx).mp hends
    obtain ⟨script₃, hbegan⟩ := h.began_within hm
    exact ⟨.started s script₃, List.mem_filterMap.mpr ⟨_, hbegan, rfl⟩, rfl⟩

/-- A run that completed answers the tasks that it took, in order. -/
theorem completed_moments (h : l.Whole ms l') {A B C : List RunMoment}
    {r : RunId} {script script' : Text}
    {tasks : List Value}
    (hts : ms.filterMap Mark.moment? = A ++ .started r script ::
      (B ++ .completed r script' tasks :: C)) :
    tasks = B.filterMap (RunMoment.taskOf r) := by
  obtain ⟨a, b, c, script₁, script₂, tasks₂, rfl, rfl, hlast⟩ := h.exists_marks hts rfl
  obtain rfl : tasks₂ = some tasks := by
    cases tasks₂ <;> cases hlast
    rfl
  rw [h.taken_eq b [] (List.append_nil b).symm]
  exact h.replay.tasks_eq h.rest.sound

/-- A run that failed says how many tasks it had taken when they were counted. -/
theorem failed_moments (h : l.Whole ms l') {A B C : List RunMoment} {r : RunId}
    {script script' : Text}
    (hts : ms.filterMap Mark.moment? = A ++ .started r script :: (B ++ .failed r script' :: C)) :
    ∃ B₁ B₂ d, B = B₁ ++ .counted r d :: B₂ ∧ (B₁.filterMap (RunMoment.taskOf r)).length = d := by
  obtain ⟨a, b, c, script₁, script₂, tasks₂, rfl, rfl, hlast⟩ := h.exists_marks hts rfl
  obtain rfl : tasks₂ = none := by
    cases tasks₂ <;> cases hlast
    rfl
  -- the tasks are counted after the run began
  obtain ⟨x, y, d, hcounted⟩ := h.counts (a ++ .began r script₁ :: b) c r script₂ (by simp)
  have hmem : Mark.counted r d ∈ b := by
    have hmem : Mark.counted r d ∈ a ++ .began r script₁ :: b := by
      rw [hcounted]
      simp
    rcases List.mem_append.mp hmem with hmem | hmem
    · exact absurd rfl (h.before hmem (t := .counted r d) rfl)
    · exact (List.mem_cons.mp hmem).resolve_left nofun
  obtain ⟨b₁, b₂, rfl⟩ := List.append_of_mem hmem
  refine ⟨b₁.filterMap Mark.moment?, b₂.filterMap Mark.moment?, d, ?_, ?_⟩
  · have hmoment : (Mark.counted r d).moment? = some (.counted r d) := rfl
    rw [List.filterMap_append, List.filterMap_cons_some hmoment]
  · rw [h.taken_eq b₁ (.counted r d :: b₂) rfl]
    obtain ⟨l₁, l₂, l₃, -, hbegan, h₂, ⟨-, hd⟩, -, -, hsound₁, hr⟩ :=
      h.replay.at_mark_within h.rest.sound
    rw [hd, Scopes.size, h₂.open?_eq hsound₁ List.mem_cons_self hr hbegan.open?_began]
    rfl

/-- Where every run that began has ended, the moments of the runs are orderly. -/
theorem orderly (h : l.Whole ms l') : Orderly (ms.filterMap Mark.moment?) where
  bracket _ ht := h.bracket_moments ht
  distinct := h.distinct_moments
  nested _ _ _ _ _ _ hts hlast := h.nested_moments hts hlast
  completed _ _ _ _ _ _ _ hts := h.completed_moments hts
  failed _ _ _ _ _ _ hts := h.failed_moments hts

end Whole

end Ledger

end EvalPlan
