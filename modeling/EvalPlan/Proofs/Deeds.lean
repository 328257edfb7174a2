import EvalPlan.Proofs.Scope
import EvalPlan.Scope.Schedule

/-!
# What the deeds of a schedule account for

An account holds what the history of a schedule leads to: the scopes, and the contexts in which
steps are carried out. Every deed says what it does to an account, and what the account must be like
where the deed is done. What holds of every history that fits is proved here about histories alone:
a scope hands over what was offered to it since it began, once (`Fitting.tracked`).
-/

namespace EvalPlan.Schedule

/-! ## Contexts -/

/-- The scope that is bound for each tracker. -/
abbrev Context := Text → Option Nat

namespace Context

/-- No scope is bound. -/
def empty : Context := fun _ => none

/-- The context within it in which a scope is bound for a tracker. -/
def bind (c : Context) (tracker : Text) (scope : Nat) : Context :=
  fun t => if tracker = t then some scope else c t

end Context

/-- The contexts that a history leads to. -/
structure Contexts where
  /-- Those in which steps are being carried out, the innermost first. -/
  stack : List Context
  /-- Those of the fibers. -/
  fibers : Text → Context

namespace Contexts

/-- Steps are carried out with nothing bound, and there are no fibers. -/
def initial : Contexts := ⟨[.empty], fun _ => .empty⟩

/-- The context in which steps are carried out now. -/
def current (c : Contexts) : Context := c.stack.headD .empty

/-- What a deed does to the contexts. A fiber is carried out where it was spawned, however often it
is resumed, and wherever it is resumed. -/
def after (c : Contexts) : Deed → Contexts
  | .entered tracker scope => { c with stack := c.current.bind tracker scope :: c.stack }
  | .spawned fiber none =>
    { c with fibers := fun f => if fiber = f then c.current else c.fibers f }
  | .spawned fiber (some (tracker, scope)) =>
    { c with fibers := fun f => if fiber = f then c.current.bind tracker scope else c.fibers f }
  | .resumed fiber => { c with stack := c.fibers fiber :: c.stack }
  | .left => { c with stack := c.stack.tail }
  | _ => c

end Contexts

namespace Deed

/-- The scope that a task was offered to. -/
def target? : Deed → Option Nat
  | offered scope _ _ => some scope
  | offeredCurrent _ binding _ _ => binding
  | _ => none

/-- The task that was offered to a scope. -/
def taskFor (r : Nat) : Deed → Option Text
  | offered scope task _ => if scope = r then some task else none
  | offeredCurrent _ binding task _ => if binding = some r then some task else none
  | _ => none

/-- The task that was offered was taken. -/
def isTaken : Deed → Bool
  | offered _ _ taken => taken
  | offeredCurrent _ _ _ taken => taken
  | _ => false

/-- The scope was ended. -/
def ends (r : Nat) : Deed → Bool
  | ended scope _ => scope == r
  | _ => false

/-- A task that was offered to a scope was not offered to another one. -/
theorem taskFor_eq_none {d : Deed} {r r' : Nat} (h : d.target? = some r) (hr : r' ≠ r) :
    d.taskFor r' = none := by
  cases d with
  | offered scope task taken =>
    have hscope : scope = r := Option.some.inj h
    simp [taskFor, hscope, Ne.symm hr]
  | offeredCurrent tracker binding task taken =>
    have hbinding : binding = some r := h
    simp [taskFor, hbinding, Ne.symm hr]
  | _ => cases h

/-- A scope is ended by the deed that ends it. -/
theorem ends_iff {d : Deed} {r : Nat} : d.ends r = true ↔ ∃ ts, d = .ended r ts := by
  cases d <;> simp [ends]

end Deed

/-! ## Accounts -/

/-- What a history accounts for. -/
structure Account where
  /-- The scopes. -/
  scopes : Scopes Text
  /-- The contexts. -/
  contexts : Contexts

namespace Account

/-- Nothing was done. -/
def initial : Account := ⟨.empty, .initial⟩

/-- An account after a deed. -/
def after (l : Account) (d : Deed) : Account :=
  { scopes := match d with
      | .began _ => l.scopes.start.2
      | .offered scope task _ => (l.scopes.register scope task).2
      | .offeredCurrent _ binding task _ => (l.scopes.registerCurrent binding task).2
      | .ended scope _ => (l.scopes.finish scope).2
      | _ => l.scopes
    contexts := l.contexts.after d }

/-- An account after deeds. -/
def replay (l : Account) (ds : List Deed) : Account := ds.foldl after l

/-- What an account must be like where a deed is done. -/
def Fits (l : Account) : Deed → Prop
  | .began scope => scope = l.scopes.tasks.size
  | .offered scope _ taken => taken = l.scopes.isOpen scope
  | .offeredCurrent tracker binding _ taken =>
    binding = l.contexts.current tracker ∧ taken = (l.scopes.current? binding).isSome
  | .ended scope tasks => tasks = (l.scopes.open? scope).getD []
  | _ => True

/-- Every deed fits where it is done. -/
def Fitting (l : Account) : List Deed → Prop
  | [] => True
  | d :: ds => l.Fits d ∧ (l.after d).Fitting ds

variable {l : Account} {a b : List Deed} {d : Deed} {r : Nat}

/-- Deeds are accounted for one part after the other. -/
theorem replay_append (l : Account) (a b : List Deed) :
    l.replay (a ++ b) = (l.replay a).replay b := List.foldl_append

/-- The first deed is accounted for first. -/
theorem replay_cons (l : Account) (d : Deed) (b : List Deed) :
    l.replay (d :: b) = (l.after d).replay b := rfl

/-- Contexts depend on the deeds alone, and not on scopes. -/
theorem contexts_replay (l : Account) (ds : List Deed) :
    (l.replay ds).contexts = ds.foldl Contexts.after l.contexts := by
  induction ds generalizing l with
  | nil => rfl
  | cons d ds ih => exact ih (l.after d)

/-- A history fits if its parts fit, each where it is done. -/
theorem fitting_append : l.Fitting (a ++ b) ↔ l.Fitting a ∧ (l.replay a).Fitting b := by
  induction a generalizing l with
  | nil => simp [Fitting, replay]
  | cons d a ih => rw [List.cons_append, Fitting, Fitting, ih, replay_cons, and_assoc]

/-- The account at a deed, which fits it. -/
theorem Fitting.at_deed (h : l.Fitting (a ++ d :: b)) :
    (l.replay a).Fits d ∧ ((l.replay a).after d).Fitting b :=
  (fitting_append.mp h).2

/-! ## Scopes -/

/-- Scopes are only added. -/
theorem size_le_after (l : Account) (d : Deed) :
    l.scopes.tasks.size ≤ (l.after d).scopes.tasks.size := by
  cases d <;> simp [after]

/-- What a deed does to the tasks of a scope that was begun. -/
theorem open?_after (hfits : l.Fits d) (hr : r < l.scopes.tasks.size) :
    (l.after d).scopes.open? r =
      if d.ends r then none else (l.scopes.open? r).map (· ++ (d.taskFor r).toList) := by
  have hregister (scope : Nat) (task : Text) : (l.scopes.register scope task).2.open? r =
      (l.scopes.open? r).map (· ++ (if scope = r then some task else none).toList) := by
    rw [Scopes.open?_register]
    by_cases hscope : scope = r
    · subst hscope
      simp
    · simp [hscope, Ne.symm hscope]
  -- only what is offered to the scope adds to it, and only its end closes it
  cases d with
  | began scope =>
    have hne : r ≠ l.scopes.tasks.size := Nat.ne_of_lt hr
    show l.scopes.start.2.open? r = _
    simp [Scopes.open?_start, hne, Deed.ends, Deed.taskFor]
  | offered scope task taken => exact hregister scope task
  | offeredCurrent tracker binding task taken =>
    cases binding with
    | none => simp [after, Deed.ends, Deed.taskFor]
    | some scope =>
      show (l.scopes.registerCurrent (some scope) task).2.open? r = _
      rw [Scopes.registerCurrent_some, hregister]
      simp [Deed.ends, Deed.taskFor]
  | ended scope tasks =>
    show (l.scopes.finish scope).2.open? r = _
    rw [Scopes.open?_finish]
    by_cases hscope : scope = r
    · simp [hscope, Deed.ends]
    · simp [hscope, Ne.symm hscope, Deed.ends, Deed.taskFor]
  | _ => simp [after, Deed.ends, Deed.taskFor]

/-- A scope that is not ended collects what is offered to it, in order. -/
theorem Fitting.open?_eq (h : l.Fitting b) (hr : r < l.scopes.tasks.size) {ts : List Text}
    (hopen : l.scopes.open? r = some ts) (hb : ∀ d ∈ b, d.ends r = false) :
    (l.replay b).scopes.open? r = some (ts ++ b.filterMap (Deed.taskFor r)) := by
  induction b generalizing l ts with
  | nil => simpa [replay] using hopen
  | cons d b ih =>
    have hafter : (l.after d).scopes.open? r = some (ts ++ (d.taskFor r).toList) := by
      rw [open?_after h.1 hr, hb d (by simp), hopen]
      rfl
    rw [replay_cons, ih h.2 (Nat.lt_of_lt_of_le hr (l.size_le_after d)) hafter
      fun d' hd' => hb d' (by simp [hd'])]
    cases htask : d.taskFor r <;> simp [htask]

/-- A scope that has ended stays so. -/
theorem Fitting.open?_eq_none (h : l.Fitting b) (hr : r < l.scopes.tasks.size)
    (hclosed : l.scopes.open? r = none) : (l.replay b).scopes.open? r = none := by
  induction b generalizing l with
  | nil => exact hclosed
  | cons d b ih =>
    refine ih h.2 (Nat.lt_of_lt_of_le hr (l.size_le_after d)) ?_
    rw [open?_after h.1 hr, hclosed]
    cases d.ends r <;> rfl

/-- So they are by many deeds. -/
theorem size_le_replay (l : Account) (b : List Deed) :
    l.scopes.tasks.size ≤ (l.replay b).scopes.tasks.size := by
  induction b generalizing l with
  | nil => exact Nat.le_refl _
  | cons d b ih => exact Nat.le_trans (l.size_le_after d) (ih _)

/-- A scope that was not begun has no number yet. -/
theorem Fitting.size_le (h : l.Fitting b) (hr : l.scopes.tasks.size ≤ r) (hb : .began r ∉ b) :
    (l.replay b).scopes.tasks.size ≤ r := by
  induction b generalizing l with
  | nil => exact hr
  | cons d b ih =>
    refine ih h.2 ?_ fun hmem => hb (by simp [hmem])
    -- only beginning a scope uses up a number
    cases d with
    | began scope =>
      have hne : scope ≠ r := by
        rintro rfl
        exact hb (by simp)
      have hscope : scope = l.scopes.tasks.size := h.1
      have hsize : (l.after (.began scope)).scopes.tasks.size = l.scopes.tasks.size + 1 :=
        Scopes.size_start _
      omega
    | _ => simpa [after] using hr

/-- A scope that was not begun is not open. -/
theorem open?_eq_none_of_size_le (hr : l.scopes.tasks.size ≤ r) : l.scopes.open? r = none := by
  cases hopen : l.scopes.open? r with
  | none => rfl
  | some ts =>
    have hlt := l.scopes.open?_lt hopen
    omega

/-- A scope is empty where it begins. -/
theorem Fitting.at_began (h : l.Fitting (a ++ .began r :: b)) :
    r = (l.replay a).scopes.tasks.size ∧ r < ((l.replay a).after (.began r)).scopes.tasks.size ∧
      ((l.replay a).after (.began r)).scopes.open? r = some [] ∧
        ((l.replay a).after (.began r)).Fitting b := by
  obtain ⟨hr, hb⟩ := h.at_deed
  have hsize : ((l.replay a).after (.began r)).scopes.tasks.size =
      (l.replay a).scopes.tasks.size + 1 := Scopes.size_start _
  refine ⟨hr, ?_, ?_, hb⟩
  · rw [hsize, ← show r = _ from hr]
    exact Nat.lt_succ_self r
  · show (l.replay a).scopes.start.2.open? r = _
    rw [Scopes.open?_start, if_pos (show r = (l.replay a).scopes.tasks.size from hr)]

/-- No deed ends a scope if its end is not among the deeds. -/
theorem forall_ends_eq_false {ds : List Deed} :
    (∀ d ∈ ds, d.ends r = false) ↔ ∀ ts, .ended r ts ∉ ds := by
  constructor
  · intro h ts hmem
    have hends := h _ hmem
    simp [Deed.ends] at hends
  · intro h d hd
    cases hends : d.ends r with
    | false => rfl
    | true =>
      obtain ⟨ts, rfl⟩ := Deed.ends_iff.mp hends
      exact absurd hd (h ts)

/-- After a scope was ended it is closed for good. -/
theorem Fitting.closed (h : l.Fitting (a ++ .ended r ts :: b))
    (hr : r < (l.replay a).scopes.tasks.size) :
    (l.replay (a ++ .ended r ts :: b)).scopes.open? r = none := by
  obtain ⟨hfits, hb⟩ := h.at_deed
  rw [replay_append, replay_cons]
  refine hb.open?_eq_none (Nat.lt_of_lt_of_le hr (size_le_after _ _)) ?_
  rw [open?_after hfits hr, if_pos (Deed.ends_iff.mpr ⟨ts, rfl⟩)]

/-- A scope is open exactly if it began and was not ended since, and it holds what was offered to it
since then. -/
theorem Fitting.open?_iff (h : initial.Fitting a) {ts : List Text} :
    (initial.replay a).scopes.open? r = some ts ↔
      ∃ a₁ a₂, a = a₁ ++ .began r :: a₂ ∧ (∀ ts', .ended r ts' ∉ a₂) ∧
        ts = a₂.filterMap (Deed.taskFor r) := by
  -- from its beginning on a scope collects what is offered to it, until it is ended
  have hcollects {a₁ a₂ : List Deed} (h : initial.Fitting (a₁ ++ .began r :: a₂))
      (hends : ∀ ts', .ended r ts' ∉ a₂) :
      (initial.replay (a₁ ++ .began r :: a₂)).scopes.open? r =
        some (a₂.filterMap (Deed.taskFor r)) := by
    obtain ⟨-, hr, hopen, hrest⟩ := h.at_began
    rw [replay_append, replay_cons, hrest.open?_eq hr hopen (forall_ends_eq_false.mpr hends)]
    rfl
  constructor
  · intro hopen
    by_cases hbegan : .began r ∈ a
    · obtain ⟨a₁, a₂, rfl⟩ := List.append_of_mem hbegan
      by_cases hends : ∀ ts', .ended r ts' ∉ a₂
      · rw [hcollects h hends] at hopen
        exact ⟨a₁, a₂, rfl, hends, (Option.some.inj hopen).symm⟩
      · -- the scope was ended since then
        exfalso
        simp only [Classical.not_forall, Classical.not_not] at hends
        obtain ⟨ts', hmem⟩ := hends
        obtain ⟨-, hr, -, hrest⟩ := h.at_began
        obtain ⟨x, y, rfl⟩ := List.append_of_mem hmem
        have hclosed := hrest.closed (Nat.lt_of_lt_of_le hr (size_le_replay _ x))
        rw [replay_append, replay_cons, hclosed] at hopen
        cases hopen
    · -- the scope has no number yet
      exfalso
      rw [open?_eq_none_of_size_le (h.size_le (Nat.zero_le r) hbegan)] at hopen
      cases hopen
  · rintro ⟨a₁, a₂, rfl, hends, rfl⟩
    exact hcollects h hends

end Account

/-! ## Tracking -/

/-- What a history says about the scopes that it leads to. -/
structure Tracked (h : List Deed) (scopes : Scopes Text) : Prop where
  /-- No two scopes have the same number. -/
  fresh : ∀ a b c r, h ≠ a ++ .began r :: (b ++ .began r :: c)
  /-- When a scope is ended for the first time, it hands over the tasks that were offered to it
  since it began, in order. -/
  handed : ∀ a b c r ts, h = a ++ .began r :: (b ++ .ended r ts :: c) →
    (∀ ts', .ended r ts' ∉ b) → ts = b.filterMap (Deed.taskFor r)
  /-- When it is ended again, it hands over nothing. -/
  again : ∀ a b c d r ts ts', h = a ++ .began r :: (b ++ .ended r ts :: (c ++ .ended r ts' :: d)) →
    ts' = []
  /-- A task is taken exactly if it is offered to a scope that began and was not ended since. -/
  taken : ∀ a b d, h = a ++ d :: b → (d.isTaken = true ↔ ∃ r, d.target? = some r ∧
    ∃ a₁ a₂, a = a₁ ++ .began r :: a₂ ∧ ∀ ts, .ended r ts ∉ a₂)
  /-- After a scope was ended nothing that is offered to it is taken, by itself or for another
  scope. -/
  late : ∀ a b c d e r ts, h = a ++ .began r :: (b ++ .ended r ts :: (c ++ d :: e)) →
    d.target? = some r → d.isTaken = false ∧ ∀ r', r' ≠ r → d.taskFor r' = none
  /-- Where no scope is named, a task is offered to the scope that is bound for the tracker in the
  context in which the step is carried out, and to no scope around it. -/
  bound : ∀ a b tracker binding task taken,
    h = a ++ .offeredCurrent tracker binding task taken :: b →
    binding = (a.foldl Contexts.after .initial).current tracker
  /-- Scopes that have not been ended hold the tasks that were offered to them since they began. -/
  held : ∀ r ts, scopes.open? r = some ts ↔ ∃ a b, h = a ++ .began r :: b ∧
    (∀ ts', .ended r ts' ∉ b) ∧ ts = b.filterMap (Deed.taskFor r)

namespace Account

/-- A task is taken exactly if the scope it was offered to is open. -/
theorem Fits.isTaken_iff {l : Account} {d : Deed} (h : l.Fits d) :
    d.isTaken = true ↔ ∃ r, d.target? = some r ∧ ∃ ts, l.scopes.open? r = some ts := by
  cases d with
  | offered scope task taken =>
    have htaken : taken = l.scopes.isOpen scope := h
    simp [Deed.isTaken, Deed.target?, htaken, Scopes.isOpen_iff]
  | offeredCurrent tracker binding task taken =>
    have htaken : taken = (l.scopes.current? binding).isSome := h.2
    rw [Deed.isTaken, htaken, Option.isSome_iff_exists]
    simp only [Deed.target?, Scopes.current?_eq_some, Scopes.isOpen_iff]
  | _ => simp [Deed.isTaken, Deed.target?]

/-- No number is used for two scopes. -/
theorem Fitting.not_began_again {a b c : List Deed} {r : Nat} :
    ¬ initial.Fitting (a ++ .began r :: (b ++ .began r :: c)) := by
  intro h
  obtain ⟨-, hr, -, hrest⟩ := h.at_began
  have hagain : r = _ := hrest.at_began.1
  have hle := size_le_replay ((initial.replay a).after (.began r)) b
  omega

/-- Between its beginning and its first end, a scope is handed what it is handed back. -/
theorem Fitting.handed {a b c : List Deed} {r : Nat} {ts : List Text}
    (h : initial.Fitting (a ++ .began r :: (b ++ .ended r ts :: c)))
    (hends : ∀ ts', .ended r ts' ∉ b) : ts = b.filterMap (Deed.taskFor r) := by
  obtain ⟨-, hr, hopen, hrest⟩ := h.at_began
  have hts : ts = _ := hrest.at_deed.1
  rw [hts, (fitting_append.mp hrest).1.open?_eq hr hopen (forall_ends_eq_false.mpr hends)]
  rfl

/-- What is done after a scope was ended is done where it is closed. -/
theorem Fitting.at_closed {a b c e : List Deed} {d : Deed} {r : Nat} {ts : List Text}
    (h : initial.Fitting (a ++ .began r :: (b ++ .ended r ts :: (c ++ d :: e)))) :
    ∃ l : Account, l.Fits d ∧ l.scopes.open? r = none := by
  obtain ⟨-, hr, -, hrest⟩ := h.at_began
  have hsplit : b ++ .ended r ts :: (c ++ d :: e) = (b ++ .ended r ts :: c) ++ d :: e := by simp
  rw [hsplit] at hrest
  exact ⟨_, hrest.at_deed.1,
    (fitting_append.mp hrest).1.closed (Nat.lt_of_lt_of_le hr (size_le_replay _ b))⟩

/-- What is offered to a scope that is not open is not taken. -/
theorem Fits.isTaken_eq_false {l : Account} {d : Deed} {r : Nat} (h : l.Fits d)
    (htarget : d.target? = some r) (hclosed : l.scopes.open? r = none) : d.isTaken = false := by
  rw [Bool.eq_false_iff]
  intro htaken
  obtain ⟨r', htarget', ts, hopen⟩ := h.isTaken_iff.mp htaken
  rw [htarget] at htarget'
  cases htarget'
  rw [hclosed] at hopen
  cases hopen

/-- The scopes that are open where a deed is done are those that began and were not ended since. -/
theorem Fitting.isTaken_iff {a b : List Deed} {d : Deed} (h : initial.Fitting (a ++ d :: b)) :
    d.isTaken = true ↔ ∃ r, d.target? = some r ∧
      ∃ a₁ a₂, a = a₁ ++ .began r :: a₂ ∧ ∀ ts, .ended r ts ∉ a₂ := by
  have hprefix := (fitting_append.mp h).1
  rw [h.at_deed.1.isTaken_iff]
  constructor
  · rintro ⟨r, htarget, ts, hopen⟩
    obtain ⟨a₁, a₂, rfl, hends, -⟩ := hprefix.open?_iff.mp hopen
    exact ⟨r, htarget, a₁, a₂, rfl, hends⟩
  · rintro ⟨r, htarget, a₁, a₂, rfl, hends⟩
    exact ⟨r, htarget, _, hprefix.open?_iff.mpr ⟨a₁, a₂, rfl, hends, rfl⟩⟩

/-- A history that fits tracks its scopes. -/
theorem Fitting.tracked {h : List Deed} (hfits : initial.Fitting h) :
    Tracked h (initial.replay h).scopes where
  fresh := by
    rintro a b c r rfl
    exact hfits.not_began_again
  handed := by
    rintro a b c r ts rfl hends
    exact hfits.handed hends
  again := by
    rintro a b c d r ts ts' rfl
    obtain ⟨l, hl, hclosed⟩ := hfits.at_closed
    rw [show ts' = (l.scopes.open? r).getD [] from hl, hclosed]
    rfl
  taken := by
    rintro a b d rfl
    exact hfits.isTaken_iff
  late := by
    rintro a b c d e r ts rfl htarget
    obtain ⟨l, hl, hclosed⟩ := hfits.at_closed
    exact ⟨hl.isTaken_eq_false htarget hclosed, fun r' hr' => Deed.taskFor_eq_none htarget hr'⟩
  -- the contexts follow from the deeds before, whatever the scopes took
  bound := by
    rintro a b tracker binding task taken rfl
    have hbinding : binding = _ := hfits.at_deed.1.1
    rw [hbinding, contexts_replay]
    rfl
  held r ts := hfits.open?_iff

end Account

end EvalPlan.Schedule
