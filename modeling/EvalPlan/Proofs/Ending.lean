import EvalPlan.Proofs.Discreet
import EvalPlan.Proofs.Loading
import EvalPlan.Proofs.Settings

/-!
# How the command ends

The command ends in one of three ways, and `Command.Ends` says which: it prints the whole report of
a run; or the run or its report failed with an error of the engine, whose code and message are
printed; or something else failed, which is printed as unexpected. It throws nothing, whatever it
is given (`start_ends`).

The engine and the code of scripts are discreet, also while a report is put into words: what they
print are log entries. So all else that is printed in the end is the report, or one line about the
failure (`Ends.onlyLogs`, `Ends.printed`).
-/

namespace EvalPlan

open EvalPlan.Action

/-! ## Lines -/

namespace Notice

/-- The notice is a line of the report. -/
def isReport : Notice → Bool
  | .line .report _ => true
  | _ => false

/-- The notice is a line about a failure of the command. -/
def isFatal : Notice → Bool
  | .line _ (.text t :: _) => ("[FATAL]" : Text).isPrefixOf t
  | _ => false

/-- A log entry of the command belongs neither to the report nor to a failure. -/
theorem OfLog.besides {n : Notice} (h : n.OfLog Command.component) :
    n.isReport = false ∧ n.isFatal = false := by
  rcases h with h | ⟨level, message, data, rfl⟩
  · cases n <;> first | exact ⟨rfl, rfl⟩ | cases h
  · exact ⟨rfl, rfl⟩

/-- Among log entries of the command there is neither. -/
theorem filter_ofLog {notices : List Notice} (h : ∀ n ∈ notices, n.OfLog Command.component) :
    notices.filter isReport = [] ∧ notices.filter isFatal = [] := by
  constructor
  · rw [List.filter_eq_nil_iff]
    exact fun n hn => by simp [(h n hn).besides.1]
  · rw [List.filter_eq_nil_iff]
    exact fun n hn => by simp [(h n hn).besides.2]

end Notice

/-! ## Reports -/

/-- A number begins with a digit. -/
theorem Text.exists_ofNat_eq_cons (n : Nat) : ∃ u rest, ofNat n = u :: rest ∧ u ≠ 91 := by
  obtain ⟨c, cs, hdigits⟩ := List.exists_cons_of_ne_nil (Nat.toDigits_ne_nil (n := n) (b := 10))
  have hc : c.isDigit = true :=
    Nat.isDigit_of_mem_toDigits (by decide) (by decide) (hdigits ▸ List.mem_cons_self)
  refine ⟨c.toNat.toUInt16, cs.map fun c => c.toNat.toUInt16, by rw [ofNat, hdigits, List.map_cons],
    ?_⟩
  intro heq
  have hvalue := congrArg UInt16.toNat heq
  simp only [Char.isDigit, Bool.and_eq_true, decide_eq_true_eq] at hc
  have hlow : 48 ≤ c.toNat := UInt32.le_iff_toNat_le.mp hc.1
  have hhigh : c.toNat ≤ 57 := UInt32.le_iff_toNat_le.mp hc.2
  have hmod : c.toNat % 65536 = 91 := by simpa using hvalue
  omega

namespace Report

variable {T : Trait} {ev : Evaluator}

section holds

variable (law : Stable T) (hev : ev.Meets T)

include law hev

/-- Describing a task keeps a trait. -/
theorem describeTask_holds (task : Value) : T.holds (describeTask ev task) := by
  unfold describeTask
  refine law.bind law.heap fun h => ?_
  split
  · exact law.typeError _
  · refine law.bind (property_holds law hev _ _ _) fun describe => law.bind law.heap fun h => ?_
    split
    · -- the description is the task's own, if it is a text
      refine law.bind (invoke_holds law hev _ _ _ _) fun v => ?_
      split
      · exact law.pure _
      · exact nameOf_holds law hev _
    · exact nameOf_holds law hev _

/-- So does putting a result into JSON or into its own text. -/
theorem jsonOrText_holds (result : Value) : T.holds (jsonOrText ev result) := by
  unfold jsonOrText
  refine law.bind (hev.json _ _ _) fun t => ?_
  split
  · exact law.pure _
  · exact display_holds law hev _ _

/-- So does the text of a result. -/
theorem resultText_holds (result : Value) : T.holds (resultText ev result) := by
  unfold resultText
  split
  · exact law.pure _
  · exact law.pure _
  · refine law.tryCatch (jsonOrText_holds law hev _) fun thrown => law.bind law.heap fun h => ?_
    split
    · exact display_holds law hev _ _
    · exact law.throw _

/-- So do the lines of the tasks, by induction on them. -/
theorem taskLines_holds (i : Nat) (tasks : List Value) : T.holds (taskLines ev i tasks) := by
  induction tasks generalizing i with
  | nil => exact law.pure _
  | cons task rest ih =>
    exact law.bind (describeTask_holds law hev _) fun _ =>
      law.bind (words_holds law hev _ _) fun _ => law.bind (ih _) fun _ => law.pure _

/-- So do the lines of a report. -/
theorem lines_holds (e : Environment) : T.holds (lines ev e) :=
  law.bind (taskLines_holds law hev _ _) fun _ =>
    law.bind (resultText_holds law hev _) fun _ => law.pure _

end holds

/-- The text does not begin as a line about a failure does. -/
def IsPlainLine (t : Text) : Prop := ∃ u rest, t = u :: rest ∧ u ≠ 91

/-- The lines of tasks are plain lines. -/
theorem isPlainLine_of_mem_taskLines {i : Nat} {tasks : List Value} {w w' : World} {ts : List Text}
    (h : ExceptT.run (taskLines ev i tasks) w = (.ok ts, w')) : ∀ t ∈ ts, IsPlainLine t := by
  induction tasks generalizing i w w' ts with
  | nil =>
    cases h
    exact nofun
  | cons task rest ih =>
    unfold taskLines at h
    obtain ⟨described, w₁, -, h⟩ := bind_eq_ok h
    obtain ⟨said, w₂, -, h⟩ := bind_eq_ok h
    obtain ⟨later, w₃, hlater, h⟩ := bind_eq_ok h
    cases h
    intro t ht
    rcases List.mem_cons.mp ht with rfl | ht
    · exact ⟨32, _, rfl, by decide⟩
    · exact ih hlater t ht

/-- No line of a report looks like a line about a failure. -/
theorem isPlainLine_of_mem_lines {e : Environment} {w w' : World} {ts : List Text}
    (h : ExceptT.run (lines ev e) w = (.ok ts, w')) : ∀ t ∈ ts, IsPlainLine t := by
  unfold lines at h
  obtain ⟨tasks, w₁, htasks, h⟩ := bind_eq_ok h
  obtain ⟨result, w₂, -, h⟩ := bind_eq_ok h
  cases h
  intro t ht
  simp only [List.cons_append, List.mem_cons, List.mem_append, List.not_mem_nil, or_false] at ht
  rcases ht with rfl | ht | rfl
  · obtain ⟨u, rest, heq, hu⟩ := Text.exists_ofNat_eq_cons e.tasks.length
    unfold countLine
    rw [heq, List.cons_append, List.cons_append]
    exact ⟨u, _, rfl, hu⟩
  · exact isPlainLine_of_mem_taskLines htasks t ht
  · exact ⟨114, _, rfl, by decide⟩

end Report

/-! ## The three ways to end -/

namespace Command

/-- A line of the report. -/
def reportLine (t : Text) : Notice := .line .report [.text t]

/-- The line about an error of the engine. -/
def namedLine (t : Text) : Notice := .line (.level .error) [.text t]

/-- The line about anything else that failed. -/
def unexpectedLine (h : Heap) (thrown : Value) : Notice :=
  .line (.level .error) [.text "[FATAL] Unexpected failure:", h.portrait thrown]

/-- A plain line is none of those that tell of a fatal error. -/
theorem isFatal_reportLine {t : Text} (h : Report.IsPlainLine t) :
    (reportLine t).isFatal = false := by
  obtain ⟨u, rest, rfl, hu⟩ := h
  show List.isPrefixOf (91 :: [70, 65, 84, 65, 76, 93]) (u :: rest) = false
  rw [List.isPrefixOf_cons_cons, beq_eq_false_iff_ne.mpr (Ne.symm hu), Bool.false_and]

section ending

variable (host : Host) (ev : Evaluator) (settings : Settings) (script : Text)

/-- A failure that is not printed by its code. -/
inductive Escapes (w : World) : Value → World → Prop
  /-- The engine does not start, whatever the error is. -/
  | starting {thrown w₁} (hprepare : ExceptT.run (prepare host ev settings) w =
      (.error thrown, w₁)) :
    Escapes w thrown w₁
  /-- The run or its report fails with something that is no error of the engine. -/
  | foreign {w₁ thrown w₂} (hprepare : ExceptT.run (prepare host ev settings) w = (.ok ⟨⟩, w₁))
    (hreport : ExceptT.run (report host ev script) w₁ = (.error thrown, w₂))
    (herror : isEngineError w₂.heap thrown = false) : Escapes w thrown w₂
  /-- The error of the engine cannot be put into words. -/
  | unworded {w₁ error w₂ thrown w₃}
    (hprepare : ExceptT.run (prepare host ev settings) w = (.ok ⟨⟩, w₁))
    (hreport : ExceptT.run (report host ev script) w₁ = (.error error, w₂))
    (herror : isEngineError w₂.heap error = true)
    (hwords : ExceptT.run (fatalLine ev error) w₂ = (.error thrown, w₃)) : Escapes w thrown w₃

/-- How the command ends: with the exit code, what it prints itself in the end, and the world that
is left before that. -/
inductive Ends (w : World) : Nat → List Notice → World → Prop
  /-- The run and its report come out. -/
  | reported {w₁ lines w₂} (hprepare : ExceptT.run (prepare host ev settings) w = (.ok ⟨⟩, w₁))
    (hreport : ExceptT.run (report host ev script) w₁ = (.ok lines, w₂)) :
    Ends w 0 (lines.map reportLine) w₂
  /-- The run or its report fails with an error of the engine. -/
  | named {w₁ thrown w₂ t w₃}
    (hprepare : ExceptT.run (prepare host ev settings) w = (.ok ⟨⟩, w₁))
    (hreport : ExceptT.run (report host ev script) w₁ = (.error thrown, w₂))
    (herror : isEngineError w₂.heap thrown = true)
    (hwords : ExceptT.run (fatalLine ev thrown) w₂ = (.ok t, w₃)) : Ends w 1 [namedLine t] w₃
  /-- Anything else fails. -/
  | unexpected {thrown w₁ w₂} (hescapes : Escapes host ev settings script w thrown w₁)
    (hround : ExceptT.run (runRound ev) w₁ = (.ok ⟨⟩, w₂)) :
    Ends w 1 [unexpectedLine w₂.heap thrown] w₂

end ending

/-! ### The command throws nothing -/

variable {host : Host} {ev : Evaluator} {settings : Settings} {script : Text}

/-- Lines are printed in order. -/
theorem run_printLines (ts : List Text) (w : World) :
    ExceptT.run (printLines ts) w = (.ok ⟨⟩, w.noting (ts.map reportLine)) := by
  induction ts generalizing w with
  | nil => simp [printLines, World.noting]
  | cons t rest ih =>
    unfold printLines
    rw [run_bind_ok (run_note w _), ih]
    simp [World.noting, reportLine]

/-- What a continuation throws ends that continuation only. -/
theorem exists_run_runJobs (ev : Evaluator) (jobs : List Job) (w : World) :
    ∃ w', ExceptT.run (runJobs ev jobs) w = (.ok ⟨⟩, w') := by
  induction jobs generalizing w with
  | nil => exact ⟨w, rfl⟩
  | cons job rest ih =>
    have hjob : ∃ w', ExceptT.run (runJob ev job) w = (.ok ⟨⟩, w') := by
      unfold runJob
      rw [run_withBinding, run_tryCatch]
      rcases ExceptT.run (Evaluator.innerBlock ev job.scene job.body) (w.enter job.binding) with
        ⟨_ | ⟨⟨⟩⟩, w₁⟩
      · exact ⟨_, rfl⟩
      · exact ⟨_, rfl⟩
    obtain ⟨w₁, hjob⟩ := hjob
    obtain ⟨w₂, hrest⟩ := ih w₁
    unfold runJobs
    exact ⟨w₂, by rw [run_bind_ok hjob, hrest]⟩

/-- A round of continuations comes to an end, for what they throw is kept. -/
theorem exists_run_runRound (ev : Evaluator) (w : World) :
    ∃ w', ExceptT.run (runRound ev) w = (.ok ⟨⟩, w') := by
  unfold runRound
  have htake : ∃ jobs w', ExceptT.run takeQueue w = (.ok jobs, w') := ⟨_, _, rfl⟩
  obtain ⟨jobs, w₁, htake⟩ := htake
  rw [run_bind_ok htake]
  exact exists_run_runJobs ev jobs w₁

/-- So does any number of rounds. -/
theorem exists_run_drain (ev : Evaluator) (n : Nat) (w : World) :
    ∃ w', ExceptT.run (drain ev n) w = (.ok ⟨⟩, w') := by
  induction n generalizing w with
  | zero => exact ⟨w, rfl⟩
  | succ n ih =>
    unfold drain
    rw [run_bind_ok (run_get w)]
    split
    · exact ⟨w, rfl⟩
    · obtain ⟨w₁, hround⟩ := exists_run_runRound ev w
      rw [run_bind_ok hround]
      exact ih w₁

/-- So does settling. -/
theorem exists_run_settle (ev : Evaluator) (w : World) :
    ∃ w', ExceptT.run (settle ev) w = (.ok ⟨⟩, w') := exists_run_drain ev roundBound w

/-- A failure that escapes is printed as unexpected. -/
theorem run_reportUnexpected (ev : Evaluator) (thrown : Value) {w w' : World}
    (hround : ExceptT.run (runRound ev) w = (.ok ⟨⟩, w')) :
    ExceptT.run (reportUnexpected ev thrown) w =
      (.ok 1, w'.noting [unexpectedLine w'.heap thrown]) := by
  unfold reportUnexpected
  rw [run_bind_ok hround]
  rfl

/-- Whatever happens, the command ends in one of the three ways. -/
theorem start_ends (host : Host) (ev : Evaluator) (settings : Settings) (script : Text)
    (w : World) : ∃ code printed w', Ends host ev settings script w code printed w' ∧
      ExceptT.run (tryCatch (start host ev settings script) (reportUnexpected ev)) w =
        (.ok code, w'.noting printed) := by
  -- what escapes is handled outside, in whichever world it leaves
  have hescaped {thrown : Value} {w₁ : World}
    (hescapes : Escapes host ev settings script w thrown w₁) :
      ∃ code printed w', Ends host ev settings script w code printed w' ∧
        ExceptT.run (reportUnexpected ev thrown) w₁ = (.ok code, w'.noting printed) := by
    obtain ⟨w₂, hround⟩ := exists_run_runRound ev w₁
    exact ⟨1, _, w₂, .unexpected hescapes hround, run_reportUnexpected ev thrown hround⟩
  rw [run_tryCatch]
  unfold start
  rw [run_bind]
  cases hprepare : ExceptT.run (prepare host ev settings) w with
  | mk r w₁ =>
    cases r with
    | error thrown => exact hescaped (.starting hprepare)
    | ok u =>
      simp only
      unfold runReporting
      rw [run_tryCatch]
      unfold runScript
      rw [bind_assoc, run_bind]
      cases hreport : ExceptT.run (report host ev script) w₁ with
      | mk r w₂ =>
        cases r with
        | ok lines =>
          simp only
          rw [run_bind_ok (run_printLines lines w₂)]
          exact ⟨0, _, w₂, .reported hprepare hreport, rfl⟩
        | error thrown =>
          simp only
          rw [run_bind_ok (run_heap w₂)]
          cases herror : isEngineError w₂.heap thrown with
          | false => exact hescaped (.foreign hprepare hreport herror)
          | true =>
            rw [if_pos rfl, run_bind]
            cases hwords : ExceptT.run (fatalLine ev thrown) w₂ with
            | mk r w₃ =>
              cases r with
              | ok t => exact ⟨1, _, w₃, .named hprepare hreport herror hwords, rfl⟩
              | error other => exact hescaped (.unworded hprepare hreport herror hwords)

/-! ### The stages of the command -/

section stages

variable (host : Host) (ev : Evaluator) (settings : Settings) (script : Text)

/-- The command falls short of a report, with what is thrown at the stage that fails. -/
inductive FallsShort (w : World) : Value → World → Prop
  /-- The engine does not start. -/
  | starting {thrown w'}
    (hprepare : ExceptT.run (prepare host ev settings) w = (.error thrown, w')) :
    FallsShort w thrown w'
  /-- Loading the script stops: its file is missing, it does not compile, or it throws. The
  continuations that it queued are carried out then. -/
  | loading {started thrown stopped w'}
    (hprepare : ExceptT.run (prepare host ev settings) w = (.ok ⟨⟩, started))
    (hstops : StopsLoading host ev script started thrown stopped)
    (hround : ExceptT.run (runRound ev) stopped = (.ok ⟨⟩, w')) :
    FallsShort w thrown w'
  /-- The environment of the run cannot be put into words. -/
  | wording {started e loaded thrown w'}
    (hprepare : ExceptT.run (prepare host ev settings) w = (.ok ⟨⟩, started))
    (hload : ExceptT.run (awaiting ev (load host ev (.file script))) started = (.ok e, loaded))
    (hwords : ExceptT.run (Report.lines ev e) loaded = (.error thrown, w')) :
    FallsShort w thrown w'

end stages

/-- What is waited for throws what it throws, after the continuations that it queued. -/
theorem run_awaiting_error_iff {α : Type} {act : Action α} {w w' : World} {thrown : Value} :
    ExceptT.run (awaiting ev act) w = (.error thrown, w') ↔
      ∃ w₁, ExceptT.run act w = (.error thrown, w₁) ∧ ExceptT.run (runRound ev) w₁ =
        (.ok ⟨⟩, w') := by
  unfold awaiting
  rw [run_bind, run_tryCatch]
  rcases ExceptT.run act w with ⟨r, w₁⟩
  -- a round of continuations throws nothing, so what is thrown is what was thrown before it
  obtain ⟨w₂, hround⟩ := exists_run_runRound ev w₁
  cases r with
  | error thrown' =>
    simp only
    rw [run_bind_ok hround]
    constructor
    · intro h
      cases h
      exact ⟨w₁, rfl, hround⟩
    · rintro ⟨w₁', h, hround'⟩
      cases h
      cases hround.symm.trans hround'
      rfl
  | ok a =>
    simp only
    rw [run_bind_ok hround]
    exact ⟨nofun, nofun⟩

/-- The engine is not started or there is no report exactly if a stage fails, and then this
throws. -/
theorem fallsShort_iff {w w' : World} {thrown : Value} :
    ExceptT.run (do prepare host ev settings; report host ev script) w = (.error thrown, w') ↔
      FallsShort host ev settings script w thrown w' := by
  constructor
  · intro h
    rw [run_bind] at h
    split at h
    next u started hprepare =>
      unfold report at h
      rw [run_bind] at h
      split at h
      -- the script was loaded, so it was the report that threw
      next e loaded hload => exact .wording hprepare hload h
      next hload =>
        cases h
        obtain ⟨stopped, hload, hround⟩ := run_awaiting_error_iff.mp hload
        exact .loading hprepare (load_error_iff.mp hload) hround
    next hprepare =>
      cases h
      exact .starting hprepare
  · rintro (hprepare | ⟨hprepare, hstops, hround⟩ | ⟨hprepare, hload, hwords⟩)
    · exact run_bind_error hprepare
    · rw [run_bind_ok hprepare]
      exact run_bind_error (run_awaiting_error_iff.mpr ⟨_, hstops.load, hround⟩)
    · rw [run_bind_ok hprepare]
      exact (run_bind_ok hload).trans hwords

/-- Where the command ends with the exit code 1, one of its stages failed. -/
theorem Ends.fallsShort {w w' : World} {printed : List Notice}
    (h : Ends host ev settings script w 1 printed w') :
    ∃ thrown w₁, FallsShort host ev settings script w thrown w₁ := by
  cases h with
  | named hprepare hreport _ _ =>
    exact ⟨_, _, fallsShort_iff.mp ((run_bind_ok hprepare).trans hreport)⟩
  | unexpected hescapes _ =>
    cases hescapes with
    | starting hprepare => exact ⟨_, _, .starting hprepare⟩
    | foreign hprepare hreport _ =>
      exact ⟨_, _, fallsShort_iff.mp ((run_bind_ok hprepare).trans hreport)⟩
    | unworded hprepare hreport _ _ =>
      exact ⟨_, _, fallsShort_iff.mp ((run_bind_ok hprepare).trans hreport)⟩

/-! ### There is one way to end -/

/-- What an action does in a world is one thing only. -/
theorem run_unique {α : Type} {act : Action α} {w w' w'' : World} {r r' : Except Value α}
    (h : ExceptT.run act w = (r, w')) (h' : ExceptT.run act w = (r', w'')) : r = r' ∧ w' = w'' := by
  rw [h] at h'
  cases h'
  exact ⟨rfl, rfl⟩

/-- What comes of the report of an engine that was started is one thing only. -/
theorem report_unique {w w₁ w₂ w₁' w₂' : World} {r r' : Except Value (List Text)}
    (hprepare : ExceptT.run (prepare host ev settings) w = (.ok ⟨⟩, w₁))
    (hreport : ExceptT.run (report host ev script) w₁ = (r, w₂))
    (hprepare' : ExceptT.run (prepare host ev settings) w = (.ok ⟨⟩, w₁'))
    (hreport' : ExceptT.run (report host ev script) w₁' = (r', w₂')) : r = r' ∧ w₂ = w₂' := by
  obtain ⟨-, rfl⟩ := run_unique hprepare hprepare'
  exact run_unique hreport hreport'

/-- None escapes where the run and its report come out. -/
theorem Escapes.not_reported {w w' w₁ w₂ : World} {thrown : Value} {lines : List Text}
    (h : Escapes host ev settings script w thrown w')
    (hprepare : ExceptT.run (prepare host ev settings) w = (.ok ⟨⟩, w₁))
    (hreport : ExceptT.run (report host ev script) w₁ = (.ok lines, w₂)) : False := by
  cases h with
  | starting hprepare' => cases (run_unique hprepare hprepare').1
  | foreign hprepare' hreport' | unworded hprepare' hreport' =>
    cases (report_unique hprepare hreport hprepare' hreport').1

/-- None escapes where the error of the engine can be put into words. -/
theorem Escapes.not_named {w w' w₁ w₂ w₃ : World} {thrown error : Value} {t : Text}
    (h : Escapes host ev settings script w thrown w')
    (hprepare : ExceptT.run (prepare host ev settings) w = (.ok ⟨⟩, w₁))
    (hreport : ExceptT.run (report host ev script) w₁ = (.error error, w₂))
    (herror : isEngineError w₂.heap error = true)
    (hwords : ExceptT.run (fatalLine ev error) w₂ = (.ok t, w₃)) : False := by
  cases h with
  | starting hprepare' => cases (run_unique hprepare hprepare').1
  | foreign hprepare' hreport' herror' =>
    obtain ⟨⟨⟩, rfl⟩ := report_unique hprepare hreport hprepare' hreport'
    exact Bool.false_ne_true (herror'.symm.trans herror)
  | unworded hprepare' hreport' herror' hwords' =>
    obtain ⟨⟨⟩, rfl⟩ := report_unique hprepare hreport hprepare' hreport'
    cases (run_unique hwords hwords').1

/-- One failure escapes at most. -/
theorem Escapes.unique {w w' w'' : World} {thrown thrown' : Value}
    (h : Escapes host ev settings script w thrown w')
    (h' : Escapes host ev settings script w thrown' w'') : thrown = thrown' ∧ w' = w'' := by
  -- which of the three it is depends on how starting, reporting and wording the error come out
  cases h with
  | starting hprepare =>
    cases h' with
    | starting hprepare' =>
      obtain ⟨⟨⟩, rfl⟩ := run_unique hprepare hprepare'
      exact ⟨rfl, rfl⟩
    | foreign hprepare' | unworded hprepare' => cases (run_unique hprepare hprepare').1
  | foreign hprepare hreport herror =>
    cases h' with
    | starting hprepare' => cases (run_unique hprepare hprepare').1
    | foreign hprepare' hreport' =>
      obtain ⟨⟨⟩, rfl⟩ := report_unique hprepare hreport hprepare' hreport'
      exact ⟨rfl, rfl⟩
    | unworded hprepare' hreport' herror' =>
      obtain ⟨⟨⟩, rfl⟩ := report_unique hprepare hreport hprepare' hreport'
      exact (Bool.false_ne_true (herror.symm.trans herror')).elim
  | unworded hprepare hreport herror hwords =>
    cases h' with
    | starting hprepare' => cases (run_unique hprepare hprepare').1
    | foreign hprepare' hreport' herror' =>
      obtain ⟨⟨⟩, rfl⟩ := report_unique hprepare hreport hprepare' hreport'
      exact (Bool.false_ne_true (herror'.symm.trans herror)).elim
    | unworded hprepare' hreport' herror' hwords' =>
      obtain ⟨⟨⟩, rfl⟩ := report_unique hprepare hreport hprepare' hreport'
      obtain ⟨⟨⟩, rfl⟩ := run_unique hwords hwords'
      exact ⟨rfl, rfl⟩

/-- The command ends in one way only. -/
theorem Ends.unique {w w₁ w₂ : World} {code code' : Nat} {printed printed' : List Notice}
    (h : Ends host ev settings script w code printed w₁)
    (h' : Ends host ev settings script w code' printed' w₂) :
    code = code' ∧ printed = printed' := by
  -- the command is a function of the world, so that two ways to end agree where they are decided
  cases h with
  | reported hprepare hreport =>
    cases h' with
    | reported hprepare' hreport' =>
      obtain ⟨⟨⟩, -⟩ := report_unique hprepare hreport hprepare' hreport'
      exact ⟨rfl, rfl⟩
    | named hprepare' hreport' =>
      cases (report_unique hprepare hreport hprepare' hreport').1
    | unexpected hescapes => exact (hescapes.not_reported hprepare hreport).elim
  | named hprepare hreport herror hwords =>
    cases h' with
    | reported hprepare' hreport' =>
      cases (report_unique hprepare hreport hprepare' hreport').1
    | named hprepare' hreport' herror' hwords' =>
      obtain ⟨⟨⟩, rfl⟩ := report_unique hprepare hreport hprepare' hreport'
      obtain ⟨⟨⟩, -⟩ := run_unique hwords hwords'
      exact ⟨rfl, rfl⟩
    | unexpected hescapes => exact (hescapes.not_named hprepare hreport herror hwords).elim
  | unexpected hescapes hround =>
    cases h' with
    | reported hprepare hreport => exact (hescapes.not_reported hprepare hreport).elim
    | named hprepare hreport herror hwords =>
      exact (hescapes.not_named hprepare hreport herror hwords).elim
    | unexpected hescapes' hround' =>
      obtain ⟨rfl, rfl⟩ := hescapes.unique hescapes'
      obtain ⟨-, rfl⟩ := run_unique hround hround'
      exact ⟨rfl, rfl⟩

/-! ### The line about an error of the engine -/

/-- The line holds the code and the message. -/
theorem exists_of_fatalLine {thrown : Value} {w w' : World} {t : Text}
    (h : ExceptT.run (fatalLine ev thrown) w = (.ok t, w')) :
    ∃ code message : Text, t = "[FATAL] " ++ code ++ ": " ++ message := by
  unfold fatalLine at h
  obtain ⟨_, _, -, h⟩ := bind_eq_ok h
  obtain ⟨code, _, -, h⟩ := bind_eq_ok h
  obtain ⟨_, _, -, h⟩ := bind_eq_ok h
  obtain ⟨message, _, -, h⟩ := bind_eq_ok h
  cases h
  exact ⟨code, message, rfl⟩

/-- A property that holds a text is read without any effect. -/
theorem run_property_text {thrown : Value} {w : World} {name t : Text}
    (hthrown : thrown.isNullish = false) (h : w.heap.text? thrown name = some t) :
    ExceptT.run (property ev .main thrown name) w = (.ok (.text t), w) := by
  obtain ⟨x, hx, ht⟩ := Option.bind_eq_some_iff.mp h
  obtain ⟨s, hs, hx⟩ := Option.bind_eq_some_iff.mp hx
  cases x <;> cases ht
  exact run_property hthrown hs hx

/-- An error that holds its code and its message as texts is put into these words. -/
theorem run_fatalLine (ev : Evaluator) {thrown : Value} {w : World} {code message : Text}
    (hthrown : thrown.isNullish = false) (hcode : w.heap.text? thrown "code" = some code)
    (hmessage : w.heap.text? thrown "message" = some message) :
    ExceptT.run (fatalLine ev thrown) w = (.ok ("[FATAL] " ++ code ++ ": " ++ message), w) := by
  have hwords (t : Text) : ExceptT.run (words ev .main (.text t)) w = (.ok t, w) := rfl
  unfold fatalLine
  rw [run_bind_ok (run_property_text hthrown hcode), run_bind_ok (hwords code),
    run_bind_ok (run_property_text hthrown hmessage), run_bind_ok (hwords message)]
  rfl

/-! ### The stages are discreet -/

section discreet

variable (hlogs : (Trait.discreet component).PermitsAll host.loggers)
  (hev : ev.Meets (.discreet component))

include hlogs hev

/-- Preparing the engine prints no line of a fatal error. -/
theorem prepare_discreet (settings : Settings) :
    (Trait.discreet component).holds (prepare host ev settings) := by
  have law := discreet_stable component
  have hrules := (discreet_uniform hlogs).rules
  refine law.bind (law.forM fun row _ => defineType_discreet _ _) fun _ => law.bind ?_ fun _ =>
    law.bind (subscribe_discreet _ ?_) fun _ => law.pure _
  · -- directories of modules are loaded before the engine starts
    exact law.bind (loadModuleDirs_holds (discreet_declaring component) hev defineType_discreet
      hlogs.modules _) fun _ =>
        law.bind (fun _ => .of_eq rfl rfl) fun _ => startEngine_holds hrules hev
  · intro logger hlogger
    cases hlogger
    exact hlogs.engine

/-- Neither does the report. -/
theorem report_discreet (script : Text) :
    (Trait.discreet component).holds (report host ev script) := by
  have law := discreet_stable component
  have hrules := (discreet_uniform hlogs).rules
  exact law.bind (awaiting_holds hrules hev (load_holds hrules hev _)) fun e =>
    Report.lines_holds law hev e

omit hlogs in
/-- Nor is one printed while the text of one is made. -/
theorem fatalLine_discreet (thrown : Value) :
    (Trait.discreet component).holds (fatalLine ev thrown) := by
  have law := discreet_stable component
  exact law.bind (property_holds law hev _ _ _) fun _ => law.bind (words_holds law hev _ _) fun _ =>
    law.bind (property_holds law hev _ _ _) fun _ => law.bind (words_holds law hev _ _) fun _ =>
      law.pure _

/-- A failure escapes with nothing but log entries behind it. -/
theorem Escapes.onlyLogs {w w' : World} {thrown : Value}
    (h : Escapes host ev settings script w thrown w') : World.OnlyLogs component w w' := by
  have law := World.OnlyLogs.stepwise component
  have hprepared := prepare_discreet hlogs hev settings
  have hreported := report_discreet hlogs hev script
  cases h with
  | starting hprepare => exact Keeps.of_run hprepared hprepare
  | foreign hprepare hreport herror =>
    exact law.trans (Keeps.of_run hprepared hprepare) (Keeps.of_run hreported hreport)
  | unworded hprepare hreport herror hwords =>
    have hworded := Keeps.of_run (fatalLine_discreet hev _) hwords
    exact law.trans (law.trans (Keeps.of_run hprepared hprepare) (Keeps.of_run hreported hreport))
      hworded

/-- Until it prints the end, the command leaves nothing printed but log entries. -/
theorem Ends.onlyLogs {w w' : World} {code : Nat} {printed : List Notice}
    (h : Ends host ev settings script w code printed w') : World.OnlyLogs component w w' := by
  have law := World.OnlyLogs.stepwise component
  have hprepared := prepare_discreet hlogs hev settings
  have hreported := report_discreet hlogs hev script
  cases h with
  | reported hprepare hreport =>
    exact law.trans (Keeps.of_run hprepared hprepare) (Keeps.of_run hreported hreport)
  | named hprepare hreport herror hwords =>
    have hworded := Keeps.of_run (fatalLine_discreet hev _) hwords
    exact law.trans (law.trans (Keeps.of_run hprepared hprepare) (Keeps.of_run hreported hreport))
      hworded
  | unexpected hescapes hround =>
    have hrounded := Keeps.of_run (runRound_holds (discreet_uniform hlogs).rules hev) hround
    exact law.trans (hescapes.onlyLogs hlogs hev) hrounded

end discreet

/-! ### What is printed in the end -/

/-- What the command prints itself is the report, with the exit code 0, or one line about the
failure, with the exit code 1. -/
theorem Ends.printed {w w' : World} {code : Nat} {printed : List Notice}
    (h : Ends host ev settings script w code printed w') :
    (code = 0 ∧ printed.filter Notice.isReport = printed ∧ printed.filter Notice.isFatal = []) ∨
      (code = 1 ∧ printed.filter Notice.isReport = [] ∧ printed.filter Notice.isFatal = printed ∧
        ∃ arguments, printed = [.line (.level .error) arguments]) := by
  cases h with
  | reported hprepare hreport =>
    left
    unfold report at hreport
    obtain ⟨e, _, -, hlines⟩ := bind_eq_ok hreport
    refine ⟨rfl, List.filter_eq_self.mpr fun n hn => ?_, List.filter_eq_nil_iff.mpr fun n hn => ?_⟩
    · obtain ⟨t, -, rfl⟩ := List.mem_map.mp hn
      rfl
    · obtain ⟨t, ht, rfl⟩ := List.mem_map.mp hn
      simp [isFatal_reportLine (Report.isPlainLine_of_mem_lines hlines t ht)]
  | named hprepare hreport herror hwords =>
    obtain ⟨code, message, rfl⟩ := exists_of_fatalLine hwords
    exact .inr ⟨rfl, rfl, rfl, _, rfl⟩
  | unexpected => exact .inr ⟨rfl, rfl, rfl, _, rfl⟩

end Command

end EvalPlan
