import EvalPlan.Proofs.Ending
import EvalPlan.Proofs.Settings

/-!
# What the command prints in the end

`printsWholly`: either the exit code is 0 and the lines of the report of the run are printed, all of
them in order, and no line about a failure; or it is 1, and exactly one line about the failure is
printed and no line of the report.

`namesFailures`: an error of the engine that the run or its report ends with is printed by its code
and message. A failure of starting the engine is printed as unexpected, also where it is an error of
the engine, such as a manifest of defaults that cannot be read (`unreadableDefaults_unnamed`).
-/

namespace EvalPlan

open EvalPlan.Action

namespace Command

/-! ## The whole command -/

/-- The world that the command begins with over some files. -/
def opening (files : Files) : World := { World.initial Domain.heap with files }

/-- What the command goes on with once it is configured. -/
structure Setup (read : Text → Option Json) (files : Files) (invocation : Invocation) where
  /-- The settings. -/
  settings : Settings
  /-- What is logged. -/
  threshold : Threshold
  /-- The world that configuring leaves. -/
  world : World
  /-- Configuring the command answers these. -/
  configured : ExceptT.run (configure read early invocation) (opening files) =
    (.ok (settings, Logger.console component threshold), world)

namespace Setup

variable {read : Text → Option Json} {files : Files} {invocation : Invocation}
  (s : Setup read files invocation)

/-- The engine of the command. -/
def host : Host := engine s.settings (Logger.console component s.threshold)

/-- The evaluator of the command. -/
def ev : Evaluator := s.host.evaluator

/-- The script of the command. -/
def script (_ : Setup read files invocation) : Text := invocation.script.getD defaultScript

/-- The command is configured in one way only. -/
instance : Subsingleton (Setup read files invocation) where
  allEq := by
    rintro ⟨settings, threshold, world, h⟩ ⟨settings', threshold', world', h'⟩
    rw [h] at h'
    cases h'
    rfl

/-- Every logger of the host is discreet. -/
theorem permitsAll : (Trait.discreet component).PermitsAll s.host.loggers := by
  have hsink (l : Logger) (h : l.sink = .console component s.threshold) :
      (Trait.discreet component).Permits l.sink := by
    intro other threshold heq
    rw [h] at heq
    cases heq
    rfl
  exact ⟨hsink _ rfl, hsink _ rfl, hsink _ rfl, hsink _ rfl, hsink _ rfl, hsink _ rfl⟩

/-- So is whatever a script does that the host runs. -/
theorem meets : s.ev.Meets (.discreet component) := evaluator_discreet s.permitsAll _

end Setup

/-- What a logger leaves that writes for a component are log entries of the component. -/
theorem ofLog_of_mem_leaves {l : Logger} (h : l.sink.WritesFor component) {level : Level}
    {message : Text} {data : Option Portrait} {n : Notice} (hn : n ∈ l.leaves level message data) :
    n.OfLog component := by
  unfold Logger.leaves Sink.leaves at hn
  split at hn
  · rw [List.mem_singleton.mp hn]
    exact .inl rfl
  next other threshold hsink =>
    split at hn
    · rw [List.mem_singleton.mp hn, h other threshold hsink]
      exact .inr ⟨level, _, _, rfl⟩
    · cases hn

section configuring

variable (read : Text → Option Json) (files : Files) (invocation : Invocation)

/-- The logger that there is before the settings are known. -/
def boot : Logger := Logger.printing component

/-- The logger of the program writes for the component of the program. -/
theorem boot_writesFor : boot.sink.WritesFor component := by
  intro other threshold heq
  cases heq
  rfl

/-- It works in every heap. -/
theorem boot_works (h : Heap) : boot.Works h := fun hreach => absurd rfl hreach

/-- A level is always chosen, and what is said about it is logged. -/
theorem exists_run_chooseThreshold (configured : Threshold) (given : Option Text) (w : World) :
    ∃ threshold notices, ExceptT.run (chooseThreshold early boot configured given) w =
      (.ok threshold, w.noting notices) ∧ ∀ n ∈ notices, n.OfLog component := by
  have hnothing : w = w.noting [] := by simp [World.noting]
  unfold chooseThreshold
  split
  · exact ⟨configured, [], by rw [← hnothing]; rfl, List.forall_mem_nil _⟩
  · split
    next threshold _ => exact ⟨threshold, [], by rw [← hnothing]; rfl, List.forall_mem_nil _⟩
    · rw [run_bind_ok (run_log_works early (boot_works w.heap) _ _ _)]
      exact ⟨configured, _, rfl, fun n hn => ofLog_of_mem_leaves boot_writesFor hn⟩

/-- The command is always configured, with nothing but log entries printed. -/
theorem exists_setup : ∃ s : Setup read files invocation,
    ∃ notices, s.world = (opening files).noting notices ∧ ∀ n ∈ notices, n.OfLog component := by
  have hload : ∃ settings notices, ExceptT.run
      (loadSettings read early boot (invocation.config.getD defaultConfig)) (opening files) =
        (.ok settings, (opening files).noting notices) ∧ ∀ n ∈ notices, n.OfLog component := by
    rw [run_loadSettings read early boot _ (boot_works _)]
    split
    next settings _ => exact ⟨settings, [], by simp [World.noting], nofun⟩
    · exact ⟨_, _, rfl, fun n hn => ofLog_of_mem_leaves boot_writesFor hn⟩
  obtain ⟨settings, notices, hload, hnotices⟩ := hload
  obtain ⟨threshold, notices', hchoose, hnotices'⟩ :=
    exists_run_chooseThreshold settings.threshold invocation.level ((opening files).noting notices)
  have hconfigured : ExceptT.run (configure read early invocation) (opening files) =
      (.ok (settings, Logger.console component threshold),
        ((opening files).noting notices).noting notices') := by
    unfold configure
    exact (run_bind_ok hload).trans (run_bind_ok hchoose)
  refine ⟨⟨settings, threshold, _, hconfigured⟩, notices ++ notices', ?_, fun n hn => ?_⟩
  · simp [World.noting]
  · exact (List.mem_append.mp hn).elim (hnotices n) (hnotices' n)

end configuring

/-! ### What is printed -/

section outcome

variable (read : Text → Option Json) (files : Files) (invocation : Invocation)

/-- The run of the script comes out, and its report has these lines. -/
def Reports (lines : List Text) : Prop :=
  ∃ (s : Setup read files invocation) (started loaded worded : World) (e : Environment),
    ExceptT.run (prepare s.host s.ev s.settings) s.world = (.ok ⟨⟩, started) ∧
    ExceptT.run (awaiting s.ev (load s.host s.ev (.file s.script)))
      started = (.ok e, loaded) ∧
    ExceptT.run (Report.lines s.ev e) loaded = (.ok lines, worded)

/-- The command ends in one of the three ways, and what it prints itself stands between log entries
then. -/
theorem mainBy_ends : ∃ (s : Setup read files invocation) (code : Nat) (printed : List Notice)
    (ended : World) (before after : List Notice),
    Ends s.host s.ev s.settings s.script s.world code printed ended ∧
    mainBy read files invocation = (code, before ++ printed ++ after) ∧
    (∀ n ∈ before, n.OfLog component) ∧ ∀ n ∈ after, n.OfLog component := by
  obtain ⟨s, first, hworld, hfirst⟩ := exists_setup read files invocation
  obtain ⟨code, printed, ended, hends, hrun⟩ := start_ends s.host s.ev s.settings s.script s.world
  obtain ⟨settled, hsettle⟩ := exists_run_settle s.ev (ended.noting printed)
  -- nobody is subscribed yet where the command begins
  have hlogs : s.world.LogsFor component := by
    rw [hworld]
    intro c sub hsub
    have hempty : (Bus.empty : Bus Subscriber).channel c = [] := rfl
    rw [show ((opening files).noting first).bus = Bus.empty from rfl, hempty] at hsub
    cases hsub
  obtain ⟨hlogs₁, logged, hlogged, hall⟩ := hends.onlyLogs s.permitsAll s.meets hlogs
  -- what the continuations print in the end are log entries, too
  have hdrained := settle_holds (discreet_uniform s.permitsAll).rules s.meets
  have hlogs₂ : (ended.noting printed).LogsFor component := hlogs₁.of_eq rfl
  obtain ⟨-, after, hafter, hall'⟩ := Keeps.of_run hdrained hsettle hlogs₂
  have hmain : ExceptT.run (run read invocation) (opening files) = (.ok code, settled) := by
    unfold run
    rw [run_bind_ok s.configured]
    exact (run_bind_ok hrun).trans (run_bind_ok hsettle)
  refine ⟨s, code, printed, ended, s.world.notices ++ logged, after, hends, ?_, ?_, hall'⟩
  · unfold opening at hmain
    unfold mainBy
    dsimp only at hmain ⊢
    rw [hmain]
    show (code, settled.notices) = _
    rw [hafter]
    show (code, (ended.notices ++ printed) ++ after) = _
    rw [hlogged]
  · intro n hn
    rcases List.mem_append.mp hn with hn | hn
    · rw [hworld] at hn
      exact hfirst n hn
    · exact hall n hn

end outcome

/-- Between log entries, lines of the report and about failures are found as they stand there. -/
theorem filter_between {before after : List Notice} (hbefore : ∀ n ∈ before, n.OfLog component)
    (hafter : ∀ n ∈ after, n.OfLog component) (printed : List Notice) :
    (before ++ printed ++ after).filter Notice.isReport = printed.filter Notice.isReport ∧
      (before ++ printed ++ after).filter Notice.isFatal = printed.filter Notice.isFatal := by
  have ⟨hreport, hfatal⟩ := Notice.filter_ofLog hbefore
  have ⟨hreport', hfatal'⟩ := Notice.filter_ofLog hafter
  simp [List.filter_append, hreport, hfatal, hreport', hfatal']

/-- Either the exit code is 0, the lines of the report of the run are printed, all of them in order,
and no line about a failure; or there is no such report, the exit code is 1, no line of a report is
printed, and exactly one line about the failure is. In the second case one of the stages of the
command failed. -/
theorem printsWholly (read : Text → Option Json) (files : Files) (invocation : Invocation) :
    (∃ lines, Reports read files invocation lines ∧
      (mainBy read files invocation).1 = 0 ∧
      (mainBy read files invocation).2.filter Notice.isReport = lines.map reportLine ∧
      (mainBy read files invocation).2.filter Notice.isFatal = []) ∨
    ((∀ lines, ¬ Reports read files invocation lines) ∧
      (mainBy read files invocation).1 = 1 ∧
      (mainBy read files invocation).2.filter Notice.isReport = [] ∧
      (∃ arguments, (mainBy read files invocation).2.filter Notice.isFatal =
        [.line (.level .error) arguments]) ∧
      ∃ (s : Setup read files invocation) (thrown : Value) (w : World),
        FallsShort s.host s.ev s.settings s.script s.world thrown w) := by
  obtain ⟨s, code, printed, ended, before, after, hends, hmain, hbefore, hafter⟩ :=
    mainBy_ends read files invocation
  obtain ⟨hreport, hfatal⟩ := filter_between hbefore hafter printed
  rw [hmain]
  simp only [hreport, hfatal]
  rcases hends.printed with ⟨rfl, hlines, hnone⟩ | ⟨rfl, hnone, hline, arguments, heq⟩
  · left
    cases hends with
    | reported hprepare hrun =>
      unfold report at hrun
      obtain ⟨e, w₁, hload, hwords⟩ := bind_eq_ok hrun
      exact ⟨_, ⟨s, _, w₁, _, e, hprepare, hload, hwords⟩, rfl, hlines, hnone⟩
  · right
    refine ⟨?_, rfl, hnone, ⟨arguments, hline.trans heq⟩, s, hends.fallsShort⟩
    rintro lines ⟨s', w₁, w₂, w₃, e, hprepare, hload, hwords⟩
    obtain rfl := Subsingleton.elim s' s
    have hrun : ExceptT.run (report s'.host s'.ev s'.script) w₁ = (.ok lines, w₃) := by
      unfold report
      rw [run_bind_ok hload, hwords]
    -- a report that comes out is printed, with another exit code
    have hcode := (hends.unique (.reported hprepare hrun)).1
    cases hcode

/-! ### Which failures are named -/

section failures

variable {read : Text → Option Json} {files : Files} {invocation : Invocation}

/-- The command fails, and one line says of what. -/
def Fails (read : Text → Option Json) (files : Files) (invocation : Invocation) (n : Notice) :
    Prop :=
  (mainBy read files invocation).1 = 1 ∧
    (mainBy read files invocation).2.filter Notice.isFatal = [n]

/-- Which failures are printed by their code and message, and which as unexpected. -/
structure NamesFailures (s : Setup read files invocation) : Prop where
  /-- An error of the engine that the run or its report ends with is printed by its code and its
  message. -/
  named : ∀ {started thrown failed code message},
    ExceptT.run (prepare s.host s.ev s.settings) s.world = (.ok ⟨⟩, started) →
    ExceptT.run (report s.host s.ev s.script) started = (.error thrown, failed) →
    isEngineError failed.heap thrown = true → failed.heap.text? thrown "code" = some code →
    failed.heap.text? thrown "message" = some message →
    Fails read files invocation (namedLine ("[FATAL] " ++ code ++ ": " ++ message))
  /-- If its code or its message is no text, they are put into text. -/
  worded : ∀ {started thrown failed t worded},
    ExceptT.run (prepare s.host s.ev s.settings) s.world = (.ok ⟨⟩, started) →
    ExceptT.run (report s.host s.ev s.script) started = (.error thrown, failed) →
    isEngineError failed.heap thrown = true →
    ExceptT.run (fatalLine s.ev thrown) failed = (.ok t, worded) →
    Fails read files invocation (namedLine t)
  /-- What escapes is printed as unexpected: whatever keeps the engine from starting, what is no
  error of the engine, and what is thrown instead of such an error's words. -/
  unexpected : ∀ {thrown w}, Escapes s.host s.ev s.settings s.script s.world thrown w →
    ∃ h, Fails read files invocation (unexpectedLine h thrown)
  /-- There are no other failures. -/
  others : (mainBy read files invocation).1 = 0 ∨
    (∃ started thrown failed t worded,
      ExceptT.run (prepare s.host s.ev s.settings) s.world = (.ok ⟨⟩, started) ∧
      ExceptT.run (report s.host s.ev s.script) started = (.error thrown, failed) ∧
      isEngineError failed.heap thrown = true ∧
      ExceptT.run (fatalLine s.ev thrown) failed = (.ok t, worded)) ∨
    ∃ thrown w, Escapes s.host s.ev s.settings s.script s.world thrown w

/-- However the command ends otherwise than with a report, its line about the failure is printed. -/
theorem Ends.fails {s : Setup read files invocation} {n : Notice} {w : World}
    (h : Ends s.host s.ev s.settings s.script s.world 1 [n] w) : Fails read files invocation n := by
  obtain ⟨s', code, printed, ended, before, after, hends, hmain, hbefore, hafter⟩ :=
    mainBy_ends read files invocation
  obtain rfl := Subsingleton.elim s' s
  obtain ⟨rfl, rfl⟩ := hends.unique h
  have hfatal : [n].filter Notice.isFatal = [n] := by
    rcases h.printed with ⟨hcode, -⟩ | ⟨-, -, hfatal, -⟩
    · cases hcode
    · exact hfatal
  unfold Fails
  rw [hmain]
  exact ⟨rfl, (filter_between hbefore hafter [n]).2.trans hfatal⟩

/-- Whatever is read, failures are named as they should be. -/
theorem namesFailures (read : Text → Option Json) (files : Files) (invocation : Invocation) :
    ∃ s : Setup read files invocation, NamesFailures s := by
  obtain ⟨s, code, printed, ended, before, after, hends, hmain, -, -⟩ :=
    mainBy_ends read files invocation
  refine ⟨s, ?named, ?worded, ?unexpected, ?others⟩
  case named =>
    intro started thrown failed code message hprepare hreport herror hcode hmessage
    have hobject : thrown.isNullish = false := by
      -- null and undefined inherit nothing
      cases thrown <;> first | rfl | cases herror
    exact Ends.fails (.named hprepare hreport herror (run_fatalLine s.ev hobject hcode hmessage))
  case worded =>
    intro started thrown failed t worded hprepare hreport herror hwords
    exact Ends.fails (.named hprepare hreport herror hwords)
  case unexpected =>
    intro thrown w hescapes
    obtain ⟨w', hround⟩ := exists_run_runRound s.ev w
    exact ⟨w'.heap, Ends.fails (.unexpected hescapes hround)⟩
  case others =>
    rw [hmain]
    cases hends with
    | reported => exact .inl rfl
    | named hprepare hreport herror hwords =>
      exact .inr (.inl ⟨_, _, _, _, _, hprepare, hreport, herror, hwords⟩)
    | unexpected hescapes => exact .inr (.inr ⟨_, _, hescapes⟩)

/-- Every error of the engine that the command fails with is printed by its code and message, at
whichever stage it is raised. -/
def NamesEngineErrors (read : Text → Option Json) (files : Files) (invocation : Invocation) :
    Prop :=
  ∀ (s : Setup read files invocation) {thrown : Value} {failed : World} {code message : Text},
    ExceptT.run (do prepare s.host s.ev s.settings; report s.host s.ev s.script) s.world =
      (.error thrown, failed) →
    isEngineError failed.heap thrown = true → failed.heap.text? thrown "code" = some code →
    failed.heap.text? thrown "message" = some message →
    Fails read files invocation (namedLine ("[FATAL] " ++ code ++ ": " ++ message))

end failures

/-! ### An error of the engine that is not named -/

/-- The manifest of the default builders. -/
def sealedManifest : Text := "/app/resources/eval-config/builders.properties"

/-- The manifest may not be read, and there is nothing else. -/
def sealedFiles : Files := { nodes := [(sealedManifest, .sealed)], cwd := "/" }

/-- The settings that hold there. -/
def sealedSettings : Settings := Settings.default (Settings.baseDir sealedFiles defaultConfig)

/-- The world once the command is configured there. -/
def sealedWorld : World :=
  (opening sealedFiles).noting (fallbackWarning boot defaultConfig (opening sealedFiles).heap
    (.notFound defaultConfig))

/-- There is no settings file, so that none is read. -/
theorem loadBy_sealedFiles (read : Text → Option Json) :
    Settings.loadBy read sealedFiles defaultConfig = .error (.notFound defaultConfig) := by
  have hmissing : sealedFiles.contains defaultConfig = false := by decide +kernel
  unfold Settings.loadBy
  rw [hmissing]
  rfl

/-- The engine of the command there. -/
def sealedHost : Host := engine sealedSettings (Logger.console component sealedSettings.threshold)

/-- The command is configured with the defaults there, however settings are read. -/
def sealedSetup (read : Text → Option Json) : Setup read sealedFiles ⟨none, none, none⟩ where
  settings := sealedSettings
  threshold := sealedSettings.threshold
  world := sealedWorld
  configured := by
    have hload : ExceptT.run (loadSettings read early boot defaultConfig) (opening sealedFiles) =
        (.ok sealedSettings, sealedWorld) := by
      rw [run_loadSettings read early boot _ (boot_works _),
        show (opening sealedFiles).files = sealedFiles from rfl, loadBy_sealedFiles]
      rfl
    unfold configure
    exact run_bind_ok hload

/-- The code and the message of the error of the engine that something ends with. -/
def raised? {α : Type} : Except Value α × World → Option (Text × Text)
  | (.error thrown, w) =>
    if isEngineError w.heap thrown then
      match w.heap.text? thrown "code", w.heap.text? thrown "message" with
      | some code, some message => some (code, message)
      | _, _ => none
    else none
  | (.ok _, _) => none

/-- A test tells what error of the engine was raised. -/
theorem exists_of_raised? {α : Type} {act : Action α} {w : World} {code message : Text}
    (h : raised? (ExceptT.run act w) = some (code, message)) :
    ∃ thrown w', ExceptT.run act w = (.error thrown, w') ∧ isEngineError w'.heap thrown = true ∧
      w'.heap.text? thrown "code" = some code ∧ w'.heap.text? thrown "message" = some message := by
  rcases hrun : ExceptT.run act w with ⟨thrown | _, w'⟩
  · rw [hrun] at h
    simp only [raised?] at h
    split at h
    next herror =>
      split at h
      next hcode hmessage =>
        cases h
        exact ⟨thrown, w', rfl, herror, hcode, hmessage⟩
      · cases h
    · cases h
  · rw [hrun] at h
    cases h

/-- What keeps the engine from starting is an error of the engine, with a code and a message. -/
theorem raised?_sealed :
    raised? (ExceptT.run (prepare sealedHost sealedHost.evaluator sealedSettings) sealedWorld) =
      some (("IO_ERROR" : Text), "cannot read " ++ sealedManifest ++
        ": EACCES: permission denied, open '" ++ sealedManifest ++ "'") := by
  decide +kernel

/-- The manifest keeps the engine from starting, and the error is printed as unexpected, however
settings are read. -/
theorem unreadableDefaults_unnamed :
    ¬ ∃ read : Text → Option Json, NamesEngineErrors read sealedFiles ⟨none, none, none⟩ := by
  rintro ⟨read, h⟩
  obtain ⟨thrown, w, hprepare, herror, hcode, hmessage⟩ := exists_of_raised? raised?_sealed
  have hnamed := h (sealedSetup read) (run_bind_error hprepare) herror hcode hmessage
  obtain ⟨w', hround⟩ := exists_run_runRound sealedHost.evaluator w
  have hunexpected := Ends.fails (s := sealedSetup read) (.unexpected (.starting hprepare) hround)
  -- the one line has another number of arguments than the other
  have hlines := List.head_eq_of_cons_eq (hnamed.2.symm.trans hunexpected.2)
  injection hlines with _ harguments
  injection harguments with _ hrest
  cases hrest

end Command

end EvalPlan
