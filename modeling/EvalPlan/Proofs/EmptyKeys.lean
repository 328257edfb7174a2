import EvalPlan.Proofs.Settings

/-!
# Empty keys of a settings file

A key that stands in a settings file without a value holds null. `Settings.Empties` relates a
mapping with such a key to one that leaves the key out and is otherwise the same. The readers of the
lists take null for left out (`present?`), so that for their keys both mappings stand for the same
settings or are refused for the same reason (`ofJson_eq_of_empties`). The reader of the log level
does not: null is no name of a level, and the file is refused whatever else it holds
(`ofJson_of_empties_level`). `Command.loadSettings_emptied` says what the command makes of either.
-/

namespace EvalPlan

namespace Settings

/-- The first mapping holds null under a key that the second one leaves out. Otherwise they hold the
same. -/
structure Empties (key : Text) (raw raw' : Json) : Prop where
  /-- The first one is a mapping. -/
  mapping : ∃ ms, raw = .object ms
  /-- So is the second one. -/
  mapping' : ∃ ms, raw' = .object ms
  /-- The key is empty. -/
  empty : raw.get? key = some .null
  /-- The key is left out. -/
  omitted : raw'.get? key = none
  /-- All other keys hold the same. -/
  others : ∀ k ≠ key, raw.get? k = raw'.get? k

/-- Wherever the key stands in a mapping, leaving it out is all that it takes. -/
theorem empties_erased {key : Text} {before after : List (Text × Json)}
    (hbefore : before.lookup key = none) (hafter : after.lookup key = none) :
    Empties key (.object (before ++ (key, .null) :: after)) (.object (before ++ after)) where
  mapping := ⟨_, rfl⟩
  mapping' := ⟨_, rfl⟩
  empty := by simp [Json.get?, List.lookup_append, hbefore]
  omitted := by simp [Json.get?, List.lookup_append, hbefore, hafter]
  others := fun k hk => by simp [Json.get?, List.lookup_append, List.lookup_cons,
    beq_false_of_ne hk]

/-! ### Why the other keys are refused -/

/-- If two steps fail together, one of them does. -/
theorem bind_eq_error {ε α β : Type} {x : Except ε α} {f : α → Except ε β} {e : ε}
    (h : x >>= f = .error e) : x = .error e ∨ ∃ a, x = .ok a ∧ f a = .error e := by
  cases x with
  | error e' => exact .inl (Except.error.inj h ▸ rfl)
  | ok a => exact .inr ⟨a, rfl, h⟩

/-- Texts that cannot be read fail with the key they are under. -/
theorem readTexts_eq_error {raw : Json} {key : Text} {fault : Fault}
    (h : readTexts raw key = .error fault) : fault = .notTexts key := by
  unfold readTexts at h
  split at h
  · cases h
  · split at h <;> cases h
    rfl
  · cases h
    rfl

/-- No directory fails as a level does. -/
theorem readModuleDir_ne_unknownLevel (dir : Text) (index : Nat) (entry : Json) (given : Text) :
    readModuleDir dir index entry ≠ .error (.unknownLevel given) := by
  intro h
  unfold readModuleDir at h
  split at h
  · cases h
  · split at h
    · cases h
    · split at h <;> cases h

/-- No list of directories does, by induction on the entries. -/
theorem readModuleDirsFrom_ne_unknownLevel (dir : Text) (index : Nat) (entries : List Json)
    (given : Text) : readModuleDirsFrom dir index entries ≠ .error (.unknownLevel given) := by
  induction entries generalizing index with
  | nil => nofun
  | cons entry rest ih =>
    intro h
    rcases bind_eq_error h with hentry | ⟨d, -, h⟩
    · exact readModuleDir_ne_unknownLevel dir index entry given hentry
    · rcases bind_eq_error h with hrest | ⟨ds, -, h⟩
      · exact ih (index + 1) hrest
      · cases h

/-- Neither do directories that may be left out. -/
theorem readModuleDirs_ne_unknownLevel (dir : Text) (raw : Json) (given : Text) :
    readModuleDirs dir raw ≠ .error (.unknownLevel given) := by
  intro h
  unfold readModuleDirs at h
  split at h
  · cases h
  · exact readModuleDirsFrom_ne_unknownLevel dir 0 _ given h
  · cases h

/-! ### What emptying a key changes -/

section empties

variable {key : Text} {raw raw' : Json} (h : Empties key raw raw') (dir : Text)

include h

/-- For what takes null for left out, both mappings hold the same under every key. -/
theorem present?_of_empties (k : Text) : present? raw k = present? raw' k := by
  unfold present?
  by_cases hk : k = key
  · rw [hk, h.empty, h.omitted]
  · rw [h.others k hk]

/-- Texts are read alike under a key that is left out and under one that is empty. -/
theorem readTexts_of_empties (k : Text) : readTexts raw k = readTexts raw' k := by
  unfold readTexts
  rw [present?_of_empties h]

/-- So are directories. -/
theorem readModuleDirs_of_empties : readModuleDirs dir raw = readModuleDirs dir raw' := by
  unfold readModuleDirs
  rw [present?_of_empties h]

/-- The level is read alike, if the key that is emptied is not its own. -/
theorem readThreshold_of_empties (hkey : key ≠ "logLevel") (fallback : Threshold) :
    readThreshold raw fallback = readThreshold raw' fallback := by
  unfold readThreshold
  rw [h.others _ hkey.symm]

/-- An empty key other than the log level is one that is left out. -/
theorem ofJson_eq_of_empties (hkey : key ≠ "logLevel") : ofJson dir raw = ofJson dir raw' := by
  obtain ⟨ms, rfl⟩ := h.mapping
  obtain ⟨ms', rfl⟩ := h.mapping'
  simp only [ofJson, readThreshold_of_empties h hkey, readTexts_of_empties h,
    readModuleDirs_of_empties h]

/-- An empty log level refuses the mapping, whatever it holds under other keys. -/
theorem ofJson_of_empties_level (hkey : key = "logLevel") :
    ofJson dir raw = .error (.unknownLevel "null") := by
  subst hkey
  obtain ⟨ms, rfl⟩ := h.mapping
  -- the level is read before the lists, so that whatever they hold does not matter
  have hlevel (fallback : Threshold) :
      readThreshold (.object ms) fallback = .error (.unknownLevel "null") := by
    unfold readThreshold
    rw [h.empty]
    rfl
  simp only [ofJson, hlevel]
  rfl

/-- A mapping that leaves the log level out is not refused for its level. -/
theorem ofJson_ne_of_empties_level (hkey : key = "logLevel") (given : Text) :
    ofJson dir raw' ≠ .error (.unknownLevel given) := by
  subst hkey
  obtain ⟨ms', rfl⟩ := h.mapping'
  have hlevel (fallback : Threshold) : readThreshold (.object ms') fallback = .ok fallback := by
    unfold readThreshold
    rw [h.omitted]
  intro hrefused
  -- one of the other three readers would have refused it
  rcases bind_eq_error hrefused with hrefused | ⟨_, -, hrefused⟩
  · rw [hlevel] at hrefused
    cases hrefused
  rcases bind_eq_error hrefused with hroots | ⟨_, -, hrefused⟩
  · cases readTexts_eq_error hroots
  rcases bind_eq_error hrefused with hdirs | ⟨_, -, hrefused⟩
  · exact readModuleDirs_ne_unknownLevel dir _ given hdirs
  rcases bind_eq_error hrefused with himports | ⟨_, -, hrefused⟩
  · cases readTexts_eq_error himports
  · cases hrefused

/-- Only an empty log level is told apart from one that is left out. -/
theorem ofJson_eq_iff_of_empties : ofJson dir raw = ofJson dir raw' ↔ key ≠ "logLevel" := by
  constructor
  · intro heq hkey
    rw [ofJson_of_empties_level h dir hkey] at heq
    exact ofJson_ne_of_empties_level h dir hkey _ heq.symm
  · exact ofJson_eq_of_empties h dir

end empties

/-! ### Loading the file -/

/-- What a settings file holds: the value of its text. -/
def Holds (read : Text → Option Json) (files : Files) (path : Text) (raw : Json) : Prop :=
  ∃ text, files.readText path = .ok text ∧ read text = some raw

/-- A file that holds settings is read as these. -/
theorem loadBy_of_holds {read : Text → Option Json} {files : Files} {path : Text} {raw : Json}
    (h : Holds read files path raw) :
    loadBy read files path = ofJson (baseDir files path) raw := by
  obtain ⟨text, htext, hread⟩ := h
  obtain ⟨node, hnode, -⟩ := Files.readText_eq_ok_iff.mp htext
  unfold loadBy
  rw [Files.contains_of_read hnode, htext]
  simp only [Bool.not_true, Bool.false_eq_true, if_false, hread]

end Settings

namespace Command

open EvalPlan.Action Settings

/-- What becomes of a settings file whose key is empty in one world and left out in the other
one. -/
structure TakesEmpty (read : Text → Option Json) (ev : Evaluator) (boot : Logger) (path key : Text)
    (w w' : World) : Prop where
  /-- Loading gives the same settings or refuses for the same reason, exactly if the key is not the
  log level. -/
  loads : loadBy read w.files path = loadBy read w'.files path ↔ key ≠ "logLevel"
  /-- The command goes on with the same settings then, after the same notices. -/
  goesOn : key ≠ "logLevel" → ∃ settings notices,
    ExceptT.run (loadSettings read ev boot path) w = (.ok settings, w.noting notices) ∧
      ExceptT.run (loadSettings read ev boot path) w' = (.ok settings, w'.noting notices)
  /-- An empty log level is refused as an unknown one, and the defaults take the place of whatever
  other keys hold, after a warning. -/
  discards : key = "logLevel" →
    loadBy read w.files path = .error (.unknownLevel "null") ∧
      ExceptT.run (loadSettings read ev boot path) w =
        (.ok (Settings.default (baseDir w.files path)),
          w.noting (fallbackWarning boot path w.heap (.unknownLevel "null")))

/-- An empty key is one that is left out, save the log level, which discards the other settings. -/
theorem loadSettings_emptied (read : Text → Option Json) (ev : Evaluator) (boot : Logger)
    (path key : Text) {w w' : World} {raw raw' : Json} (works : boot.Works w.heap)
    (heap : w'.heap = w.heap) (cwd : w'.files.cwd = w.files.cwd)
    (holds : Holds read w.files path raw) (holds' : Holds read w'.files path raw')
    (empties : Empties key raw raw') : TakesEmpty read ev boot path key w w' := by
  have hload := loadBy_of_holds holds
  have hload' := loadBy_of_holds holds'
  have hdir : baseDir w'.files path = baseDir w.files path := by
    unfold baseDir Files.absolute
    rw [cwd]
  rw [hdir] at hload'
  have hrun := run_loadSettings read ev boot path works
  have hrun' := run_loadSettings read ev boot path (heap ▸ works)
  -- the same settings by the file with the key and by the file without it; then each of the two
  -- cases
  refine ⟨?_, fun hkey => ?_, fun hkey => ?_⟩
  · rw [hload, hload']
    exact ofJson_eq_iff_of_empties empties _
  · have heq := ofJson_eq_of_empties empties (baseDir w.files path) hkey
    rw [hload, heq] at hrun
    rw [hload', hdir, heap] at hrun'
    cases hraw' : ofJson (baseDir w.files path) raw' with
    | ok settings =>
      rw [hraw'] at hrun hrun'
      refine ⟨settings, [], ?_, ?_⟩
      · rw [World.noting, List.append_nil]
        exact hrun
      · rw [World.noting, List.append_nil]
        exact hrun'
    | error fault =>
      rw [hraw'] at hrun hrun'
      exact ⟨_, _, hrun, hrun'⟩
  · have hlevel := ofJson_of_empties_level empties (baseDir w.files path) hkey
    rw [hload, hlevel] at hrun
    exact ⟨hload.trans hlevel, hrun⟩

/-! ### A file whose log level is empty -/

/-- The text of a settings file with an empty log level. -/
def levellessText : Text := "logLevel:\nimports: [lab.tasks]"

/-- The text of the file without the key. -/
def plainText : Text := "imports: [lab.tasks]"

/-- What the file with the empty log level holds. -/
def levelless : Json := .object [("logLevel", .null), ("imports", .list [.text "lab.tasks"])]

/-- What the file without the key holds. -/
def plainSettings : Json := .object [("imports", .list [.text "lab.tasks"])]

/-- What the two texts hold. -/
def levellessReading (text : Text) : Option Json :=
  if text = levellessText then some levelless else some plainSettings

/-- A world with one settings file. -/
def configuredWorld (text : Text) : World :=
  { World.initial Domain.heap with
    files := { nodes := [("/srv/config/engine.yml", .text text)], cwd := "/home" } }

/-- The second file leaves out what is empty in the first one. -/
theorem empties_levelless : Empties "logLevel" levelless plainSettings :=
  show Empties "logLevel" (.object ([] ++ _)) (.object ([] ++ _)) from empties_erased rfl rfl

/-- Both worlds can be compared. -/
theorem loadSettings_emptied_levelless :
    Empties "logLevel" levelless plainSettings ∧
      TakesEmpty levellessReading early (Logger.printing component) "/srv/config/engine.yml"
        "logLevel"
        (configuredWorld levellessText) (configuredWorld plainText) :=
  ⟨empties_levelless,
    loadSettings_emptied levellessReading early (Logger.printing component) "/srv/config/engine.yml"
      "logLevel" (fun h => absurd rfl h) rfl rfl ⟨levellessText, rfl, rfl⟩ ⟨plainText, rfl, rfl⟩
      empties_levelless⟩

/-- The empty log level discards the namespace that the file names. -/
theorem levelless_discards :
    ¬ ∀ key ∈ (["logLevel", "resourceRoots", "moduleDirs", "imports"] : List Text),
      ∀ dir raw raw', Empties key raw raw' → ofJson dir raw = ofJson dir raw' := by
  intro h
  have heq := h "logLevel" (by decide) "/srv/config" levelless plainSettings empties_levelless
  have hrefused : ofJson "/srv/config" levelless = .error (.unknownLevel "null") := rfl
  have hread : ofJson "/srv/config" plainSettings =
      .ok ⟨.from .info, ["/srv/resources"], [], ["lab.tasks"]⟩ := rfl
  rw [hrefused, hread] at heq
  cases heq

end Command

end EvalPlan
