import EvalPlan.Proofs.Starting
import EvalPlan.Proofs.Telling
import Mathlib.Data.Finset.Card

/-!
# Types with several names

A class may be known by several names, and manifests tell types by their names. Default builders are
counted by the names that they are registered under, while the registry holds one mapping for each
class (`Table.length_ofRows`). So the count is that of the mappings exactly if no two of the names
denote the same class, and is greater otherwise (`World.Furnished.counts`).
-/

namespace EvalPlan

/-! ## Tables of classes -/

namespace Table

/-- No key of a table of rows is there twice. -/
theorem nodup_keys_ofRows {α β : Type} [BEq α] [LawfulBEq α] (rows : List (α × β)) :
    (putAll [] rows).keys.Nodup := by
  suffices h : ∀ t : Table α β, t.keys.Nodup → (t.putAll rows).keys.Nodup from h [] List.nodup_nil
  induction rows with
  | nil => exact fun t ht => ht
  | cons row rows ih => exact fun t ht => ih _ (nodup_keys_put ht _ _)

variable {β : Type}

/-- A table whose keys are classes keeps such keys when rows with such keys are put. -/
theorem isSome_ref?_putAll {t : Table Value β} (ht : ∀ row ∈ t, row.1.ref?.isSome = true)
    {rows : List (Value × β)} (hrows : ∀ row ∈ rows, row.1.ref?.isSome = true) :
    ∀ row ∈ t.putAll rows, row.1.ref?.isSome = true := by
  induction rows generalizing t with
  | nil => exact ht
  | cons first rows ih =>
    obtain ⟨hfirst, hrest⟩ := List.forall_mem_cons.mp hrows
    refine ih (fun row hrow => ?_) hrest
    rcases mem_put hrow with hrow | ⟨-, hkey | hkey⟩
    · exact ht row hrow
    · rwa [hkey]
    · obtain ⟨r, hr⟩ := Option.isSome_iff_exists.mp hfirst
      rw [Value.ref?_eq_some.mp hr, Value.beq_ref] at hkey
      rw [hkey]
      rfl

/-- Rows whose keys are classes make a table with one row for each class. -/
theorem length_ofRows {rows : List (Value × β)} (hrows : ∀ row ∈ rows, row.1.ref?.isSome = true) :
    (putAll [] rows).length = (rows.filterMap fun row => row.1.ref?).toFinset.card := by
  have hclasses : (classes (putAll [] rows)).length = (putAll [] rows).length :=
    List.filterMap_length_eq_length.mpr
      (isSome_ref?_putAll (fun _ h => absurd h List.not_mem_nil) hrows)
  have hsame : (classes (putAll [] rows)).toFinset =
      (rows.filterMap fun row => row.1.ref?).toFinset := by
    ext r
    rw [classes_putAll]
    simp [classes, List.removeAll]
  have hnodup : (classes (putAll [] rows)).Nodup :=
    nodup_classes_putAll (t := []) List.nodup_nil rows
  rw [← hclasses, ← hsame, List.toFinset_card_of_nodup hnodup]

end Table

/-! ## Names that builders are registered under -/

namespace World

variable {w w' : World} {texts : List Text}

/-- The class that a name denotes. -/
def classOf? (w : World) (name : Text) : Option Ref := (w.types.table.get? name).bind Value.ref?

/-- The names of types in manifests that a builder is registered under. -/
def registeredNames (w : World) (texts : List Text) : List Text :=
  ((mergeManifests texts).filter fun row => (w.pair? row).isSome).map (·.1)

/-- As many names are registered as rows of the merged manifest name pairs. -/
theorem length_registeredNames (w : World) (texts : List Text) :
    (w.registeredNames texts).length = ((mergeManifests texts).filterMap w.pair?).length := by
  rw [registeredNames, List.length_map, List.length_filterMap_eq_countP,
    List.countP_eq_length_filter]

/-- However often manifests name a type, a builder is registered under its name once. -/
theorem nodup_registeredNames (w : World) (texts : List Text) :
    (w.registeredNames texts).Nodup := by
  have hkeys : (mergeManifests texts).keys.Nodup := by
    rw [mergeManifests_eq]
    exact Table.nodup_keys_ofRows _
  exact hkeys.sublist (List.filter_sublist.map _)

/-- A name is registered if its row in the merged manifest names a pair. -/
theorem mem_registeredNames {name : Text} : name ∈ w.registeredNames texts ↔
    ∃ builder pair, (name, builder) ∈ mergeManifests texts ∧
      w.pair? (name, builder) = some pair := by
  simp [registeredNames, Option.isSome_iff_exists]

/-- None is registered if no row names a pair. -/
theorem registeredNames_eq_nil :
    w.registeredNames texts = [] ↔ ∀ row ∈ mergeManifests texts, w.pair? row = none := by
  simp [registeredNames]

/-- The first row that is registered, if there is one. -/
theorem exists_first_registered (hnames : w.registeredNames texts ≠ []) :
    ∃ before row after pair, mergeManifests texts = before ++ row :: after ∧
      (∀ row ∈ before, w.pair? row = none) ∧ w.pair? row = some pair := by
  obtain ⟨name, hname⟩ := List.exists_mem_of_ne_nil _ hnames
  obtain ⟨builder, registered, hlisted, hregistered⟩ := mem_registeredNames.mp hname
  have hfound : ((mergeManifests texts).find? fun row => (w.pair? row).isSome).isSome = true :=
    List.find?_isSome.mpr ⟨_, hlisted, by rw [hregistered]; rfl⟩
  obtain ⟨row, hrow⟩ := Option.isSome_iff_exists.mp hfound
  obtain ⟨hsome, before, after, hmerged, hbefore⟩ := List.find?_eq_some_iff_append.mp hrow
  obtain ⟨pair, hpair⟩ := Option.isSome_iff_exists.mp hsome
  exact ⟨before, row, after, pair, hmerged, fun row hmem => by simpa using hbefore row hmem, hpair⟩

/-- The mappings that rows of manifests are registered as are those of the classes that their names
denote. -/
theorem filterMap_registeredNames (w : World) (texts : List Text) :
    (w.registeredNames texts).filterMap w.classOf? =
      ((mergeManifests texts).filterMap w.pair?).filterMap fun pair => pair.1.ref? := by
  rw [registeredNames, List.filterMap_map, List.filterMap_filter, List.filterMap_filterMap]
  refine List.filterMap_congr fun row _ => ?_
  cases hrow : w.pair? row with
  | none => rfl
  | some pair =>
    obtain ⟨htype, -, -⟩ := Action.pair?_eq_some hrow
    simp [classOf?, htype]

/-- A number that counts the names which builders are registered under, and the mappings there are
then. -/
structure Counts (w w' : World) (texts : List Text) (n : Nat) : Prop where
  /-- Each name counts. -/
  names : n = (w.registeredNames texts).length
  /-- There is one mapping for each class that a name denotes. -/
  mappings : w'.mappings.length = ((w.registeredNames texts).filterMap w.classOf?).toFinset.card
  /-- There are not more mappings than are counted. -/
  le : w'.mappings.length ≤ n
  /-- There are as many as are counted exactly if no two of the names denote the same class. -/
  eq_iff : n = w'.mappings.length ↔ ∀ name ∈ w.registeredNames texts,
    ∀ name' ∈ w.registeredNames texts, w.classOf? name = w.classOf? name' → name = name'

namespace Furnished

/-- In a furnished world every type is an object. -/
theorem exists_ref (hw : w.Furnished) {name : Text} {type : Value}
    (htype : w.types.table.get? name = some type) : ∃ r, type = .ref r := by
  obtain ⟨name', -, hmem⟩ := Table.mem_of_get? htype
  have hclass : w.heap.isType type = true := hw.classes _ hmem
  cases type with
  | ref r => exact ⟨r, rfl⟩
  | _ => cases hclass

/-- A name that a builder is registered under denotes a class. -/
theorem exists_classOf? (hw : w.Furnished) {name : Text} (hname : name ∈ w.registeredNames texts) :
    ∃ r, w.classOf? name = some r := by
  obtain ⟨builder, pair, -, hpair⟩ := mem_registeredNames.mp hname
  obtain ⟨htype, -, -⟩ := Action.pair?_eq_some hpair
  obtain ⟨r, hr⟩ := hw.exists_ref htype
  exact ⟨r, by rw [classOf?, htype, hr]; rfl⟩

/-- Every name that is registered has a class. -/
theorem map_classOf? (hw : w.Furnished) (texts : List Text) :
    (w.registeredNames texts).map w.classOf? =
      ((w.registeredNames texts).filterMap w.classOf?).map some := by
  rw [List.map_filterMap_some_eq_filter_map_isSome, eq_comm, List.filter_eq_self]
  intro c hc
  obtain ⟨name, hname, rfl⟩ := List.mem_map.mp hc
  exact Option.isSome_iff_exists.mpr (hw.exists_classOf? hname)

/-- Names are counted, and a mapping is there for each class among what they denote. -/
theorem counts (hw : w.Furnished) {texts : List Text}
    (hmappings : w'.mappings = Table.putAll [] ((mergeManifests texts).filterMap w.pair?)) :
    w.Counts w' texts ((mergeManifests texts).filterMap w.pair?).length := by
  rw [← length_registeredNames]
  have hrefs : ∀ pair ∈ (mergeManifests texts).filterMap w.pair?, pair.1.ref?.isSome = true := by
    intro pair hpair
    obtain ⟨row, -, hrow⟩ := List.mem_filterMap.mp hpair
    obtain ⟨htype, -, -⟩ := Action.pair?_eq_some hrow
    obtain ⟨r, hr⟩ := hw.exists_ref htype
    rw [hr]
    rfl
  have hcard : w'.mappings.length =
      ((w.registeredNames texts).filterMap w.classOf?).toFinset.card := by
    rw [hmappings, Table.length_ofRows hrefs, filterMap_registeredNames]
  -- each of the names denotes a class, so that none is lost where the classes are listed
  have hlength : ((w.registeredNames texts).filterMap w.classOf?).length =
      (w.registeredNames texts).length := by
    rw [← List.length_map (f := some), ← hw.map_classOf?, List.length_map]
  refine ⟨rfl, hcard, ?_, ?_⟩
  · rw [hcard, ← hlength]
    exact List.toFinset_card_le _
  · calc (w.registeredNames texts).length = w'.mappings.length
        ↔ ((w.registeredNames texts).filterMap w.classOf?).Nodup := by
          rw [hcard, ← hlength, eq_comm]
          exact Multiset.toFinset_card_eq_card_iff_nodup
      _ ↔ ((w.registeredNames texts).map w.classOf?).Nodup := by
          rw [hw.map_classOf?, List.nodup_map_iff (Option.some_injective _)]
      _ ↔ _ := List.nodup_map_iff_inj_on (w.nodup_registeredNames texts)

end Furnished

end World

/-! ## Reports -/

open EvalPlan.Action (startEngine loadDefaults audience errorObject)

variable {host : Host} {w : World} {texts : List Text}

/-- What is reported of the default builders that are loaded into a registry without any. -/
structure CountsDefaults (host : Host) (ev : Evaluator) (w : World) (texts : List Text) : Prop where
  /-- Loading answers how many there are, if the listener bears what it is told. -/
  loads : host.onRegister.failure? = none ∨ w.registeredNames texts = [] →
    ∃ n w', ExceptT.run (loadDefaults host ev) w = (.ok n, w') ∧ w.Counts w' texts n
  /-- An engine that starts says so, too, to those who observe its events. -/
  starts : host.role = .engine → host.onRegister.failure? = none ∨ w.registeredNames texts = [] →
    ∃ (n : Nat) (w' : World) (event : Event) (earlier : List Notice),
      ExceptT.run (startEngine host ev) w = (.ok ⟨⟩, w') ∧ w.Counts w' texts n ∧
      event.type = "defaults:loaded" ∧ event.run = none ∧ event.data = some (loadedData n) ∧
      w'.notices = earlier ++ (audience w event).flatMap (Subscriber.leaves event)
  /-- A listener that throws keeps them from being counted. -/
  fails : ∀ message, host.onRegister.failure? = some message → w.registeredNames texts ≠ [] →
    ∃ thrown w', ExceptT.run (loadDefaults host ev) w = (.error thrown, w') ∧
      w'.heap.object? thrown = some (errorObject .general .main (some message))

/-- What is reported is how many names the default builders are registered under, which is the
number of mappings exactly if these names denote different classes. -/
theorem countsDefaults (ev : Evaluator) (hw : w.Furnished) (hempty : w.mappings = [])
    (hrole : host.onRegister = .emit → host.role = .engine)
    (hread : List.Forall₂ (fun r t => r.read w.files = .ok t)
      (w.resources.find w.files Manifest.buildersPath) texts) :
    CountsDefaults host ev w texts where
  loads hborne := by
    obtain ⟨-, w', hrun, -, hmappings, -, -⟩ := loadDefaults_settles host ev hw hrole hread
      (hborne.imp_right World.registeredNames_eq_nil.mp)
    exact ⟨_, w', hrun, hw.counts (by rw [hmappings, hempty])⟩
  starts hengine hborne := by
    obtain ⟨w', event, earlier, hrun, hmappings, htype, hevent, hdata, hnotices⟩ :=
      startEngine_settles host ev hw hengine hread
        (hborne.imp_right World.registeredNames_eq_nil.mp)
    have hcounts : w.Counts w' texts _ := hw.counts (by rw [hmappings, hempty])
    exact ⟨_, w', event, earlier, hrun, hcounts, htype, hevent, hdata, hnotices⟩
  fails message hfailure hnames := by
    obtain ⟨before, row, after, pair, hmerged, hbefore, hpair⟩ :=
      World.exists_first_registered hnames
    obtain ⟨-, w', thrown, hrun, hthrown, -⟩ :=
      @loadDefaults_failing host ev w hw hrole texts hread before after row pair message hmerged
        hbefore hpair hfailure
    exact ⟨thrown, w', hrun, hthrown⟩

/-- A manifest that names the same builder for two names. -/
def aliasTexts : List Text :=
  [("evalconf.data.DataSource=evalconf.data.CsvDataSourceBuilder\n" : Text) ++
    "plans.Source=evalconf.data.CsvDataSourceBuilder"]

/-- A world in which it is found, and in which both names denote one class. Somebody observes it. -/
def aliasWorld : World :=
  { World.listening Domain.objects with
    types := ⟨Table.put Domain.types "plans.Source" (.ref Kin.dataSource.ref), none⟩
    resources := .listed (aliasTexts.map fun t => ⟨Manifest.buildersPath, "manifest", some t⟩) }

/-- The engine that starts in it. -/
def aliasHost : Host := Host.engineWithBus Logger.recording []

/-- The world with two names of one class is furnished. -/
theorem furnished_aliasWorld : aliasWorld.Furnished where
  quiet := (World.heard_listening Domain.holdsName_objects).toQuiet.of_eq rfl rfl
  rooted := by decide +kernel
  classes := by decide +kernel
  whole := rfl

/-- Its manifests can be read. -/
theorem read_aliasTexts : List.Forall₂ (fun r t => r.read aliasWorld.files = .ok t)
    (aliasWorld.resources.find aliasWorld.files Manifest.buildersPath) aliasTexts :=
  .cons rfl .nil

/-- One subscriber hears that its defaults were loaded. -/
theorem audience_aliasWorld {event : Event} (htype : event.type = "defaults:loaded") :
    audience aliasWorld event = [⟨0, .observe⟩] := by
  rw [audience, htype]
  rfl

/-- Both names are counted. -/
theorem countsDefaults_alias : ∃ w',
    ExceptT.run (loadDefaults aliasHost (evaluator aliasHost 0)) aliasWorld = (.ok 2, w') ∧
      aliasWorld.Counts w' aliasTexts 2 := by
  have hcounts : CountsDefaults aliasHost (evaluator aliasHost 0) aliasWorld aliasTexts :=
    countsDefaults _ furnished_aliasWorld rfl (fun _ => rfl) read_aliasTexts
  obtain ⟨n, w', hrun, hcount⟩ := hcounts.loads (.inl rfl)
  have hn : n = 2 := hcount.names.trans (by decide +kernel)
  subst hn
  exact ⟨w', hrun, hcount⟩

/-- An engine that starts with two names for one class tells that two default builders were loaded,
though its registry holds one mapping. -/
theorem aliasedType_countsTwice :
    (∃ w', ExceptT.run (loadDefaults aliasHost (evaluator aliasHost 0)) aliasWorld = (.ok 2, w') ∧
      w'.mappings.length = 1) ∧
    ∃ w' earlier,
      ExceptT.run (startEngine aliasHost (evaluator aliasHost 0)) aliasWorld = (.ok ⟨⟩, w') ∧
      w'.notices = earlier ++ [.event "defaults:loaded" (some (loadedData 2)) none] ∧
      w'.mappings.length = 1 := by
  have hcount : ((mergeManifests aliasTexts).filterMap aliasWorld.pair?).length =
    2 := by decide +kernel
  have hsize : (aliasWorld.mappings.putAll
      ((mergeManifests aliasTexts).filterMap aliasWorld.pair?)).length = 1 := by decide +kernel
  obtain ⟨-, loaded, hload, -, hmappings, -⟩ :=
    loadDefaults_settles aliasHost (evaluator aliasHost 0) furnished_aliasWorld (fun _ => rfl)
      read_aliasTexts (.inl rfl)
  obtain ⟨started, event, earlier, hstart, hmappings', htype, hrun, hdata, hnotices⟩ :=
    startEngine_settles aliasHost (evaluator aliasHost 0) furnished_aliasWorld rfl read_aliasTexts
      (.inl rfl)
  rw [hcount] at hload hdata
  refine ⟨⟨loaded, hload, by rw [hmappings, hsize]⟩, started, earlier, hstart, ?_,
    by rw [hmappings', hsize]⟩
  rw [hnotices, audience_aliasWorld htype]
  simp [Subscriber.leaves, htype, hrun, hdata]

end EvalPlan
