import EvalPlan.Command
import EvalPlan.Proofs.Paths
import EvalPlan.Proofs.Quiet

/-!
# Settings that are taken as a whole

A settings file is taken as a whole or not at all. `Settings.Configures` says key by key what
settings a parsed value stands for; `ofJson_eq_ok_iff` says that reading answers exactly these, so
that one item of a wrong shape, however deep in a list, refuses the file. All paths that are
answered start at the root and are in their shortest form, and they start from the directory of the
file (`resolve_relative`): for an absolute path of the file, the working directory plays no part
(`loadBy_moved`).

The main statement `loadSettings_wholly` adds that the command never fails here: it goes on with
the settings of the file without a word, or with the defaults after one warning. What a text holds
as YAML is a parameter throughout.
-/

namespace EvalPlan

open EvalPlan.Path (segments ofSegments clean)

/-! ## Paths in their shortest form -/

namespace Path

/-- The path starts at the root and is in its shortest form. -/
def IsNormal (p : Text) : Prop :=
  ∃ segs : List Text, p = ofSegments segs ∧ ∀ s ∈ segs, isPlainSegment s = true ∧ Text.slash ∉ s

/-- Whatever is reached from a directory is a path in its shortest form, also where the directory
is none. -/
theorem isNormal_resolve (dir : Text) (parts : List Text) : IsNormal (resolve dir parts) := by
  refine ⟨_, rfl, fun s hs => ?_⟩
  have ⟨hplain, hmem⟩ := of_mem_clean hs
  exact ⟨hplain, (of_mem_segments hmem).2⟩

/-- A cleaned path has the segments that were left. -/
theorem segments_clean {segs : List Text} (h : ∀ s ∈ segs, s ≠ [] ∧ Text.slash ∉ s) :
    segments (ofSegments (clean true segs)) = clean true segs :=
  segments_ofSegments fun s hs => h s (of_mem_clean hs).2

/-- An absolute path is reached from anywhere. -/
theorem resolve_absolute (dir : Text) {path : Text} (h : isAbsolute path = true) :
    resolve dir [path] = ofSegments (clean true (segments path)) := by
  unfold resolve
  simp [follow, h]

/-- A path that does not start at the root goes on where the directory ends. -/
theorem resolve_relative (dir : Text) {path : Text} (h : isAbsolute path = false) :
    resolve dir [path] = ofSegments (clean true (segments dir ++ segments path)) := by
  unfold resolve
  simp [follow, h, segments_append_slash]

end Path

/-! ## What a parsed value configures -/

namespace Settings

/-- A key is left out, or holds null. -/
def Omits (raw : Json) (key : Text) : Prop := present? raw key = none

/-- An entry names a module directory: a path and a namespace that is not empty. -/
def Names (dir : Text) (entry : Json) (d : ModuleDir) : Prop :=
  ∃ path, entry.get? "path" = some (.text path) ∧ d.path = Path.resolve dir [path] ∧
    entry.get? "namespace" = some (.text d.space) ∧ d.space ≠ []

/-- The settings that a parsed value stands for, in a file of a directory. -/
structure Configures (dir : Text) (raw : Json) (s : Settings) : Prop where
  /-- The file is empty or holds a mapping. -/
  mapping : raw = .null ∨ ∃ ms, raw = .object ms
  /-- The log level is left out, or it is the name of a threshold. -/
  level : (raw.get? "logLevel" = none ∧ s.threshold = .from .info) ∨
    raw.get? "logLevel" = some (.text s.threshold.name)
  /-- The directories of manifests are left out, or they are a list of texts. -/
  roots : (Omits raw "resourceRoots" ∧ s.roots = [Path.resolve dir ["..", "resources"]]) ∨
    ∃ entries : List Text, raw.get? "resourceRoots" = some (.list (entries.map .text)) ∧
      s.roots = entries.map fun entry => Path.resolve dir [entry]
  /-- The module directories are left out, or they are a list, and each item names one. -/
  moduleDirs : (Omits raw "moduleDirs" ∧ s.moduleDirs = []) ∨
    ∃ entries, raw.get? "moduleDirs" = some (.list entries) ∧
      List.Forall₂ (Names dir) entries s.moduleDirs
  /-- The namespaces are left out, or they are a list of texts. -/
  imports : (Omits raw "imports" ∧ s.imports = []) ∨
    raw.get? "imports" = some (.list (s.imports.map .text))

section reading

variable {dir : Text} {raw : Json} {key : Text}

/-- A level has one name only. -/
theorem ofName?_eq_some_iff {name : Text} {threshold : Threshold} :
    Threshold.ofName? name = some threshold ↔ name = threshold.name := by
  constructor
  · intro h
    unfold Threshold.ofName? at h
    split at h
    next hname =>
      cases h
      exact hname
    next =>
      obtain ⟨level, hlevel, rfl⟩ := Option.map_eq_some_iff.mp h
      unfold Level.ofName? at hlevel
      have hname := List.find?_some hlevel
      exact (eq_of_beq hname).symm
  · rintro rfl
    -- there are five thresholds
    obtain (_ | _ | _ | _) | _ := threshold <;> decide

/-- The level is read if it is left out or named. -/
theorem readThreshold_eq_ok_iff {fallback threshold : Threshold} :
    readThreshold raw fallback = .ok threshold ↔
      (raw.get? "logLevel" = none ∧ threshold = fallback) ∨
        raw.get? "logLevel" = some (.text threshold.name) := by
  unfold readThreshold
  cases raw.get? "logLevel" with
  | none => simp [eq_comm]
  | some v =>
    have htext : v.text?.bind Threshold.ofName? = some threshold ↔ v = .text threshold.name := by
      cases v <;> simp [Json.text?, ofName?_eq_some_iff]
    simp only [reduceCtorEq, false_and, false_or, Option.some.injEq, ← htext]
    cases v.text?.bind Threshold.ofName? with
    | some found => simp
    | none => cases words v <;> simp

/-- A list of texts is read back from its entries. -/
theorem map_text_injective : Function.Injective (List.map Json.text) :=
  List.map_injective_iff.mpr fun _ _ he => Json.text.inj he

/-- Texts are read off a list exactly if each item is one. -/
theorem mapM_text?_eq_some_iff {items : List Json} {texts : List Text} :
    items.mapM Json.text? = some texts ↔ items = texts.map .text := by
  induction items generalizing texts with
  | nil => simp [eq_comm]
  | cons item items ih =>
    rw [List.mapM_cons]
    cases item with
    | text t =>
      -- the first item is a text; the others are read as the induction says
      cases hrest : items.mapM Json.text? with
      | none =>
        have hne (rest : List Text) : items ≠ rest.map .text := fun h => by
          rw [ih.mpr h] at hrest
          cases hrest
        cases texts <;> simp [Json.text?, hne]
      | some rest =>
        have hitems := ih.mp hrest
        cases texts <;> simp [Json.text?, hitems, map_text_injective.eq_iff]
    | _ => cases texts <;> simp [Json.text?]

/-- A list under a key is present. -/
theorem present?_eq_some_list {items : List Json} :
    present? raw key = some (.list items) ↔ raw.get? key = some (.list items) := by
  unfold present?
  split <;> simp_all

/-- Texts are read if they are left out, or if the entry is a list of texts only. -/
theorem readTexts_eq_ok_iff {texts : Option (List Text)} :
    readTexts raw key = .ok texts ↔
      (Omits raw key ∧ texts = none) ∨
        ∃ entries : List Text, raw.get? key = some (.list (entries.map .text)) ∧
          texts = some entries := by
  unfold readTexts Omits
  simp only [← present?_eq_some_list]
  cases present? raw key with
  | none => simp [eq_comm]
  | some v =>
    cases v with
    | list items =>
      simp only
      cases h : items.mapM Json.text? with
      | none =>
        -- some item is no text, so that the list is no list of texts
        have hne (entries : List Text) : items ≠ entries.map .text := fun he => by
          rw [mapM_text?_eq_some_iff.mpr he] at h
          cases h
        simp [hne]
      | some found =>
        rw [mapM_text?_eq_some_iff] at h
        simp [h, map_text_injective.eq_iff, eq_comm]
    | _ => simp

/-- A directory is read exactly from an entry that names it. -/
theorem readModuleDir_eq_ok_iff {i : Nat} {entry : Json} {d : ModuleDir} :
    readModuleDir dir i entry = .ok d ↔ Names dir entry d := by
  have htext (key t : Text) : (entry.get? key).bind Json.text? = some t ↔
      entry.get? key = some (.text t) := by
    cases entry.get? key with
    | none => simp
    | some v => cases v <;> simp [Json.text?]
  unfold readModuleDir Names
  simp only [← htext]
  cases (entry.get? "path").bind Json.text? with
  | none => simp
  | some path =>
    cases (entry.get? "namespace").bind Json.text? with
    | none => simp
    | some space =>
      obtain ⟨place, named⟩ := d
      -- a space without a name is refused though it is a text
      by_cases hempty : space = []
      · simp +contextual [hempty, eq_comm]
      · simp only [List.isEmpty_iff, hempty, if_false]
        constructor
        · intro h
          cases h
          exact ⟨path, rfl, rfl, rfl, hempty⟩
        · rintro ⟨_, hpath, hplace, hspace, -⟩
          cases hpath
          cases hspace
          rw [hplace]

/-- Reading goes through the entries one by one: there is one module directory for each. -/
theorem readModuleDirsFrom_eq_ok_iff {i : Nat} {entries : List Json} {ds : List ModuleDir} :
    readModuleDirsFrom dir i entries = .ok ds ↔ List.Forall₂ (Names dir) entries ds := by
  induction entries generalizing i ds with
  | nil => simp [readModuleDirsFrom, eq_comm]
  | cons entry entries ih =>
    unfold readModuleDirsFrom
    cases hd : readModuleDir dir i entry with
    | error fault =>
      -- the first entry names no directory
      have hnone (d : ModuleDir) : ¬ Names dir entry d := fun h => by
        rw [readModuleDir_eq_ok_iff (i := i).mpr h] at hd
        cases hd
      simp [bind, Except.bind, List.forall₂_cons_left_iff, hnone]
    | ok d =>
      have hfirst (d' : ModuleDir) : Names dir entry d' ↔ d' = d := by
        rw [← readModuleDir_eq_ok_iff (i := i), hd, Except.ok.injEq, eq_comm]
      cases hrest : readModuleDirsFrom dir (i + 1) entries with
      | error fault =>
        have hnone (ds : List ModuleDir) : ¬ List.Forall₂ (Names dir) entries ds := fun h => by
          rw [ih (i := i + 1) |>.mpr h] at hrest
          cases hrest
        simp [bind, Except.bind, List.forall₂_cons_left_iff, hnone]
      | ok rest =>
        have hothers (ds : List ModuleDir) : List.Forall₂ (Names dir) entries ds ↔ ds = rest := by
          rw [← ih (i := i + 1), hrest, Except.ok.injEq, eq_comm]
        simp [bind, Except.bind, List.forall₂_cons_left_iff, hfirst, hothers, eq_comm]

/-- Directories are read if they are left out, or if the entry is a list each item of which names
one. -/
theorem readModuleDirs_eq_ok_iff {ds : List ModuleDir} :
    readModuleDirs dir raw = .ok ds ↔
      (Omits raw "moduleDirs" ∧ ds = []) ∨
        ∃ entries, raw.get? "moduleDirs" = some (.list entries) ∧
          List.Forall₂ (Names dir) entries ds := by
  unfold readModuleDirs Omits
  simp only [← present?_eq_some_list]
  cases present? raw "moduleDirs" with
  | none => simp [eq_comm]
  | some v => cases v <;> simp [readModuleDirsFrom_eq_ok_iff]

/-- Two steps succeed together if each of them does. -/
theorem bind_eq_ok_iff {α β : Type} {x : Except Fault α} {f : α → Except Fault β} {b : β} :
    (x >>= f) = .ok b ↔ ∃ a, x = .ok a ∧ f a = .ok b := by
  cases x <;> simp [bind, Except.bind]

/-- A mapping is read key by key. -/
theorem ofJson_object_eq_ok_iff {ms : List (Text × Json)} {s : Settings} :
    ofJson dir (.object ms) = .ok s ↔
      readThreshold (.object ms) (.from .info) = .ok s.threshold ∧
      (∃ roots, readTexts (.object ms) "resourceRoots" = .ok roots ∧
        s.roots = (roots.map fun paths => paths.map fun path => Path.resolve dir [path]).getD
          [Path.resolve dir ["..", "resources"]]) ∧
      readModuleDirs dir (.object ms) = .ok s.moduleDirs ∧
      ∃ imports, readTexts (.object ms) "imports" = .ok imports ∧ s.imports = imports.getD [] := by
  obtain ⟨threshold, roots, moduleDirs, imports⟩ := s
  simp only [ofJson, bind_eq_ok_iff, Except.ok.injEq, Settings.mk.injEq]
  constructor
  · rintro ⟨_, hlevel, texts, hroots, _, hdirs, spaces, himports, rfl, rfl, rfl, rfl⟩
    exact ⟨hlevel, ⟨texts, hroots, by cases texts <;> rfl⟩, hdirs, spaces, himports, rfl⟩
  · rintro ⟨hlevel, ⟨texts, hroots, rfl⟩, hdirs, spaces, himports, rfl⟩
    exact ⟨_, hlevel, texts, hroots, _, hdirs, spaces, himports, rfl, by cases texts <;> rfl, rfl,
      rfl⟩

/-- Reading answers exactly the settings that the value stands for. -/
theorem ofJson_eq_ok_iff {s : Settings} : ofJson dir raw = .ok s ↔ Configures dir raw s := by
  cases raw with
  | null =>
    -- a file without content leaves everything out
    have hnone (key : Text) : Json.get? .null key = none := rfl
    have homits (key : Text) : Omits .null key := rfl
    constructor
    · intro h
      cases h
      exact ⟨.inl rfl, .inl ⟨rfl, rfl⟩, .inl ⟨rfl, rfl⟩, .inl ⟨rfl, rfl⟩, .inl ⟨rfl, rfl⟩⟩
    · rintro ⟨-, hlevel, hroots, hdirs, himports⟩
      obtain ⟨threshold, roots, moduleDirs, imports⟩ := s
      simp only [hnone, homits, true_and, reduceCtorEq, or_false, false_and, exists_false] at *
      subst hlevel hroots hdirs himports
      rfl
  | object ms =>
    rw [ofJson_object_eq_ok_iff, readThreshold_eq_ok_iff, readModuleDirs_eq_ok_iff]
    simp only [readTexts_eq_ok_iff]
    constructor
    · rintro ⟨hlevel, ⟨roots, hroots, heq⟩, hdirs, imports, himports, heq'⟩
      refine ⟨.inr ⟨ms, rfl⟩, hlevel, ?roots, hdirs, ?imports⟩
      case roots =>
        rcases hroots with ⟨homits, rfl⟩ | ⟨entries, hentries, rfl⟩
        · exact .inl ⟨homits, heq⟩
        · exact .inr ⟨entries, hentries, heq⟩
      case imports =>
        rcases himports with ⟨homits, rfl⟩ | ⟨entries, hentries, rfl⟩
        · exact .inl ⟨homits, heq'⟩
        · exact .inr (heq' ▸ hentries)
    · rintro ⟨-, hlevel, hroots, hdirs, himports⟩
      refine ⟨hlevel, ?roots, hdirs, ?imports⟩
      case roots =>
        rcases hroots with ⟨homits, heq⟩ | ⟨entries, hentries, heq⟩
        · exact ⟨none, .inl ⟨homits, rfl⟩, heq⟩
        · exact ⟨some entries, .inr ⟨entries, hentries, rfl⟩, heq⟩
      case imports =>
        rcases himports with ⟨homits, heq⟩ | hentries
        · exact ⟨none, .inl ⟨homits, rfl⟩, heq⟩
        · exact ⟨some s.imports, .inr ⟨s.imports, hentries, rfl⟩, rfl⟩
  | _ =>
    -- anything else is refused, and stands for no settings
    refine ⟨nofun, fun h => ?_⟩
    rcases h.mapping with h | ⟨_, h⟩ <;> cases h

end reading

/-- The settings are in order: every path starts at the root and is in its shortest form, and no
namespace of a module directory is empty. -/
structure Orderly (s : Settings) : Prop where
  roots : ∀ root ∈ s.roots, Path.IsNormal root
  moduleDirs : ∀ d ∈ s.moduleDirs, Path.IsNormal d.path ∧ d.space ≠ []

/-- Settings that a file configures are in order. -/
theorem Configures.orderly {dir : Text} {raw : Json} {s : Settings} (h : Configures dir raw s) :
    s.Orderly where
  roots := by
    intro root hroot
    rcases h.roots with ⟨-, heq⟩ | ⟨entries, -, heq⟩
    · rw [heq, List.mem_singleton] at hroot
      exact hroot ▸ Path.isNormal_resolve _ _
    · rw [heq] at hroot
      obtain ⟨entry, -, rfl⟩ := List.mem_map.mp hroot
      exact Path.isNormal_resolve _ _
  moduleDirs := by
    intro d hd
    rcases h.moduleDirs with ⟨-, heq⟩ | ⟨entries, -, hnames⟩
    · rw [heq] at hd
      cases hd
    · obtain ⟨i, hi, rfl⟩ := List.getElem_of_mem hd
      have hentry := hnames.length_eq ▸ hi
      obtain ⟨path, -, hpath, -, hspace⟩ := hnames.get hentry hi
      exact ⟨hpath ▸ Path.isNormal_resolve _ _, hspace⟩

/-! ## The file -/

section file

variable (read : Text → Option Json) (files : Files) (path : Text)

/-- A file's settings are those that its value stands for; a file that is missing, cannot be read or
is no YAML has none. -/
theorem loadBy_eq_ok_iff {s : Settings} :
    loadBy read files path = .ok s ↔
      files.contains path = true ∧ ∃ text raw, files.readText path = .ok text ∧
        read text = some raw ∧ Configures (baseDir files path) raw s := by
  simp only [← ofJson_eq_ok_iff]
  unfold loadBy
  cases files.contains path with
  | false => simp
  | true =>
    cases files.readText path with
    | error fault => simp
    | ok text => cases h : read text <;> simp [h]

/-- The directory of a file at an absolute path. -/
theorem baseDir_absolute {path : Text} (h : Path.isAbsolute path = true) :
    baseDir files path = ofSegments (clean true (segments path)).dropLast := by
  unfold baseDir Files.absolute
  rw [Path.resolve_absolute _ h, Path.parent,
    Path.segments_clean fun s hs => Path.of_mem_segments hs]

end file

end Settings

/-! ## The working directory -/

namespace Files

variable {files : Files} {node : FileNode}

/-- What is no directory is listed. -/
theorem nodeAt_eq_some_iff {p : Text} (h : node ≠ .directory) :
    files.nodeAt p = some node ↔ files.nodes.get? p = some node := by
  unfold nodeAt
  cases files.nodes.get? p with
  | some found => simp
  | none =>
    simp only [reduceCtorEq, iff_false]
    split
    · simpa using h.symm
    · simp

/-- Something lies at a path if it lies at the absolute path, and the path does not ask for a
directory. -/
theorem lookup_eq_some_iff {path : Text} (h : node ≠ .directory) :
    files.lookup path = some node ↔
      (∃ last, path.getLast? = some last ∧ last ≠ Text.slash) ∧
        files.nodeAt (files.absolute path) = some node := by
  unfold lookup
  cases path.getLast? with
  | none => simp
  | some last =>
    cases hnode : files.nodeAt (files.absolute path) with
    | none => simp
    | some found =>
      have hne : FileNode.directory ≠ node := h.symm
      cases found <;> simp [hne]

/-- What lies at an absolute path and is no directory lies there wherever one stands. -/
theorem lookup_moved {path : Text} (absolute : Path.isAbsolute path = true)
    (h : node ≠ .directory) (cwd : Text) :
    lookup { files with cwd } path = some node ↔ files.lookup path = some node := by
  have habsolute : Files.absolute { files with cwd } path = files.absolute path := by
    unfold Files.absolute
    rw [Path.resolve_absolute _ absolute, Path.resolve_absolute _ absolute]
  rw [lookup_eq_some_iff h, lookup_eq_some_iff h, nodeAt_eq_some_iff h, nodeAt_eq_some_iff h,
    habsolute]

/-- A file is read if it lies there and is not locked. -/
theorem read_eq_ok_iff {path : Text} :
    files.read path = .ok node ↔
      files.lookup path = some node ∧ node ≠ .directory ∧ node ≠ .sealed := by
  unfold read
  cases files.lookup path with
  | none => simp
  | some found => cases found <;> simp [eq_comm] <;> rintro rfl <;> simp

/-- A file that is read is there. -/
theorem contains_of_read {path : Text} (h : files.read path = .ok node) :
    files.contains path = true := by
  unfold contains
  rw [(read_eq_ok_iff.mp h).1, Option.isSome_some]

/-- A file that is no text reads as the empty text. -/
theorem readText_eq_ok_iff {path text : Text} :
    files.readText path = .ok text ↔ ∃ node, files.read path = .ok node ∧
      text = match node with
        | .text t => t
        | _ => [] := by
  unfold readText
  cases files.read path with
  | error fault => simp [Except.map]
  | ok node =>
    simp only [Except.map, Except.ok.injEq, exists_eq_left']
    exact eq_comm

/-- A text that is read at an absolute path is read there wherever one stands. -/
theorem readText_moved {path text : Text} (absolute : Path.isAbsolute path = true) (cwd : Text) :
    readText { files with cwd } path = .ok text ↔ files.readText path = .ok text := by
  have hread (node : FileNode) :
      read { files with cwd } path = .ok node ↔ files.read path = .ok node := by
    rw [read_eq_ok_iff, read_eq_ok_iff]
    constructor
    · rintro ⟨h, hkind⟩
      exact ⟨(lookup_moved absolute hkind.1 cwd).mp h, hkind⟩
    · rintro ⟨h, hkind⟩
      exact ⟨(lookup_moved absolute hkind.1 cwd).mpr h, hkind⟩
  simp only [readText_eq_ok_iff, hread]

end Files

namespace Settings

/-- The settings in a file at an absolute path do not depend on the working directory. -/
theorem loadBy_moved (read : Text → Option Json) {files : Files} {path : Text} {s : Settings}
    (absolute : Path.isAbsolute path = true) (cwd : Text) :
    loadBy read { files with cwd } path = .ok s ↔ loadBy read files path = .ok s := by
  have hdir : baseDir { files with cwd } path = baseDir files path := by
    rw [baseDir_absolute _ absolute, baseDir_absolute _ absolute]
  -- where a text is read, there is a file, so that only reading matters
  have hthere (files : Files) : (files.contains path = true ∧ ∃ text raw,
      files.readText path = .ok text ∧ read text = some raw ∧
        Configures (baseDir files path) raw s) ↔
      ∃ text raw, files.readText path = .ok text ∧ read text = some raw ∧
        Configures (baseDir files path) raw s := by
    refine and_iff_right_of_imp ?_
    rintro ⟨text, raw, hread, -⟩
    obtain ⟨node, hnode, -⟩ := Files.readText_eq_ok_iff.mp hread
    exact Files.contains_of_read hnode
  rw [loadBy_eq_ok_iff, loadBy_eq_ok_iff, hthere, hthere, hdir]
  simp only [Files.readText_moved absolute]

end Settings

/-! ## What the command goes on with -/

namespace Settings

/-- A settings file is taken as a whole. -/
structure TakenWhole (read : Text → Option Json) (files : Files) (path : Text) : Prop where
  /-- A file's settings are those that its value stands for, item by item. -/
  loads : ∀ s, loadBy read files path = .ok s ↔
    files.contains path = true ∧ ∃ text raw, files.readText path = .ok text ∧
      read text = some raw ∧ Configures (baseDir files path) raw s
  /-- The settings are in order. -/
  orderly : ∀ s, loadBy read files path = .ok s → s.Orderly
  /-- A relative entry starts from the directory of the file. -/
  located : Path.isAbsolute path = true → ∀ entry, Path.isAbsolute entry = false →
    Path.resolve (baseDir files path) [entry] =
      ofSegments (clean true ((clean true (segments path)).dropLast ++ segments entry))
  /-- The working directory plays no part. -/
  unmoved : Path.isAbsolute path = true → ∀ cwd s,
    loadBy read { files with cwd } path = .ok s ↔ loadBy read files path = .ok s

/-- Settings are taken whole or not at all, whatever reads the text of the file. -/
theorem takenWhole (read : Text → Option Json) (files : Files) (path : Text) :
    TakenWhole read files path where
  loads := fun s => loadBy_eq_ok_iff read files path
  orderly := by
    intro s h
    obtain ⟨-, _, _, -, -, hconfigures⟩ := (loadBy_eq_ok_iff read files path).mp h
    exact hconfigures.orderly
  located := by
    intro absolute entry relative
    have hsegments : segments (baseDir files path) = (clean true (segments path)).dropLast := by
      rw [baseDir_absolute files absolute]
      refine Path.segments_ofSegments fun s hs => ?_
      exact Path.of_mem_segments (Path.of_mem_clean (List.dropLast_subset _ hs)).2
    rw [Path.resolve_relative _ relative, hsegments]
  unmoved := fun absolute cwd s => loadBy_moved read absolute cwd

end Settings

namespace Command

open EvalPlan.Action

/-- The warning that the defaults are used. -/
def fallbackWarning (boot : Logger) (path : Text) (h : Heap) (fault : Settings.Fault) :
    List Notice :=
  boot.leaves .warn "Failed to load engine config, using defaults"
    (some (fieldsPortrait h [("filePath", Value.text path), ("error", Value.text fault.message)]))

variable (read : Text → Option Json) (ev : Evaluator) (boot : Logger) (path : Text)

/-- Settings that cannot be loaded are replaced by the defaults, and one warning says so. -/
theorem run_loadSettings {w : World} (works : boot.Works w.heap) :
    ExceptT.run (loadSettings read ev boot path) w =
      match Settings.loadBy read w.files path with
      | .ok s => (.ok s, w)
      | .error fault => (.ok (Settings.default (Settings.baseDir w.files path)),
          w.noting (fallbackWarning boot path w.heap fault)) := by
  unfold loadSettings Settings.loadOrDefaultBy
  rw [run_bind_ok (run_get w)]
  cases Settings.loadBy read w.files path with
  | ok s => rfl
  | error fault =>
    simp only
    rw [run_bind_ok (run_log_works ev works _ _ _)]
    rfl

/-- Loading the settings of the command never fails: the settings of the file are taken as a whole,
without a word, or the defaults of its directory hold, after exactly one warning. -/
theorem loadSettings_wholly {w : World} (works : boot.Works w.heap) :
    Settings.TakenWhole read w.files path ∧
      ((∃ s, Settings.loadBy read w.files path = .ok s ∧
        ExceptT.run (loadSettings read ev boot path) w = (.ok s, w)) ∨
      ∃ fault, Settings.loadBy read w.files path = .error fault ∧
        ExceptT.run (loadSettings read ev boot path) w =
          (.ok (Settings.default (Settings.baseDir w.files path)),
            w.noting (fallbackWarning boot path w.heap fault))) := by
  refine ⟨Settings.takenWhole read w.files path, ?_⟩
  have hrun := run_loadSettings read ev boot path works
  cases hload : Settings.loadBy read w.files path with
  | ok s =>
    rw [hload] at hrun
    exact .inl ⟨s, rfl, hrun⟩
  | error fault =>
    rw [hload] at hrun
    exact .inr ⟨fault, rfl, hrun⟩

/-- A settings file in which a number stands behind the one directory. -/
def patchyText : Text := "logLevel: debug\nresourceRoots: [data, 7]"

/-- What the file holds. -/
def patchyReading (text : Text) : Option Json :=
  if text = patchyText then
    some (.object [("logLevel", .text "debug"), ("resourceRoots", .list [.text "data", .number 7])])
  else none

/-- A world with that file alone. -/
def patchyWorld : World :=
  { World.initial Domain.heap with
    files := { nodes := [("/srv/config/engine.yml", .text patchyText)], cwd := "/home" } }

/-- The level and the directory that stand in front of the number do not count either. -/
theorem loadSettings_wholly_patchy :
    (Logger.printing component).Works patchyWorld.heap ∧
    ExceptT.run (loadSettings patchyReading early (Logger.printing component) "/srv/config/engine.yml")
        patchyWorld =
      (.ok ⟨.from .info, ["/srv/resources"], [], []⟩,
        patchyWorld.noting (fallbackWarning (Logger.printing component) "/srv/config/engine.yml"
          patchyWorld.heap (.notTexts "resourceRoots"))) := by
  have works : (Logger.printing component).Works patchyWorld.heap := fun h => absurd rfl h
  have hload : Settings.loadBy patchyReading patchyWorld.files "/srv/config/engine.yml" =
      .error (.notTexts "resourceRoots") := rfl
  refine ⟨works, ?_⟩
  obtain ⟨-, ⟨s, hs, -⟩ | ⟨fault, hfault, hrun⟩⟩ :=
    loadSettings_wholly patchyReading early (Logger.printing component) "/srv/config/engine.yml"
      works
  · rw [hload] at hs
    cases hs
  · rw [hload] at hfault
    cases hfault
    have hdir : Settings.default (Settings.baseDir patchyWorld.files "/srv/config/engine.yml") =
        ⟨.from .info, ["/srv/resources"], [], []⟩ := by decide
    rw [hrun, hdir]

end Command

end EvalPlan
