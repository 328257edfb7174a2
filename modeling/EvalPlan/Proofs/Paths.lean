import Mathlib.Data.List.Basic
import Mathlib.Tactic.Common
import EvalPlan.Catalog

/-!
# Where the manifests of named builders lie

A name is put between a prefix and a suffix, the path is cut at its slashes, the pieces are put
below a root directory and the whole is brought into its shortest form. On the names that are
accepted none of these steps loses or rewrites a segment: a manifest lies strictly below the
directory of named manifests, and each name has a file of its own.

The argument has three parts: cutting and joining at slashes are inverse to each other; the
segments of a join are the segments of its parts; and plain segments are not touched by the
reduction to the shortest form.
-/

namespace EvalPlan

/-! ### Cutting and joining -/

namespace Text

variable {sep : CodeUnit}

/-- What holds no separator becomes the end of the last piece. -/
theorem splitOn_append {t : Text} (free : sep ∉ t) (s : Text) :
    (s ++ t).splitOn sep =
      (s.splitOn sep).dropLast ++ [(s.splitOn sep).getLast (List.splitOn_ne_nil sep s) ++ t] := by
  induction s with
  | nil => simpa using List.splitOn_eq_singleton free
  | cons u s ih =>
    simp only [List.cons_append, List.splitOn_cons_eq_if_modifyHead, ih]
    obtain ⟨piece, pieces, some⟩ := List.exists_cons_of_ne_nil (List.splitOn_ne_nil sep s)
    simp only [some]
    -- the unit is a separator, or it belongs to the first piece, which may be the last one too
    split
    · simp
    · cases pieces <;> simp

/-- No piece holds the separator. -/
theorem not_mem_of_mem_splitOn {t piece : Text} (h : piece ∈ t.splitOn sep) : sep ∉ piece := by
  induction t generalizing piece with
  | nil => simp_all
  | cons u t ih =>
    rw [List.splitOn_cons_eq_if_modifyHead] at h
    obtain ⟨first, others, pieces⟩ := List.exists_cons_of_ne_nil (List.splitOn_ne_nil sep t)
    rw [pieces] at ih h
    split at h
    · rcases List.mem_cons.mp h with rfl | h
      · simp
      · exact ih h
    next apart =>
      rcases List.mem_cons.mp h with rfl | h
      · have free := ih List.mem_cons_self
        simp_all [Ne.symm]
      · exact ih (List.mem_cons_of_mem _ h)

/-- A text is told by its pieces. -/
theorem splitOn_injective (sep : CodeUnit) : Function.Injective (List.splitOn sep) :=
  Function.LeftInverse.injective fun _ => List.intercalate_splitOn sep

/-- Two lists of texts are joined by joining each of them. -/
theorem join_append {ts us : List Text} (left : ts ≠ []) (right : us ≠ []) :
    join [sep] (ts ++ us) = join [sep] ts ++ sep :: join [sep] us := by
  induction ts with
  | nil => exact absurd rfl left
  | cons t ts ih =>
    cases ts with
    | nil => simp [List.intercalate_cons_of_ne_nil right]
    | cons next rest => simp_all [List.intercalate_cons_cons]

end Text

/-! ### Segments -/

namespace Path

open Text

/-- The empty path has no segments. -/
@[simp]
theorem segments_nil : segments [] = [] := by
  simp [segments]

/-- A slash ends a segment. -/
theorem segments_append_slash (s t : Text) :
    segments (s ++ slash :: t) = segments s ++ segments t := by
  simp [segments, List.splitOn_append_cons_self]

/-- The segments of a join are those of its parts. -/
theorem segments_join (parts : List Text) :
    segments (Text.join [slash] parts) = parts.flatMap segments := by
  induction parts with
  | nil => simp
  | cons part parts ih =>
    cases parts with
    | nil => simp
    | cons next rest =>
      rw [Text.join, List.intercalate_cons_cons, List.append_assoc, List.singleton_append,
        segments_append_slash, ih, List.flatMap_cons (x := part)]

/-- A segment has text, and no slash in it. -/
theorem of_mem_segments {p s : Text} (h : s ∈ segments p) : s ≠ [] ∧ slash ∉ s := by
  have ⟨piece, filled⟩ := List.mem_filter.mp h
  exact ⟨by simpa using filled, not_mem_of_mem_splitOn piece⟩

/-- A text without a slash is a segment. -/
theorem segments_of_single {s : Text} (filled : s ≠ []) (free : slash ∉ s) : segments s = [s] := by
  simp [segments, List.splitOn_eq_singleton free, filled]

/-- Segments put one after another, each after a slash, are the segments of the path. -/
theorem segments_ofSegments {segs : List Text} (h : ∀ s ∈ segs, s ≠ [] ∧ slash ∉ s) :
    segments (ofSegments segs) = segs := by
  have single : segs.flatMap segments = segs.flatMap fun s => [s] :=
    List.flatMap_congr fun s mem => segments_of_single (h s mem).1 (h s mem).2
  have front := segments_append_slash [] (Text.join [slash] segs)
  rw [segments_nil, List.nil_append, List.nil_append, segments_join, single] at front
  simpa [ofSegments] using front

/-- Only no segments make the empty path. -/
theorem join_eq_nil {segs : List Text} (h : ∀ s ∈ segs, s ≠ []) :
    Text.join [slash] segs = [] ↔ segs = [] := by
  match segs, h with
  | [], _ => simp
  | [s], h => simpa using h s
  | s :: t :: rest, h => simp

/-- The last unit of joined segments is the last unit of a segment. -/
theorem getLast?_join {segs : List Text} (h : ∀ s ∈ segs, s ≠ [] ∧ slash ∉ s) :
    (Text.join [slash] segs).getLast? ≠ some slash := by
  match segs with
  | [] => simp
  | [s] =>
    intro last
    rw [Text.join, List.intercalate_singleton] at last
    exact (h s (by simp)).2 (List.mem_of_getLast? last)
  | s :: t :: rest =>
    have tail : ∀ s ∈ t :: rest, s ≠ [] ∧ slash ∉ s := fun s mem => h s (List.mem_cons_of_mem _ mem)
    have ih := getLast?_join tail
    have filled : Text.join [slash] (t :: rest) ≠ [] :=
      (join_eq_nil fun s mem => (tail s mem).1).not.mpr (by simp)
    rw [Text.join, List.intercalate_cons_cons, List.getLast?_append_of_ne_nil _ filled]
    exact ih

/-! ### The shortest form -/

/-- Plain segments stay as they are. -/
theorem clean_eq_self {absolute : Bool} {segs : List Text}
    (h : ∀ s ∈ segs, isPlainSegment s = true) : clean absolute segs = segs := by
  -- a plain segment takes none away that is on the stack: the stack only grows
  have fold (stack : List Text) : segs.foldl (push absolute) stack = segs.reverse ++ stack := by
    induction segs generalizing stack with
    | nil => rfl
    | cons s segs ih =>
      have plain := h s (by simp)
      have step : push absolute stack s = s :: stack := by
        simp_all [isPlainSegment, push]
      rw [List.foldl_cons, step, ih fun s mem => h s (List.mem_cons_of_mem _ mem)]
      simp
  simp [clean, fold]

/-- In an absolute path every segment that is kept is plain. -/
theorem push_true {stack : List Text} {next t : Text} (known : ∀ s ∈ stack, isPlainSegment s = true)
    (h : t ∈ push true stack next) : isPlainSegment t = true ∧ (t ∈ stack ∨ t = next) := by
  unfold push at h
  grind [isPlainSegment]

/-- Above the root there is nothing: the reduction of an absolute path leaves segments of the
path, and only plain ones. -/
theorem of_mem_clean {segs : List Text} {s : Text} (h : s ∈ clean true segs) :
    isPlainSegment s = true ∧ s ∈ segs := by
  -- the invariant of the stack: all that is on it is plain
  have fold : ∀ (segs stack : List Text), (∀ s ∈ stack, isPlainSegment s = true) →
      s ∈ segs.foldl (push true) stack → isPlainSegment s = true ∧ (s ∈ stack ∨ s ∈ segs) := by
    intro segs
    induction segs with
    | nil => exact fun stack known mem => ⟨known s mem, .inl mem⟩
    | cons next segs ih =>
      intro stack known mem
      obtain ⟨plain, place⟩ := ih _ (fun t mem => (push_true known mem).1) mem
      refine ⟨plain, ?_⟩
      rcases place with early | late
      · rcases (push_true known early).2 with old | rfl
        · exact .inl old
        · exact .inr (by simp)
      · exact .inr (List.mem_cons_of_mem _ late)
  have found := fold segs [] (by simp) (by simpa [clean] using h)
  exact ⟨found.1, by simpa using found.2⟩

/-- An absolute path with plain segments and no slash at its end is brought into its shortest form
without losing a segment. -/
theorem normalize_of_plain {p : Text} (absolute : isAbsolute p = true)
    (plain : ∀ s ∈ segments p, isPlainSegment s = true) (some : segments p ≠ [])
    (last : p.getLast? ≠ Option.some slash) : normalize p = ofSegments (segments p) := by
  have filled : Text.join [slash] (segments p) ≠ [] :=
    (join_eq_nil fun s mem => (of_mem_segments mem).1).not.mpr some
  simp [normalize, ofSegments, absolute, clean_eq_self plain, last, filled]

/-- Plain segments put below an absolute path are its segments and then they. -/
theorem join_ofSegments {base segs : List Text}
    (known : ∀ s ∈ base, isPlainSegment s = true ∧ slash ∉ s)
    (below : ∀ s ∈ segs, isPlainSegment s = true ∧ slash ∉ s) (some : segs ≠ []) :
    join (ofSegments base :: segs) = ofSegments (base ++ segs) := by
  have filled {ts : List Text} (h : ∀ s ∈ ts, isPlainSegment s = true ∧ slash ∉ s) :
      ∀ s ∈ ts, s ≠ [] ∧ slash ∉ s := fun s mem => ⟨by grind [isPlainSegment], (h s mem).2⟩
  -- no part of the path is empty, so none is left out before joining
  have parts : (ofSegments base :: segs).filter (!·.isEmpty) = ofSegments base :: segs := by
    refine List.filter_eq_self.mpr fun s mem => ?_
    rcases List.mem_cons.mp mem with rfl | mem
    · simp [ofSegments]
    · simpa using (filled below s mem).1
  -- joined, the parts have the segments of each in order
  have whole : segments (Text.join [slash] (ofSegments base :: segs)) = base ++ segs := by
    have single : segs.flatMap segments = segs.flatMap fun s => [s] :=
      List.flatMap_congr fun s mem =>
        segments_of_single (filled below s mem).1 (filled below s mem).2
    rw [segments_join, List.flatMap_cons, segments_ofSegments (filled known), single]
    simp
  have tail : Text.join [slash] segs ≠ [] :=
    (join_eq_nil fun s mem => (filled below s mem).1).not.mpr some
  -- and the path ends with a segment, and not with a slash
  have last : (Text.join [slash] (ofSegments base :: segs)).getLast? ≠ Option.some slash := by
    rw [Text.join, List.intercalate_cons_of_ne_nil some, List.getLast?_append_of_ne_nil _ tail]
    exact getLast?_join (filled below)
  have absolute : isAbsolute (Text.join [slash] (ofSegments base :: segs)) = true := by
    simp [List.intercalate_cons_of_ne_nil some, ofSegments, isAbsolute]
  rw [join, parts, if_neg (by simp), normalize_of_plain absolute _ _ last, whole]
  · rw [whole]
    exact fun s mem => (List.mem_append.mp mem).elim (fun m => (known s m).1) fun m => (below s m).1
  · rw [whole]
    simp [some]

/-- Segments put below a directory lead strictly below it. -/
theorem isBelow_ofSegments {dir segs : List Text} (named : dir ≠ []) (some : segs ≠ [])
    (known : ∀ s ∈ dir, s ≠ []) (below : ∀ s ∈ segs, s ≠ []) :
    Files.isBelow (ofSegments dir) (ofSegments (dir ++ segs)) = true := by
  have front : Text.join [slash] dir ≠ [] := (join_eq_nil known).not.mpr named
  have tail : 0 < (Text.join [slash] segs).length :=
    List.length_pos_iff.mpr ((join_eq_nil below).not.mpr some)
  have notRoot : ofSegments dir ≠ "/" := fun same => front (List.cons.inj same).2
  rw [Files.isBelow, if_neg notRoot]
  simp [ofSegments, join_append named some, tail]

end Path

/-! ### The file of a named manifest -/

open EvalPlan.Path Text

namespace Files

/-- The segments of the absolute form of a path are plain. -/
theorem of_mem_absolute {files : Files} {path s : Text}
    (h : s ∈ segments (files.absolute path)) : isPlainSegment s = true ∧ slash ∉ s := by
  have left := of_mem_segments h
  unfold absolute resolve at h
  rw [segments_ofSegments fun s mem => of_mem_segments (of_mem_clean mem).2] at h
  exact ⟨(of_mem_clean h).1, left.2⟩

/-- The absolute form of a path is made of its segments. -/
theorem absolute_eq_ofSegments (files : Files) (path : Text) :
    files.absolute path = ofSegments (segments (files.absolute path)) := by
  unfold absolute resolve
  rw [segments_ofSegments fun s mem => of_mem_segments (of_mem_clean mem).2]

end Files

namespace Manifest

/-- The segments of a name as they lie on the disk: the last one carries the extension. -/
def namedSegments (name : Text) : List Text :=
  (name.splitOn slash).dropLast ++
    [(name.splitOn slash).getLast (List.splitOn_ne_nil slash name) ++ (".properties" : Text)]

/-- The directory of named manifests below a root, by its segments. -/
def namedDirectory (files : Files) (root : Text) : List Text :=
  segments (files.absolute root) ++ (["eval-config", "methods"] : List Text)

/-- The file in which the manifest of a name is sought below a root. -/
def namedFile (files : Files) (root name : Text) : Text :=
  Resources.filePath (files.absolute root) (namedPath name)

/-- The pieces of an accepted name are plain segments, also with the extension. -/
theorem of_mem_namedSegments {name s : Text} (accepted : isBuilderName name = true)
    (h : s ∈ namedSegments name) : isPlainSegment s = true ∧ slash ∉ s := by
  have plain : ∀ s ∈ name.splitOn slash, isPlainSegment s = true := by
    simp_all [isBuilderName]
  rcases List.mem_append.mp h with front | last
  · have piece := (List.dropLast_subset _) front
    exact ⟨plain s piece, not_mem_of_mem_splitOn piece⟩
  · have piece := List.getLast_mem (List.splitOn_ne_nil slash name)
    have free := not_mem_of_mem_splitOn piece
    -- only the last segment has the extension
    obtain rfl := List.mem_singleton.mp last
    refine ⟨?_, ?_⟩
    · -- a segment that is not plain is shorter than the extension alone
      generalize (name.splitOn slash).getLast _ = front
      have long : 11 ≤ (front ++ (".properties" : Text)).length := by
        rw [List.length_append]
        exact Nat.le_add_left _ _
      have apart {t : Text} (short : t.length < 11) : front ++ (".properties" : Text) ≠ t := by
        rintro rfl
        omega
      have filled := apart (t := []) (by decide)
      have one := apart (t := ".") (by decide)
      have two := apart (t := "..") (by decide)
      simp only [isPlainSegment, Bool.and_eq_true, bne_iff_ne, ne_eq]
      exact ⟨⟨by simpa using filled, one⟩, two⟩
    · have extension : slash ∉ (".properties" : Text) := by decide
      simp [free, extension]

/-- The path of a name has the segments of the name at its end. -/
theorem segments_namedPath {name : Text} (accepted : isBuilderName name = true) :
    segments (namedPath name) = (["eval-config", "methods"] : List Text) ++ namedSegments name := by
  have extension : slash ∉ (".properties" : Text) := by decide
  have pieces : segments (name ++ (".properties" : Text)) = namedSegments name := by
    rw [segments, splitOn_append extension]
    exact List.filter_eq_self.mpr fun s mem => by
      have plain := (of_mem_namedSegments accepted mem).1
      grind [isPlainSegment]
  have front : namedPath name =
      ("eval-config" : Text) ++ slash ::
        (("methods" : Text) ++ slash :: (name ++ (".properties" : Text))) := by
    rfl
  rw [front, segments_append_slash, segments_append_slash, pieces]
  rfl

/-- It has at least one of them. -/
theorem namedSegments_ne_nil (name : Text) : namedSegments name ≠ [] := by
  simp [namedSegments]

/-- Different names have different segments. -/
theorem namedSegments_injective : Function.Injective namedSegments := by
  intro name other same
  -- the extension stands at the end of the last pieces and can be taken off both
  have lasts := List.append_inj_right' same rfl
  have fronts := List.append_inj_left' same rfl
  apply splitOn_injective slash
  rw [← List.dropLast_append_getLast (List.splitOn_ne_nil slash name),
    ← List.dropLast_append_getLast (List.splitOn_ne_nil slash other), fronts]
  simpa using lasts

/-- The directory of the methods has plain segments. -/
theorem of_mem_methods {s : Text} (h : s ∈ (["eval-config", "methods"] : List Text)) :
    isPlainSegment s = true ∧ slash ∉ s := by
  have both : ∀ s ∈ (["eval-config", "methods"] : List Text),
      isPlainSegment s = true ∧ slash ∉ s := by
    decide
  exact both s h

/-- So it has below every root. -/
theorem of_mem_namedDirectory {files : Files} {root s : Text} (h : s ∈ namedDirectory files root) :
    isPlainSegment s = true ∧ slash ∉ s :=
  (List.mem_append.mp h).elim Files.of_mem_absolute of_mem_methods

/-- The file of an accepted name is made of the directory and the segments of the name. -/
theorem namedFile_eq (files : Files) (root : Text) {name : Text}
    (accepted : isBuilderName name = true) :
    namedFile files root name = ofSegments (namedDirectory files root ++ namedSegments name) := by
  have below : ∀ s ∈ (["eval-config", "methods"] : List Text) ++ namedSegments name,
      isPlainSegment s = true ∧ slash ∉ s := fun s mem =>
    (List.mem_append.mp mem).elim of_mem_methods (of_mem_namedSegments accepted)
  unfold namedFile Resources.filePath
  rw [segments_namedPath accepted, Files.absolute_eq_ofSegments,
    join_ofSegments (fun s => Files.of_mem_absolute) below (by simp), namedDirectory,
      List.append_assoc]

/-- So these are its segments. -/
theorem segments_namedFile (files : Files) (root : Text) {name : Text}
    (accepted : isBuilderName name = true) :
    segments (namedFile files root name) = namedDirectory files root ++ namedSegments name := by
  rw [namedFile_eq files root accepted]
  refine segments_ofSegments fun s mem => ?_
  have plain : isPlainSegment s = true ∧ slash ∉ s :=
    (List.mem_append.mp mem).elim of_mem_namedDirectory (of_mem_namedSegments accepted)
  exact ⟨by grind [isPlainSegment], plain.2⟩

/-- The manifest of an accepted name lies below the directory of named manifests of a root, under
the segments of the name: the path has the segments of the root, those of the directory and those of
the name, a search of roots finds for the name those of these files that are there, and no others,
and no other accepted name leads there. -/
theorem namedFile_contained (files : Files) (root : Text) {name : Text}
    (accepted : isBuilderName name = true) :
    namedFile files root name = ofSegments (namedDirectory files root ++ namedSegments name) ∧
    segments (namedFile files root name) = namedDirectory files root ++ namedSegments name ∧
    Files.isBelow (ofSegments (namedDirectory files root)) (namedFile files root name) = true ∧
    (∀ (roots : List Text) (found : Resource),
      found ∈ (Resources.roots (roots.map files.absolute)).find files (namedPath name) ↔
        ∃ root ∈ roots, files.isFile (namedFile files root name) = true ∧
          found = ⟨namedFile files root name, .file (namedFile files root name)⟩) ∧
    ∀ other, isBuilderName other = true →
      namedFile files root other = namedFile files root name → other = name := by
  refine ⟨namedFile_eq files root accepted, segments_namedFile files root accepted, ?below, ?found,
    ?apart⟩
  case below =>
    rw [namedFile_eq files root accepted]
    have filled {s : Text} (plain : isPlainSegment s = true ∧ slash ∉ s) : s ≠ [] := by
      grind [isPlainSegment]
    -- a plain segment is not empty, so that the directory is a proper beginning of the path
    exact isBelow_ofSegments (by simp [namedDirectory]) (namedSegments_ne_nil name)
      (fun s mem => filled (of_mem_namedDirectory mem))
      (fun s mem => filled (of_mem_namedSegments accepted mem))
  case found =>
    intro roots found
    simp only [Resources.find, List.mem_map, List.mem_filter]
    constructor
    · rintro ⟨path, ⟨⟨dir, ⟨root, known, rfl⟩, rfl⟩, isFile⟩, rfl⟩
      exact ⟨root, known, isFile, rfl⟩
    · rintro ⟨root, known, isFile, rfl⟩
      exact ⟨_, ⟨⟨_, ⟨root, known, rfl⟩, rfl⟩, isFile⟩, rfl⟩
  case apart =>
    intro other otherAccepted same
    -- the two paths share the directory, and names are told apart by the rest
    have segs := congrArg segments same
    rw [segments_namedFile files root accepted, segments_namedFile files root otherAccepted] at segs
    exact namedSegments_injective (List.append_cancel_left segs)

/-- A name with a slash and with dots stays below the directory. -/
theorem namedFile_contained_nested :
    isBuilderName "gpu/..fast" = true ∧
    namedFile ⟨[], "/srv"⟩ "app/../resources" "gpu/..fast" =
      "/srv/resources/eval-config/methods/gpu/..fast.properties" := by
  have accepted : isBuilderName "gpu/..fast" = true := by decide
  refine ⟨accepted, ?_⟩
  rw [(namedFile_contained ⟨[], "/srv"⟩ "app/../resources" accepted).1]
  decide

end Manifest

end EvalPlan
