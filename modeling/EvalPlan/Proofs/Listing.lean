import EvalPlan.Files
import EvalPlan.Resource
import EvalPlan.Proofs.Keys
import Mathlib.Data.Quot

/-!
# Files in another order

The entries of a directory are listed in no useful order. `Files.Alike` relates files that differ in
nothing else: the same lies at each path, and each directory has the same entries. What is read of
files comes out alike, and `Files.canonical` stands for all files that are alike.
-/

namespace EvalPlan.Files

/-- The same lies at each path, and the entries of each directory are the same in some order. -/
structure Alike (f f' : Files) : Prop where
  cwd : f'.cwd = f.cwd
  nodeAt : ∀ p, f'.nodeAt p = f.nodeAt p
  listing : ∀ path, (f'.listing path).Perm (f.listing path)

/-- Files are alike to themselves. -/
theorem Alike.refl (f : Files) : f.Alike f := ⟨rfl, fun _ => rfl, fun _ => .refl _⟩

/-- Being alike does not depend on the side. -/
theorem Alike.symm {f f' : Files} (h : f.Alike f') : f'.Alike f :=
  ⟨h.cwd.symm, fun p => (h.nodeAt p).symm, fun path => (h.listing path).symm⟩

/-- What is alike to something alike is alike. -/
theorem Alike.trans {f g h : Files} (hfg : f.Alike g) (hgh : g.Alike h) : f.Alike h :=
  ⟨hgh.cwd.trans hfg.cwd, fun p => (hgh.nodeAt p).trans (hfg.nodeAt p),
    fun path => (hgh.listing path).trans (hfg.listing path)⟩

/-- No name is left twice. -/
theorem nodup_eraseDups : (names : List Text) → names.eraseDups.Nodup
  | [] => List.nodup_nil
  | name :: names => by
    rw [List.eraseDups_cons]
    exact List.nodup_cons.mpr ⟨by simp, nodup_eraseDups _⟩
  -- the rest is shorter once the first name is taken out of it
  termination_by names => names.length
  decreasing_by exact Nat.lt_succ_of_le (List.length_filter_le _ _)

/-- The same files are alike in whichever order they stand. -/
theorem alike_of_perm {f : Files} {nodes : Table Text FileNode} (distinct : f.nodes.keys.Nodup)
    (h : nodes.Perm f.nodes) : f.Alike { f with nodes } where
  cwd := rfl
  nodeAt p := by
    simp only [Files.nodeAt, Table.get?_eq_of_perm distinct h, h.any_eq]
  listing path := by
    refine (List.perm_ext_iff_of_nodup (nodup_eraseDups _) (nodup_eraseDups _)).mpr fun name => ?_
    simp only [List.mem_eraseDups]
    exact (h.filterMap _).mem_iff

/-- Files that are alike are the same. -/
instance alikeSetoid : Setoid Files := ⟨Alike, Alike.refl, Alike.symm, Alike.trans⟩

/-- The files that stand for those that are alike. -/
noncomputable def canonical (f : Files) : Files := (Quotient.mk alikeSetoid f).out

/-- Putting the entries in order changes nothing but their order. -/
theorem alike_canonical (f : Files) : f.Alike f.canonical :=
  Alike.symm (Quotient.mk_out f)

/-- Alike files are the same once their entries are in order. -/
theorem Alike.canonical_eq {f f' : Files} (h : f.Alike f') : f'.canonical = f.canonical :=
  congrArg Quotient.out (Quotient.sound (s := alikeSetoid) h.symm)

section alike

variable {f f' : Files} (h : f.Alike f')

include h

/-- Paths are the same. -/
theorem Alike.absolute (path : Text) : f'.absolute path = f.absolute path := by
  rw [Files.absolute, Files.absolute, h.cwd]

/-- The same lies at each path. -/
theorem Alike.lookup (path : Text) : f'.lookup path = f.lookup path := by
  unfold Files.lookup
  rw [h.absolute, h.nodeAt]

/-- The same paths are there. -/
theorem Alike.contains (path : Text) : f'.contains path = f.contains path := by
  rw [Files.contains, Files.contains, h.lookup]

/-- The same paths are directories. -/
theorem Alike.isDirectory (path : Text) : f'.isDirectory path = f.isDirectory path := by
  rw [Files.isDirectory, Files.isDirectory, h.lookup]

/-- The same paths are files. -/
theorem Alike.isFile (path : Text) : f'.isFile path = f.isFile path := by
  rw [Files.isFile, Files.isFile, h.contains, h.isDirectory]

/-- Reading a file gives the same, also where it fails. -/
theorem Alike.read (path : Text) : f'.read path = f.read path := by
  rw [Files.read, Files.read, h.lookup]

/-- So does reading it as a text. -/
theorem Alike.readText (path : Text) : f'.readText path = f.readText path := by
  rw [Files.readText, Files.readText, h.read]

/-- The same resources are found, in the same order. -/
theorem Alike.find (r : Resources) (path : Text) : r.find f' path = r.find f path := by
  cases r with
  | listed entries => rfl
  | roots dirs => simp only [Resources.find, show f'.isFile = f.isFile from funext h.isFile]

/-- They read the same. -/
theorem Alike.readResource (r : Resource) : r.read f' = r.read f := by
  unfold Resource.read
  cases r.body with
  | file path => simp only [h.readText]
  | _ => rfl

end alike

/-- A directory is there. -/
theorem contains_of_isDirectory {f : Files} {path : Text} (h : f.isDirectory path = true) :
    f.contains path = true := by
  unfold isDirectory at h
  unfold contains
  split at h
  next found =>
    rw [found]
    rfl
  · cases h

end EvalPlan.Files
