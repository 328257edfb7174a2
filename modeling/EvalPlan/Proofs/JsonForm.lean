import EvalPlan.Proofs.Building
import Mathlib.Data.Finset.Card
import Mathlib.Logic.Relation

/-!
# Values without a JSON form

Writing a value as JSON follows what objects and lists hold, and ends with an error where it comes
upon an integer without bound or upon an object that it is about to write (`Heap.Unwritable`). This
is so exactly if such an integer, or an object that holds itself in whatever way, can be reached
from the value (`Heap.unwritable_iff`).

`Heap.Holds` leads from an object to what it holds. Nothing is called on the way, as long as the
objects hold plain data (`Heap.HoldsData`), and then the error is the only thing that writing leaves
behind (`json_attempts`).
-/

namespace EvalPlan

open EvalPlan.Action

/-! ## Actions that answer or throw -/

/-- Where nothing is bad, the action answers, and changes nothing. Where something is, it throws. -/
structure World.Attempts {α : Type} (w : World) (answers : α → Prop) (errs : Value → World → Prop)
    (bad : Prop) (act : Action α) : Prop where
  answer : ¬ bad → ∃ a, ExceptT.run act w = (.ok a, w) ∧ answers a
  error : bad → ∃ thrown w', ExceptT.run act w = (.error thrown, w') ∧ errs thrown w'

namespace World.Attempts

variable {α β : Type} {w : World} {answers : α → Prop} {answers' : β → Prop}
  {errs : Value → World → Prop}
  {bad bad' : Prop} {act : Action α}

theorem of_iff (h : w.Attempts answers errs bad act) (hbad : bad' ↔ bad) :
    w.Attempts answers errs bad' act where
  answer hnot := h.answer (mt hbad.mpr hnot)
  error hbad' := h.error (hbad.mp hbad')

theorem of_run {a : α} (h : ExceptT.run act w = (.ok a, w)) (ha : answers a) (hbad : ¬ bad) :
    w.Attempts answers errs bad act where
  answer _ := ⟨a, h, ha⟩
  error h := absurd h hbad

theorem of_error {thrown : Value} {w' : World} (h : ExceptT.run act w = (.error thrown, w'))
    (herrs : errs thrown w') (hbad : bad) : w.Attempts answers errs bad act where
  answer h := absurd hbad h
  error _ := ⟨thrown, w', h, herrs⟩

/-- Another action that comes to the same. -/
theorem of_run_eq {act' : Action α} (h : w.Attempts answers errs bad act')
    (hrun : ExceptT.run act w = ExceptT.run act' w) : w.Attempts answers errs bad act where
  answer hnot := hrun ▸ h.answer hnot
  error hbad := hrun ▸ h.error hbad

/-- Two steps, of which the second one begins in the world that the first one left as it was. -/
theorem bind {f : α → Action β} (h : w.Attempts answers errs bad act)
    (hf : ∀ a, answers a → w.Attempts answers' errs bad' (f a)) :
    w.Attempts answers' errs (bad ∨ bad') (act >>= f) where
  answer hbad := by
    obtain ⟨hbad, hbad'⟩ := not_or.mp hbad
    obtain ⟨a, hact, ha⟩ := h.answer hbad
    rw [run_bind_ok hact]
    exact (hf a ha).answer hbad'
  error hbad := by
    by_cases hfirst : bad
    · obtain ⟨thrown, w', hact, herrs⟩ := h.error hfirst
      exact ⟨thrown, w', run_bind_error hact, herrs⟩
    · obtain ⟨a, hact, ha⟩ := h.answer hfirst
      rw [run_bind_ok hact]
      exact (hf a ha).error (hbad.resolve_left hfirst)

/-- What comes after a step answers in any case. -/
theorem map {f : α → Action β} (h : w.Attempts answers errs bad act)
    (hf : ∀ a, answers a → ∃ b, ExceptT.run (f a) w = (.ok b, w) ∧ answers' b) :
    w.Attempts answers' errs bad (act >>= f) := by
  refine (h.bind fun a ha => ?_).of_iff (or_false bad).symm.to_iff
  obtain ⟨b, hrun, hb⟩ := hf a ha
  exact .of_run hrun hb not_false

/-- A step that answers comes first. -/
theorem bind_ok {x : Action β} {f : β → Action α} {b : β} (hx : ExceptT.run x w = (.ok b, w))
    (hf : w.Attempts answers errs bad (f b)) : w.Attempts answers errs bad (x >>= f) where
  answer hbad := by
    rw [run_bind_ok hx]
    exact hf.answer hbad
  error hbad := by
    rw [run_bind_ok hx]
    exact hf.error hbad

end World.Attempts

/-! ## What objects hold -/

namespace Heap

variable {h : Heap} {r s : Ref} {v x : Value} {path : List Ref}

/-- The names that JSON asks an object for. -/
def askedNames (h : Heap) (r : Ref) : List Text :=
  match h.shape? (.ref r) with
  | some (.callable _) => []
  | some (.list _ length) => (List.range length).map Text.ofNat
  | _ => (h.members (.ref r)).map (·.1)

/-- What JSON writes of an object. -/
def held (h : Heap) (r : Ref) : List Value := (h.askedNames r).map (h.reading (.ref r))

/-- An object holds a value. -/
def Holds (h : Heap) (a b : Value) : Prop := ∃ r, a = .ref r ∧ b ∈ h.held r

/-- The value has no method of its own for its JSON form. -/
def Formless (h : Heap) (v : Value) : Prop :=
  h.Still v "toJSON" ∧ h.isCallable (h.reading v "toJSON") = false

/-- Objects that hold data which can be asked for without calling anything. What they hold is again
such an object, or no object. -/
structure HoldsData (h : Heap) (S : Finset Ref) : Prop where
  known : ∀ r ∈ S, r < h.size
  closed : ∀ r ∈ S, ∀ s, .ref s ∈ h.held r → s ∈ S
  still : ∀ r ∈ S, ∀ name ∈ h.askedNames r, h.Still (.ref r) name

/-- Neither objects nor integers without bound have methods for their JSON form. -/
structure LacksForms (h : Heap) (S : Finset Ref) : Prop where
  objects : ∀ r ∈ S, h.Formless (.ref r)
  integers : ∀ n, h.Formless (.bigint n)

/-- A path without repetitions is no longer than there are objects. -/
theorem length_le_card {S : Finset Ref} (hnodup : path.Nodup) (hpath : ∀ r ∈ path, r ∈ S) :
    path.length ≤ S.card := by
  rw [← List.toFinset_card_of_nodup hnodup]
  exact Finset.card_le_card fun r hr => hpath r (List.mem_toFinset.mp hr)

/-- Writing the value comes upon an integer without bound, or upon an object of the path. -/
inductive Unwritable (h : Heap) : List Ref → Value → Prop
  | bigint (path : List Ref) (n : Int) : Unwritable h path (.bigint n)
  | cyclic {path : List Ref} {r : Ref} : r ∈ path → h.isCallable (.ref r) = false →
      Unwritable h path (.ref r)
  | inner {path : List Ref} {r : Ref} {x : Value} : r ∉ path → x ∈ h.held r →
      Unwritable h (r :: path) x →
    Unwritable h path (.ref r)

/-- The value is an integer without bound, or it holds itself. -/
def Endless (h : Heap) (v : Value) : Prop := (∃ n, v = .bigint n) ∨ Relation.TransGen h.Holds v v

theorem isCallable_eq_false (hcallable : ∀ c, h.shape? v ≠ some (.callable c)) :
    h.isCallable v = false := by
  unfold isCallable callable?
  split
  next c hshape => exact absurd hshape (hcallable c)
  next => rfl

theorem askedNames_list {cells : List (Nat × Value)} {length : Nat}
    (hshape : h.shape? (.ref r) = some (.list cells length)) :
    h.askedNames r = (List.range length).map Text.ofNat := by
  simp [askedNames, hshape]

theorem askedNames_members (hcallable : ∀ c, h.shape? (.ref r) ≠ some (.callable c))
    (hlist : ∀ cells length, h.shape? (.ref r) ≠ some (.list cells length)) :
    h.askedNames r = (h.members (.ref r)).map (·.1) := by
  unfold askedNames
  split
  next c hshape => exact absurd hshape (hcallable c)
  next cells length hshape => exact absurd hshape (hlist cells length)
  next => rfl

/-- A callable holds nothing. -/
theorem isCallable_of_held (hx : x ∈ h.held r) : h.isCallable (.ref r) = false := by
  refine isCallable_eq_false fun c hshape => ?_
  simp [held, askedNames, hshape] at hx

/-- Whoever follows what objects hold comes upon what is bad wherever this is. -/
theorem unwritable_of_reaches (hreach : Relation.ReflTransGen h.Holds v x)
    (hbad : ∀ path, h.Unwritable path x) (path : List Ref) : h.Unwritable path v := by
  induction hreach using Relation.ReflTransGen.head_induction_on generalizing path with
  | refl => exact hbad path
  | head hstep _ ih =>
    obtain ⟨r, rfl, hheld⟩ := hstep
    by_cases hr : r ∈ path
    · exact .cyclic hr (isCallable_of_held hheld)
    · exact .inner hr hheld (ih (r :: path))

/-- Whoever follows what objects hold to an object of the path comes upon one. -/
theorem unwritable_of_returns (hreach : Relation.ReflTransGen h.Holds v (.ref r)) (hr : r ∈ path)
    (hcallable : h.isCallable (.ref r) = false) : h.Unwritable path v := by
  induction hreach using Relation.ReflTransGen.head_induction_on generalizing path with
  | refl => exact .cyclic hr hcallable
  | head hstep _ ih =>
    -- the way may come upon another object of the path first
    obtain ⟨s, rfl, hheld⟩ := hstep
    by_cases hs : s ∈ path
    · exact .cyclic hs (isCallable_of_held hheld)
    · exact .inner hs hheld (ih (List.mem_cons_of_mem s hr))

theorem unwritable_of_endless (hv : h.Endless v) (path : List Ref) : h.Unwritable path v := by
  obtain ⟨n, rfl⟩ | hcycle := hv
  · exact .bigint path n
  · -- the object is on the path by the time when the way comes back to it
    obtain ⟨x, hstep, hreturn⟩ := Relation.TransGen.head'_iff.mp hcycle
    obtain ⟨r, rfl, hheld⟩ := hstep
    by_cases hr : r ∈ path
    · exact .cyclic hr (isCallable_of_held hheld)
    · exact .inner hr hheld
        (unwritable_of_returns hreturn List.mem_cons_self (isCallable_of_held hheld))

theorem endless_of_unwritable (hv : h.Unwritable path v) :
    (∃ x, Relation.ReflTransGen h.Holds v x ∧ h.Endless x) ∨
      ∃ r ∈ path, Relation.ReflTransGen h.Holds v (.ref r) := by
  induction hv with
  | bigint path n => exact .inl ⟨_, .refl, .inl ⟨n, rfl⟩⟩
  | cyclic hr => exact .inr ⟨_, hr, .refl⟩
  | @inner path r x _ hheld _ ih =>
    have hstep : h.Holds (.ref r) x := ⟨r, rfl, hheld⟩
    obtain ⟨y, hy, hendless⟩ | ⟨s, hs, hreach⟩ := ih
    · exact .inl ⟨y, .head hstep hy, hendless⟩
    · obtain rfl | hs := List.mem_cons.mp hs
      -- the object that was being written is come upon again
      · exact .inl ⟨_, .refl, .inr (Relation.TransGen.head' hstep hreach)⟩
      · exact .inr ⟨s, hs, .head hstep hreach⟩

/-- A value cannot be written exactly if something without end can be reached from it. -/
theorem unwritable_iff : h.Unwritable [] v ↔ ∃ x, Relation.ReflTransGen h.Holds v x ∧
    h.Endless x := by
  constructor
  · intro hv
    obtain hreach | ⟨r, hr, -⟩ := endless_of_unwritable hv
    · exact hreach
    · cases hr
  · rintro ⟨x, hreach, hendless⟩
    exact unwritable_of_reaches hreach (unwritable_of_endless hendless) []

/-- JSON writes the value, if it writes it to the end. -/
def isWritten (h : Heap) : Value → Bool
  | .undefined => false
  | .symbol _ _ => false
  | .ref r => !h.isCallable (.ref r)
  | _ => true

end Heap

/-! ## Writing -/

/-- A type error of the main realm was thrown, and is all that was left behind. -/
def World.FailedType (w : World) (thrown : Value) (w' : World) : Prop :=
  ∃ message, thrown = .ref w.heap.size ∧ w' = w.adding (errorObject .type .main (some message))

namespace Action

open EvalPlan.Evaluator

variable {w : World} {ev : Evaluator} {host : Host} {S : Finset Ref} {v : Value} {path : List Ref}

/-- What has no form of its own is written as it is. -/
theorem run_jsonForm {key : Text} (hrefs : ∀ r, v = .ref r → w.heap.Formless v)
    (hintegers : ∀ n, w.heap.Formless (.bigint n)) :
    ExceptT.run (jsonForm ev key v) w = (.ok v, w) := by
  -- only objects and integers without bound are asked for a form
  have hown (hnullish : v.isNullish = false) (hformless : w.heap.Formless v) :
      ExceptT.run (ownForm ev key v) w = (.ok v, w) := by
    unfold ownForm
    rw [run_bind_ok (run_property_still hnullish hformless.1 rfl), run_bind_ok (run_heap w),
      if_neg (by simp [hformless.2])]
    rfl
  cases v with
  | ref r => exact hown rfl (hrefs r rfl)
  | bigint n => exact hown rfl (hintegers n)
  | _ => rfl

section parts

variable {o : Value} {names : List Text} (hread : ∀ name ∈ names,
    ExceptT.run (property ev .main o name) w = (.ok (w.heap.reading o name), w))
  {errs : Value → World → Prop} {bad : Value → Prop}
  (hjson : ∀ name ∈ names, ∃ answers, w.Attempts answers errs (bad (w.heap.reading o name))
    (ev.json path name (w.heap.reading o name)))

include hread hjson

/-- Properties are written if each of them is. -/
theorem jsonMembers_attempts :
    w.Attempts (fun _ => True) errs (∃ name ∈ names, bad (w.heap.reading o name))
    (jsonMembers ev path o names) := by
  induction names with
  | nil => exact .of_run rfl trivial (by simp)
  | cons name rest ih =>
    obtain ⟨answers, hfirst⟩ := hjson name List.mem_cons_self
    have hrest := ih (fun name hname => hread name (List.mem_cons_of_mem _ hname))
      fun name hname => hjson name (List.mem_cons_of_mem _ hname)
    unfold jsonMembers
    refine World.Attempts.of_iff (.bind_ok (hread name List.mem_cons_self) (hfirst.bind fun t _ =>
      hrest.map fun ts _ => ?_)) (by simp)
    cases t <;> exact ⟨_, rfl, trivial⟩

end parts

theorem exists_from_iff {P : Nat → Prop} {i n : Nat} :
    (∃ j, i ≤ j ∧ j < i + (n + 1) ∧ P j) ↔ P i ∨ ∃ j, i + 1 ≤ j ∧ j < i + 1 + n ∧ P j := by
  constructor
  · rintro ⟨j, hle, hlt, hj⟩
    obtain rfl | hlt' := Nat.eq_or_lt_of_le hle
    · exact .inl hj
    · exact .inr ⟨j, hlt', by omega, hj⟩
  · rintro (hi | ⟨j, hle, hlt, hj⟩)
    · exact ⟨i, Nat.le_refl i, by omega, hi⟩
    · exact ⟨j, by omega, by omega, hj⟩

/-- Items are written if each of them is. -/
theorem jsonItems_attempts {list : Value} {n i : Nat} {errs : Value → World → Prop}
    {bad : Value → Prop} (hread : ∀ j, i ≤ j → j < i + n →
      ExceptT.run (property ev .main list (Text.ofNat j)) w = (.ok (w.heap.item list j), w))
    (hjson : ∀ j, i ≤ j → j < i + n → ∃ answers, w.Attempts answers errs (bad (w.heap.item list j))
      (ev.json path (Text.ofNat j) (w.heap.item list j))) :
    w.Attempts (fun _ => True) errs (∃ j, i ≤ j ∧ j < i + n ∧ bad (w.heap.item list j))
      (jsonItems ev path list n i) := by
  induction n generalizing i with
  | zero => exact .of_run rfl trivial fun ⟨j, hle, hlt, _⟩ => by omega
  | succ n ih =>
    obtain ⟨answers, hfirst⟩ := hjson i (Nat.le_refl i) (by omega)
    have hrest := ih (i := i + 1) (fun j hle hlt => hread j (by omega) (by omega))
      fun j hle hlt => hjson j (by omega) (by omega)
    unfold jsonItems
    exact World.Attempts.of_iff
      (.bind_ok (hread i (Nat.le_refl i) (by omega)) (hfirst.bind fun t _ =>
      hrest.map fun ts _ => ⟨_, rfl, trivial⟩)) exists_from_iff

/-- Nothing can be written of what is on the path, and the rest of what an object holds on a longer
one. -/
theorem unwritable_ref_iff {h : Heap} {r : Ref} (hr : r ∉ path) :
    h.Unwritable path (.ref r) ↔ ∃ name ∈ h.askedNames r,
      h.Unwritable (r :: path) (h.reading (.ref r) name) := by
  constructor
  · intro hbad
    cases hbad with
    | cyclic hmem => exact absurd hmem hr
    | inner _ hheld hinner =>
      obtain ⟨name, hname, rfl⟩ := List.mem_map.mp hheld
      exact ⟨name, hname, hinner⟩
  · rintro ⟨name, hname, hinner⟩
    exact .inner hr (List.mem_map_of_mem hname) hinner

/-- As many items are read as a length leaves room for. -/
theorem length_itemsFrom (cells : List (Nat × Value)) (i n : Nat) :
    (Heap.itemsFrom cells i n).length = n := by
  induction n generalizing cells i with
  | zero => simp [Heap.itemsFrom]
  | succ n ih =>
    cases cells with
    | nil => simp [Heap.itemsFrom, ih]
    | cons cell rest =>
      unfold Heap.itemsFrom
      split <;> simp [ih]

/-- An object is written if what it holds is. -/
theorem jsonObject_attempts (hS : w.heap.HoldsData S) {r : Ref} (hr : r ∈ S)
    (hinner : r ∉ path → ∀ name ∈ w.heap.askedNames r, ∃ answers, w.Attempts answers w.FailedType
      (w.heap.Unwritable (r :: path) (w.heap.reading (.ref r) name))
      (ev.json (r :: path) name (w.heap.reading (.ref r) name))) :
    w.Attempts (fun t : Option Text => t.isSome = w.heap.isWritten (.ref r)) w.FailedType
      (w.heap.Unwritable path (.ref r)) (jsonObject ev path r) := by
  have hread : ∀ name ∈ w.heap.askedNames r,
      ExceptT.run (property ev .main (.ref r) name) w = (.ok (w.heap.reading (.ref r) name), w) :=
    fun name hname => run_property_still rfl (hS.still r hr name hname) rfl
  -- an object that is no callable is written around what it holds, unless it is on the path
  have hobject {texts : Action (List Text)} {f : List Text → Text} {message : Text}
      (hcallable : w.heap.isCallable (.ref r) = false)
      (htexts : r ∉ path → w.Attempts (fun _ => True) w.FailedType
        (∃ name ∈ w.heap.askedNames r, w.heap.Unwritable (r :: path) (w.heap.reading (.ref r) name))
          texts) :
      w.Attempts (fun t : Option Text => t.isSome = w.heap.isWritten (.ref r)) w.FailedType
        (w.heap.Unwritable path (.ref r))
        (if path.contains r then typeError message else do return some (f (← texts))) := by
    by_cases hmem : r ∈ path
    · rw [if_pos (List.contains_iff_mem.mpr hmem)]
      exact .of_error rfl ⟨message, rfl, rfl⟩ (.cyclic hmem hcallable)
    · rw [if_neg (mt List.contains_iff_mem.mp hmem)]
      exact World.Attempts.of_iff
        ((htexts hmem).map fun ts _ => ⟨_, rfl, by simp [Heap.isWritten, hcallable]⟩)
        (unwritable_ref_iff hmem)
  unfold jsonObject
  refine .bind_ok (run_heap w) ?_
  dsimp only
  split
  next c hshape =>
    have hcallable : w.heap.isCallable (.ref r) = true := by
      simp [Heap.isCallable, Heap.callable?, hshape]
    refine .of_run rfl (by simp [Heap.isWritten, hcallable]) fun hbad => ?_
    -- nothing of a callable is written
    cases hbad with
    | cyclic _ hnot => exact absurd hcallable (by simp [hnot])
    | inner _ hheld _ => exact absurd hcallable (by simp [Heap.isCallable_of_held hheld])
  next cells length hshape =>
    have hnames := Heap.askedNames_list hshape
    have hmem {i : Nat} (hi : i < length) : Text.ofNat i ∈ w.heap.askedNames r := by
      rw [hnames]
      exact List.mem_map_of_mem (List.mem_range.mpr hi)
    have hlength : ((w.heap.list? (.ref r)).getD []).length = length := by
      simp [Heap.list?, hshape, length_itemsFrom]
    -- a list is asked for its positions, whether it has items there or not
    refine hobject (Heap.isCallable_eq_false (by simp [hshape])) fun hpath => ?_
    rw [hlength]
    refine World.Attempts.of_iff (jsonItems_attempts (fun j _ hj => hread _ (hmem (by omega)))
      fun j _ hj => hinner hpath _ (hmem (by omega))) ?_
    rw [hnames]
    simp [Heap.item, Heap.reading]
  next hcallable hlist =>
    rw [← Heap.askedNames_members hcallable hlist]
    exact hobject (Heap.isCallable_eq_false hcallable) fun hpath =>
      jsonMembers_attempts hread (hinner hpath)

/-- Writing a value that holds plain data ends with an error exactly if it cannot be written to the
end. -/
theorem json_attempts (hS : w.heap.HoldsData S) (hforms : w.heap.LacksForms S) {n : Nat}
    (hn : S.card < n + path.length)
    (hnodup : path.Nodup) (hpath : ∀ r ∈ path, r ∈ S) (key : Text) (hv : ∀ r, v = .ref r → r ∈ S) :
    w.Attempts (fun t : Option Text => t.isSome = w.heap.isWritten v) w.FailedType
      (w.heap.Unwritable path v) ((evaluator host n).json path key v) := by
  -- the path is no longer than there are objects, and so it can be made longer only so often
  induction n generalizing path key v with
  | zero =>
    have hle := Heap.length_le_card hnodup hpath
    omega
  | succ n ih =>
    have hform : ExceptT.run (jsonForm (evaluator host n) key v) w = (.ok v, w) :=
      run_jsonForm (fun r hr => hr ▸ hforms.objects r (hv r hr)) hforms.integers
    show w.Attempts _ _ _ (evalJson (evaluator host n) path key v)
    unfold evalJson
    refine .bind_ok hform ?_
    cases v with
    | bigint i => exact .of_error rfl ⟨_, rfl, rfl⟩ (.bigint path i)
    | ref r =>
      have hr := hv r rfl
      refine jsonObject_attempts hS hr fun hmem name hname => ⟨_, ih ?_ ?_ ?_ name fun s hs => ?_⟩
      · simp only [List.length_cons]
        omega
      · exact List.nodup_cons.mpr ⟨hmem, hnodup⟩
      · exact List.forall_mem_cons.mpr ⟨hr, hpath⟩
      · exact hS.closed r hr s (hs ▸ List.mem_map_of_mem hname)
    | bool b => cases b <;> exact .of_run rfl rfl nofun
    | _ => exact .of_run rfl rfl nofun

end Action

end EvalPlan
