import EvalPlan.Proofs.Shift.Foundation
import EvalPlan.Proofs.Shift.Source

/-!
# Engines that stand untouched

`World.SetUp` is said of an engine that was set up: its world names only what it holds. It holds of
the world that everything begins with, and setting things up keeps it. In a later world the engine
stands untouched (`World.Untouched`) if what was set up is there as it was; that world is the first
one with room made for what came later (`World.Untouched.worlds`), so that whatever is done there
follows what is done in the first one (`World.Untouched.sameSince`).
-/

namespace EvalPlan

open EvalPlan.Action

/-- What can be read is listed. -/
theorem Files.mem_of_read {f : Files} {path : Text} {node : FileNode} (h : f.read path = .ok node) :
    ∃ p, (p, node) ∈ f.nodes := by
  obtain ⟨hlookup, hdirectory⟩ : f.lookup path = some node ∧ node ≠ .directory := by
    unfold Files.read at h
    split at h
    case h_4 hdirectory _ hlookup => exact ⟨by cases h; exact hlookup, by cases h; exact hdirectory⟩
    all_goals cases h
  -- what is read is neither a directory nor beyond a file, so that it was looked up in the table
  have hnode : f.nodeAt (f.absolute path) = some node := by
    unfold Files.lookup at hlookup
    split at hlookup
    · cases hlookup
    · cases hlookup
      exact absurd rfl hdirectory
    · split at hlookup
      · cases hlookup
      · exact hlookup
  unfold Files.nodeAt at hnode
  split at hnode
  next hfound =>
    cases hnode
    obtain ⟨p, -, hmem⟩ := Table.mem_of_get? hfound
    exact ⟨p, hmem⟩
  next =>
    split at hnode <;> cases hnode
    exact absurd rfl hdirectory

/-! ## Engines that were set up -/

/-- The shift moves nothing that the world holds. -/
structure Shift.Beyond (σ : Shift) (w : World) : Prop where
  objects : w.heap.size ≤ σ.objects
  frames : w.frames.size ≤ σ.frames
  runs : w.scopes.tasks.size ≤ σ.runs

namespace World

/-- An engine that was set up and carries no script out. Its world names only what it holds: moving
what is made later moves nothing of it. -/
structure SetUp (w : World) : Prop where
  bound : Domain.bound ≤ w.heap.size
  object : ∀ {σ : Shift}, σ.Beyond w → ∀ (r : Nat) o, w.heap[r]? = some o →
    σ.object o = o ∧ σ.FitsObject o
  frame : ∀ {σ : Shift}, σ.Beyond w → ∀ (f : Nat) frame, w.frames[f]? = some frame →
    σ.bindings frame = frame
  mappings : ∀ {σ : Shift}, σ.Beyond w → ∀ row ∈ w.mappings,
    σ.value row.1 = row.1 ∧ σ.value row.2 = row.2
  keeps : ∀ {σ : Shift}, σ.Beyond w → σ.Keeps w
  binding : w.binding = none
  joining : w.joining = []

/-- The engine that was set up stands untouched in a later world: its objects, variables, runs and
registered builders are as they were, and so is what it looks up. -/
structure Untouched (w₀ w : World) : Prop where
  heap_le : w₀.heap.size ≤ w.heap.size
  object : ∀ r < w₀.heap.size, w.heap[r]? = w₀.heap[r]?
  frames_le : w₀.frames.size ≤ w.frames.size
  frame : ∀ f < w₀.frames.size, w.frames[f]? = w₀.frames[f]?
  runs_le : w₀.scopes.tasks.size ≤ w.scopes.tasks.size
  isOpen : ∀ id < w₀.scopes.tasks.size, w.scopes.isOpen id = w₀.scopes.isOpen id
  mappings : w.mappings = w₀.mappings
  types : w.types = w₀.types
  resources : w.resources = w₀.resources
  files : w.files = w₀.files
  bus : w.bus = w₀.bus
  clock : w.clock = w₀.clock
  /-- Lists that are being put into text were made later. -/
  joining : ∀ r ∈ w.joining, w₀.heap.size ≤ r ∧ r < w.heap.size
  /-- The bound run was begun. -/
  begun : ∀ id, w.binding = some id → id < w.scopes.tasks.size

variable {w₀ w : World}

/-! ### Setting an engine up -/

theorem setUp_initial : (World.initial Domain.heap).SetUp where
  bound := by decide +kernel
  object _ _ _ ho := Shift.object_foundation _ ho
  frame _ _ _ hframe := by cases hframe
  mappings _ _ hrow := by cases hrow
  keeps _ :=
    { types := nofun
      broken := nofun
      files := fun _ _ hread => by
        obtain ⟨_, hmem⟩ := Files.mem_of_read hread
        cases hmem
      subscribers := fun _ _ hsub => by cases hsub
      ordered := Bus.ordered_empty }
  binding := rfl
  joining := rfl

/-- An object is added that names only what is there. -/
theorem SetUp.alloc (h : w.SetUp) {o : Object}
    (ho : ∀ {σ : Shift}, σ.Beyond w → σ.object o = o ∧ σ.FitsObject o) :
    ({ w with heap := w.heap.push o } : World).SetUp := by
  -- a shift beyond the larger heap is beyond the smaller one
  have hbeyond {σ : Shift} (hσ : σ.Beyond { w with heap := w.heap.push o }) : σ.Beyond w :=
    { hσ with objects := Nat.le_trans (by rw [Array.size_push]; exact Nat.le_succ _) hσ.objects }
  exact
    { bound := by
        show _ ≤ (w.heap.push o).size
        rw [Array.size_push]
        exact Nat.le_succ_of_le h.bound
      object := fun hσ r o' ho' => by
        have ho' : (w.heap.push o)[r]? = some o' := ho'
        rw [Array.getElem?_push] at ho'
        split at ho'
        · cases ho'
          exact ho (hbeyond hσ)
        · exact h.object (hbeyond hσ) r o' ho'
      frame := fun hσ => h.frame (hbeyond hσ)
      mappings := fun hσ => h.mappings (hbeyond hσ)
      keeps := fun hσ => (h.keeps (hbeyond hσ)).of_eq rfl rfl rfl
      binding := h.binding
      joining := h.joining }

section

variable (h : w.SetUp)

include h

/-- A subscriber is added that throws only what names what is there. -/
theorem SetUp.subscribe (type : Text) {s : Subscriber}
    (hs : ∀ v, s.reaction = .fail v → ∀ {σ : Shift}, σ.Beyond w → σ.value v = v) :
    ({ w with bus := w.bus.subscribe type s } : World).SetUp :=
  { h with
    object := fun hσ => h.object ⟨hσ.objects, hσ.frames, hσ.runs⟩
    frame := fun hσ => h.frame ⟨hσ.objects, hσ.frames, hσ.runs⟩
    mappings := fun hσ => h.mappings ⟨hσ.objects, hσ.frames, hσ.runs⟩
    keeps := fun {σ} hσ => by
      have hbeyond : σ.Beyond w := ⟨hσ.objects, hσ.frames, hσ.runs⟩
      have hkeeps := h.keeps hbeyond
      refine { hkeeps with
        subscribers := fun c sub hsub v hv => ?_
        ordered := hkeeps.ordered.subscribe type s }
      rcases Bus.mem_channel_subscribe hsub with hearlier | hnew
      · exact hkeeps.subscribers c sub hearlier v hv
      · rw [hnew] at hv
        exact hs v hv hbeyond }

/-- A type is defined that is there. -/
theorem SetUp.define (name : Text) {type : Value}
    (htype : ∀ {σ : Shift}, σ.Beyond w → σ.value type = type) :
    ({ w with types := { w.types with table := w.types.table.put name type } } : World).SetUp :=
  { h with
    object := fun hσ => h.object ⟨hσ.objects, hσ.frames, hσ.runs⟩
    frame := fun hσ => h.frame ⟨hσ.objects, hσ.frames, hσ.runs⟩
    mappings := fun hσ => h.mappings ⟨hσ.objects, hσ.frames, hσ.runs⟩
    keeps := fun {σ} hσ => by
      have hbeyond : σ.Beyond w := ⟨hσ.objects, hσ.frames, hσ.runs⟩
      have hkeeps := h.keeps hbeyond
      refine { hkeeps with types := fun n v hv => ?_ }
      have hv : (w.types.table.put name type).get? n = some v := hv
      by_cases hn : name = n
      · rw [hn, Table.get?_put_same] at hv
        cases hv
        exact htype hbeyond
      · rw [Table.get?_put_of_ne _ hn] at hv
        exact hkeeps.types n v hv }

/-- A builder is registered for a type. -/
theorem SetUp.register {type builder : Value}
    (hrow : ∀ {σ : Shift}, σ.Beyond w → σ.value type = type ∧ σ.value builder = builder) :
    ({ w with mappings := w.mappings.put type builder } : World).SetUp :=
  { h with
    object := fun hσ => h.object ⟨hσ.objects, hσ.frames, hσ.runs⟩
    frame := fun hσ => h.frame ⟨hσ.objects, hσ.frames, hσ.runs⟩
    mappings := fun {σ} hσ row hmem => by
      have hbeyond : σ.Beyond w := ⟨hσ.objects, hσ.frames, hσ.runs⟩
      obtain ⟨htype, hbuilder⟩ := hrow hbeyond
      rcases Table.mem_put hmem with hearlier | ⟨hvalue, hkey⟩
      · exact h.mappings hbeyond row hearlier
      · refine ⟨?_, hvalue ▸ hbuilder⟩
        rcases hkey with hkey | hkey
        · exact hkey ▸ htype
        -- the key that stands there already is the same as the type
        · cases hrow : row.1 with
          | ref r =>
            rw [hrow, Value.ref_beq] at hkey
            exact hkey ▸ htype
          | symbol description serial =>
            rw [hrow] at hkey
            cases type with
            | symbol _ serial' =>
              have hserial : serial = serial' := eq_of_beq hkey
              rw [hserial]
              exact congrArg (Value.symbol description) (Value.symbol.inj htype).2
            | _ => cases hkey
          | _ => rfl
    keeps := fun hσ => (h.keeps ⟨hσ.objects, hσ.frames, hσ.runs⟩).of_eq rfl rfl rfl }

/-- Files are laid out whose scripts name only what is there. -/
theorem SetUp.layOut (resources : Resources) {files : Files}
    (hfiles : ∀ p program, (p, .script program) ∈ files.nodes →
      ∀ {σ : Shift}, σ.Beyond w → σ.program program = program) :
    ({ w with resources, files } : World).SetUp :=
  { h with
    object := fun hσ => h.object ⟨hσ.objects, hσ.frames, hσ.runs⟩
    frame := fun hσ => h.frame ⟨hσ.objects, hσ.frames, hσ.runs⟩
    mappings := fun hσ => h.mappings ⟨hσ.objects, hσ.frames, hσ.runs⟩
    keeps := fun {σ} hσ => by
      have hbeyond : σ.Beyond w := ⟨hσ.objects, hσ.frames, hσ.runs⟩
      refine { h.keeps hbeyond with files := fun path program hread => ?_ }
      obtain ⟨p, hmem⟩ := Files.mem_of_read hread
      exact hfiles p program hmem hbeyond }

end

/-! ### Later worlds -/

theorem SetUp.untouched (h₀ : w₀.SetUp) : w₀.Untouched w₀ where
  heap_le := Nat.le_refl _
  object _ _ := rfl
  frames_le := Nat.le_refl _
  frame _ _ := rfl
  runs_le := Nat.le_refl _
  isOpen _ _ := rfl
  mappings := rfl
  types := rfl
  resources := rfl
  files := rfl
  bus := rfl
  clock := rfl
  joining r hr := by
    rw [h₀.joining] at hr
    cases hr
  begun id hid := by
    rw [h₀.binding] at hid
    cases hid

/-! ### The later world as a moved one -/

/-- The shift that makes room for what the later world holds besides. -/
def room (w₀ w : World) (h : Domain.bound ≤ w₀.heap.size) : Shift where
  objects := w₀.heap.size
  objectsBy := w.heap.size - w₀.heap.size
  frames := w₀.frames.size
  framesBy := w.frames.size - w₀.frames.size
  runs := w₀.scopes.tasks.size
  runsBy := w.scopes.tasks.size - w₀.scopes.tasks.size
  bound := h

theorem room_beyond (w₀ w : World) (h : Domain.bound ≤ w₀.heap.size) : (w₀.room w h).Beyond w₀ :=
  ⟨Nat.le_refl _, Nat.le_refl _, Nat.le_refl _⟩

section

variable (h₀ : w₀.SetUp) (hw : w₀.Untouched w)

include hw

theorem Untouched.heaps : (w₀.room w h₀.bound).Heaps w₀.heap w.heap := by
  have hbeyond := room_beyond w₀ w h₀.bound
  have hsize : w.heap.size = w₀.heap.size + (w.heap.size - w₀.heap.size) :=
    (Nat.add_sub_cancel' hw.heap_le).symm
  refine ⟨hsize, Nat.le_refl _, fun r => ?_, fun r o ho => (h₀.object hbeyond r o ho).2⟩
  by_cases hr : r < w₀.heap.size
  · rw [show (w₀.room w h₀.bound).ref r = r from if_pos hr, hw.object r hr]
    cases ho : w₀.heap[r]? with
    | none => rfl
    | some o => exact congrArg some (h₀.object hbeyond r o ho).1.symm
  · rw [show (w₀.room w h₀.bound).ref r = r + (w.heap.size - w₀.heap.size) from if_neg hr,
      Array.getElem?_eq_none (by omega), Array.getElem?_eq_none (by omega)]
    rfl

theorem Untouched.frame_room (f : Nat) :
    w.frames[(w₀.room w h₀.bound).frame f]? =
      (w₀.frames[f]?).map (w₀.room w h₀.bound).bindings := by
  have hsize := Nat.add_sub_cancel' hw.frames_le
  by_cases hf : f < w₀.frames.size
  · rw [show (w₀.room w h₀.bound).frame f = f from if_pos hf, hw.frame f hf]
    cases hframe : w₀.frames[f]? with
    | none => rfl
    | some frame => exact congrArg some (h₀.frame (room_beyond w₀ w h₀.bound) f frame hframe).symm
  · rw [show (w₀.room w h₀.bound).frame f = f + (w.frames.size - w₀.frames.size) from if_neg hf,
      Array.getElem?_eq_none (by omega), Array.getElem?_eq_none (by omega)]
    rfl

/-- A run that has not begun where the engine was set up has not begun where it stands untouched. -/
theorem Untouched.open?_room {id : RunId} (hid : w₀.scopes.tasks.size ≤ id) :
    w₀.scopes.open? id = none ∧ w.scopes.open? ((w₀.room w h₀.bound).run id) = none := by
  have hsize := Nat.add_sub_cancel' hw.runs_le
  refine ⟨Scopes.open?_of_le _ hid, ?_⟩
  rw [show (w₀.room w h₀.bound).run id = id + (w.scopes.tasks.size - w₀.scopes.tasks.size) from
    if_neg (Nat.not_lt.mpr hid)]
  exact Scopes.open?_of_le _ (by omega)

theorem Untouched.isOpen_room (id : RunId) :
    w.scopes.isOpen ((w₀.room w h₀.bound).run id) = w₀.scopes.isOpen id := by
  by_cases hid : id < w₀.scopes.tasks.size
  · rw [show (w₀.room w h₀.bound).run id = id from if_pos hid, hw.isOpen id hid]
  · obtain ⟨halone, hthere⟩ := hw.open?_room h₀ (Nat.le_of_not_lt hid)
    unfold Scopes.isOpen
    rw [halone, hthere]

/-- No list that is being put into text was there where the engine was set up. -/
theorem Untouched.joining_room (r : Nat) :
    w.joining.contains ((w₀.room w h₀.bound).ref r) = false := by
  refine Bool.eq_false_iff.mpr fun hmem => ?_
  obtain ⟨hle, hlt⟩ := hw.joining _ (List.contains_iff_mem.mp hmem)
  by_cases hr : r < w₀.heap.size
  · rw [show (w₀.room w h₀.bound).ref r = r from if_pos hr] at hle
    exact absurd hr (Nat.not_lt.mpr hle)
  · rw [show (w₀.room w h₀.bound).ref r = r + (w.heap.size - w₀.heap.size) from if_neg hr] at hlt
    have hlt : r + (w.heap.size - w₀.heap.size) < w.heap.size := hlt
    omega

/-- Where the engine stands untouched, the world is the one that was set up with room made for what
came later. -/
theorem Untouched.worlds {s : Surroundings}
    (hbinding : w.binding = (w₀.room w h₀.bound).binding s none)
    (houter : ∀ id, s = .free (some id) → id < w.scopes.tasks.size ∧ w.scopes.isOpen id = false) :
    (w₀.room w h₀.bound).Worlds s w₀ w where
  heaps := hw.heaps h₀
  frames_size := (Nat.add_sub_cancel' hw.frames_le).symm
  frames_le := Nat.le_refl _
  frame := hw.frame_room h₀
  runs_size := (Nat.add_sub_cancel' hw.runs_le).symm
  runs_le := Nat.le_refl _
  isOpen := hw.isOpen_room h₀
  tasks id hid := by
    obtain ⟨halone, hthere⟩ := hw.open?_room h₀ hid
    rw [halone, hthere]
    rfl
  binding := by
    rw [h₀.binding]
    exact hbinding
  outer := houter
  mappings := by
    rw [hw.mappings]
    refine ((List.map_congr_left fun row hrow => ?_).trans (List.map_id _)).symm
    -- types and builders of the setup stay at their places
    obtain ⟨htype, hbuilder⟩ := h₀.mappings (room_beyond w₀ w h₀.bound) row hrow
    rw [htype, hbuilder]
    rfl
  types := hw.types
  resources := hw.resources
  files := hw.files
  bus := hw.bus
  clock := hw.clock
  keeps := h₀.keeps (room_beyond w₀ w h₀.bound)
  joining r := by
    rw [h₀.joining, hw.joining_room h₀ r]
    rfl

end

end World

/-! ## What is done there -/

/-- Two outcomes differ only in the identity of what was made since a world. -/
def Action.SameSince {α : Type} (w₀ : World) (f : Shift → α → α) (p q : Except Value α × World) :
    Prop :=
  ∃ σ : Shift, σ.objects = w₀.heap.size ∧ q.1 = Action.moved σ (f σ) p.1 ∧ σ.Heaps p.2.heap q.2.heap

namespace World

variable {w₀ w : World}

/-- Nothing that the action offers while no run is bound is taken by an enclosing run: there is
none, or the action offers nothing so. -/
def Shields {α : Type} (role : Role) (w₀ : World) (act : Action α) (w : World) : Prop :=
  w.scopes.current? w.binding = none ∨
    role = .engine ∧ (ExceptT.run act w₀).2.strays = w₀.strays

/-- Where the engine stands untouched, an action that names only what was set up comes out as it
does alone, if no enclosing run takes what it offers. -/
theorem Untouched.sameSince (h₀ : w₀.SetUp) (hw : w₀.Untouched w) {role : Role} {α : Type}
    {f : Shift → α → α} {act : Action α}
    (hact : ∀ {σ : Shift}, σ.Beyond w₀ → Follows role σ (f σ) act act)
    (hshields : Shields role w₀ act w) :
    SameSince w₀ f (ExceptT.run act w₀) (ExceptT.run act w) := by
  have hfollows := hact (room_beyond w₀ w h₀.bound)
  -- where no run takes tasks, the world around the setup may be anything
  have hfree (hcurrent : w.scopes.current? w.binding = none) :
      SameSince w₀ f (ExceptT.run act w₀) (ExceptT.run act w) := by
    have hworlds := hw.worlds h₀ (s := .free w.binding) rfl fun id hid => by
      cases hbinding : w.binding with
      | none => rw [hbinding] at hid; cases hid
      | some run =>
        rw [hbinding] at hid
        cases hid
        refine ⟨hw.begun _ hbinding, Bool.eq_false_iff.mpr fun hopen => ?_⟩
        rw [hbinding, (w.scopes.current?_eq_some).mpr ⟨rfl, hopen⟩] at hcurrent
        cases hcurrent
    obtain ⟨hresult, hafter⟩ := (hfollows.free hworlds).2
    exact ⟨_, rfl, hresult, hafter.heaps⟩
  rcases hshields with hcurrent | ⟨hrole, hclean⟩
  · exact hfree hcurrent
  · cases hbinding : w.binding with
    | none => exact hfree (by rw [hbinding]; rfl)
    | some run =>
      -- within a run that takes tasks the action has to hand none over
      have hworlds := hw.worlds h₀ (s := .within run) hbinding nofun
      obtain ⟨hresult, hafter⟩ := hfollows.within hrole hworlds hclean
      exact ⟨_, rfl, hresult, hafter.heaps⟩

end World

end EvalPlan
