import EvalPlan.Proofs.OwnText
import EvalPlan.Report

/-!
# Which results are printed

A report of tasks that can be described is printed exactly if its result has a JSON form or a text
(`prints_iff`): the text is asked for where there is no JSON form, and an error is what is left
where there is neither.

A value has a JSON form if it holds no integer without bound and nothing that holds itself, however
deeply (`Heap.HasJson`). It has a text if no symbol and no object that inherits nothing is among its
items, however deeply the lists are nested (`Heap.HasText`). So an object that inherits nothing and
holds an integer without bound has neither (`bareResult_fails`).
-/

namespace EvalPlan

open EvalPlan.Action

namespace Heap

variable {h h' : Heap} {S : Finset Ref} {r : Ref} {v x : Value} {path : List Ref} {name : Text}

/-! ## Forms and texts -/

/-- The value is written as JSON, and nothing that it holds goes on without end. -/
def HasJson (h : Heap) (v : Value) : Prop :=
  h.isWritten v = true ∧ ¬ ∃ x, Relation.ReflTransGen h.Holds v x ∧ h.Endless x

/-- The value is a symbol, or none of its items, however deep, lacks a text. -/
def HasText (h : Heap) (v : Value) : Prop :=
  (∃ description serial, v = .symbol description serial) ∨
    ¬ ∃ x, Relation.ReflTransGen h.Lists v x ∧ h.Silent x

/-- Objects that hold data, have no JSON forms of their own and answer for their texts by the
standard functions. -/
structure PlainData (h : Heap) (S : Finset Ref) : Prop extends h.HoldsData S where
  forms : h.LacksForms S
  speaks : ∀ r ∈ S, h.Speaks r
  rooted : h.Rooted

/-! ## Heaps that read alike -/

/-- Some objects are the same in two heaps, inherit the same, and the same can be called. -/
structure ReadsAlike (h h' : Heap) (S : Finset Ref) : Prop where
  object : ∀ r ∈ S, h'.object? (.ref r) = h.object? (.ref r)
  slot : ∀ r ∈ S, ∀ name, h'.slot? r name = h.slot? r name
  callable : ∀ v, h'.callable? v = h.callable? v

namespace ReadsAlike

/-- Two heaps read alike in either direction. -/
theorem symm (halike : h.ReadsAlike h' S) : h'.ReadsAlike h S where
  object r hr := (halike.object r hr).symm
  slot r hr name := (halike.slot r hr name).symm
  callable v := (halike.callable v).symm

/-- Adding what cannot be called leaves what is read of the objects that were there. -/
theorem of_gains (hrooted : h.Rooted) (hgains : h.Gains h') (hS : ∀ r ∈ S, r < h.size) :
    h.ReadsAlike h' S where
  object r hr := by
    have hlt : r < h.size := hS r hr
    have ho : h.object? (.ref r) = some h[r] := Array.getElem?_eq_getElem hlt
    rw [ho, object?_extends hgains.kept ho]
  slot r hr name := slotWithin_eq hgains.kept (size_le_of_extends hgains.kept) (hrooted r (hS r hr))
  callable v := by
    cases hc : h.callable? v with
    | some c => exact callable?_extends hgains.kept hc
    | none =>
      have hnot : h'.isCallable v = false := by
        rw [isCallable_eq hgains, isCallable, hc]
        rfl
      simpa [isCallable] using hnot

variable (halike : h.ReadsAlike h' S)

include halike

/-- The same properties are found. -/
theorem find? (hr : r ∈ S) : h'.find? .main (.ref r) name = h.find? .main (.ref r) name :=
  halike.slot r hr name

/-- They read alike. -/
theorem reading (hr : r ∈ S) : h'.reading (.ref r) name = h.reading (.ref r) name := by
  unfold Heap.reading value?
  rw [halike.find? hr]

/-- Objects have the same shape. -/
theorem shape? (hr : r ∈ S) : h'.shape? (.ref r) = h.shape? (.ref r) := by
  unfold Heap.shape?
  rw [halike.object r hr]

/-- The same members are asked for. -/
theorem askedNames (hr : r ∈ S) : h'.askedNames r = h.askedNames r := by
  unfold Heap.askedNames members
  rw [halike.shape? hr, halike.object r hr]

/-- The same values are held. -/
theorem held (hr : r ∈ S) : h'.held r = h.held r := by
  unfold Heap.held
  rw [halike.askedNames hr]
  exact List.map_congr_left fun name _ => halike.reading hr

/-- Reading still calls nothing. -/
theorem still (hr : r ∈ S) (hstill : h.Still (.ref r) name) : h'.Still (.ref r) name := by
  unfold Heap.Still
  rw [halike.find? hr]
  exact hstill

/-- What holds data only still does. -/
theorem holdsData (hdata : h.HoldsData S) (hsize : h.size ≤ h'.size) : h'.HoldsData S where
  known r hr := Nat.lt_of_lt_of_le (hdata.known r hr) hsize
  closed r hr s hs := hdata.closed r hr s (halike.held hr ▸ hs)
  still r hr name hname := halike.still hr (hdata.still r hr name (halike.askedNames hr ▸ hname))

/-- The same standard functions are found. -/
theorem findsStandard {f : Standard} (hr : r ∈ S) (hf : h.FindsStandard (.ref r) name f) :
    h'.FindsStandard (.ref r) name f := by
  obtain ⟨x, realm, hx, hc⟩ := hf
  refine ⟨x, realm, ?_, (halike.callable x).trans hc⟩
  unfold value? at hx ⊢
  rw [halike.find? hr]
  exact hx

/-- A list that tells its items still does. -/
theorem tellsItems (hr : r ∈ S) (hitems : h.TellsItems r) : h'.TellsItems r where
  listText := halike.findsStandard hr hitems.listText
  join := halike.findsStandard hr hitems.join
  list := by
    rw [halike.shape? hr]
    exact hitems.list

/-- What is read can be called in both heaps or in neither. -/
theorem isCallable_reading (hr : r ∈ S) :
    h'.isCallable (h'.reading (.ref r) name) = h.isCallable (h.reading (.ref r) name) := by
  rw [halike.reading hr, isCallable, halike.callable, isCallable]

/-- What tells nothing still tells nothing. -/
theorem tellsNothing (hr : r ∈ S) (hnothing : h.TellsNothing r) : h'.TellsNothing r := by
  intro name hname
  obtain ⟨hstill, hnot⟩ := hnothing name hname
  exact ⟨halike.still hr hstill, hnot.imp (halike.isCallable_reading hr).trans (halike.findsStandard hr)⟩

/-- What speaks for itself still does. -/
theorem speaks (hr : r ∈ S) (hspeaks : h.Speaks r) : h'.Speaks r := by
  cases hspeaks with
  | tag hf => exact .tag (halike.findsStandard hr hf)
  | declaration hf hc =>
    refine .declaration (halike.findsStandard hr hf) ?_
    rw [isCallable, halike.callable]
    exact hc
  | items hitems => exact .items (halike.tellsItems hr hitems)
  | unjoined hf hstill hjoin =>
    exact .unjoined (halike.findsStandard hr hf) (halike.still hr hstill)
      ((halike.isCallable_reading hr).trans hjoin)
  | nothing hnothing => exact .nothing (halike.tellsNothing hr hnothing)

/-- What is mute in one of the heaps is so in the other one. -/
theorem mute (hclosed : ∀ r ∈ S, ∀ s, .ref s ∈ h.held r → s ∈ S) (hv : ∀ r, v = .ref r → r ∈ S)
    (hmute : h.Mute path v) : h'.Mute path v := by
  induction hmute with
  | symbol path description serial => exact .symbol path description serial
  | nothing hnothing => exact .nothing (halike.tellsNothing (hv _ rfl) hnothing)
  | item hitems hr hheld _ ih =>
    -- an item is again an object of the set, or no object
    have hmem := hv _ rfl
    exact .item (halike.tellsItems hmem hitems) hr (halike.held hmem ▸ hheld)
      (ih fun s hs => hclosed _ hmem s (hs ▸ hheld))

end ReadsAlike

/-- The text of a value ends with an error exactly if the value is mute. -/
theorem hasText_iff : h.HasText v ↔ (∃ description serial, v = .symbol description serial) ∨
    ¬ h.Mute [] v := by
  rw [HasText, mute_iff]

/-- A value has a JSON text if it is written and nothing in it is unwritable. -/
theorem hasJson_iff : h.HasJson v ↔ h.isWritten v = true ∧ ¬ h.Unwritable [] v := by
  rw [HasJson, unwritable_iff]

/-- Where heaps read alike, the same values have texts. -/
theorem ReadsAlike.hasText_iff (halike : h.ReadsAlike h' S) (hdata : h.HoldsData S)
    (hdata' : h'.HoldsData S) (hv : ∀ r, v = .ref r → r ∈ S) : h'.HasText v ↔ h.HasText v := by
  rw [Heap.hasText_iff, Heap.hasText_iff]
  exact or_congr_right (not_congr
    ⟨halike.symm.mute hdata'.closed hv, halike.mute hdata.closed hv⟩)

end Heap

namespace Action

open Report

variable {w w' : World} {host : Host} {n : Nat} {S : Finset Ref} {v : Value}

/-- Showing a value ends with an error exactly if it has no text. -/
theorem display_attempts (hdata : w.heap.HoldsData S) (hspeaks : ∀ r ∈ S, w.heap.Speaks r)
    (hjoining : w.joining = []) (hn : 2 * S.card + 2 ≤ n) (hv : ∀ r, v = .ref r → r ∈ S) :
    w.Attempts (fun _ => True) w.FailedSomehow (¬ w.heap.HasText v)
      (display (evaluator host n) .main v) := by
  have hwords : w.Attempts (fun _ => True) w.FailedSomehow (w.heap.Mute w.joining v)
      (words (evaluator host n) .main v) :=
    words_attempts hdata hspeaks (by simpa [hjoining] using hn) (by simp [hjoining])
      (by simp [hjoining]) hv
  rw [hjoining] at hwords
  cases v with
  | symbol description serial =>
    -- on its own a symbol has a text, within a longer one it has none
    exact .of_run rfl trivial (not_not_intro (.inl ⟨description, serial, rfl⟩))
  | _ => exact hwords.of_iff (by simp [Heap.hasText_iff])

/-- After something else was thrown, the same values can be shown. -/
theorem display_attempts_after (host : Host) (w' : World) (hdata : w.heap.PlainData S)
    (hgains : w.heap.Gains w'.heap)
    (hjoining : w'.joining = []) (hn : 2 * S.card + 2 ≤ n) (hv : ∀ r, v = .ref r → r ∈ S) :
    w'.Attempts (fun _ => True) w'.FailedSomehow (¬ w.heap.HasText v)
      (display (evaluator host n) .main v) := by
  have halike : w.heap.ReadsAlike w'.heap S := .of_gains hdata.rooted hgains hdata.known
  have hdata' := halike.holdsData hdata.toHoldsData (Heap.size_le_of_extends hgains.kept)
  refine (display_attempts hdata' (fun r hr => halike.speaks hr (hdata.speaks r hr)) hjoining hn hv).of_iff ?_
  rw [halike.hasText_iff hdata.toHoldsData hdata' hv]

section result

variable (host) (hdata : w.heap.PlainData S) (hjoining : w.joining = []) (hn : 2 * S.card + 2 ≤ n)
  (hv : ∀ r, v = .ref r → r ∈ S)

include hdata hjoining hn hv

omit hjoining in
/-- Writing a value in JSON either answers, as it should, or fails with a type error. -/
theorem json_attempts_start :
    w.Attempts (fun t : Option Text => t.isSome = w.heap.isWritten v) w.FailedType
    (w.heap.Unwritable [] v) ((evaluator host n).json [] [] v) :=
  json_attempts hdata.toHoldsData hdata.forms (by simp only [List.length_nil]; omega) List.nodup_nil
    (by simp) [] hv

omit hjoining in
/-- A value that cannot be written to the end is an error. -/
theorem run_jsonOrText_unwritable (hbad : w.heap.Unwritable [] v) : ∃ message,
    ExceptT.run (jsonOrText (evaluator host n) v) w =
      (.error (.ref w.heap.size), w.adding (errorObject .type .main (some message))) := by
  obtain ⟨_, _, hrun, message, rfl, rfl⟩ := (json_attempts_start host hdata hn hv).error hbad
  exact ⟨message, run_bind_error hrun⟩

/-- A value that can is put into words as JSON, or shown where JSON leaves it out. -/
theorem jsonOrText_attempts (hgood : ¬ w.heap.Unwritable [] v) :
    w.Attempts (fun _ => True) w.FailedSomehow (¬ (w.heap.HasJson v ∨ w.heap.HasText v))
      (jsonOrText (evaluator host n) v) := by
  obtain ⟨t, hrun, hwritten⟩ := (json_attempts_start host hdata hn hv).answer hgood
  unfold jsonOrText
  refine .bind_ok hrun ?_
  cases t with
  | some t =>
    exact .of_run rfl trivial (not_not_intro (.inl (Heap.hasJson_iff.mpr ⟨hwritten.symm, hgood⟩)))
  | none =>
    have hnot : ¬ w.heap.HasJson v := fun h => Bool.false_ne_true (hwritten.trans h.1)
    refine (display_attempts hdata.toHoldsData hdata.speaks hjoining hn hv).of_iff ?_
    rw [or_iff_right hnot]

/-- The words of a result are there exactly if it has a JSON form or a text. -/
theorem tryCatch_jsonOrText_iff :
    (∃ t w', ExceptT.run (tryCatch (jsonOrText (evaluator host n) v) fun thrown => do
        if isOwnTypeError (← heap) thrown then display (evaluator host n) .main v
        else throw thrown) w =
      (.ok t, w')) ↔ w.heap.HasJson v ∨ w.heap.HasText v := by
  rw [run_tryCatch]
  by_cases hbad : w.heap.Unwritable [] v
  · have hnot : ¬ w.heap.HasJson v := fun h => (Heap.hasJson_iff.mp h).2 hbad
    obtain ⟨message, hrun⟩ := run_jsonOrText_unwritable host hdata hn hv hbad
    have hown : isOwnTypeError (w.adding (errorObject .type .main (some message))).heap
        (.ref w.heap.size) = true :=
      Heap.inherits_of_parent (w.heap.getElem?_push_self _) rfl
    have hshown := display_attempts_after host (w.adding (errorObject .type .main (some message)))
      hdata (w.heap.gains_push nofun) hjoining hn hv
    -- the error is one of the main realm, so that the text is asked for in its place
    rw [hrun, or_iff_right hnot]
    simp only [run_bind_ok (run_heap _), if_pos hown]
    constructor
    · rintro ⟨t, w', hanswer⟩
      by_contra htext
      obtain ⟨thrown, w₂, hthrown, -⟩ := hshown.error htext
      cases hthrown.symm.trans hanswer
    · intro htext
      obtain ⟨t, hanswer, -⟩ := hshown.answer (not_not_intro htext)
      exact ⟨t, _, hanswer⟩
  · have hwords := jsonOrText_attempts host hdata hjoining hn hv hbad
    by_cases hsome : w.heap.HasJson v ∨ w.heap.HasText v
    · obtain ⟨t, hrun, -⟩ := hwords.answer (not_not_intro hsome)
      rw [hrun]
      exact iff_of_true ⟨t, w, rfl⟩ hsome
    · -- what was thrown is thrown again, or the value is shown in vain once more
      obtain ⟨thrown, w', hrun, hgains, hjoining'⟩ := hwords.error hsome
      have hshown := display_attempts_after host w' hdata hgains (hjoining'.trans hjoining) hn hv
      obtain ⟨thrown', w₂, hthrown, -⟩ := hshown.error fun htext => hsome (.inr htext)
      rw [hrun]
      refine iff_of_false ?_ hsome
      rintro ⟨t, w₃, hanswer⟩
      simp only [run_bind_ok (run_heap _)] at hanswer
      split at hanswer
      · cases hthrown.symm.trans hanswer
      · cases hanswer

/-- The text of a result is there exactly if the value has one in JSON or else by itself. -/
theorem resultText_iff :
    (∃ t w', ExceptT.run (resultText (evaluator host n) v) w = (.ok t, w')) ↔
      w.heap.HasJson v ∨ w.heap.HasText v := by
  have htried := tryCatch_jsonOrText_iff host hdata hjoining hn hv
  unfold resultText
  cases v with
  | undefined => exact iff_of_true ⟨_, w, rfl⟩ (.inr (Heap.hasText_iff.mpr (.inr nofun)))
  | text t => exact iff_of_true ⟨_, w, rfl⟩ (.inr (Heap.hasText_iff.mpr (.inr nofun)))
  | _ => exact htried

end result

end Action

/-! ## Reports -/

namespace Report

variable {ev : Evaluator} {w w' : World} {tasks : List Value}

/-- Tasks are described one after another: each of them answers, and what it answers has words. -/
inductive Described (ev : Evaluator) : World → List Value → World → Prop
  | nil (w : World) : Described ev w [] w
  | cons {w w₁ w₂ w₃ : World} {task v : Value} {t : Text} {rest : List Value} :
    ExceptT.run (describeTask ev task) w = (.ok v, w₁) →
      ExceptT.run (words ev .main v) w₁ = (.ok t, w₂) →
    Described ev w₂ rest w₃ → Described ev w (task :: rest) w₃

/-- There is a line for each of the tasks. -/
theorem run_taskLines (h : Described ev w tasks w') (i : Nat) :
    ∃ ls, ExceptT.run (taskLines ev i tasks) w = (.ok ls, w') ∧ ls.length = tasks.length := by
  induction h generalizing i with
  | nil w => exact ⟨[], rfl, rfl⟩
  | cons hdescribe hwords _ ih =>
    obtain ⟨ls, hrest, hlength⟩ := ih (i + 1)
    unfold taskLines
    rw [run_bind_ok hdescribe, run_bind_ok hwords, run_bind_ok hrest]
    exact ⟨_, rfl, congrArg Nat.succ hlength⟩

/-- There are lines of tasks only if all of them are described. -/
theorem described_of_taskLines {i : Nat} {ls : List Text}
    (h : ExceptT.run (taskLines ev i tasks) w = (.ok ls, w')) : Described ev w tasks w' := by
  induction tasks generalizing w i ls with
  | nil =>
    cases h
    exact .nil _
  | cons task rest ih =>
    unfold taskLines at h
    obtain ⟨v, w₁, hdescribe, h⟩ := bind_eq_ok h
    obtain ⟨t, w₂, hwords, h⟩ := bind_eq_ok h
    obtain ⟨ls', w₃, hrest, h⟩ := bind_eq_ok h
    cases h
    exact .cons hdescribe hwords (ih hrest)

/-- A report has a line for each task and two more, exactly if the tasks can be described and the
result then has a JSON form or a text. Otherwise an error is what is left. -/
theorem prints_iff (host : Host) {n : Nat} {w : World} {e : Environment} {S : Finset Ref}
    (hdata : ∀ w', Described (evaluator host n) w e.tasks w' →
      w'.heap.PlainData S ∧ w'.joining = [])
    (hresult : ∀ r, e.result = .ref r → r ∈ S) (hn : 2 * S.card + 2 ≤ n) :
    (∃ ls w'', ExceptT.run (lines (evaluator host n) e) w = (.ok ls, w'') ∧
        ls.length = e.tasks.length + 2) ↔
      ∃ w', Described (evaluator host n) w e.tasks w' ∧
        (w'.heap.HasJson e.result ∨ w'.heap.HasText e.result) := by
  -- the result is read in the world that the tasks leave behind
  have htext {w' : World} (htasks : Described (evaluator host n) w e.tasks w') :
      (∃ t w'', ExceptT.run (resultText (evaluator host n) e.result) w' = (.ok t, w'')) ↔
        w'.heap.HasJson e.result ∨ w'.heap.HasText e.result :=
    resultText_iff host (hdata w' htasks).1 (hdata w' htasks).2 hn hresult
  constructor
  · rintro ⟨ls, w'', hrun, -⟩
    obtain ⟨taskTexts, w', htaskLines, hrun⟩ := bind_eq_ok hrun
    obtain ⟨t, w₁, hresultText, -⟩ := bind_eq_ok hrun
    have htasks := described_of_taskLines htaskLines
    exact ⟨w', htasks, (htext htasks).mp ⟨t, w₁, hresultText⟩⟩
  · rintro ⟨w', htasks, hsome⟩
    obtain ⟨taskTexts, htaskLines, hlength⟩ := run_taskLines htasks 1
    obtain ⟨t, w'', hresultText⟩ := (htext htasks).mpr hsome
    unfold lines
    rw [run_bind_ok htaskLines, run_bind_ok hresultText]
    exact ⟨_, _, rfl, by simp [hlength]⟩

/-! ### A report without tasks -/

namespace Blank

/-- A world that holds one object more than those of the beginning. -/
def world (o : Object) : World := World.initial (Domain.heap.push o)

/-- No tasks, and the object of such a world as the result. -/
def environment : Environment := ⟨[], .ref Domain.heap.size⟩

/-- An engine that prints what it has to say. -/
def host : Host := Host.engineWithBus (Logger.printing "plans") []

/-- A list of an integer without bound. -/
def integers : Object := Object.empty (.ofItems [.bigint 1]) (some (Realm.main.template .list))

/-- The result is the object that was made last. -/
theorem getElem?_world (o : Object) : (world o).heap[Domain.heap.size]? = some o :=
  Domain.heap.getElem?_push_self o

/-- The list finds the functions of lists. -/
theorem findsStandard_integers {name : Text} {f : Standard} (hown : integers.own? name = none)
    (hslot : Domain.heap.slotWithin name 1 (Realm.main.template .list) =
      some (.hidden (.ref (Realm.main.standard f))))
    (hf : Domain.heap.callable? (.ref (Realm.main.standard f)) = some (.standard f .main)) :
    (world integers).heap.FindsStandard (.ref Domain.heap.size) name f := by
  have hext : Domain.heap.Extends (world integers).heap := Domain.heap.extends_push integers
  have hsize : 1 < (world integers).heap.size := by decide +kernel
  refine ⟨_, .main, ?_, Heap.callable?_extends hext hf⟩
  rw [Heap.value?, Heap.find?, Heap.slot?_of_parent hext hsize (getElem?_world integers) hown rfl hslot]
  rfl

/-- The list tells its items by the functions it inherits. -/
theorem tellsItems_integers : (world integers).heap.TellsItems Domain.heap.size where
  listText := findsStandard_integers rfl rfl rfl
  join := findsStandard_integers rfl rfl rfl
  list := by
    refine ⟨[(0, .bigint 1)], 1, ?_, by decide⟩
    rw [Heap.shape?, Heap.object?, getElem?_world]
    rfl

/-- It is asked for its one item. -/
theorem askedNames_integers : (world integers).heap.askedNames Domain.heap.size =
    [Text.ofNat 0] := by
  rw [Heap.askedNames, Heap.shape?, Heap.object?, getElem?_world]
  rfl

/-- It holds the integer. -/
theorem held_integers : (world integers).heap.held Domain.heap.size = [.bigint 1] := by
  have hitem : (world integers).heap.value? (.ref Domain.heap.size) (Text.ofNat 0) =
      some (.bigint 1) :=
    Heap.value?_own (getElem?_world integers) rfl
  rw [Heap.held, askedNames_integers, List.map_singleton, Heap.reading, hitem]
  rfl

/-- It is plain data all the same. -/
theorem plainData_integers : (world integers).heap.PlainData {Domain.heap.size} where
  known r hr := by
    rw [Finset.mem_singleton.mp hr]
    decide +kernel
  closed r hr s hs := by
    rw [Finset.mem_singleton.mp hr, held_integers] at hs
    cases List.mem_singleton.mp hs
  still r hr name hname := by
    rw [Finset.mem_singleton.mp hr] at hname ⊢
    rw [askedNames_integers, List.mem_singleton] at hname
    intro getter setter
    rw [hname, Heap.find?, Heap.slot?_own (getElem?_world integers) rfl]
    rintro ⟨⟩
  forms := by
    -- neither the list nor an integer finds a `toJSON` along its templates
    have hform {r : Ref} (hr : r = Domain.heap.size ∨ r = Realm.main.template .integer) :
        (world integers).heap.slot? r "toJSON" = none := by
      refine Option.isNone_iff_eq_none.mp ?_
      obtain rfl | rfl := hr <;> decide +kernel
    have hformless {v : Value} (hv : (world integers).heap.find? .main v "toJSON" = none) :
        (world integers).heap.Formless v :=
      ⟨fun getter setter => by simp [hv], by simp [Heap.reading, Heap.value?, hv, Heap.isCallable]; rfl⟩
    exact ⟨fun r hr => hformless (hform (.inl (Finset.mem_singleton.mp hr))),
      fun n => hformless (hform (.inr rfl))⟩
  speaks r hr := by
    rw [Finset.mem_singleton.mp hr]
    exact .items tellsItems_integers
  rooted := by
    -- one object is added, and its template is one of the main realm
    show Heap.Rooted (Domain.heap.push integers)
    rw [Array.push_eq_append]
    refine Domain.rooted_heap.append _ fun o ho p hp => ?_
    rw [List.mem_singleton.mp (List.mem_toArray.mp ho)] at hp
    cases hp
    decide +kernel

end Blank

open Blank

/-- A list of an integer without bound has no JSON form, and is printed by its text. -/
theorem prints_iff_integers : ¬ (world integers).heap.HasJson environment.result ∧
    ∃ ls w', ExceptT.run (lines (evaluator host 4) environment) (world integers) = (.ok ls, w') ∧
      ls.length = environment.tasks.length + 2 := by
  have hholds : (world integers).heap.Holds environment.result (.bigint 1) :=
    ⟨_, rfl, by rw [held_integers]; exact List.mem_singleton_self _⟩
  refine ⟨fun hjson => hjson.2 ⟨_, .single hholds, .inl ⟨1, rfl⟩⟩, ?_⟩
  refine (prints_iff host (S := {Domain.heap.size}) ?_ ?_ (by simp)).mpr
    ⟨_, .nil _, .inr (Heap.hasText_iff.mpr (.inr ?_))⟩
  · rintro w' ⟨⟩
    exact ⟨plainData_integers, rfl⟩
  · rintro r hr
    cases hr
    exact Finset.mem_singleton_self _
  · -- its only item has a text
    intro hmute
    obtain ⟨-, x, hx, hitem⟩ := (Heap.mute_ref_iff tellsItems_integers).mp hmute
    rw [held_integers] at hx
    cases List.mem_singleton.mp hx
    cases hitem

/-- An object that inherits nothing and holds an integer without bound is not printed. -/
theorem bareResult_fails :
    (ExceptT.run (lines (evaluator host 8) environment)
      (world (Object.holding .plain none [("n", .bigint 1)]))).1.toBool = false := by
  decide +kernel

end Report

end EvalPlan
