import EvalPlan.Proofs.Doubles
import EvalPlan.Proofs.JsonForm

/-!
# Values without a text

Converting a value to text asks an object for its text, and a list asks its items. Where the objects
answer by the standard functions (`Heap.Speaks`), the conversion ends with an error exactly if an
object that inherits nothing, or a symbol, can be reached through lists within lists
(`words_attempts`, `Heap.mute_iff`). A list within itself is left empty, so that cycles do not
matter.
-/

namespace EvalPlan

open EvalPlan.Action

namespace Heap

variable {h : Heap} {r : Ref} {v x : Value} {path : List Ref}

/-! ## How objects answer -/

/-- A value finds a standard function under a name. -/
def FindsStandard (h : Heap) (v : Value) (name : Text) (f : Standard) : Prop :=
  ∃ x realm, h.value? v name = some x ∧ h.callable? x = some (.standard f realm)

/-- The object is a list that puts the texts of its items together. Lists of the language are not
longer. -/
structure TellsItems (h : Heap) (r : Ref) : Prop where
  listText : h.FindsStandard (.ref r) "toString" .listText
  join : h.FindsStandard (.ref r) "join" .join
  list : ∃ cells length, h.shape? (.ref r) = some (.list cells length) ∧ length < 2 ^ 32

/-- The object finds no function that could give its text: what cannot be called is passed over, and
so is the object itself for an answer. -/
def TellsNothing (h : Heap) (r : Ref) : Prop :=
  ∀ name ∈ Wish.text.methods, h.Still (.ref r) name ∧
    (h.isCallable (h.reading (.ref r) name) = false ∨ h.FindsStandard (.ref r) name .itself)

/-- How an object answers by the standard functions. -/
inductive Speaks (h : Heap) (r : Ref) : Prop
  /-- It says what it is. -/
  | tag : h.FindsStandard (.ref r) "toString" .objectText → Speaks h r
  /-- It says its declaration. -/
  | declaration : h.FindsStandard (.ref r) "toString" .declaration → h.isCallable (.ref r) = true →
      Speaks h r
  /-- It asks its items. -/
  | items : h.TellsItems r → Speaks h r
  /-- It would ask its items, but has nothing to put them together, and says what it is. -/
  | unjoined : h.FindsStandard (.ref r) "toString" .listText → h.Still (.ref r) "join" →
    h.isCallable (h.reading (.ref r) "join") = false → Speaks h r
  /-- It says nothing. -/
  | nothing : h.TellsNothing r → Speaks h r

/-- Converting the value comes upon a symbol, or upon an object that says nothing. A list of the
path is left empty. -/
inductive Mute (h : Heap) : List Ref → Value → Prop
  | symbol (path : List Ref) (description : Text) (serial : Nat) :
      Mute h path (.symbol description serial)
  | nothing {path : List Ref} {r : Ref} : h.TellsNothing r → Mute h path (.ref r)
  | item {path : List Ref} {r : Ref} {x : Value} : h.TellsItems r → r ∉ path → x ∈ h.held r →
    Mute h (r :: path) x → Mute h path (.ref r)

/-- A list has an item. -/
def Lists (h : Heap) (a b : Value) : Prop := ∃ r, a = .ref r ∧ h.TellsItems r ∧ b ∈ h.held r

/-- The value has no text within a longer one. -/
def Silent (h : Heap) (v : Value) : Prop :=
  (∃ description serial, v = .symbol description serial) ∨ ∃ r, v = .ref r ∧ h.TellsNothing r

/-- What is silent itself is mute. -/
theorem mute_of_silent (hv : h.Silent v) (path : List Ref) : h.Mute path v := by
  obtain ⟨description, serial, rfl⟩ | ⟨r, rfl, hr⟩ := hv
  · exact .symbol path description serial
  · exact .nothing hr

/-- A standard function can be called. -/
theorem FindsStandard.isCallable_reading {name : Text} {f : Standard}
    (hf : h.FindsStandard v name f) : h.isCallable (h.reading v name) = true := by
  obtain ⟨x, realm, hx, hc⟩ := hf
  simp [reading, hx, isCallable, hc]

/-- A property is no two standard functions. -/
theorem FindsStandard.unique {name : Text} {f g : Standard} (hf : h.FindsStandard v name f)
    (hg : h.FindsStandard v name g) : f = g := by
  obtain ⟨x, realm, hx, hc⟩ := hf
  obtain ⟨x', realm', hx', hc'⟩ := hg
  cases hx.symm.trans hx'
  cases hc.symm.trans hc'
  rfl

/-- An object with a `toString` that answers does not tell nothing. -/
theorem not_tellsNothing {f : Standard} (hf : h.FindsStandard (.ref r) "toString" f)
    (hne : f ≠ .itself) : ¬ h.TellsNothing r := by
  intro hnothing
  obtain hnot | hitself := (hnothing "toString" (by decide)).2
  · exact Bool.false_ne_true (hnot.symm.trans hf.isCallable_reading)
  · exact hne (hf.unique hitself)

/-- What says something, and does not ask its items, is not mute. -/
theorem not_mute_of_finds {f : Standard} (hf : h.FindsStandard (.ref r) "toString" f)
    (hne : f ≠ .itself) (hitems : ¬ h.TellsItems r) (path : List Ref) : ¬ h.Mute path (.ref r) := by
  intro hmute
  cases hmute with
  | nothing hnothing => exact not_tellsNothing hf hne hnothing
  | item hsome => exact hitems hsome

/-- Whoever finds another function than that of lists does not ask its items. -/
theorem not_tellsItems {f : Standard} (hf : h.FindsStandard (.ref r) "toString" f)
    (hne : f ≠ .listText) : ¬ h.TellsItems r := fun hitems => hne (hf.unique hitems.listText)

/-- Without a `join` items are not told. -/
theorem not_tellsItems_unjoined (hjoin : h.isCallable (h.reading (.ref r) "join") = false) :
    ¬ h.TellsItems r :=
  fun hitems => Bool.false_ne_true (hjoin.symm.trans hitems.join.isCallable_reading)

/-- A list is mute if it has a mute item, unless it is on the path. -/
theorem mute_ref_iff (hitems : h.TellsItems r) :
    h.Mute path (.ref r) ↔ r ∉ path ∧ ∃ x ∈ h.held r, h.Mute (r :: path) x := by
  constructor
  · intro hmute
    cases hmute with
    | nothing hnothing => exact absurd hnothing (not_tellsNothing hitems.listText (by decide))
    | item _ hr hheld hinner => exact ⟨hr, _, hheld, hinner⟩
  · rintro ⟨hr, x, hheld, hinner⟩
    exact .item hitems hr hheld hinner

/-- Something silent is met along the lists. -/
theorem silent_of_mute (hv : h.Mute path v) : ∃ x, Relation.ReflTransGen h.Lists v x ∧
    h.Silent x := by
  induction hv with
  | symbol path description serial => exact ⟨_, .refl, .inl ⟨description, serial, rfl⟩⟩
  | nothing hr => exact ⟨_, .refl, .inr ⟨_, rfl, hr⟩⟩
  | item hitems _ hheld _ ih =>
    obtain ⟨x, hreach, hsilent⟩ := ih
    exact ⟨x, .head ⟨_, rfl, hitems, hheld⟩ hreach, hsilent⟩

/-- A way that leads on from where it begins does so without coming back there. -/
theorem exists_leaving {α : Type} {R : α → α → Prop} {a x : α}
    (hreach : Relation.ReflTransGen R a x) :
    a = x ∨ ∃ b, R a b ∧ b ≠ a ∧ Relation.ReflTransGen (fun u v => R u v ∧ v ≠ a) b x := by
  induction hreach with
  | refl => exact .inl rfl
  | @tail c d _ hstep ih =>
    -- the way leaves where it was for the last time
    by_cases hd : d = a
    · exact .inl hd.symm
    · obtain rfl | ⟨b, hb, hne, hway⟩ := ih
      · exact .inr ⟨d, hstep, hd, .refl⟩
      · exact .inr ⟨b, hb, hne, hway.tail ⟨hstep, hd⟩⟩

/-- A value from which a silent one can be reached beside the path is mute. -/
theorem mute_of_reaches (hv : ∀ r, v = .ref r → r ∉ path)
    (hreach : Relation.ReflTransGen (fun a b => h.Lists a b ∧ ∀ s, b = .ref s → s ∉ path) v x)
    (hx : h.Silent x) : h.Mute path v := by
  -- there are fewer and fewer objects beside the path
  induction hcount : (Finset.range h.size \ path.toFinset).card using Nat.strong_induction_on
    generalizing path v with
  | _ count ih =>
    obtain rfl | ⟨b, ⟨⟨r, rfl, hitems, hheld⟩, hb⟩, hne, hway⟩ := exists_leaving hreach
    · exact mute_of_silent hx path
    · have hr : r ∉ path := hv r rfl
      have hbeside {s : Ref} {y : Value} (hs : s ∉ path) (hy : y = .ref s) (hyr : y ≠ .ref r) :
          s ∉ r :: path := by
        rintro hmem
        obtain rfl | hmem := List.mem_cons.mp hmem
        · exact hyr hy
        · exact hs hmem
      refine .item hitems hr hheld (ih _ ?_ (fun s hs => hbeside (hb s hs) hs hne) ?_ rfl)
      · rw [← hcount]
        have hsize : r < h.size := by
          obtain ⟨cells, length, hshape, -⟩ := hitems.list
          obtain ⟨o, ho, -⟩ := Option.map_eq_some_iff.mp hshape
          exact (Array.getElem?_eq_some_iff.mp ho).1
        refine Finset.card_lt_card (Finset.ssubset_iff_of_subset ?_ |>.mpr ⟨r, ?_, ?_⟩)
        · exact Finset.sdiff_subset_sdiff (Finset.Subset.refl _) fun s hs => by simp_all
        · simp [hsize, hr]
        · simp
      · exact Relation.ReflTransGen.mono
          (fun _ c ⟨⟨hlists, hc⟩, hcr⟩ => ⟨hlists, fun s hs => hbeside (hc s hs) hs hcr⟩) _ _ hway

/-- A value is mute exactly if a silent one can be reached from it through lists within lists. -/
theorem mute_iff : h.Mute [] v ↔ ∃ x, Relation.ReflTransGen h.Lists v x ∧ h.Silent x := by
  constructor
  · exact silent_of_mute
  · rintro ⟨x, hreach, hx⟩
    exact mute_of_reaches (fun _ _ => List.not_mem_nil)
      (Relation.ReflTransGen.mono (fun _ _ hlists => ⟨hlists, fun _ _ => List.not_mem_nil⟩) _ _ hreach) hx

end Heap

/-! ## Converting -/

/-- Something was thrown, and nothing that could be called was left behind. -/
def World.FailedSomehow (w : World) (_thrown : Value) (w' : World) : Prop :=
  w.heap.Gains w'.heap ∧ w'.joining = w.joining

/-- The world while a list is being put into text. -/
def World.within (w : World) (r : Ref) : World := { w with joining := r :: w.joining }

/-- A new error is a failure. -/
theorem World.failedSomehow_adding (w : World) (kind : ErrorKind) (realm : Realm)
    (message : Option Text) :
    w.FailedSomehow (.ref w.heap.size) (w.adding (errorObject kind realm message)) :=
  ⟨w.heap.gains_push nofun, rfl⟩

namespace Action

variable {w : World} {ev : Evaluator} {host : Host} {realm : Realm} {S : Finset Ref} {r : Ref}
  {v : Value}
  {n length : Nat}

/-! ### Objects -/

/-- An object whose own function answers a text has it. -/
theorem words_attempts_of_call {f : Value} {errs : Value → World → Prop} {bad : Prop}
    (hf : w.heap.value? (.ref r) "toString" = some f) (hcallable : w.heap.isCallable f = true)
    (hcall : w.Attempts (fun x => ∃ t, x = .text t) errs bad (ev.call f (.ref r) [])) :
    w.Attempts (fun _ => True) errs bad (words ev realm (.ref r)) := by
  have hplain : w.Attempts (fun x => ∃ t, x = .text t) errs bad
      (plain ev realm .text (.ref r)) := by
    show w.Attempts _ errs bad (plainBy ev realm (.ref r) ["toString", "valueOf"])
    unfold plainBy
    refine .bind_ok (run_property_ref (Option.bind_eq_some_iff.mp hf)) (.bind_ok (run_heap w) ?_)
    rw [if_pos hcallable]
    refine hcall.map fun x hx => ?_
    obtain ⟨t, rfl⟩ := hx
    exact ⟨_, rfl, t, rfl⟩
  unfold words
  refine hplain.map fun x hx => ?_
  obtain ⟨t, rfl⟩ := hx
  exact ⟨_, rfl, trivial⟩

/-- An object that finds a standard function that answers a text has it, and is not mute. -/
theorem words_attempts_finds {f : Standard} (hf : w.heap.FindsStandard (.ref r) "toString" f)
    (hne : f ≠ .itself) (hitems : ¬ w.heap.TellsItems r)
    (hanswer : ∀ home, ∃ t, ExceptT.run (callStandard (evaluator host n) home f (.ref r) []) w =
      (.ok (.text t), w)) :
    w.Attempts (fun _ => True) w.FailedSomehow (w.heap.Mute w.joining (.ref r))
      (words (evaluator host (n + 1)) realm (.ref r)) := by
  have hnot := Heap.not_mute_of_finds hf hne hitems w.joining
  obtain ⟨x, home, hx, hc⟩ := hf
  obtain ⟨t, ht⟩ := hanswer home
  exact words_attempts_of_call hx (Heap.isCallable_of_callable? hc)
    (.of_run ((run_call_standard hc).trans ht) ⟨t, rfl⟩ hnot)

/-- A callable answers its declaration. -/
theorem run_declaration {home : Realm} (hcallable : w.heap.isCallable (.ref r) = true) :
    ExceptT.run (callStandard ev home .declaration (.ref r) []) w =
      (.ok (.text (declaration w.heap (.ref r))), w) := by
  have hreceiver : ExceptT.run (callableReceiver home (.ref r)) w = (.ok (), w) := by
    unfold callableReceiver
    rw [run_bind_ok (run_heap w), if_neg (by simp [hcallable])]
    rfl
  show ExceptT.run (callableReceiver home (.ref r) >>= _) w = _
  rw [run_bind_ok hreceiver]
  rfl

/-- Nothing is found where nothing that could be called answers with anything else than the
object. -/
theorem run_plainBy_nothing {names : List Text}
    (hnames : ∀ name ∈ names, w.heap.Still (.ref r) name ∧
      (w.heap.isCallable (w.heap.reading (.ref r) name) = false ∨
        w.heap.FindsStandard (.ref r) name .itself)) :
    ExceptT.run (plainBy (evaluator host (n + 1)) realm (.ref r) names) w =
      (.error (.ref w.heap.size),
      w.adding (errorObject .type realm (some "the object stands for no plain value"))) := by
  induction names with
  | nil => rfl
  | cons name rest ih =>
    obtain ⟨⟨hstill, hname⟩, hrest⟩ := List.forall_mem_cons.mp hnames
    have hread : ExceptT.run (property (evaluator host (n + 1)) realm (.ref r) name) w =
        (.ok (w.heap.reading (.ref r) name), w) := run_property_still rfl hstill rfl
    unfold plainBy
    rw [run_bind_ok hread, run_bind_ok (run_heap w)]
    obtain hnot | hitself := hname
    · rw [if_neg (by simp [hnot])]
      exact ih hrest
    · obtain ⟨f, home, hf, hc⟩ := hitself
      have hcall : ExceptT.run ((evaluator host (n + 1)).call (w.heap.reading (.ref r) name) (.ref r) []) w =
          (.ok (.ref r), w) := by
        rw [Heap.reading, hf]
        exact run_call_standard hc
      rw [if_pos (Heap.FindsStandard.isCallable_reading ⟨f, home, hf, hc⟩), run_bind_ok hcall]
      exact ih hrest

/-- An object that says nothing has no text. -/
theorem words_attempts_nothing (hr : w.heap.TellsNothing r) :
    w.Attempts (fun _ => True) w.FailedSomehow True
      (words (evaluator host (n + 1)) realm (.ref r)) :=
  .of_error (run_bind_error (run_plainBy_nothing hr)) (w.failedSomehow_adding _ _ _) trivial

/-! ### Lists -/

/-- A list is asked for as many items as it has. -/
theorem run_countOf {cells : List (Nat × Value)}
    (hshape : w.heap.shape? (.ref r) = some (.list cells length)) (hlength : length < 2 ^ 32) :
    ExceptT.run (countOf ev realm (.ref r)) w = (.ok length, w) := by
  obtain ⟨o, ho, hlist⟩ := Option.map_eq_some_iff.mp hshape
  have hown : o.own? "length" = some (.hidden (Value.ofNat length)) := by
    unfold Object.own?
    rw [hlist]
    rfl
  have hread : ExceptT.run (property ev realm (.ref r) "length") w =
      (.ok (.number (Float.ofNat length)), w) :=
    run_property_ref (Option.bind_eq_some_iff.mp (Heap.value?_own ho hown))
  have hnumber : ExceptT.run (toNumber ev realm (.number (Float.ofNat length))) w =
      (.ok (Float.ofNat length), w) := rfl
  unfold countOf
  rw [run_bind_ok hread, run_bind_ok hnumber]
  -- the double of the length compares as the length does, and rounding loses nothing
  have hpos : 0 < Float.ofNat length ↔ 0 < length := Double.ofNat_lt_iff 0 (by omega)
  have hsmall : Float.ofNat length < 9007199254740991 :=
    (Double.ofNat_lt_iff length (k := 9007199254740991) (by decide)).mpr (by omega)
  by_cases hsome : 0 < Float.ofNat length
  · rw [if_pos hsome, if_pos hsmall, Double.toUInt64_ofNat (by omega)]
    rfl
  · have hnil : length = 0 := Nat.eq_zero_of_not_pos (mt hpos.mpr hsome)
    rw [if_neg hsome, hnil]
    rfl

/-- What happens while a list is being put into text is the same, but for the list being noted. -/
theorem whileJoining_attempts {α : Type} {answers : α → Prop} {bad : Prop} {act : Action α}
    (hact : (w.within r).Attempts answers (w.within r).FailedSomehow bad act) :
    w.Attempts answers w.FailedSomehow bad (whileJoining r act) := by
  -- the list is no longer noted afterwards, whether there was an error or not
  have hrun : ExceptT.run (whileJoining r act) w = ((ExceptT.run act (w.within r)).1,
      { (ExceptT.run act (w.within r)).2 with joining := w.joining }) := rfl
  constructor
  case answer =>
    intro hnot
    obtain ⟨a, hanswer, ha⟩ := hact.answer hnot
    refine ⟨a, ?_, ha⟩
    rw [hrun, hanswer]
    rfl
  case error =>
    intro hbad
    obtain ⟨thrown, w', hthrown, hgains, -⟩ := hact.error hbad
    refine ⟨thrown, { w' with joining := w.joining }, ?_, hgains, rfl⟩
    rw [hrun, hthrown]

/-- Items have texts if each of them has one. -/
theorem itemTexts_attempts {errs : Value → World → Prop} {bad : Value → Prop} {i : Nat}
    (hnullish : ∀ x, x.isNullish = true → ¬ bad x)
    (hread : ∀ j, i ≤ j → j < i + n →
      ExceptT.run (property ev realm (.ref r) (Text.ofNat j)) w = (.ok (w.heap.item (.ref r) j), w))
    (hwords : ∀ j, i ≤ j → j < i + n →
      w.Attempts (fun _ => True) errs (bad (w.heap.item (.ref r) j))
        (words ev realm (w.heap.item (.ref r) j))) :
    w.Attempts (fun _ => True) errs (∃ j, i ≤ j ∧ j < i + n ∧ bad (w.heap.item (.ref r) j))
      (itemTexts ev realm (.ref r) n i) := by
  induction n generalizing i with
  | zero => exact .of_run rfl trivial fun ⟨j, hle, hlt, _⟩ => by omega
  | succ n ih =>
    have hrest := ih (i := i + 1) (fun j hle hlt => hread j (by omega) (by omega))
      fun j hle hlt => hwords j (by omega) (by omega)
    -- an item that is missing has the empty text
    have hfirst : w.Attempts (fun _ => True) errs (bad (w.heap.item (.ref r) i))
        (itemText ev realm (w.heap.item (.ref r) i)) := by
      unfold itemText
      by_cases hempty : (w.heap.item (.ref r) i).isNullish = true
      · rw [if_pos hempty]
        exact .of_run rfl trivial (hnullish _ hempty)
      · rw [if_neg hempty]
        exact hwords i (Nat.le_refl i) (by omega)
    unfold itemTexts
    exact World.Attempts.of_iff
      (.bind_ok (hread i (Nat.le_refl i) (by omega)) (hfirst.bind fun t _ =>
      hrest.map fun ts _ => ⟨_, rfl, trivial⟩)) exists_from_iff

/-- A list that is asked for its text has one if all its items have, unless it is being put into
text already. -/
theorem joinItems_attempts (hitems : w.heap.TellsItems r)
    (hstill : ∀ name ∈ w.heap.askedNames r, w.heap.Still (.ref r) name)
    (hwords : r ∉ w.joining → ∀ x ∈ w.heap.held r, (w.within r).Attempts (fun _ => True)
      (w.within r).FailedSomehow (w.heap.Mute (r :: w.joining) x) (words ev realm x)) :
    w.Attempts (fun _ => True) w.FailedSomehow
      (r ∉ w.joining ∧ ∃ x ∈ w.heap.held r, w.heap.Mute (r :: w.joining) x)
      (joinItems ev realm (.ref r) .undefined) := by
  obtain ⟨cells, length, hshape, hlength⟩ := hitems.list
  have hnames := Heap.askedNames_list hshape
  have hheld : w.heap.held r = w.heap.itemsOf (.ref r) length := by
    simp [Heap.held, hnames, Heap.itemsOf, Heap.item, Heap.reading, Function.comp_def]
  have hitem {j : Nat} (hj : j < length) : w.heap.item (.ref r) j ∈ w.heap.held r := by
    rw [hheld]
    exact List.mem_map_of_mem (List.mem_range.mpr hj)
  have hthis : ExceptT.run (something realm (.ref r)) w = (.ok (.ref r), w) := rfl
  unfold joinItems
  refine .bind_ok hthis (.bind_ok (run_get w) ?_)
  by_cases hmem : r ∈ w.joining
  · rw [if_pos (List.contains_iff_mem.mpr hmem)]
    exact .of_run rfl trivial fun h => h.1 hmem
  · rw [if_neg (mt List.contains_iff_mem.mp hmem)]
    have hcount : ExceptT.run (countOf ev realm (.ref r)) (w.within r) = (.ok length, w.within r) :=
      run_countOf hshape hlength
    -- the items are converted while the list is on the path
    have hmark : ExceptT.run (separatorText ev realm .undefined) (w.within r) =
        (.ok (Text.ofString ","), w.within r) := rfl
    have htexts : (w.within r).Attempts (fun _ => True) (w.within r).FailedSomehow
        (∃ j, 0 ≤ j ∧ j < 0 + length ∧ w.heap.Mute (r :: w.joining) (w.heap.item (.ref r) j))
        (itemTexts ev realm (.ref r) length 0) := by
      refine itemTexts_attempts (fun x hx => ?_)
        (fun j _ hj => run_property_still rfl (hstill _ ?_) rfl)
        fun j _ hj => hwords hmem _ (hitem (by omega))
      · intro hmute
        cases hmute <;> cases hx
      · rw [hnames]
        exact List.mem_map_of_mem (List.mem_range.mpr (by omega))
    refine World.Attempts.of_iff (whileJoining_attempts (.bind_ok hcount (.bind_ok hmark
      (htexts.map fun ts _ => ⟨_, rfl, trivial⟩)))) ?_
    rw [hheld]
    simp [Heap.itemsOf, hmem]

/-- Calling the function of a list that gives its text puts the texts of its items together. -/
theorem listText_attempts {f : Value} {home : Realm} {bad : Prop} (hitems : w.heap.TellsItems r)
    (hf : w.heap.callable? f = some (.standard .listText home))
    (hjoin : ∀ home, w.Attempts (fun _ => True) w.FailedSomehow bad
      (joinItems (evaluator host n) home (.ref r) .undefined)) :
    w.Attempts (fun x => ∃ t, x = .text t) w.FailedSomehow bad
      ((evaluator host (n + 2)).call f (.ref r) []) := by
  obtain ⟨g, home', hg, hgc⟩ := hitems.join
  have hthis : ExceptT.run (something home (.ref r)) w = (.ok (.ref r), w) := rfl
  have hanswer : w.Attempts (fun x => ∃ t, x = .text t) w.FailedSomehow bad
      (callStandard (evaluator host n) home' .join (.ref r) []) :=
    (hjoin home').map fun t _ => ⟨_, rfl, t, rfl⟩
  have hlist : w.Attempts (fun x => ∃ t, x = .text t) w.FailedSomehow bad
      (callStandard (evaluator host (n + 1)) home .listText (.ref r) []) := by
    show w.Attempts _ _ bad (listText (evaluator host (n + 1)) home (.ref r))
    unfold listText
    refine .bind_ok hthis (.bind_ok (run_property_ref (Option.bind_eq_some_iff.mp hg))
      (.bind_ok (run_heap w) ?_))
    rw [if_pos (Heap.isCallable_of_callable? hgc)]
    exact hanswer.of_run_eq (run_call_standard hgc)
  exact hlist.of_run_eq (run_call_standard hf)

/-- A list without a function to put its items together says what it is. -/
theorem run_listText_unjoined {home : Realm} (hstill : w.heap.Still (.ref r) "join")
    (hjoin : w.heap.isCallable (w.heap.reading (.ref r) "join") = false) :
    ExceptT.run (listText ev home (.ref r)) w = (.ok (.text (objectText w.heap (.ref r))), w) := by
  have hthis : ExceptT.run (something home (.ref r)) w = (.ok (.ref r), w) := rfl
  have hread : ExceptT.run (property ev home (.ref r) "join") w =
      (.ok (w.heap.reading (.ref r) "join"), w) :=
    run_property_still rfl hstill rfl
  unfold listText
  rw [run_bind_ok hthis, run_bind_ok hread, run_bind_ok (run_heap w), if_neg (by simp [hjoin])]
  rfl

/-! ### Values -/

/-- Converting a value ends with an error exactly if the value is mute. -/
theorem words_attempts (hS : w.heap.HoldsData S) (hspeaks : ∀ r ∈ S, w.heap.Speaks r)
    (hn : 2 * S.card + 2 ≤ n + 2 * w.joining.length) (hnodup : w.joining.Nodup)
    (hjoining : ∀ r ∈ w.joining, r ∈ S) (hv : ∀ r, v = .ref r → r ∈ S) :
    w.Attempts (fun _ => True) w.FailedSomehow (w.heap.Mute w.joining v)
      (words (evaluator host n) realm v) := by
  -- a list within a list costs two levels, and there are no more of them than objects
  induction n using Nat.strong_induction_on generalizing w v realm with
  | _ n ih =>
    have hle := Heap.length_le_card hnodup hjoining
    obtain ⟨m, rfl⟩ : ∃ m, n = m + 2 := ⟨n - 2, by omega⟩
    cases v with
    | symbol description serial =>
      exact .of_error rfl (w.failedSomehow_adding _ _ _) (.symbol _ description serial)
    | bool b => cases b <;> exact .of_run rfl trivial (by rintro ⟨⟩)
    | ref r =>
      have hr := hv r rfl
      cases hspeaks r hr with
      | nothing hnothing =>
        exact (words_attempts_nothing hnothing).of_iff
          ⟨fun _ => trivial, fun _ => .nothing hnothing⟩
      | tag htag =>
        exact words_attempts_finds htag (by decide) (Heap.not_tellsItems htag (by decide)) fun _ =>
          ⟨_, rfl⟩
      | declaration hdeclaration hcallable =>
        exact words_attempts_finds hdeclaration (by decide)
          (Heap.not_tellsItems hdeclaration (by decide))
          fun _ => ⟨_, run_declaration hcallable⟩
      | unjoined hlist hstill hjoin =>
        exact words_attempts_finds hlist (by decide) (Heap.not_tellsItems_unjoined hjoin)
          fun _ => ⟨_, run_listText_unjoined hstill hjoin⟩
      | items hitems =>
        obtain ⟨f, home, hf, hc⟩ := hitems.listText
        refine words_attempts_of_call hf (Heap.isCallable_of_callable? hc) ?_
        refine listText_attempts hitems hc fun home => ?_
        refine (joinItems_attempts hitems (hS.still r hr) fun hmem x hx => ?_).of_iff
          (Heap.mute_ref_iff hitems)
        refine ih m (by omega) (w := w.within r) hS hspeaks ?_ ?_ ?_ fun s hs =>
          hS.closed r hr s (hs ▸ hx)
        · simp only [World.within, List.length_cons]
          omega
        · exact List.nodup_cons.mpr ⟨hmem, hnodup⟩
        · exact List.forall_mem_cons.mpr ⟨hr, hjoining⟩
    | _ => exact .of_run rfl trivial (by rintro ⟨⟩)

end Action

end EvalPlan
