import EvalPlan.Proofs.Law

/-!
# Properties, texts and the journal follow the rules

Whatever trait the calls have that a value may answer, reading and assigning its properties has too,
and so have putting it into text, logging it and emitting an event about it.
-/

namespace EvalPlan.Action

variable {T : Trait} {ev : Evaluator}

/-! ## Properties -/

section property

variable (law : Stable T) (hev : ev.Meets T)

include law hev

/-- Reading a property has a trait if calls have it, since the property may be computed by a
getter. -/
theorem property_holds (realm : Realm) (v : Value) (name : Text) :
    T.holds (property ev realm v name) := by
  unfold property
  split
  · exact law.crashIn _ _ _
  · refine law.bind law.heap fun h => ?_
    split
    · exact law.pure _
    · exact law.pure _
    · exact hev.call _ _ _

/-- Calling what was read as a property throws an error or is a call. -/
theorem callProperty_holds (realm : Realm) (callee owner : Value) (arguments : List Value) :
    T.holds (callProperty ev realm callee owner arguments) := by
  unfold callProperty
  refine law.bind law.heap fun h => ?_
  split
  · exact hev.call _ _ _
  · exact law.crashIn _ _ _

/-- Calling a method is reading a property and calling what was found. -/
theorem invoke_holds (realm : Realm) (v : Value) (name : Text) (arguments : List Value) :
    T.holds (invoke ev realm v name arguments) :=
  law.bind (property_holds law hev _ _ _) fun _ => callProperty_holds law hev _ _ _ _

/-- Asking a value for its name is reading a property, unless the value is missing. -/
theorem nameOf_holds (v : Value) : T.holds (nameOf ev v) := property_holds law hev _ _ _

/-- Turning an object into a plain value calls its methods in turn, by induction on their names. -/
theorem plainBy_holds (realm : Realm) (v : Value) (names : List Text) :
    T.holds (plainBy ev realm v names) := by
  induction names with
  | nil => exact law.crashIn _ _ _
  | cons name rest ih =>
    unfold plainBy
    refine law.bind (property_holds law hev _ _ _) fun f => law.bind law.heap fun h => ?_
    split
    · -- the method answers, and an object is no answer
      refine law.bind (hev.call _ _ _) fun x => ?_
      split
      · exact ih
      · exact law.pure _
    · exact ih

/-- Turning any value into a plain one does nothing, or it calls methods of an object. -/
theorem plain_holds (realm : Realm) (wish : Wish) (v : Value) :
    T.holds (plain ev realm wish v) := by
  unfold plain
  split
  · exact plainBy_holds law hev _ _ _
  · exact law.pure _

/-- Taking a value for a number turns it into a plain value first. -/
theorem magnitude_holds (realm : Realm) (v : Value) : T.holds (magnitude ev realm v) := by
  unfold magnitude
  refine law.bind (plain_holds law hev _ _ _) fun x => ?_
  split <;> first | exact law.pure _ | exact law.crashIn _ _ _

/-- Conversion to a number has a trait that turning objects into plain values has. -/
theorem toNumber_holds (realm : Realm) (v : Value) : T.holds (toNumber ev realm v) := by
  unfold toNumber
  refine law.bind (plain_holds law hev _ _ _) fun x => ?_
  split
  · exact law.crashIn _ _ _
  · -- the value is converted once more, which may call its methods again
    exact magnitude_holds law hev _ _

/-- Setting the length of a list converts the length and changes the list, or throws. -/
theorem resize_holds (realm : Realm) (v length : Value) : T.holds (resize ev realm v length) := by
  unfold resize
  refine law.bind (toNumber_holds law hev _ _) fun _ =>
    law.bind (toNumber_holds law hev _ _) fun x => ?_
  split
  · exact law.change _ (gentle_resize _)
  · exact law.crashIn _ _ _

/-- An assignment calls a setter, changes an object, or complains. -/
theorem assign_holds (realm : Realm) (insisting : Bool) (v : Value) (name : Text) (x : Value) :
    T.holds (assign ev realm insisting v name x) := by
  unfold assign
  split
  · exact law.crashIn _ _ _
  · refine law.bind law.heap fun h => ?_
    split
    · -- the length of a list is assigned in another way than what else is taken
      split
      · exact resize_holds law hev _ _ _
      · exact law.change _ (gentle_put _ _)
    · exact law.bind (hev.call _ _ _) fun _ => law.pure _
    · split
      · exact law.crashIn _ _ _
      · exact law.pure _

/-- Assigning several properties is assigning each of them. -/
theorem assignAll_holds (v : Value) (members : List (Text × Value)) :
    T.holds (assignAll ev v members) := by
  induction members with
  | nil => exact law.pure _
  | cons m rest ih => exact law.bind (assign_holds law hev _ _ _ _ _) fun _ => ih

end property

/-! ## Texts -/

section words

variable (law : Stable T)

include law

/-- A plain value is put into text without a call; a symbol is refused. -/
theorem plainWords_holds (realm : Realm) (v : Value) : T.holds (plainWords realm v) := by
  unfold plainWords
  split <;> first | exact law.pure _ | exact law.crashIn _ _ _

variable (hev : ev.Meets T)

include hev

/-- Putting a value into text has a trait that turning it into a plain value has. -/
theorem words_holds (realm : Realm) (v : Value) : T.holds (words ev realm v) :=
  law.bind (plain_holds law hev _ _ _) fun _ => plainWords_holds law _ _

/-- So has putting it into text where it is added to another text. -/
theorem addedWords_holds (realm : Realm) (v : Value) : T.holds (addedWords ev realm v) :=
  law.bind (plain_holds law hev _ _ _) fun _ => plainWords_holds law _ _

/-- The text of a message that may be missing is that of the value, or there is none. -/
theorem givenWords_holds (realm : Realm) (v : Value) : T.holds (givenWords ev realm v) := by
  unfold givenWords
  split
  · exact law.pure _
  · exact law.bind (words_holds law hev _ _) fun _ => law.pure _

/-- Putting a value into text for display is like putting it into text, but for symbols. -/
theorem display_holds (realm : Realm) (v : Value) : T.holds (display ev realm v) := by
  unfold display
  split
  · exact law.pure _
  · exact words_holds law hev _ _

/-- Describing a thrown value reads its message, or puts the value into text. -/
theorem describe_holds (v : Value) : T.holds (describe ev v) := by
  unfold describe
  refine law.bind law.heap fun h => ?_
  split
  · exact law.pure _
  · exact display_holds law hev _ _

/-- Taking a thrown value for a cause is describing it. -/
theorem cause_holds (v : Value) : T.holds (cause ev v) :=
  law.bind (describe_holds law hev v) fun _ => law.pure _

end words

/-! ## The log -/

section log

variable (law : Stable T) (hev : ev.Meets T)

include law hev

/-- Leaving an entry where a sink is permitted notes an entry or a line. -/
theorem deposit_holds {sink : Sink} (hsink : T.Permits sink) (level : Level) (message : Value)
    (data : Option Portrait) : T.holds (deposit ev sink level message data) := by
  unfold deposit
  split
  · exact law.bind law.heap fun h => law.note rfl rfl rfl
  · split
    · exact law.bind (words_holds law hev _ _) fun t => law.print (hsink _ _ rfl) _ _ _
    · exact law.pure _

/-- Writing through the object of a logger deposits an entry or calls what a script put in its
place. -/
theorem writeThrough_holds (logger : Value) {sink : Sink} (hsink : T.Permits sink) (level : Level)
    (message : Value) (data : Option Portrait) :
    T.holds (writeThrough ev logger sink level message data) := by
  unfold writeThrough
  refine law.bind (property_holds law hev _ _ _) fun method => law.bind law.heap fun h => ?_
  split
  · exact deposit_holds law hev hsink _ _ _
  · exact law.bind (callProperty_holds law hev _ _ _ _) fun _ => law.pure _

/-- A message is put into text only where the labels of a logger stand in front of it. -/
theorem labelledMessage_holds (l : Logger) (message : Value) :
    T.holds (labelledMessage ev l message) := by
  unfold labelledMessage
  split
  · exact law.pure _
  · exact law.bind (words_holds law hev _ _) fun _ => law.pure _

/-- Writing to a logger whose sink is permitted has the trait, however scripts reach the logger. -/
theorem write_holds {l : Logger} (hl : T.Permits l.sink) (level : Level) (message : Value)
    (data : Option Portrait) : T.holds (write ev l level message data) := by
  unfold write
  refine law.bind (labelledMessage_holds law hev _ _) fun message => ?_
  split
  · exact deposit_holds law hev hl _ _ _
  · exact writeThrough_holds law hev _ hl _ _ _
  · exact law.bind (property_holds law hev _ _ _) fun _ => writeThrough_holds law hev _ hl _ _ _

/-- Logging a message with fields is writing it. -/
theorem log_holds {l : Logger} (hl : T.Permits l.sink) (level : Level) (message : Text)
    (fields : List (Text × Datum)) : T.holds (log ev l level message fields) :=
  law.bind law.heap fun _ => write_holds law hev hl _ _ _

end log

/-! ## Events -/

section events

variable (law : Stable T) (hev : ev.Meets T) {host : Host}

include law hev

/-- Reporting a subscriber that threw is describing what it threw and logging that. -/
theorem reportFailure_holds (hbus : T.Permits host.loggers.bus.sink) (event : Event)
    (thrown : Value) : T.holds (reportFailure host ev event thrown) :=
  law.bind (describe_holds law hev _) fun _ => log_holds law hev hbus _ _ _

/-- What a subscriber does has a trait if observing has it and its logger is permitted. -/
theorem react_holds {event : Event} {s : Subscriber} (hobserve : T.holds (observe event s))
    (hlogs : ∀ logger, s.reaction = .logFinish logger → T.Permits logger.sink) :
    T.holds (react ev event s) := by
  unfold react
  split
  · exact hobserve
  · exact law.throw _
  · exact write_holds law hev (hlogs _ ‹_›) _ _ _

/-- So has a delivery, for what the subscriber throws is only reported. -/
theorem deliver_holds (hbus : T.Permits host.loggers.bus.sink) {event : Event} {s : Subscriber}
    (hobserve : T.holds (observe event s))
    (hlogs : ∀ logger, s.reaction = .logFinish logger → T.Permits logger.sink) :
    T.holds (deliver host ev event s) :=
  law.tryCatch (react_holds law hev hobserve hlogs) fun _ => reportFailure_holds law hev hbus _ _

variable (host)

omit hev in
/-- Making the object of an event has every stable trait. -/
theorem eventObject_holds (type : Text) (fields : List (Text × Datum)) (run : Option RunId) :
    T.holds (eventObject type fields run) :=
  law.read (fun _ => rfl) fun _ => law.bind (law.record _ _) fun _ => law.record _ _

/-- Emitting an event has the trait that publishing it has, also where a script put something of its
own in the place of what emits it. -/
theorem emit_holds (type : Text) (fields : List (Text × Datum)) (run : Option RunId)
    (hpublish : ∀ data, T.holds (publish host ev type data run)) :
    T.holds (emit host ev type fields run) := by
  unfold emit
  refine law.bind (property_holds law hev _ _ _) fun own => law.bind law.heap fun h => ?_
  -- the engine's own way to emit is taken apart, and anything else is called
  split
  · refine law.bind (property_holds law hev _ _ _) fun bus =>
      law.bind (property_holds law hev _ _ _) fun deliver => law.bind law.heap fun h => ?_
    split
    · exact law.bind law.heap fun h => hpublish _
    · exact law.bind (eventObject_holds law _ _ _) fun _ =>
        law.bind (callProperty_holds law hev _ _ _ _) fun _ => law.pure _
  · exact law.bind (eventObject_holds law _ _ _) fun _ =>
      law.bind (callProperty_holds law hev _ _ _ _) fun _ => law.pure _

end events

end EvalPlan.Action
