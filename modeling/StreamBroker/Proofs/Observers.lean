import StreamBroker.Proofs.Reports

/-!
# Observers

A host runs a broker and listens to it: diagnostics go to the broker's sink, and the log is
heard from a level upwards. Nothing of this comes back to the broker. Main statements:

* **affairs** — what an operation answers, leaves behind and lets others than a sink notice
  depends on the registry and the files alone (`Broker.Matched.step`, `Broker.Matched.run`);
* **complaints** — what there is to report does not depend on the sink
  (`Broker.Matched.complaints`);
* **the log** — a log hears of each kind of note what its level lets through
  (`Observer.heard_filter`); what is no diagnostic is less important than a warning
  (`Note.aside_of_not_addressed`);
* **hosts** — `Host.observers_unheeded`: sink, level and the setting for `discard` change
  nothing but what is heard and recorded, and log and record tell the same story.
-/

namespace StreamBroker

theorem Observer.takeAll_append (o : Observer) (first others : List Event) :
    o.takeAll (first ++ others) = (o.takeAll first).takeAll others :=
  List.foldl_append

/-- A broker and who listens to it. -/
structure Host where
  broker : Broker
  observer : Observer

namespace Host

/-- A new broker, with a log that is heard from a level upwards. -/
def new (config : Config) (files : FileSystem) (sink : Sink) (disk : Disk)
    (level : Option Level) : Host :=
  ⟨.ofConfig config files sink (.ofDisk disk), .ofLevel level⟩

/-- The broker does an operation, and the observer takes the events in. -/
def step (host : Host) (op : Operation) : Outcome Host Answer :=
  let o := host.broker.step op
  ⟨o.answer, ⟨o.state, host.observer.takeAll o.events⟩, o.events⟩

def run (host : Host) : List Operation → Outcome Host (List Answer)
  | [] => ⟨[], host, []⟩
  | op :: rest =>
    let first := host.step op
    let others := first.state.run rest
    ⟨first.answer :: others.answer, others.state, first.events ++ others.events⟩

/-- What a host comes to in a run is what its broker does and the observer hears of it. -/
theorem run_eq (host : Host) (ops : List Operation) :
    host.run ops =
      let o := host.broker.run ops
      ⟨o.answer, ⟨o.state, host.observer.takeAll o.events⟩, o.events⟩ := by
  induction ops generalizing host with
  | nil => rfl
  | cons op rest ih =>
    simp only [run, ih, step, Broker.run, Observer.takeAll_append]

end Host

/-! ## Affairs -/

/-- An operation with nothing said about where diagnostics go. -/
def Operation.unaddressed : Operation → Operation
  | .setSink _ => .setSink .log
  | op => op

/-- An operation is the other one, or both exchange the sink. -/
theorem Operation.eq_of_unaddressed {op op' : Operation}
    (same : op'.unaddressed = op.unaddressed) :
    op' = op ∨ ∃ sink sink', op = .setSink sink ∧ op' = .setSink sink' := by
  cases op with
  | setSink sink =>
    cases op' with
    | setSink sink' => exact Or.inr ⟨sink, sink', rfl, rfl⟩
    | _ => cases same
  | _ =>
    cases op' with
    | setSink sink' => cases same
    | _ => exact Or.inl same

/-- Where diagnostics go is not told in the warning of an operation. -/
theorem Operation.warning_unaddressed (op : Operation) : op.unaddressed.warning = op.warning := by
  cases op <;> rfl

/-- The events that hand no diagnostic to a sink, in order. -/
def affairsIn (events : List Event) : List Event := events.filter fun e => !e.reports

theorem affairsIn_append (before after : List Event) :
    affairsIn (before ++ after) = affairsIn before ++ affairsIn after :=
  List.filter_append ..

/-- Calls are affairs. -/
theorem callsIn_affairsIn (events : List Event) : callsIn (affairsIn events) = callsIn events := by
  unfold callsIn affairsIn
  rw [List.filterMap_filter]
  congr 1
  funext e
  cases e with
  | note n => cases n <;> rfl
  | call | query | recorded => rfl

/-- Two brokers with the same registry and the same files. -/
structure Broker.Matched (b b' : Broker) : Prop where
  registry : b'.registry = b.registry
  files : b'.files = b.files

/-- Outcomes that differ at most in the settings of the brokers and in what is handed to a
sink. -/
structure Outcome.Matched {α : Type} (o o' : Outcome Broker α) : Prop where
  answer : o'.answer = o.answer
  state : o.state.Matched o'.state
  affairs : affairsIn o'.events = affairsIn o.events

namespace Broker

variable {b b' : Broker} {op op' : Operation}

theorem affairsIn_report (b : Broker) (operation : String) (refusal : Refusal) :
    affairsIn (b.report operation refusal) = [] := by
  unfold report Sink.emit
  cases b.sink <;> rfl

/-- A refusal that only one of two brokers reports. -/
theorem Matched.refused {α : Type} (matched : Matched b b') (answer : α)
    {events events' : List Event} (silent : affairsIn events = [])
    (silent' : affairsIn events' = []) :
    Outcome.Matched ⟨answer, b, events⟩ ⟨answer, b', events'⟩ :=
  ⟨rfl, matched, silent'.trans silent.symm⟩

/-- What is done to the registry is the same for both. -/
theorem Matched.within {α : Type} (matched : Matched b b') (answer : α) (r : Registry)
    (events : List Event) :
    Outcome.Matched ⟨answer, { b with registry := r }, events⟩
      ⟨answer, { b' with registry := r }, events⟩ :=
  ⟨rfl, ⟨rfl, matched.files⟩, rfl⟩

theorem Matched.deliver (matched : Matched b b') (h : Handle) (bytes : Bytes) :
    Outcome.Matched (b.deliver h bytes) (b'.deliver h bytes) := by
  simp only [Broker.deliver, matched.registry]
  cases (b.registry.write h bytes).answer with
  | none => exact ⟨rfl, matched, rfl⟩
  | some n => exact matched.within ..

theorem Matched.write (matched : Matched b b') (stream data : Value) :
    Outcome.Matched (b.write stream data) (b'.write stream data) := by
  unfold Broker.write
  cases writeArguments stream data with
  | error refusal => exact matched.refused _ (affairsIn_report ..) (affairsIn_report ..)
  | ok pair =>
    simp only
    split
    · exact ⟨rfl, matched, rfl⟩
    · exact matched.deliver ..

theorem Matched.discard (matched : Matched b b') (stream data : Value) :
    Outcome.Matched (b.discard stream data) (b'.discard stream data) := by
  -- whether a mismatch is reported or not, nothing else comes of it
  have silent : ∀ (b : Broker) refusal, affairsIn
      (if b.config.warnOnDiscard then b.report writeName refusal else []) = [] := by
    intro b refusal
    split
    · exact affairsIn_report ..
    · rfl
  unfold Broker.discard
  cases writeArguments stream data with
  | error refusal => exact matched.refused _ (silent b refusal) (silent b' refusal)
  | ok pair =>
    simp only
    split
    · exact ⟨rfl, matched, rfl⟩
    · have delivered := matched.deliver pair.1 pair.2
      exact ⟨rfl, delivered.state, delivered.affairs⟩

theorem Matched.atEnd (matched : Matched b b') (stream : Value) :
    Outcome.Matched (b.atEnd stream) (b'.atEnd stream) := by
  unfold Broker.atEnd
  cases expectHandle atEndName "stream" stream with
  | error refusal => exact matched.refused _ (affairsIn_report ..) (affairsIn_report ..)
  | ok h =>
    simp only [matched.registry]
    cases (b.registry.atEnd h).answer with
    | none => exact ⟨rfl, matched, rfl⟩
    | some answer => exact matched.within ..

theorem Matched.close (matched : Matched b b') (stream : Value) :
    Outcome.Matched (b.close stream) (b'.close stream) := by
  unfold Broker.close
  cases expectHandle closeName "stream" stream with
  | error refusal => exact matched.refused _ (affairsIn_report ..) (affairsIn_report ..)
  | ok h =>
    simp only [matched.registry]
    cases b.registry.get? h with
    | none => exact matched.refused _ (affairsIn_report ..) (affairsIn_report ..)
    | some lease =>
      simp only
      split
      · exact matched.refused _ (affairsIn_report ..) (affairsIn_report ..)
      · split <;> exact matched.within ..

theorem Matched.fileExists (matched : Matched b b') (path : Value) :
    Outcome.Matched (b.fileExists path) (b'.fileExists path) := by
  unfold Broker.fileExists
  cases expectBytes fileExistsName "path" path with
  | error refusal => exact ⟨rfl, matched, rfl⟩
  | ok bytes =>
    simp only [matched.registry, matched.files]
    exact ⟨rfl, matched, rfl⟩

theorem Matched.answering {α : Type} {o o' : Outcome Broker α} (matched : o.Matched o')
    (answer : α → Answer) :
    Outcome.Matched (Broker.answering o answer) (Broker.answering o' answer) :=
  ⟨congrArg answer matched.answer, matched.state, matched.affairs⟩

theorem Matched.ofRegistry {α : Type} (matched : Matched b b')
    (call : Registry → Outcome Registry α) (answer : α → Answer) :
    Outcome.Matched (b.ofRegistry (call b.registry) answer)
      (b'.ofRegistry (call b'.registry) answer) := by
  unfold Broker.ofRegistry
  rw [matched.registry]
  exact matched.within ..

/-- The same operation comes to the same, apart from what is handed to a sink. -/
theorem Matched.step (matched : Matched b b') (op : Operation) :
    Outcome.Matched (b.step op) (b'.step op) := by
  cases op with
  | openStream source terms => exact matched.ofRegistry (fun r => r.openStream source terms) _
  | openPersistent key source => exact matched.ofRegistry (fun r => r.openPersistent key source) _
  | write stream data => exact Matched.answering (matched.write stream data) _
  | discard stream data =>
    exact Matched.answering (matched.discard stream data) fun _ => Answer.nothing
  | atEnd stream => exact Matched.answering (matched.atEnd stream) _
  | close stream => exact Matched.answering (matched.close stream) _
  | fileExists path => exact Matched.answering (matched.fileExists path) _
  | writeTo h data => exact matched.ofRegistry (fun r => r.write h data) _
  | readFrom h size => exact matched.ofRegistry (fun r => r.read h size) _
  | atEndOf h => exact matched.ofRegistry (fun r => r.atEnd h) _
  | setGuarded h guarded => exact matched.ofRegistry (fun r => r.setGuarded h guarded) _
  | closeHandle h => exact matched.ofRegistry (fun r => r.close h) _
  | releaseHandle h => exact matched.ofRegistry (fun r => r.release h) _
  | closeAll => exact matched.ofRegistry (fun r => r.closeAll) _
  | setSink sink => exact ⟨rfl, ⟨matched.registry, matched.files⟩, rfl⟩
  | setFiles files => exact ⟨rfl, ⟨matched.registry, rfl⟩, rfl⟩
  | change changes =>
    refine ⟨rfl, ⟨?_, matched.files⟩, rfl⟩
    simp only [Broker.step, changeDisk, matched.registry]

/-- To exchange the sink is no affair. -/
theorem Matched.step_unaddressed (matched : Matched b b')
    (same : op'.unaddressed = op.unaddressed) : Outcome.Matched (b.step op) (b'.step op') := by
  rcases Operation.eq_of_unaddressed same with rfl | ⟨sink, sink', rfl, rfl⟩
  · exact matched.step op'
  · exact ⟨rfl, ⟨matched.registry, matched.files⟩, rfl⟩

/-- The same run, but for exchanges of the sink, comes to the same. -/
theorem Matched.run (matched : Matched b b') {ops ops' : List Operation}
    (same : ops'.map Operation.unaddressed = ops.map Operation.unaddressed) :
    (b'.run ops').answer = (b.run ops).answer ∧ (b.run ops).state.Matched (b'.run ops').state ∧
      affairsIn (b'.run ops').events = affairsIn (b.run ops).events := by
  induction ops generalizing b b' ops' with
  | nil =>
    rw [List.map_nil, List.map_eq_nil_iff] at same
    subst same
    exact ⟨rfl, matched, rfl⟩
  | cons op rest ih =>
    obtain ⟨op', rest', rfl, first, others⟩ := List.map_eq_cons_iff.mp same
    have step := matched.step_unaddressed first
    obtain ⟨answers, last, affairs⟩ := ih step.state others
    refine ⟨?_, last, ?_⟩
    · show _ :: _ = _ :: _
      rw [step.answer, answers]
    · show affairsIn (_ ++ _) = affairsIn (_ ++ _)
      rw [affairsIn_append, affairsIn_append, step.affairs, affairs]

/-- What an operation complains of does not depend on where the complaint goes. -/
theorem complaint?_unaddressed (b : Broker) (op : Operation) :
    b.complaint? op.unaddressed = b.complaint? op := by
  cases op <;> rfl

theorem Matched.complaint? (matched : Matched b b')
    (warns : b'.config.warnOnDiscard = b.config.warnOnDiscard) (op : Operation) :
    b'.complaint? op = b.complaint? op := by
  unfold Broker.complaint?
  rw [matched.registry, warns]

/-- With the same setting for `discard`, the same run complains of the same things. -/
theorem Matched.complaints (matched : Matched b b')
    (warns : b'.config.warnOnDiscard = b.config.warnOnDiscard) {ops ops' : List Operation}
    (same : ops'.map Operation.unaddressed = ops.map Operation.unaddressed) :
    b'.complaints ops' = b.complaints ops := by
  induction ops generalizing b b' ops' with
  | nil =>
    rw [List.map_nil, List.map_eq_nil_iff] at same
    subst same
    rfl
  | cons op rest ih =>
    obtain ⟨op', rest', rfl, first, others⟩ := List.map_eq_cons_iff.mp same
    have later := ih (matched.step_unaddressed first).state
      (by rw [step_config, step_config, warns]) others
    have complaint : b'.complaint? op' = b.complaint? op := by
      rw [matched.complaint? warns, ← complaint?_unaddressed, first, complaint?_unaddressed]
    have warning : op'.warning = op.warning := by
      rw [← op'.warning_unaddressed, first, op.warning_unaddressed]
    rw [Broker.complaints, Broker.complaints, later, complaint, warning]

/-- All that operations complain of are warnings. -/
theorem severity_of_mem_complaints {ops : List Operation} {d : Diagnostic}
    (here : d ∈ b.complaints ops) : d.severity = .warning := by
  obtain ⟨_, _, _, _, _, _, rfl⟩ := mem_complaints.mp here
  rfl

end Broker

/-! ## The log -/

/-- The note that a log is offered. -/
def Event.note? : Event → Option Note
  | .note n => some n
  | .call .. | .query _ | .recorded _ => none

/-- The notes that a log is offered, in order. -/
def notesIn (events : List Event) : List Note := events.filterMap Event.note?

namespace Note

/-- A note as the log shows it: the level, the target and the text. -/
def record (n : Note) : Level × String × String := (n.level, n.topic.target, n.text)

/-- Whether a note is logged under the name of the library itself. -/
def addressed (n : Note) : Bool := n.topic.target = "strand"

/-- What is logged under the name of the library itself is a diagnostic. -/
theorem reports_eq_addressed (n : Note) : (Event.note n).reports = n.addressed := by
  cases n <;> rfl

/-- A warning is logged as one, under the name of the library itself. -/
theorem record_diagnostic {d : Diagnostic} (warning : d.severity = .warning) :
    (diagnostic d).record = (.warn, "strand", d.render) := by
  show (Level.ofSeverity d.severity, _, _) = _
  rw [warning]
  rfl

/-- All else is logged under the name of a part of the library, below the level of
warnings. -/
theorem aside_of_not_addressed {n : Note} (aside : n.addressed = false) :
    n.topic.target ∈ ["strand::gateway", "strand::table", "strand::pool", "strand::stream"] ∧
      (n.level = .debug ∨ n.level = .trace) := by
  constructor
  · cases topic : n.topic with
    | diagnostics =>
      rw [addressed, topic] at aside
      exact absurd aside (by decide)
    | broker | table | pool | stream => decide
  · cases n with
    | diagnostic d => cases aside
    | parked | reused | releasing | closing => exact Or.inr rfl
    | keyFull | writeNotLive | atEndNotLive | shortWrite | fileFailed => exact Or.inl rfl

end Note

/-- Choosing events is choosing notes, as far as notes are concerned. -/
theorem notesIn_filter {choice : Event → Bool} {kind : Note → Bool}
    (same : ∀ n, choice (.note n) = kind n) (events : List Event) :
    notesIn (events.filter choice) = (notesIn events).filter kind := by
  unfold notesIn
  rw [List.filterMap_filter, List.filter_filterMap]
  congr 1
  funext e
  cases e with
  | note n =>
    rw [same]
    rfl
  | call | query | recorded => exact ite_self _

theorem notesIn_reportsIn (events : List Event) :
    notesIn (reportsIn events) = (notesIn events).filter Note.addressed :=
  notesIn_filter Note.reports_eq_addressed events

theorem notesIn_affairsIn (events : List Event) :
    notesIn (affairsIn events) = (notesIn events).filter fun n => !n.addressed :=
  notesIn_filter (fun n => congrArg not n.reports_eq_addressed) events

namespace Observer

theorem hears_take (o : Observer) (e : Event) : (o.take e).hears = o.hears := by
  unfold take
  split
  · split <;> rfl
  · rfl
  · rfl
  · rfl

/-- An observer hears the notes that the log's level lets through. -/
theorem heard_takeAll (o : Observer) (events : List Event) :
    (o.takeAll events).heard = o.heard ++ (notesIn events).filter o.hears := by
  unfold takeAll
  induction events generalizing o with
  | nil => exact (List.append_nil _).symm
  | cons e rest ih =>
    rw [List.foldl_cons, ih, hears_take]
    cases e with
    | note n =>
      show (if o.hears n then _ else o).heard ++ _ = _ ++ (n :: notesIn rest).filter o.hears
      rw [List.filter_cons]
      split
      · exact (List.append_cons ..).symm
      · rfl
    | call | query | recorded => rfl

/-- Of the notes of one kind, an observer hears those that the log's level lets through. -/
theorem heard_filter (level : Option Level) (events : List Event) (kind : Note → Bool) :
    ((ofLevel level).takeAll events).heard.filter kind =
      ((notesIn events).filter kind).filter (ofLevel level).hears := by
  rw [heard_takeAll, ofLevel, List.nil_append, List.filter_filter, List.filter_filter]
  exact congrArg (List.filter · _) (funext fun n => Bool.and_comm ..)

/-- A log for warnings hears a warning. -/
theorem hears_warning {level : Level} (low : level.rank ≤ Level.warn.rank) {d : Diagnostic}
    (warning : d.severity = .warning) :
    (ofLevel (some level)).hears (.diagnostic d) = true := by
  show decide (level.rank ≤ (Level.ofSeverity d.severity).rank) = true
  rw [warning]
  exact decide_eq_true low

end Observer

/-! ## Hosts -/

namespace Host

variable {b : Broker} {ops : List Operation}

/-- With a recording sink, the record of a run holds the warnings of its complaints. -/
theorem recorded_eq (recording : b.sink = .recording)
    (kept : ∀ sink, .setSink sink ∈ ops → sink = .recording) {level : Option Level} :
    ((Observer.ofLevel level).takeAll (b.run ops).events).recorded = b.complaints ops :=
  (Observer.recorded_takeAll ..).trans (Broker.run_recorded recording ops kept)

/-- With a log as the sink, a log for warnings hears all warnings of a run's complaints. -/
theorem heard_addressed (log : b.sink = .log) (kept : ∀ sink, .setSink sink ∈ ops → sink = .log)
    {level : Level} (low : level.rank ≤ Level.warn.rank) :
    ((Observer.ofLevel (some level)).takeAll (b.run ops).events).heard.filter Note.addressed =
      (b.complaints ops).map .diagnostic := by
  have reports := b.run_reports ops fun sink here => (kept sink here).trans log.symm
  have notes : (notesIn (b.run ops).events).filter Note.addressed =
      (b.complaints ops).map .diagnostic := by
    rw [← notesIn_reportsIn, reports, log, notesIn, List.filterMap_map]
    exact congrFun List.filterMap_eq_map _
  rw [Observer.heard_filter, notes, List.filter_eq_self]
  intro n here
  obtain ⟨d, complaint, rfl⟩ := List.mem_map.mp here
  exact Observer.hears_warning low (Broker.severity_of_mem_complaints complaint)

/-- A host with another sink, another level of the log and another setting for `discard`
comes in the same run, apart from the sinks that are set in it, to the same answers, the
same registry and files and the same events other than diagnostics, calls of streams among
them. With the same level, what is heard beside diagnostics is the same too, and all of it
is for debugging. With the same setting, a log for warnings hears under the library's name
just what a record takes in: the same diagnostics in the same order, each as a warning. -/
theorem observers_unheeded (limit : Nat) (warns warns' : Bool) (files : FileSystem) (disk : Disk)
    (sink sink' : Sink) (level level' : Option Level) (ops ops' : List Operation)
    (same : ops'.map Operation.unaddressed = ops.map Operation.unaddressed) :
    let o := (new ⟨warns, limit⟩ files sink disk level).run ops
    let o' := (new ⟨warns', limit⟩ files sink' disk level').run ops'
    let heard := o.state.observer.heard
    let heard' := o'.state.observer.heard
    (o'.answer = o.answer ∧ o'.state.broker.registry = o.state.broker.registry ∧
      o'.state.broker.files = o.state.broker.files ∧ callsIn o'.events = callsIn o.events ∧
      affairsIn o'.events = affairsIn o.events) ∧
    (level' = level →
      (heard'.filter fun n => !n.addressed) = heard.filter fun n => !n.addressed) ∧
    (∀ n ∈ heard, n.addressed = false →
      n.topic.target ∈ ["strand::gateway", "strand::table", "strand::pool", "strand::stream"] ∧
        (n.level = .debug ∨ n.level = .trace)) ∧
    (warns' = warns → sink = .log → (∀ other, .setSink other ∈ ops → other = .log) →
      sink' = .recording → (∀ other, .setSink other ∈ ops' → other = .recording) →
      ∀ least, level = some least → least.rank ≤ Level.warn.rank →
        (heard.filter Note.addressed).map Note.record =
          o'.state.observer.recorded.map fun d => (.warn, "strand", d.render)) := by
  have matched : (Broker.ofConfig ⟨warns, limit⟩ files sink (.ofDisk disk)).Matched
      (.ofConfig ⟨warns', limit⟩ files sink' (.ofDisk disk)) := ⟨rfl, rfl⟩
  obtain ⟨answers, last, affairs⟩ := matched.run same
  simp only [run_eq, new]
  refine ⟨⟨answers, last.registry, last.files, ?_, affairs⟩, ?_, fun n _ => n.aside_of_not_addressed,
    ?_⟩
  · rw [← callsIn_affairsIn, affairs, callsIn_affairsIn]
  · rintro rfl
    simp only [Observer.heard_filter, ← notesIn_affairsIn]
    exact congrArg (fun events => (notesIn events).filter _) affairs
  · rintro rfl rfl log rfl recording least rfl low
    rw [recorded_eq (b := .ofConfig _ _ .recording _) rfl recording, matched.complaints rfl same,
      heard_addressed (b := .ofConfig _ _ .log _) rfl log low, List.map_map]
    exact List.map_congr_left fun d here =>
      Note.record_diagnostic (Broker.severity_of_mem_complaints here)

/-- Mismatches, a refused close, a handle that reaches nothing and a full key, with the sink
set in between. -/
def attended (sink : Sink) : List Operation :=
  let source := Stream.Source.ready (.memory .empty)
  [.openStream source { guarded := true }, .openPersistent "k" source, .write .null (.int 1),
    .discard (.resource ⟨0, 0⟩) (.int 1), .setSink sink, .close (.resource ⟨0, 0⟩),
    .close (.resource ⟨1, 0⟩), .openPersistent "k" source, .close (.resource ⟨1, 0⟩),
    .write (.resource ⟨1, 1⟩) (.string [0]), .close (.resource ⟨1, 1⟩),
    .write (.resource ⟨1, 1⟩) (.string [0])]

theorem observers_unheeded_attended :
    let o := (new ⟨true, 1⟩ .disk .log .empty (some .trace)).run (attended .log)
    let o' := (new ⟨true, 1⟩ .disk .recording .empty none).run (attended .recording)
    o'.state.observer.recorded.map Diagnostic.code =
      [some "W0001", some "W0001", some "W0003", some "W0002"] ∧
    (o.state.observer.heard.filter Note.addressed).map Note.record =
      o'.state.observer.recorded.map fun d => (.warn, "strand", d.render) := by
  have unheeded := observers_unheeded 1 true true .disk .empty .log .recording (some .trace) none
    (attended .log) (attended .recording) rfl
  exact ⟨by decide +kernel, unheeded.2.2.2 rfl rfl (by simp [attended]) rfl (by simp [attended])
    .trace rfl (by decide)⟩

end Host

end StreamBroker
