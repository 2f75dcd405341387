import StreamBroker.Proofs.Move

/-!
# Reports

The diagnostics that the operations of a run hand to the sink. What there is to report
can be told from an operation's arguments, the settings, and what its handle reaches at
that time (`complaint?`). Main statements:

* **quiet** — streams, pool and registry hand in nothing: what they log are notes of
  their own (`World.ask_quiet`, `Registry.closeAll_quiet` and their like);
* **steps** — a step hands in the warning of its complaint, if it has one, and nothing
  else (`step_reports`);
* **runs** — with one sink all along, a run hands in the warnings of its complaints
  (`run_reports`); `recorded_complaints`: a recording sink holds them, in order.
-/

namespace StreamBroker

/-- Whether an event hands a diagnostic to a sink. -/
def Event.reports : Event → Bool
  | .recorded _ | .note (.diagnostic _) => true
  | .call .. | .query _ | .note _ => false

/-- The events that hand a diagnostic to a sink, in order. -/
def reportsIn (events : List Event) : List Event := events.filter Event.reports

@[simp]
theorem reportsIn_append (before after : List Event) :
    reportsIn (before ++ after) = reportsIn before ++ reportsIn after :=
  List.filter_append ..

/-! ## Quiet notes -/

/-- Notes that hand no diagnostic to the log. -/
def Note.Quiet (notes : List Note) : Prop := ∀ n ∈ notes, (Event.note n).reports = false

theorem Note.Quiet.nil : Note.Quiet [] := nofun

theorem Note.Quiet.fileFailed (request : FileRequest) (path : Bytes) (fault : Disk.Fault) :
    Note.Quiet [.fileFailed request path fault] := by
  intro n here
  cases List.mem_singleton.mp here
  rfl

theorem reportsIn_notes {notes : List Note} (quiet : Note.Quiet notes) :
    reportsIn (notes.map .note) = [] := by
  unfold reportsIn
  rw [List.filter_eq_nil_iff]
  intro e here
  obtain ⟨n, note, rfl⟩ := List.mem_map.mp here
  rw [quiet n note]
  exact Bool.false_ne_true

namespace Stream

theorem File.write_quiet (f : File) (d : Disk) (data : Bytes) :
    Note.Quiet (f.write d data).notes := by
  unfold write
  split
  · exact .nil
  · split
    · exact .nil
    · exact .fileFailed _ _ _

theorem File.read_quiet (f : File) (d : Disk) (size : Nat) :
    Note.Quiet (f.read d size).notes := by
  unfold read
  split
  · exact .nil
  · split
    · exact .nil
    · exact .fileFailed _ _ _

theorem File.atEnd_quiet (f : File) (d : Disk) : Note.Quiet (f.atEnd d).notes := by
  unfold atEnd
  split
  · exact .nil
  · split
    · exact .nil
    · exact .fileFailed _ _ _

theorem File.close_quiet (f : File) (d : Disk) : Note.Quiet (f.close d).notes := by
  unfold close
  split <;> exact .nil

variable (s : Stream) (d : Disk)

theorem write_quiet (data : Bytes) : Note.Quiet (s.write d data).notes := by
  cases s with
  | memory | script => exact .nil
  | file f => exact f.write_quiet d data

theorem read_quiet (size : Nat) : Note.Quiet (s.read d size).notes := by
  cases s with
  | memory | script => exact .nil
  | file f => exact f.read_quiet d size

theorem atEnd_quiet : Note.Quiet (s.atEnd d).notes := by
  cases s with
  | memory | script => exact .nil
  | file f => exact f.atEnd_quiet d

theorem close_quiet : Note.Quiet (s.close d).notes := by
  cases s with
  | memory | script => exact .nil
  | file f => exact f.close_quiet d

theorem release_quiet : Note.Quiet (s.release d).notes := by
  cases s <;> exact .nil

end Stream

/-! ## Quiet parts -/

namespace World

theorem ask_quiet {α : Type} (w : World) (s : StreamId) (fallback : α)
    {call : Stream → Disk → Stream.Reaction Stream α} (describe : α → Call)
    (quiet : ∀ stream d, Note.Quiet (call stream d).notes) :
    reportsIn (w.ask s fallback call describe).events = [] := by
  unfold ask
  split
  · rfl
  · rename_i stream _
    rw [reportsIn_append, reportsIn_notes (quiet stream w.disk)]
    rfl

theorem close_quiet (w : World) (s : StreamId) : reportsIn (w.close s).events = [] :=
  w.ask_quiet s () _ Stream.close_quiet

theorem release_quiet (w : World) (s : StreamId) : reportsIn (w.release s).events = [] :=
  w.ask_quiet s () _ Stream.release_quiet

theorem closeEach_quiet (w : World) (streams : List StreamId) :
    reportsIn (w.closeEach streams).events = [] := by
  induction streams generalizing w with
  | nil => rfl
  | cons s rest ih =>
    show reportsIn ((w.close s).events ++ ((w.close s).state.closeEach rest).events) = []
    rw [reportsIn_append, w.close_quiet s, ih]
    rfl

end World

theorem Pool.park_quiet (p : Pool) (w : World) (key : Key) (s : StreamId) :
    reportsIn (p.park w key s).events = [] := by
  unfold park
  split
  · rw [reportsIn_append, w.close_quiet s]
    rfl
  · rfl

namespace Registry

variable (r : Registry)

theorem supply_quiet (source : Stream.Source) (key : Option Key) (guarded : Bool) :
    reportsIn (r.supply source key guarded).events = [] := by
  unfold supply
  split <;> rfl

theorem openPersistent_quiet (key : Key) (source : Stream.Source) :
    reportsIn (r.openPersistent key source).events = [] := by
  unfold openPersistent
  split
  · exact r.supply_quiet ..
  · rfl

theorem reach_quiet {α : Type} (h : Handle) {fallback : α}
    {ask : Stream → Disk → Stream.Reaction Stream α} {describe : α → Call}
    (quiet : ∀ stream d, Note.Quiet (ask stream d).notes) :
    reportsIn (r.reach h fun w s => w.ask s fallback ask describe).events = [] := by
  unfold reach
  split
  · rfl
  · exact World.ask_quiet _ _ fallback describe quiet

theorem close_quiet (h : Handle) : reportsIn (r.close h).events = [] := by
  unfold close
  split
  · rfl
  · exact World.close_quiet ..

theorem release_quiet (h : Handle) : reportsIn (r.release h).events = [] := by
  unfold release
  split
  · rfl
  · split
    · exact World.close_quiet ..
    · rw [reportsIn_append, World.release_quiet, Pool.park_quiet]
      rfl

theorem closeEach_quiet (hs : List Handle) : reportsIn (r.closeEach hs).events = [] := by
  induction hs generalizing r with
  | nil => rfl
  | cons h rest ih =>
    show reportsIn ((r.close h).events ++ ((r.close h).state.closeEach rest).events) = []
    rw [reportsIn_append, r.close_quiet h, ih]
    rfl

theorem closeAll_quiet : reportsIn r.closeAll.events = [] := by
  show reportsIn (_ ++ (World.closeEach _ _).events) = []
  rw [reportsIn_append, r.closeEach_quiet, World.closeEach_quiet]
  rfl

end Registry

/-! ## Complaints -/

/-- The name under which an operation of the broker is reported. -/
def Operation.title? : Operation → Option String
  | .write .. | .discard .. => some Broker.writeName
  | .atEnd _ => some Broker.atEndName
  | .close _ => some Broker.closeName
  | .fileExists _ => some Broker.fileExistsName
  | _ => none

/-- The warning that tells of a refusal of an operation. -/
def Operation.warning (op : Operation) (refusal : Refusal) : Diagnostic where
  severity := .warning
  message := refusal.message
  code := some refusal.cause.code
  operation := op.title?
  help := refusal.help?

/-- Help comes with the warning about a guarded stream alone. -/
theorem Operation.warning_help (op : Operation) (refusal : Refusal) :
    (op.warning refusal).help.isSome ↔ (op.warning refusal).code = some Diagnostic.Code.guarded := by
  unfold warning
  cases refusal <;> simp [Refusal.help?, Refusal.cause, Diagnostic.Cause.code,
    Diagnostic.Code.invalidArguments, Diagnostic.Code.notLive, Diagnostic.Code.guarded]

namespace Broker

/-- What is wrong with a stream argument, if it is no resource. -/
def mistaken? (operation : String) (stream : Value) : Option Refusal :=
  if stream.tag = .resource then none
  else some (.wrongTag operation "stream" .resource stream.tag)

/-- What is wrong with the arguments of a write; the stream comes first. -/
def mismatch? (stream data : Value) : Option Refusal :=
  if stream.tag = .resource ∧ data.tag ≠ .string then
    some (.wrongTag writeName "data" .string data.tag)
  else mistaken? writeName stream

/-- What an operation has to report: a wrong argument, and of a close also that the
handle reaches nothing or a guarded stream. -/
def complaint? (b : Broker) : Operation → Option Refusal
  | .write stream data => mismatch? stream data
  | .discard stream data => if b.config.warnOnDiscard then mismatch? stream data else none
  | .atEnd stream => mistaken? atEndName stream
  | .close (.resource h) =>
    match b.registry.get? h with
    | none => some (.notLive h)
    | some lease => if lease.guarded then some (.guarded h) else none
  | .close stream => mistaken? closeName stream
  | _ => none

/-- The warnings of the complaints of a run, in order. -/
def complaints (b : Broker) : List Operation → List Diagnostic
  | [] => []
  | op :: rest =>
    ((b.complaint? op).map op.warning).toList ++ (b.step op).state.complaints rest

/-- What a sink makes of the warning of a complaint, if there is one. -/
def emitted (b : Broker) (op : Operation) : List Event :=
  ((b.complaint? op).map fun refusal => b.sink.emit (op.warning refusal)).toList

variable {b : Broker}

theorem mismatch?_eq (stream data : Value) :
    mismatch? stream data =
      match writeArguments stream data with
      | .error refusal => some refusal
      | .ok _ => none := by
  unfold writeArguments expectHandle expectBytes
  cases stream <;> cases data <;> rfl

theorem mistaken?_eq (operation : String) (stream : Value) :
    mistaken? operation stream =
      match expectHandle operation "stream" stream with
      | .error refusal => some refusal
      | .ok _ => none := by
  unfold expectHandle
  cases stream <;> rfl

theorem reportsIn_report (operation : String) (refusal : Refusal) :
    reportsIn (b.report operation refusal) = b.report operation refusal := by
  unfold report Sink.emit
  cases b.sink <;> rfl

/-- A report hands in the warning of the refused operation. -/
theorem report_eq {op : Operation} {operation : String} (title : op.title? = some operation)
    (refusal : Refusal) : b.report operation refusal = [b.sink.emit (op.warning refusal)] := by
  unfold report Operation.warning
  rw [title]
  rfl

/-! ## Steps -/

theorem deliver_quiet (h : Handle) (bytes : Bytes) : reportsIn (b.deliver h bytes).events = [] := by
  have quiet : reportsIn (b.registry.write h bytes).events = [] :=
    b.registry.reach_quiet h fun stream d => stream.write_quiet d bytes
  unfold deliver
  simp only
  split
  · rfl
  · rw [reportsIn_append, quiet]
    split <;> rfl

theorem write_reports (stream data : Value) :
    reportsIn (b.write stream data).events = b.emitted (.write stream data) := by
  show _ = ((mismatch? stream data).map _).toList
  rw [mismatch?_eq]
  unfold write
  cases writeArguments stream data with
  | error refusal =>
    simp only [reportsIn_report]
    exact report_eq rfl refusal
  | ok pair =>
    obtain ⟨h, bytes⟩ := pair
    simp only
    split
    · rfl
    · exact deliver_quiet h bytes

theorem discard_reports (stream data : Value) :
    reportsIn (b.discard stream data).events = b.emitted (.discard stream data) := by
  show _ = ((if b.config.warnOnDiscard then mismatch? stream data else none).map _).toList
  rw [mismatch?_eq]
  unfold discard
  cases writeArguments stream data with
  | error refusal =>
    simp only
    split
    · rw [reportsIn_report]
      exact report_eq rfl refusal
    · rfl
  | ok pair =>
    obtain ⟨h, bytes⟩ := pair
    simp only [ite_self]
    split
    · rfl
    · exact deliver_quiet h bytes

theorem atEnd_reports (stream : Value) :
    reportsIn (b.atEnd stream).events = b.emitted (.atEnd stream) := by
  show _ = ((mistaken? atEndName stream).map _).toList
  rw [mistaken?_eq]
  unfold atEnd
  cases expectHandle atEndName "stream" stream with
  | error refusal =>
    simp only [reportsIn_report]
    exact report_eq rfl refusal
  | ok h =>
    have quiet : reportsIn (b.registry.atEnd h).events = [] :=
      b.registry.reach_quiet h Stream.atEnd_quiet
    simp only
    split
    · rfl
    · exact quiet

theorem close_reports (stream : Value) :
    reportsIn (b.close stream).events = b.emitted (.close stream) := by
  cases stream with
  | resource h =>
    have asked : expectHandle closeName "stream" (.resource h) = .ok h := rfl
    unfold close emitted complaint?
    rw [asked]
    cases here : b.registry.get? h with
    | none =>
      simp only [here, reportsIn_report]
      exact report_eq rfl (.notLive h)
    | some lease =>
      simp only [here]
      split
      · rw [reportsIn_report]
        exact report_eq rfl (.guarded h)
      · split
        · exact b.registry.release_quiet h
        · exact b.registry.close_quiet h
  | null | bool | int | float | string => exact (reportsIn_report ..).trans (report_eq rfl _)

/-- A step hands in the warning of its complaint, and nothing else. -/
theorem step_reports (b : Broker) (op : Operation) :
    reportsIn (b.step op).events = b.emitted op := by
  cases op with
  | openStream source terms => exact b.registry.supply_quiet ..
  | openPersistent key source => exact b.registry.openPersistent_quiet key source
  | write stream data => exact write_reports stream data
  | discard stream data => exact discard_reports stream data
  | atEnd stream => exact atEnd_reports stream
  | close stream => exact close_reports stream
  | fileExists path =>
    show reportsIn (b.fileExists path).events = []
    unfold fileExists
    split <;> rfl
  | writeTo h data => exact b.registry.reach_quiet h fun stream d => stream.write_quiet d data
  | readFrom h size => exact b.registry.reach_quiet h fun stream d => stream.read_quiet d size
  | atEndOf h => exact b.registry.reach_quiet h Stream.atEnd_quiet
  | closeHandle h => exact b.registry.close_quiet h
  | releaseHandle h => exact b.registry.release_quiet h
  | closeAll => exact b.registry.closeAll_quiet
  | setGuarded | setSink | setFiles | change => rfl

/-! ## Settings -/

/-- Only an exchange of the sink or of the files changes more than the registry. -/
theorem step_settings (b : Broker) (op : Operation) :
    (∃ r, (b.step op).state = { b with registry := r }) ∨
      (∃ sink, op = .setSink sink) ∨ ∃ files, op = .setFiles files := by
  have written : ∀ stream data, ∃ r, (b.write stream data).state = { b with registry := r } := by
    intro stream data
    simp only [write, deliver]
    repeat' split
    all_goals exact ⟨_, rfl⟩
  cases op with
  | setSink sink => exact Or.inr (Or.inl ⟨sink, rfl⟩)
  | setFiles files => exact Or.inr (Or.inr ⟨files, rfl⟩)
  | write stream data => exact Or.inl (written stream data)
  | discard stream data =>
    show (∃ r, (b.discard stream data).state = _) ∨ _
    rw [(discard_eq_write b stream data).1]
    exact Or.inl (written stream data)
  | atEnd =>
    simp only [step, answering, atEnd]
    repeat' split
    all_goals exact Or.inl ⟨_, rfl⟩
  | close =>
    simp only [step, answering, close]
    repeat' split
    all_goals exact Or.inl ⟨_, rfl⟩
  | fileExists =>
    simp only [step, answering, fileExists]
    split <;> exact Or.inl ⟨_, rfl⟩
  | openStream | openPersistent | writeTo | readFrom | atEndOf | setGuarded | closeHandle
  | releaseHandle | closeAll | change => exact Or.inl ⟨_, rfl⟩

/-- The sink after an operation. -/
def sinkAfter (sink : Sink) : Operation → Sink
  | .setSink other => other
  | _ => sink

theorem step_sink_eq (b : Broker) (op : Operation) :
    (b.step op).state.sink = sinkAfter b.sink op := by
  rcases b.step_settings op with ⟨r, state⟩ | ⟨sink, rfl⟩ | ⟨files, rfl⟩
  · cases op with
    | setSink => rfl
    | _ => rw [state]; rfl
  · rfl
  · rfl

theorem step_config (b : Broker) (op : Operation) : (b.step op).state.config = b.config := by
  rcases b.step_settings op with ⟨r, state⟩ | ⟨sink, rfl⟩ | ⟨files, rfl⟩
  · rw [state]
  · rfl
  · rfl

theorem step_sink {op : Operation} (kept : ∀ sink, op = .setSink sink → sink = b.sink) :
    (b.step op).state.sink = b.sink := by
  rw [step_sink_eq]
  cases op with
  | setSink sink => exact kept sink rfl
  | _ => rfl

end Broker

/-! ## Runs -/

/-- The diagnostics that a record takes in. -/
def Event.recorded? : Event → Option Diagnostic
  | .recorded d => some d
  | .call .. | .query _ | .note _ => none

theorem Observer.recorded_takeAll (o : Observer) (events : List Event) :
    (o.takeAll events).recorded = o.recorded ++ events.filterMap Event.recorded? := by
  unfold takeAll
  induction events generalizing o with
  | nil => exact (List.append_nil _).symm
  | cons e rest ih =>
    rw [List.foldl_cons, ih]
    cases e with
    | recorded d => simp [take, Event.recorded?]
    | note n =>
      show (if o.hears n then _ else o).recorded ++ _ = _
      split <;> rfl
    | call | query => rfl

/-- What is recorded is among what is handed in. -/
theorem filterMap_recorded?_reportsIn (events : List Event) :
    (reportsIn events).filterMap Event.recorded? = events.filterMap Event.recorded? := by
  unfold reportsIn
  induction events with
  | nil => rfl
  | cons e rest ih =>
    cases handed : e.reports with
    | true => rw [List.filter_cons_of_pos handed, List.filterMap_cons, List.filterMap_cons, ih]
    | false =>
      have silent : e.recorded? = none := by
        cases e with
        | recorded => cases handed
        | call | query | note => rfl
      rw [List.filter_cons_of_neg (by rw [handed]; exact Bool.false_ne_true), ih,
        List.filterMap_cons_none silent]

namespace Broker

variable {b : Broker}

/-- With one sink all along, a run hands the warnings of its complaints to it, in order, and
nothing else. -/
theorem run_reports (ops : List Operation) (kept : ∀ sink, .setSink sink ∈ ops → sink = b.sink) :
    reportsIn (b.run ops).events = (b.complaints ops).map b.sink.emit := by
  induction ops generalizing b with
  | nil => rfl
  | cons op rest ih =>
    have later : (b.step op).state.sink = b.sink :=
      step_sink fun sink same => kept sink (by rw [same]; exact List.mem_cons_self)
    have others := ih (b := (b.step op).state) fun sink here =>
      (kept sink (List.mem_cons_of_mem _ here)).trans later.symm
    show reportsIn ((b.step op).events ++ _) = _
    rw [reportsIn_append, step_reports, others, later, complaints, List.map_append, emitted]
    cases b.complaint? op <;> rfl

/-- A recording sink takes the warnings of the complaints in. -/
theorem run_recorded (recording : b.sink = .recording) (ops : List Operation)
    (kept : ∀ sink, .setSink sink ∈ ops → sink = .recording) :
    (b.run ops).events.filterMap Event.recorded? = b.complaints ops := by
  rw [← filterMap_recorded?_reportsIn,
    run_reports ops fun sink here => (kept sink here).trans recording.symm, recording,
    List.filterMap_map]
  exact List.filterMap_some

/-- Each warning of a run is that of a complaint of one operation at its turn. -/
theorem mem_complaints {ops : List Operation} {d : Diagnostic} :
    d ∈ b.complaints ops ↔ ∃ before op after refusal, ops = before ++ op :: after ∧
      (b.run before).state.complaint? op = some refusal ∧ d = op.warning refusal := by
  induction ops generalizing b with
  | nil => simp [complaints]
  | cons op rest ih =>
    simp only [complaints, List.mem_append, Option.mem_toList, Option.map_eq_some_iff, ih]
    constructor
    · rintro (⟨refusal, complaint, rfl⟩ | ⟨before, op', after, refusal, rfl, complaint, rfl⟩)
      · exact ⟨[], op, rest, refusal, rfl, complaint, rfl⟩
      · exact ⟨op :: before, op', after, refusal, rfl, complaint, rfl⟩
    · rintro ⟨before, op', after, refusal, parts, complaint, rfl⟩
      cases before with
      | nil =>
        cases parts
        exact Or.inl ⟨refusal, complaint, rfl⟩
      | cons first before =>
        cases parts
        exact Or.inr ⟨before, op', after, refusal, rfl, complaint, rfl⟩

/-- A write that has something to report is refused for that reason. -/
theorem write_answer {stream data : Value} {refusal : Refusal}
    (complaint : b.complaint? (.write stream data) = some refusal) :
    (b.step (.write stream data)).answer = .written (.error refusal) := by
  have mismatch : mismatch? stream data = some refusal := complaint
  rw [mismatch?_eq] at mismatch
  show Answer.written (b.write stream data).answer = _
  unfold write
  cases arguments : writeArguments stream data with
  | error other =>
    rw [arguments] at mismatch
    cases mismatch
    rfl
  | ok pair =>
    rw [arguments] at mismatch
    cases mismatch

/-- With a recording sink, the record of a run of a new broker holds the warnings of the
complaints of the run, in order, and nothing else. Each is a warning about one operation
at its turn: it carries the name of the operation, the code and the sentence of the
refusal, and help exactly for a guarded stream. For a write the refusal is also the
answer. -/
theorem recorded_complaints (config : Config) (files : FileSystem) (disk : Disk)
    (level : Option Level) (ops : List Operation)
    (kept : ∀ sink, .setSink sink ∈ ops → sink = .recording) :
    let start := Broker.ofConfig config files .recording (.ofDisk disk)
    let record := ((Observer.ofLevel level).takeAll (start.run ops).events).recorded
    record = start.complaints ops ∧
    ∀ d ∈ record, ∃ before op after refusal, ops = before ++ op :: after ∧
      let b := (start.run before).state
      b.complaint? op = some refusal ∧ d.severity = .warning ∧ d.operation = op.title? ∧
      d.code = some (match refusal with
        | .wrongTag .. => "W0001"
        | .notLive _ => "W0002"
        | .guarded _ => "W0003") ∧
      d.message = refusal.message ∧ (d.help.isSome ↔ d.code = some "W0003") ∧
      ∀ stream data, op = .write stream data →
        (b.step op).answer = .written (.error refusal) := by
  intro start record
  have all : record = start.complaints ops := by
    show ((Observer.ofLevel level).takeAll (start.run ops).events).recorded = _
    rw [Observer.recorded_takeAll, run_recorded rfl ops kept]
    rfl
  refine ⟨all, fun d here => ?_⟩
  rw [all] at here
  obtain ⟨before, op, after, refusal, parts, complaint, rfl⟩ := mem_complaints.mp here
  refine ⟨before, op, after, refusal, parts, complaint, rfl, rfl, ?_, rfl,
    op.warning_help refusal, ?_⟩
  · cases refusal <;> rfl
  · rintro stream data rfl
    exact write_answer complaint

/-- Every kind of complaint once, among operations that have nothing to report. -/
def complaining : List Operation :=
  let source := Stream.Source.ready (.memory .empty)
  [.openStream source { guarded := true }, .openStream source {}, .write .null (.int 1),
    .write (.resource ⟨0, 0⟩) (.int 1), .discard (.resource ⟨0, 0⟩) (.bool true),
    .atEnd (.string []), .atEnd (.resource ⟨7, 0⟩), .close .null, .close (.resource ⟨0, 0⟩),
    .closeHandle ⟨1, 0⟩, .write (.resource ⟨1, 0⟩) (.string [0]), .close (.resource ⟨1, 0⟩),
    .fileExists .null]

theorem recorded_complaints_each_kind :
    let start := Broker.ofConfig {} .disk .recording (.ofDisk .empty)
    let record := ((Observer.ofLevel none).takeAll (start.run complaining).events).recorded
    record.map (fun d => (d.code, d.operation)) =
      [(some "W0001", some "stream_write"), (some "W0001", some "stream_write"),
        (some "W0001", some "stream_write"), (some "W0001", some "stream_is_at_end"),
        (some "W0001", some "stream_close"), (some "W0003", some "stream_close"),
        (some "W0002", some "stream_close")] := by
  intro start record
  have all := (recorded_complaints {} .disk .empty none complaining (by simp [complaining])).1
  rw [show record = start.complaints complaining from all]
  decide +kernel

end Broker

end StreamBroker
