import Mathlib.Data.List.Forall2
import StreamBroker.Proofs.Observers
import StreamBroker.Proofs.Routing

/-!
# Writes

What a write comes to, with an answer and without. Main statements:

* **records** — what a stream logs about a write is filed under streams
  (`Stream.write_filed`), so the broker's own records of a delivery are those of a short
  write (`Broker.deliver_filed`);
* **order** — `writes_settled`: the stream argument is looked at first, then the data, then
  whether there is any, and only then the handle; a write that gets that far changes one
  stream and no book;
* **without an answer** — `discard` is `write`, but that it may keep a mismatch to itself
  (`Broker.discard_events`); so operations of a run can be exchanged for the ones without an
  answer (`Broker.run_hushed`), and `discard_agrees` states both.
-/

namespace StreamBroker

/-! ## Records -/

theorem notesIn_append (before after : List Event) :
    notesIn (before ++ after) = notesIn before ++ notesIn after :=
  List.filterMap_append

theorem notesIn_notes (notes : List Note) : notesIn (notes.map .note) = notes := by
  unfold notesIn
  rw [List.filterMap_map]
  exact List.filterMap_some

/-- The broker's own records among events, in order. -/
def brokerNotes (events : List Event) : List Note :=
  (notesIn events).filter fun n => n.topic = .broker

theorem brokerNotes_append (before after : List Event) :
    brokerNotes (before ++ after) = brokerNotes before ++ brokerNotes after := by
  unfold brokerNotes
  rw [notesIn_append, List.filter_append]

namespace Stream

theorem File.write_filed (f : File) (d : Disk) (data : Bytes) :
    ∀ n ∈ (f.write d data).notes, n.topic = .stream := by
  unfold write
  split
  · exact nofun
  · split
    · exact nofun
    · intro n here
      cases List.mem_singleton.mp here
      rfl

/-- What a stream logs about a write is filed under streams. -/
theorem write_filed (s : Stream) (d : Disk) (data : Bytes) :
    ∀ n ∈ (s.write d data).notes, n.topic = .stream := by
  cases s with
  | memory | script => exact nofun
  | file f => exact f.write_filed d data

end Stream

/-! ## Order -/

namespace Broker

variable {b : Broker} {h : Handle} {lease : Lease} {stream : Stream}

/-- The bookkeeping that follows a delivery of `length` bytes of which `n` were accepted. -/
def shortNotes (h : Handle) (n length : Nat) : List Note :=
  if n < length then [.shortWrite h n length] else []

theorem deliver_absent (absent : b.registry.get? h = none) (bytes : Bytes) :
    b.deliver h bytes = ⟨.error (.notLive h), b, [.note (.writeNotLive h)]⟩ := by
  unfold deliver Registry.write
  rw [Registry.reach_none absent]

/-- A delivery to a known stream is what the stream makes of it, and a record when that is
less than everything. -/
theorem deliver_known (here : b.registry.get? h = some lease)
    (there : b.registry.world.stream? lease.stream = some stream) (bytes : Bytes) :
    b.deliver h bytes =
      let r := stream.write b.registry.world.disk bytes
      let world : World := ⟨r.disk, b.registry.world.streams.set lease.stream r.stream⟩
      ⟨.ok r.answer, { b with registry.world := world },
        r.notes.map .note ++ [.call lease.stream (.write bytes r.answer)] ++
          (shortNotes h r.answer bytes.length).map .note⟩ := by
  unfold deliver Registry.write
  rw [Registry.reach_some here]
  unfold World.write
  rw [World.ask_known there]
  unfold shortNotes
  simp only
  split <;> rfl

/-- Of a delivery the broker itself records only that it was short. -/
theorem deliver_filed (here : b.registry.get? h = some lease)
    (there : b.registry.world.stream? lease.stream = some stream) (bytes : Bytes) :
    brokerNotes (b.deliver h bytes).events =
      shortNotes h (stream.write b.registry.world.disk bytes).answer bytes.length := by
  have others : ((stream.write b.registry.world.disk bytes).notes.filter
      fun n => n.topic = .broker) = [] := by
    rw [List.filter_eq_nil_iff]
    intro n here
    rw [stream.write_filed _ _ n here]
    decide
  have own : ∀ n length, (shortNotes h n length).filter (fun n => n.topic = .broker) =
      shortNotes h n length := by
    intro n length
    unfold shortNotes
    split <;> rfl
  rw [deliver_known here there]
  simp only [brokerNotes_append]
  unfold brokerNotes
  rw [notesIn_notes, notesIn_notes, others, own]
  rfl

/-- A refused write leaves everything as it is and is reported. -/
theorem write_refused {stream data : Value} {refusal : Refusal}
    (mismatch : mismatch? stream data = some refusal) :
    b.write stream data = ⟨.error refusal, b, b.report writeName refusal⟩ := by
  rw [mismatch?_eq] at mismatch
  unfold write
  cases arguments : writeArguments stream data with
  | error other =>
    rw [arguments] at mismatch
    cases mismatch
    rfl
  | ok pair =>
    rw [arguments] at mismatch
    cases mismatch

theorem write_nothing (b : Broker) (h : Handle) :
    b.write (.resource h) (.string []) = ⟨.ok 0, b, []⟩ := by
  unfold write
  rw [writeArguments_eq_ok_iff.mpr ⟨rfl, rfl⟩]
  rfl

/-- At every point of a run of a new broker, and for any two values, a write is settled in
this order. A stream that is no resource is refused for its tag, whatever the data is; then
data that is no string is refused for its tag; then empty data is accepted for every handle,
without a look at it; then a handle that reaches nothing is refused. What is left makes one
call, answers with the stream's count, and is recorded by the broker for debugging exactly if
that is less than all. It changes no lease, no idle stream and no other stream; and a stream
in memory accepts no more than it was given and goes on by just the bytes that it accepted,
with the cursor where it was. -/
theorem writes_settled (config : Config) (files : FileSystem) (sink : Sink) (disk : Disk)
    (ops : List Operation) (stream data : Value) :
    let b := ((ofConfig config files sink (.ofDisk disk)).run ops).state
    let r := b.registry
    let o := b.write stream data
    (stream.tag ≠ .resource →
      let refusal := Refusal.wrongTag "stream_write" "stream" .resource stream.tag
      o = ⟨.error refusal, b, b.report writeName refusal⟩) ∧
    ∀ h, stream = .resource h →
      (data.tag ≠ .string →
        let refusal := Refusal.wrongTag "stream_write" "data" .string data.tag
        o = ⟨.error refusal, b, b.report writeName refusal⟩) ∧
      (data = .string [] → o = ⟨.ok 0, b, []⟩) ∧
      ∀ bytes, data = .string bytes → bytes ≠ [] →
        (r.get? h = none → o = ⟨.error (.notLive h), b, [.note (.writeNotLive h)]⟩) ∧
        ∀ lease, r.get? h = some lease →
          let after := o.state.registry
          ∃ target, r.world.stream? lease.stream = some target ∧
            let n := (target.write r.world.disk bytes).answer
            o.answer = .ok n ∧ callsIn o.events = [(lease.stream, .write bytes n)] ∧
            (brokerNotes o.events).map Note.record =
              (if n < bytes.length then
                [(.debug, "strand::gateway",
                  s!"stream_write: short write to {h} ({n} of {bytes.length} bytes)")]
              else []) ∧
            (o.state = { b with registry := after } ∧ after.slots = r.slots ∧
              after.pool = r.pool ∧
              ∀ other, other ≠ lease.stream → after.world.stream? other = r.world.stream? other) ∧
            ∀ m, target = .memory m →
              n ≤ bytes.length ∧ after.world.disk = r.world.disk ∧
              after.world.stream? lease.stream =
                some (.memory { m with contents := m.contents ++ bytes.take n }) := by
  intro b r o
  have sound : r.books.Sound := (run_reached config files sink disk ops).sound
  refine ⟨fun other => ?_, ?_⟩
  · apply write_refused
    unfold mismatch? mistaken?
    simp only [other, false_and, if_false]
    rfl
  rintro h rfl
  refine ⟨fun other => ?_, ?_, ?_⟩
  · apply write_refused
    exact if_pos ⟨rfl, other⟩
  · rintro rfl
    exact write_nothing b h
  rintro bytes rfl something
  have delivered : o = b.deliver h bytes := (write_deliver something).1
  refine ⟨fun absent => delivered.trans (deliver_absent absent bytes), fun lease here => ?_⟩
  -- a held stream was supplied, so there is one to be asked
  have known : lease.stream < r.world.streams.length :=
    sound.known _ (Books.mem_owned_of_get? here)
  have there : r.world.stream? lease.stream = some r.world.streams[lease.stream] :=
    List.getElem?_eq_getElem known
  have filed := deliver_filed here there bytes
  refine ⟨_, there, ?_⟩
  rw [delivered, filed, deliver_known here there]
  refine ⟨rfl, ?_, ?_, ⟨rfl, rfl, rfl, fun other apart => ?_⟩, fun m memory => ?_⟩
  · simp only [callsIn_append, callsIn_notes]
    rfl
  · unfold shortNotes
    split <;> rfl
  · exact List.getElem?_set_ne (Ne.symm apart)
  · rw [memory]
    refine ⟨m.write_le bytes, rfl, ?_⟩
    show (r.world.streams.set lease.stream (.memory (m.write bytes).2))[lease.stream]? = _
    rw [List.getElem?_set_self known, m.write_snd bytes]
    rfl

/-- A stream with room for three bytes, one of which is taken. -/
def cramped : List Operation :=
  [.openStream (.ready (.memory (.limited 3))) {}, .write (.resource ⟨0, 0⟩) (.string [9])]

theorem writes_settled_cramped :
    let b := ((ofConfig {} .disk .recording (.ofDisk .empty)).run cramped).state
    let o := b.write (.resource ⟨0, 0⟩) (.string [1, 0, 2])
    (b.write .null (.int 1)).answer =
        .error (.wrongTag "stream_write" "stream" .resource .null) ∧
      (b.write (.resource ⟨7, 7⟩) (.int 1)).answer =
        .error (.wrongTag "stream_write" "data" .string .int) ∧
      b.write (.resource ⟨7, 7⟩) (.string []) = ⟨.ok 0, b, []⟩ ∧
      (b.write (.resource ⟨7, 7⟩) (.string [1])).answer = .error (.notLive ⟨7, 7⟩) ∧
      o.answer = .ok 2 ∧
      o.state.registry.world.stream? 0 = some (.memory ⟨[9, 1, 0], 0, some 3, false⟩) := by
  intro b o
  have settled := writes_settled {} .disk .recording .empty cramped
  have mistaken := (settled .null (.int 1)).1 nofun
  have mismatched := ((settled (.resource ⟨7, 7⟩) (.int 1)).2 _ rfl).1 nofun
  have nothing := ((settled (.resource ⟨7, 7⟩) (.string [])).2 _ rfl).2.1 rfl
  have absent := (((settled (.resource ⟨7, 7⟩) (.string [1])).2 _ rfl).2.2 _ rfl nofun).1
    (by decide +kernel)
  have here : b.registry.get? ⟨0, 0⟩ = some ⟨0, none, false⟩ := by decide +kernel
  obtain ⟨target, there, answer, -, -, -, memory⟩ :=
    (((settled (.resource ⟨0, 0⟩) (.string [1, 0, 2])).2 _ rfl).2.2 _ rfl nofun).2 _ here
  have found : b.registry.world.stream? 0 = some (.memory ⟨[9], 0, some 3, false⟩) := by
    decide +kernel
  cases found.symm.trans there
  exact ⟨congrArg Outcome.answer mistaken, congrArg Outcome.answer mismatched, nothing,
    congrArg Outcome.answer absent, answer, (memory _ rfl).2.2⟩

/-! ## Without an answer -/

/-- The arguments of a write are right if their tags are. -/
theorem mismatch?_eq_none_iff {stream data : Value} :
    mismatch? stream data = none ↔ stream.tag = .resource ∧ data.tag = .string := by
  unfold mismatch? mistaken?
  by_cases resource : stream.tag = .resource
  · by_cases string : data.tag = .string <;> simp [resource, string]
  · simp [resource]

/-- Without an answer a write does the same, but that a mismatch may be kept quiet. -/
theorem discard_events (b : Broker) (stream data : Value) :
    (b.discard stream data).events =
      if b.config.warnOnDiscard = false ∧ (mismatch? stream data).isSome then []
      else (b.write stream data).events := by
  rw [mismatch?_eq]
  unfold discard write
  cases writeArguments stream data with
  | error refusal => cases b.config.warnOnDiscard <;> rfl
  | ok pair =>
    simp only [Option.isSome_none, Bool.false_eq_true, and_false, if_false]
    split <;> rfl

/-- A mismatch that is kept quiet is all that there was to notice. -/
theorem discard_affairs (b : Broker) (stream data : Value) :
    affairsIn (b.discard stream data).events = affairsIn (b.write stream data).events := by
  rw [discard_events]
  split
  · rename_i quiet
    obtain ⟨refusal, mismatch⟩ := Option.isSome_iff_exists.mp quiet.2
    rw [write_refused mismatch, affairsIn_report]
    rfl
  · rfl

end Broker

namespace Operation

/-- An operation in whose place another one stands: itself, or a write that wants no answer. -/
inductive Hushed : Operation → Operation → Prop
  | same (op : Operation) : Hushed op op
  | write (stream data : Value) : Hushed (.write stream data) (.discard stream data)

/-- What a caller gets to know of an answer. -/
def leaves : Operation → Answer → Answer
  | .discard .., _ => .nothing
  | _, answer => answer

end Operation

namespace Broker

variable {b : Broker}

theorem step_hushed {op op' : Operation} (hushed : op.Hushed op') :
    (b.step op').answer = op'.leaves (b.step op).answer ∧
      (b.step op').state = (b.step op).state ∧
      affairsIn (b.step op').events = affairsIn (b.step op).events ∧
      (b.config.warnOnDiscard = true → (b.step op').events = (b.step op).events) := by
  cases hushed with
  | same =>
    refine ⟨?_, rfl, rfl, fun _ => rfl⟩
    cases op <;> rfl
  | write stream data =>
    refine ⟨rfl, (discard_eq_write b stream data).1, b.discard_affairs stream data, fun warns => ?_⟩
    show (b.discard stream data).events = (b.write stream data).events
    rw [discard_events, warns]
    rfl

/-- With some of the writes of a run exchanged for those without an answer, the run comes to
the same. -/
theorem run_hushed {ops ops' : List Operation} (hushed : List.Forall₂ Operation.Hushed ops ops') :
    (b.run ops').answer = List.zipWith Operation.leaves ops' (b.run ops).answer ∧
      (b.run ops').state = (b.run ops).state ∧
      affairsIn (b.run ops').events = affairsIn (b.run ops).events ∧
      (b.config.warnOnDiscard = true → (b.run ops').events = (b.run ops).events) := by
  induction hushed generalizing b with
  | nil => exact ⟨rfl, rfl, rfl, fun _ => rfl⟩
  | @cons op op' rest rest' first others ih =>
    obtain ⟨answer, state, affairs, events⟩ := step_hushed (b := b) first
    obtain ⟨answers, last, more, all⟩ := ih (b := (b.step op).state)
    unfold run
    simp only [state, answer, answers, last, affairsIn_append, affairs, more, List.zipWith_cons_cons]
    refine ⟨trivial, trivial, trivial, fun warns => ?_⟩
    have later : (b.step op).state.config.warnOnDiscard = true := by
      rw [step_config]
      exact warns
    rw [events warns, all later]

/-- Whatever state a broker is in and whatever its settings, writing with an answer or without
leaves the same behind, with the same calls in the same order, the same records and the same
diagnostics; but that, where the settings say so, a mismatch of the arguments is not reported
without an answer, and then nothing at all is to be noticed. Hence in any run any of the
writes can be exchanged for those without an answer: at the end the broker is the same, all
that is no diagnostic is the same, and so is the rest unless the settings say otherwise; and
each answer is the same, apart from those that nobody wants. -/
theorem discard_agrees (b : Broker) :
    (∀ stream data,
      let w := b.write stream data
      let d := b.discard stream data
      d.state = w.state ∧ affairsIn d.events = affairsIn w.events ∧
        (b.config.warnOnDiscard = true ∨ (stream.tag = .resource ∧ data.tag = .string) →
          d.events = w.events) ∧
        (b.config.warnOnDiscard = false → ¬(stream.tag = .resource ∧ data.tag = .string) →
          d.events = [])) ∧
    ∀ ops ops', List.Forall₂ Operation.Hushed ops ops' →
      let o := b.run ops
      let o' := b.run ops'
      o'.state = o.state ∧ affairsIn o'.events = affairsIn o.events ∧
        (b.config.warnOnDiscard = true → o'.events = o.events) ∧
        o'.answer = List.zipWith Operation.leaves ops' o.answer := by
  constructor
  · intro stream data w d
    have events : d.events = _ := b.discard_events stream data
    rw [← mismatch?_eq_none_iff]
    -- the two differ exactly if the arguments are wrong and the settings keep that quiet
    refine ⟨(discard_eq_write b stream data).1, b.discard_affairs stream data,
      fun heard => events.trans (if_neg ?_), fun quiet wrong => events.trans (if_pos ?_)⟩
    · rintro ⟨quiet, wrong⟩
      rcases heard with warns | right
      · rw [quiet] at warns
        cases warns
      · rw [right] at wrong
        cases wrong
    · exact ⟨quiet, Option.isSome_iff_ne_none.mpr wrong⟩
  · intro ops ops' hushed o o'
    obtain ⟨answer, state, affairs, events⟩ := run_hushed (b := b) hushed
    exact ⟨state, affairs, events, answer⟩

/-- Writes with an answer: a mismatch, one to a handle that reaches nothing, and a short one. -/
def spoken : List Operation :=
  cramped ++ [.write .null (.int 1), .write (.resource ⟨7, 7⟩) (.string [1]),
    .write (.resource ⟨0, 0⟩) (.string [1, 0, 2])]

/-- The same, the last three without an answer. -/
def unspoken : List Operation :=
  cramped ++ [.discard .null (.int 1), .discard (.resource ⟨7, 7⟩) (.string [1]),
    .discard (.resource ⟨0, 0⟩) (.string [1, 0, 2])]

theorem discard_agrees_unspoken :
    let b := ofConfig {} .disk .recording (.ofDisk .empty)
    let quiet := ofConfig { warnOnDiscard := false } .disk .recording (.ofDisk .empty)
    List.Forall₂ Operation.Hushed spoken unspoken ∧
      (b.run unspoken).state = (b.run spoken).state ∧
      (b.run unspoken).events = (b.run spoken).events ∧
      (quiet.discard .null (.int 1)).events = [] := by
  intro b quiet
  have hushed : List.Forall₂ Operation.Hushed spoken unspoken :=
    .cons (.same _) (.cons (.same _) (.cons (.write ..) (.cons (.write ..) (.cons (.write ..) .nil))))
  obtain ⟨state, -, events, -⟩ := (discard_agrees b).2 _ _ hushed
  exact ⟨hushed, state, events rfl, ((discard_agrees quiet).1 .null (.int 1)).2.2.2 rfl (by decide)⟩

end Broker

end StreamBroker
