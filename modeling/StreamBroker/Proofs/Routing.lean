import StreamBroker.Proofs.Ledger

/-!
# Routing

Which stream gets what the broker is asked to write, or asked about. The ledger of the
history tells which stream a handle denotes at its time; the broker adds no call, drops
none, and passes answers on as they are. Main statements:

* **steps** — an operation of the broker asks of a stream what the ledger says, and
  nothing else (`Ledger.Agrees.request`);
* **answers** — the answer to a write is the count that the stream itself gave for one
  call, and the answer to an end query is the stream's (`write_answered`,
  `atEnd_answered`);
* **runs** — `requests_routed`: what the broker asks of each stream in a run is what the
  history addresses to it, in order and one for one.
-/

namespace StreamBroker

/-- What the broker asks of a stream: to write bytes, or whether the end is reached, with
the answer to that. -/
inductive Request
  | write (data : Bytes)
  | atEnd (answer : Bool)
deriving DecidableEq

/-- What a call asks of its stream. -/
def Call.request? : Call → Option Request
  | .write data _ => some (.write data)
  | .atEnd answer => some (.atEnd answer)
  | .read .. | .close | .release => none

namespace Operation

/-- Whether an operation is one of the broker's own. -/
def brokered : Operation → Bool
  | .write .. | .discard .. | .atEnd _ | .close _ | .fileExists _ => true
  | _ => false

/-- What an operation with its answer asks of the stream of a handle. With nothing to
write, nothing is asked. -/
def request? : Operation → Answer → Option (Handle × Request)
  | .write (.resource h) (.string bytes), _ | .discard (.resource h) (.string bytes), _ =>
    if bytes = [] then none else some (h, .write bytes)
  | .atEnd (.resource h), .verdict answer => some (h, .atEnd answer)
  | _, _ => none

variable {op : Operation} {answer : Answer} {h : Handle} {request : Request}

/-- An operation of the broker that makes a call asks what the call asks. -/
theorem Asks.request? {c : Call} (asks : op.Asks h answer c) (own : op.brokered = true) :
    ∃ request, c.request? = some request ∧ op.request? answer = some (h, request) := by
  cases asks with
  | write something => exact ⟨_, rfl, if_neg something⟩
  | discard something => exact ⟨_, rfl, if_neg something⟩
  | atEnd => exact ⟨_, rfl, rfl⟩
  | writeTo | readFrom | atEndOf => cases own

/-- What is asked of a handle's stream would be a call of it. -/
theorem asks_of_request? (asked : op.request? answer = some (h, request)) :
    ∃ answer c, op.Asks h answer c := by
  unfold Operation.request? at asked
  split at asked
  · split at asked
    · cases asked
    · rename_i something
      cases asked
      exact ⟨.written (.ok 0), _, .write something⟩
  · split at asked
    · cases asked
    · rename_i something
      cases asked
      exact ⟨.nothing, .write _ 0, .discard something⟩
  · rename_i verdict
    cases asked
    exact ⟨_, .atEnd verdict, .atEnd⟩
  · cases asked

theorem request?_of_not_brokered (other : op.brokered = false) : op.request? answer = none := by
  cases op with
  | write | discard | atEnd | close | fileExists => cases other
  | _ => rfl

end Operation

/-- The calls that the broker's own operations make in a run, in order. -/
def Broker.brokeredCalls (b : Broker) : List Operation → List (StreamId × Call)
  | [] => []
  | op :: rest =>
    (if op.brokered then callsIn (b.step op).events else []) ++
      (b.step op).state.brokeredCalls rest

/-- Calls that ask for nothing. -/
theorem requests_eq_nil {s : StreamId} {calls : List (StreamId × Call)}
    (quiet : ∀ made ∈ calls, made.2.request? = none) :
    (callsTo s calls).filterMap Call.request? = [] := by
  rw [List.filterMap_eq_nil_iff]
  intro c here
  obtain ⟨made, there, rfl⟩ := List.mem_map.mp here
  exact quiet made (List.mem_filter.mp there).1

namespace Ledger

/-- What an operation with its answer asks of a stream: its handle has to denote it. -/
def request? (l : Ledger) (s : StreamId) (op : Operation) (answer : Answer) : Option Request :=
  match op.request? answer with
  | none => none
  | some (h, request) => if (l.held h).map Lease.stream = some s then some request else none

/-- What a history asks of a stream, in order, each by the ledger of its time. -/
def requests (limit : Nat) (s : StreamId) : Ledger → List (Operation × Answer) → List Request
  | _, [] => []
  | l, (op, answer) :: rest =>
    (l.request? s op answer).toList ++ (l.record limit (op, answer)).requests limit s rest

variable {limit : Nat} {l : Ledger} {s : StreamId} {op : Operation} {answer : Answer}

theorem request?_of_not_brokered (other : op.brokered = false) :
    l.request? s op answer = none := by
  unfold request?
  rw [Operation.request?_of_not_brokered other]

/-- Nothing is asked through handles that denote nothing. -/
theorem request?_eq_none (absent : ∀ h answer c, op.Asks h answer c → l.held h = none) :
    l.request? s op answer = none := by
  unfold request?
  split
  · rfl
  · rename_i h request asked
    obtain ⟨_, c, asks⟩ := Operation.asks_of_request? asked
    rw [absent h _ c asks]
    exact if_neg nofun

/-- Through a handle that denotes a stream, it is asked what the call asks. -/
theorem request?_asks {h : Handle} {c : Call} {lease : Lease} (asks : op.Asks h answer c)
    (own : op.brokered = true) (here : l.held h = some lease) :
    (callsTo s [(lease.stream, c)]).filterMap Call.request? = (l.request? s op answer).toList := by
  obtain ⟨request, call, asked⟩ := asks.request? own
  have denoted : l.request? s op answer = if lease.stream = s then some request else none := by
    unfold request?
    simp only [asked, here, Option.map_some, Option.some.injEq]
  rw [denoted]
  by_cases same : lease.stream = s
  · rw [if_pos same, same, callsTo_cons_self, List.filterMap_cons_some call]
    rfl
  · rw [if_neg same, callsTo_cons_of_ne same]
    rfl

/-- An operation of the broker asks of a stream what the ledger says, and nothing else. -/
theorem Agrees.request {b b' : Books} {calls : List (StreamId × Call)} (agrees : l.Agrees b)
    (move : Move b op answer b' calls) (own : op.brokered = true) :
    (callsTo s calls).filterMap Call.request? = (l.request? s op answer).toList := by
  cases move with
  | rest rests absent =>
    rw [request?_eq_none fun h answer c asks => (agrees.held h).symm.trans (absent h answer c asks)]
    rfl
  | asked asks here => exact request?_asks asks own ((agrees.held _).symm.trans here)
  | held supplies => cases supplies <;> cases own
  | reused | guarded | emptied => cases own
  | closed removes | parked removes | overflowed removes =>
    -- a stream that is given back is not asked for anything
    cases removes with
    | close => exact requests_eq_nil (by simp [Call.request?])
    | closeHandle | releaseHandle => cases own

end Ledger

/-! ## Answers -/

/-- To reach for a known stream is one call of it, and the answer is the stream's own. -/
theorem Registry.reach_ask {r : Registry} {h : Handle} {lease : Lease} {stream : Stream}
    (here : r.get? h = some lease) (there : r.world.stream? lease.stream = some stream)
    {α : Type} (fallback : α) (ask : Stream → Disk → Stream.Reaction Stream α)
    (describe : α → Call) :
    let o := r.reach h fun w s => w.ask s fallback ask describe
    let answer := (ask stream r.world.disk).answer
    o.answer = some answer ∧ callsIn o.events = [(lease.stream, describe answer)] := by
  rw [reach_some here]
  unfold World.ask
  rw [there]
  simp

namespace Broker

variable {b : Broker} {h : Handle} {lease : Lease} {stream : Stream}

/-- Writing makes one call, and the answer is the count that the stream gave. -/
theorem write_answered (here : b.registry.get? h = some lease)
    (there : b.registry.world.stream? lease.stream = some stream) {bytes : Bytes}
    (something : bytes ≠ []) :
    let n := (stream.write b.registry.world.disk bytes).answer
    (b.step (.write (.resource h) (.string bytes))).answer = .written (.ok n) ∧
      callsIn (b.step (.write (.resource h) (.string bytes))).events =
        [(lease.stream, .write bytes n)] ∧
      callsIn (b.step (.discard (.resource h) (.string bytes))).events =
        [(lease.stream, .write bytes n)] := by
  obtain ⟨answer, -, calls⟩ := deliver_spec b h bytes
  have asked := Registry.reach_ask here there 0 (fun stream d => stream.write d bytes) (.write bytes)
  have count : (b.registry.write h bytes).answer = some _ := asked.1
  have call : callsIn (b.registry.write h bytes).events = [(lease.stream, .write bytes _)] := asked.2
  obtain ⟨written, discarded⟩ := write_deliver (b := b) (h := h) something
  rw [count] at answer
  simp only [step, answering, written, discarded, answer, calls]
  exact ⟨trivial, call, call⟩

/-- An end query makes one call, and the answer is the stream's. -/
theorem atEnd_answered (here : b.registry.get? h = some lease)
    (there : b.registry.world.stream? lease.stream = some stream) :
    let answer := (stream.atEnd b.registry.world.disk).answer
    (b.step (.atEnd (.resource h))).answer = .verdict answer ∧
      callsIn (b.step (.atEnd (.resource h))).events = [(lease.stream, .atEnd answer)] := by
  have asked := Registry.reach_ask here there false (fun stream d => stream.atEnd d) .atEnd
  have verdict : (b.registry.atEnd h).answer = some _ := asked.1
  simp only [step, answering, atEnd, expectHandle, verdict]
  exact ⟨trivial, asked.2⟩

/-! ## Runs -/

/-- What the broker asks of a stream in a run is what the history addresses to it. -/
theorem run_requests {limit : Nat} {l : Ledger} (sound : b.registry.books.Sound)
    (agrees : l.Agrees b.registry.books) (bound : b.registry.pool.limit = limit)
    (ops : List Operation)
    (few : (b.run ops).state.registry.slots.slots.length ≤ Slots.maxSlots) (s : StreamId) :
    (callsTo s (b.brokeredCalls ops)).filterMap Call.request? =
      l.requests limit s (b.history ops) := by
  induction ops generalizing b l with
  | nil => rfl
  | cons op rest ih =>
    have move := step_move sound op
    have later := move.sound sound
    have fewer := Nat.le_trans (length_le_run later rest) few
    have others := ih later (agrees.move sound move fewer bound) (move.limit.trans bound) few
    have first : (callsTo s (if op.brokered then callsIn (b.step op).events else [])).filterMap
        Call.request? = (l.request? s op (b.step op).answer).toList := by
      split
      · rename_i own
        exact agrees.request move own
      · rename_i other
        rw [Ledger.request?_of_not_brokered (Bool.eq_false_iff.mpr other)]
        rfl
    show (callsTo s (_ ++ _)).filterMap Call.request? = _ ++ _
    rw [callsTo_append, List.filterMap_append, first, others]
    rfl

/-- In a run of a new broker with few slots, what the broker asks of a stream is exactly
what the history addresses to it, in order and one for one: bytes to write, whole and as
they are, and end queries, each through a handle that, by the ledger of that time, denotes
the stream. At every point a write through a handle that denotes a stream makes one call,
and its answer is the count that the stream gave; so is the answer to an end query. -/
theorem requests_routed (config : Config) (files : FileSystem) (sink : Sink) (disk : Disk)
    (ops : List Operation)
    (few : ((Broker.ofConfig config files sink (.ofDisk disk)).run
      ops).state.registry.slots.slots.length ≤ Slots.maxSlots) :
    let start := Broker.ofConfig config files sink (.ofDisk disk)
    let history := start.history ops
    (∀ s, (callsTo s (start.brokeredCalls ops)).filterMap Call.request? =
      Ledger.empty.requests config.idleLimit s history) ∧
    ∀ h lease, (Ledger.ofHistory config.idleLimit history).held h = some lease →
      let b := (start.run ops).state
      let world := b.registry.world
      ∃ stream, world.stream? lease.stream = some stream ∧
        (∀ bytes, bytes ≠ [] →
          let n := (stream.write world.disk bytes).answer
          (b.step (.write (.resource h) (.string bytes))).answer = .written (.ok n) ∧
            callsIn (b.step (.write (.resource h) (.string bytes))).events =
              [(lease.stream, .write bytes n)] ∧
            callsIn (b.step (.discard (.resource h) (.string bytes))).events =
              [(lease.stream, .write bytes n)]) ∧
        (b.step (.atEnd (.resource h))).answer =
            .verdict (stream.atEnd world.disk).answer ∧
          callsIn (b.step (.atEnd (.resource h))).events =
            [(lease.stream, .atEnd (stream.atEnd world.disk).answer)] := by
  intro start history
  have past : Reached config.idleLimit history _ _ := run_reached config files sink disk ops
  constructor
  · intro s
    have new : start.registry.books.Sound := (run_reached config files sink disk []).sound
    have blank : Ledger.empty.Agrees start.registry.books :=
      ⟨Slots.get?_empty, fun key => rfl, rfl⟩
    exact run_requests new blank rfl ops few s
  · intro h lease held b world
    have here : b.registry.get? h = some lease := ((past.agrees few).held h).trans held
    have known : lease.stream < world.streams.length :=
      past.sound.known _ (Books.mem_owned_of_get? here)
    have there : world.stream? lease.stream = some world.streams[lease.stream] :=
      List.getElem?_eq_getElem known
    exact ⟨_, there, fun bytes something => write_answered here there something,
      atEnd_answered here there⟩

/-- Two streams in one slot, the first of which answers short and then too much; the last
write to it goes through a handle that is stale by then. -/
def crossing : List Operation :=
  [.openStream (.ready (.script ⟨[2, 9], [], 0, 0⟩)) {}, .write (.resource ⟨0, 0⟩) (.string [7, 0, 7]),
    .discard (.resource ⟨0, 0⟩) (.string [1]), .write (.resource ⟨0, 0⟩) (.string []),
    .close (.resource ⟨0, 0⟩), .openStream (.ready (.memory .empty)) {},
    .write (.resource ⟨0, 0⟩) (.string [8]), .atEnd (.resource ⟨0, 1⟩),
    .discard (.resource ⟨0, 1⟩) (.string [0])]

theorem requests_routed_crossing :
    let start := Broker.ofConfig {} .disk .log (.ofDisk .empty)
    (callsTo 0 (start.brokeredCalls crossing)).filterMap Call.request? =
        [.write [7, 0, 7], .write [1]] ∧
      (callsTo 1 (start.brokeredCalls crossing)).filterMap Call.request? =
        [.atEnd true, .write [0]] := by
  obtain ⟨routed, -⟩ := requests_routed {} .disk .log .empty crossing (by decide)
  exact ⟨(routed 0).trans (by decide +kernel), (routed 1).trans (by decide +kernel)⟩

end Broker

end StreamBroker
