import StreamBroker.Proofs.History

/-!
# The life of a stream

What becomes of every stream that a broker was supplied with, told by the calls that
the streams received. Main statements:

* **calls of a move** — only streams that are owned are called (`Move.calls_owned`), none
  after it was closed (`Move.parted`), an idle one only to be closed with all others
  (`Move.idle_silent`, `Move.idle_closed`);
* **releases** — a move releases exactly what a removal hands back under a key
  (`Move.releases`);
* **lifecycle** — `stream_lifecycle`: after every run each supplied stream is held once,
  idle once or closed once, and the counts add up.
-/

namespace StreamBroker

/-- The later call is of another stream if the earlier one closed its stream. -/
def Parted (earlier later : StreamId × Call) : Prop :=
  earlier.2 = .close → later.1 ≠ earlier.1

/-- The streams that an operation between two books hands back under a key: of a handle
that `close` or `releaseHandle` names, and that is removed. -/
def Books.handedBack (b b' : Books) : Operation → List StreamId
  | .releaseHandle h | .close (.resource h) =>
    match b.slots.get? h, b'.slots.get? h with
    | some lease, none => if lease.persistent then [lease.stream] else []
    | _, _ => []
  | _ => []

/-- The streams that a run hands back under a key, in order. -/
def Broker.handbacks (b : Broker) : List Operation → List StreamId
  | [] => []
  | op :: rest =>
    let after := (b.step op).state
    b.registry.books.handedBack after.registry.books op ++ after.handbacks rest

namespace Books

variable {b : Books} {s : StreamId}

theorem Sound.notMem_held (sound : b.Sound) (idle : s ∈ b.idle) : s ∉ b.held := by
  intro held
  exact (List.nodup_append.mp sound.once).2.2 s held s idle rfl

theorem mem_held_of_removed {h : Handle} {lease : Lease} {left : Slots Lease}
    (removed : b.slots.remove h = some (lease, left)) : lease.stream ∈ b.held :=
  mem_held_of_get? (Slots.remove_spec removed).1

theorem mem_held_of_gone {hs : List Handle} {gone : List Lease} {left : Slots Lease}
    (removed : b.slots.removeEach hs = (gone, left)) (here : s ∈ gone.map Lease.stream) :
    s ∈ b.held :=
  (held_removeEach removed).mem_iff.mpr (List.mem_append_left _ here)

theorem handedBack_self (b : Books) (op : Operation) : b.handedBack b op = [] := by
  unfold handedBack
  split
  · split
    · rename_i here absent
      rw [here] at absent
      cases absent
    · rfl
  · split
    · rename_i here absent
      rw [here] at absent
      cases absent
    · rfl
  · rfl

end Books

namespace Move

variable {b b' : Books} {op : Operation} {answer : Answer} {calls : List (StreamId × Call)}
  {s : StreamId} {c : Call}

/-! ## The calls of a move -/

/-- Only `closeAll` calls streams that are not held. -/
theorem calls_held (move : Move b op answer b' calls) (some : op ≠ .closeAll)
    (made : (s, c) ∈ calls) : s ∈ b.held := by
  cases move with
  | rest | held | reused | guarded => cases made
  | asked asks here =>
    cases List.mem_singleton.mp made
    exact Books.mem_held_of_get? here
  | closed removes transient removed | parked removes persistent removed =>
    cases List.mem_singleton.mp made
    exact Books.mem_held_of_removed removed
  | overflowed removes persistent removed =>
    have stream := Books.mem_held_of_removed removed
    rcases List.mem_cons.mp made with first | second
    · cases first
      exact stream
    · cases List.mem_singleton.mp second
      exact stream
  | emptied => exact absurd rfl some

/-- What `closeAll` does to books and streams. -/
theorem of_closeAll (move : Move b .closeAll answer b' calls) :
    ∃ gone, b.slots.removeEach b.slots.handles = (gone, b'.slots) ∧
      b'.pool = { b.pool with idle := [] } ∧
      answer = .count (gone.map Lease.stream ++ b.idle).length ∧
      calls = (gone.map Lease.stream ++ b.idle).map fun s => (s, .close) := by
  cases move with
  | rest rests => cases rests
  | asked asks => cases asks
  | held supplies => cases supplies
  | closed removes | parked removes | overflowed removes => cases removes
  | emptied removed => exact ⟨_, removed, rfl, rfl, rfl⟩

/-- The streams that `closeAll` closes are owned, and each is closed once. -/
theorem closed_once (sound : b.Sound) {gone : List Lease} {left : Slots Lease} {hs : List Handle}
    (removed : b.slots.removeEach hs = (gone, left)) :
    (gone.map Lease.stream ++ b.idle).Nodup := by
  have held := (Books.held_removeEach removed).nodup_iff.mp (List.nodup_append.mp sound.once).1
  refine List.nodup_append.mpr ⟨(List.nodup_append.mp held).1, (List.nodup_append.mp sound.once).2.1,
    fun s torn s' idle same => ?_⟩
  rw [← same] at idle
  exact sound.notMem_held idle (Books.mem_held_of_gone removed torn)

/-- Only owned streams are called. -/
theorem calls_owned (move : Move b op answer b' calls) (made : (s, c) ∈ calls) : s ∈ b.owned := by
  cases op with
  | closeAll =>
    obtain ⟨gone, removed, -, -, rfl⟩ := move.of_closeAll
    obtain ⟨s', here, same⟩ := List.mem_map.mp made
    cases same
    rcases List.mem_append.mp here with held | idle
    · exact List.mem_append_left _ (Books.mem_held_of_gone removed held)
    · exact List.mem_append_right _ idle
  | _ => exact List.mem_append_left _ (move.calls_held nofun made)

/-- Within a move no stream is called after it was closed. -/
theorem parted (sound : b.Sound) (move : Move b op answer b' calls) : calls.Pairwise Parted := by
  cases move with
  | rest | held | reused | guarded => exact List.Pairwise.nil
  | asked | closed | parked => exact List.pairwise_singleton ..
  | overflowed =>
    -- the release comes first, and the close is the last call
    refine List.Pairwise.cons (fun later here closes => ?_) (List.pairwise_singleton ..)
    cases closes
  | emptied removed =>
    rw [List.pairwise_map]
    exact (closed_once sound removed).imp fun apart _ same => apart same.symm

/-- An idle stream is left alone by everything but `closeAll`. -/
theorem idle_silent (sound : b.Sound) (move : Move b op answer b' calls) (some : op ≠ .closeAll)
    (idle : s ∈ b.idle) : callsTo s calls = [] :=
  callsTo_eq_nil fun _ made => sound.notMem_held idle (move.calls_held some made)

/-- `closeAll` closes an idle stream once. -/
theorem idle_closed (sound : b.Sound) (move : Move b .closeAll answer b' calls)
    (idle : s ∈ b.idle) : callsTo s calls = [.close] := by
  obtain ⟨gone, removed, -, -, rfl⟩ := move.of_closeAll
  have once := List.Nodup.count (a := s) (closed_once sound removed)
  rw [callsTo_map, once, if_pos (List.mem_append_right _ idle)]
  rfl

/-- A stream that is idle after a move was so before and was left alone, or it was
released. -/
theorem idle_after (sound : b.Sound) (move : Move b op answer b' calls) (idle : s ∈ b'.idle) :
    (s ∈ b.idle ∧ callsTo s calls = []) ∨ callsTo s calls = [.release] := by
  by_cases all : op = .closeAll
  · subst all
    obtain ⟨gone, -, pool, -, -⟩ := move.of_closeAll
    rw [Books.idle, pool] at idle
    cases idle
  · have silent : s ∈ b.idle → callsTo s calls = [] := move.idle_silent sound all
    cases move with
    | rest | asked | held | guarded | closed | overflowed => exact Or.inl ⟨idle, silent idle⟩
    | reused taken =>
      have below := (Shelf.toList_pop? taken).mem_iff.mpr (List.mem_cons_of_mem _ idle)
      exact Or.inl ⟨below, silent below⟩
    | @parked _ _ lease _ key removes persistent removed room =>
      have parked := (Shelf.toList_push b.pool.idle key lease.stream).mem_iff.mp idle
      rcases List.mem_cons.mp parked with rfl | old
      · refine Or.inr ?_
        simp [callsTo]
      · exact Or.inl ⟨old, silent old⟩
    | emptied => cases idle

/-- A move releases what a removal hands back under a key, and nothing else. -/
theorem releases (move : Move b op answer b' calls) :
    madeOf .release calls = b.handedBack b' op := by
  cases move with
  -- only a removal changes what a handle reaches from something to nothing
  | rest => exact (b.handedBack_self op).symm
  | @asked _ _ _ lease c asks =>
    rw [b.handedBack_self op]
    simp [madeOf, asks.call_ne.2]
  | held supplies => cases supplies <;> rfl
  | reused | guarded => rfl
  | @closed _ h lease left removes transient removed =>
    have before := (Slots.remove_spec removed).1
    have after := Slots.get?_remove_self removed
    cases removes with
    | closeHandle => rfl
    | close | releaseHandle =>
      have keyless : lease.key = none := transient
      simp [Books.handedBack, before, after, Lease.persistent, keyless, madeOf]
  | @parked _ h lease left key removes persistent removed
  | @overflowed _ h lease left key removes persistent removed =>
    have before := (Slots.remove_spec removed).1
    have after := Slots.get?_remove_self removed
    cases removes with
    | closeHandle => cases persistent
    | close | releaseHandle =>
      have keyed : lease.key = some key := persistent
      simp [Books.handedBack, before, after, Lease.persistent, keyed, madeOf]
  | emptied =>
    have apart : Call.close ≠ Call.release := by decide
    exact madeOf_map_of_ne apart _

end Move

/-! ## The calls of a run -/

namespace Reached

variable {limit : Nat} {history : List (Operation × Answer)} {calls : List (StreamId × Call)}
  {b : Books} {s : StreamId}

/-- Each supplied stream is held, idle or closed, and this once. -/
theorem count_places (past : Reached limit history calls b) (s : StreamId) :
    b.held.count s + b.idle.count s + (madeOf .close calls).count s =
      if s < b.supplied then 1 else 0 := by
  have places := past.accounted.count_eq s
  rw [List.count_append, Books.owned, List.count_append, List.nodup_range.count] at places
  simpa using places

/-- A stream that is owned was not closed. -/
theorem notMem_closed (past : Reached limit history calls b) (owned : s ∈ b.owned) :
    s ∉ madeOf .close calls := by
  have once := past.accounted.nodup_iff.mpr List.nodup_range
  intro closed
  exact (List.nodup_append.mp once).2.2 s owned s closed rfl

theorem known (past : Reached limit history calls b) {c : Call} (made : (s, c) ∈ calls) :
    s < b.supplied := by
  induction past with
  | start => cases made
  | @move history calls b op answer b' more past move ih =>
    have grown := congrArg List.length move.supplied
    rw [List.length_append, List.length_range, List.length_range] at grown
    have before : s < b.supplied := by
      rcases List.mem_append.mp made with old | new
      · exact ih old
      · exact past.sound.known s (move.calls_owned new)
    exact Nat.lt_of_lt_of_le before (by omega)

/-- No stream is called after it was closed. -/
theorem parted (past : Reached limit history calls b) : calls.Pairwise Parted := by
  induction past with
  | start => exact List.Pairwise.nil
  | move past move ih =>
    -- a new call is of a stream that is owned, hence of none that was closed before
    refine List.pairwise_append.mpr ⟨ih, move.parted past.sound, fun earlier old later new => ?_⟩
    intro closes same
    have closed : (earlier.1, earlier.2) ∈ _ := old
    rw [closes] at closed
    have owned := move.calls_owned new
    rw [same] at owned
    exact past.notMem_closed owned (mem_madeOf.mpr closed)

/-- The last call of an idle stream was its release. -/
theorem last_release (past : Reached limit history calls b) (idle : s ∈ b.idle) :
    (callsTo s calls).getLast? = some .release := by
  induction past with
  | start => cases idle
  | move past move ih =>
    rw [callsTo_append]
    rcases move.idle_after past.sound idle with ⟨before, silent⟩ | released
    · rw [silent, List.append_nil]
      exact ih before
    · rw [released]
      exact List.getLast?_concat

end Reached

namespace Broker

variable {b : Broker}

theorem run_handbacks (sound : b.registry.books.Sound) (ops : List Operation) :
    madeOf .release (callsIn (b.run ops).events) = b.handbacks ops := by
  induction ops generalizing b with
  | nil => rfl
  | cons op rest ih =>
    have move := step_move sound op
    show madeOf .release (callsIn ((b.step op).events ++ _)) = _
    rw [callsIn_append, madeOf_append, move.releases, ih (move.sound sound)]
    rfl

theorem run_supplied (sound : b.registry.books.Sound) (ops : List Operation) :
    List.range (b.run ops).state.registry.books.supplied =
      List.range b.registry.books.supplied ++ (b.run ops).answer.flatMap Answer.supplied := by
  induction ops generalizing b with
  | nil => exact (List.append_nil _).symm
  | cons op rest ih =>
    have move := step_move sound op
    have others := ih (move.sound sound)
    rw [move.supplied, List.append_assoc] at others
    exact others

theorem liveCount_add_totalIdle (sound : b.registry.books.Sound) :
    b.registry.liveCount + b.registry.pool.totalIdle = b.registry.books.owned.length := by
  have held : b.registry.liveCount = b.registry.books.held.length := by
    rw [Books.held, List.length_map]
    exact sound.slots.live_eq_length
  have idle : b.registry.pool.totalIdle = b.registry.books.idle.length :=
    Shelf.total_eq_length_toList b.registry.pool.idle
  rw [held, idle, Books.owned, List.length_append]

/-- After every run of a new broker: each supplied stream is in exactly one slot, at one
position of one idle list, or closed, and it was closed once in the last case and never in
the others. Only supplied streams are called, and none after it was closed. The last call of
an idle stream was its release, and the next one comes from `closeAll`, unless it is held
again before. The releases are those of handles that were given back under a key. The
supplied streams, numbered in the order in which they were answered, are as many as those
held, idle and closed. -/
theorem stream_lifecycle (config : Config) (files : FileSystem) (sink : Sink) (disk : Disk)
    (ops : List Operation) :
    let start := Broker.ofConfig config files sink (.ofDisk disk)
    let o := start.run ops
    let b := o.state.registry.books
    let calls := callsIn o.events
    (∀ s, b.held.count s + b.idle.count s + (madeOf .close calls).count s =
      if s < b.supplied then 1 else 0) ∧
    (∀ s c, (s, c) ∈ calls → s < b.supplied) ∧
    calls.Pairwise Parted ∧
    (∀ s ∈ b.idle, (callsTo s calls).getLast? = some .release ∧
      (∀ op, op ≠ .closeAll → callsTo s (callsIn (o.state.step op).events) = []) ∧
      callsTo s (callsIn (o.state.step .closeAll).events) = [.close]) ∧
    madeOf .release calls = start.handbacks ops ∧
    o.answer.flatMap Answer.supplied = List.range b.supplied ∧
    b.supplied = o.state.registry.liveCount + o.state.registry.pool.totalIdle +
      (madeOf .close calls).length := by
  intro start o b calls
  have past : Reached config.idleLimit (start.history ops) calls b :=
    run_reached config files sink disk ops
  have sound : o.state.registry.books.Sound := past.sound
  have new : start.registry.books.Sound := (run_reached config files sink disk []).sound
  refine ⟨past.count_places, fun s c => past.known, past.parted, fun s idle => ?_,
    run_handbacks new ops, (run_supplied new ops).symm, ?_⟩
  · refine ⟨past.last_release idle, fun op some => ?_, ?_⟩
    · exact (step_move sound op).idle_silent sound some idle
    · exact (step_move sound .closeAll).idle_closed sound idle
  · have places := past.accounted.length_eq
    rw [List.length_append, List.length_range] at places
    rw [liveCount_add_totalIdle sound]
    exact places.symm

end Broker

end StreamBroker
