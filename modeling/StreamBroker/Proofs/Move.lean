import StreamBroker.Operation
import StreamBroker.Proofs.Calls
import StreamBroker.Proofs.Edit
import StreamBroker.Proofs.Shelf

/-!
# Moves

What one operation can do to the books, and the calls that it makes. The books are
the slots, the pool and the number of streams supplied so far; nothing else of a
broker decides who owns a stream. Main statements:

* **moves** — `Move` lists the ways the books go on: nothing happens, a stream is
  asked, held, reused, guarded, torn down, parked, torn down for lack of room, or
  everything is torn down at once;
* **inversion** — every step of a broker with sound books is a move
  (`step_move`); what follows about runs is proved by cases on it.
-/

namespace StreamBroker

/-- What decides who owns a stream: slots, pool and the number of streams supplied. -/
structure Books where
  slots : Slots Lease
  pool : Pool
  supplied : Nat

/-- The books of a registry. -/
def Registry.books (r : Registry) : Books := ⟨r.slots, r.pool, r.world.streams.length⟩

namespace Books

/-- The streams that are held, by ascending slot. -/
def held (b : Books) : List StreamId := b.slots.things.map Lease.stream

/-- The streams that are idle, those of a key together. -/
def idle (b : Books) : List StreamId := b.pool.idle.toList

/-- The streams that are held or idle. -/
def owned (b : Books) : List StreamId := b.held ++ b.idle

/-- Books that name each stream once, and none that was not supplied. -/
structure Sound (b : Books) : Prop where
  slots : b.slots.Wf
  shelf : b.pool.idle.Wf
  known : ∀ s ∈ b.owned, s < b.supplied
  once : b.owned.Nodup

theorem mem_held_of_get? {b : Books} {h : Handle} {lease : Lease}
    (here : b.slots.get? h = some lease) : lease.stream ∈ b.held := by
  have entry := (Slots.thing?_of_get? here).2
  obtain ⟨slot, there, holds⟩ := Option.bind_eq_some_iff.mp entry
  exact List.mem_map_of_mem (List.mem_filterMap.mpr ⟨slot, List.mem_of_getElem? there, holds⟩)

theorem Sound.held_known {b : Books} (sound : b.Sound) {lease : Lease}
    (here : lease ∈ b.slots.things) : lease.stream < b.supplied :=
  sound.known _ (List.mem_append_left _ (List.mem_map_of_mem here))

theorem mem_owned_of_get? {b : Books} {h : Handle} {lease : Lease}
    (here : b.slots.get? h = some lease) : lease.stream ∈ b.owned :=
  List.mem_append_left _ (mem_held_of_get? here)

end Books

/-! ## Kinds of operations -/

/-- The key of streams that are opened on these terms. -/
def Terms.key (terms : Terms) : Option Key :=
  if terms.persistent then some Registry.anonymousKey else none

namespace Operation

/-- An operation that makes a call of the stream of a handle, with the answer to it. -/
inductive Asks : Operation → Handle → Answer → Call → Prop
  | write {h bytes n} (some : bytes ≠ []) :
      Asks (.write (.resource h) (.string bytes)) h (.written (.ok n)) (.write bytes n)
  | discard {h bytes n} (some : bytes ≠ []) :
      Asks (.discard (.resource h) (.string bytes)) h .nothing (.write bytes n)
  | atEnd {h b} : Asks (.atEnd (.resource h)) h (.verdict b) (.atEnd b)
  | writeTo {h data n} : Asks (.writeTo h data) h (.accepted (some n)) (.write data n)
  | readFrom {h size bytes} : Asks (.readFrom h size) h (.got (some bytes)) (.read size bytes)
  | atEndOf {h b} : Asks (.atEndOf h) h (.ended (some b)) (.atEnd b)

/-- An operation that removes a handle when it stands for the lease. -/
inductive Removes : Operation → Handle → Lease → Prop
  | close {h lease} (unguarded : lease.guarded = false) : Removes (.close (.resource h)) h lease
  | closeHandle {h lease} : Removes (.closeHandle h) h lease
  | releaseHandle {h lease} : Removes (.releaseHandle h) h lease

/-- The key under which an operation that removes a lease gives the stream back. -/
def returnKey : Operation → Lease → Option Key
  | .closeHandle _, _ => none
  | _, lease => lease.key

/-- An operation that holds a supplied stream, and the terms of its lease. -/
inductive Supplies (pool : Pool) : Operation → Option Key → Bool → Prop
  | openStream {source terms} : Supplies pool (.openStream source terms) terms.key terms.guarded
  | openPersistent {key source} (none : pool.idle.stack key = []) :
      Supplies pool (.openPersistent key source) (some key) false

/-- The handle that an operation names. -/
def handle? : Operation → Option Handle
  | .write (.resource h) _ | .discard (.resource h) _ => some h
  | .atEnd (.resource h) | .close (.resource h) => some h
  | .writeTo h _ | .readFrom h _ | .atEndOf h => some h
  | .setGuarded h _ | .closeHandle h | .releaseHandle h => some h
  | _ => none

theorem Asks.handle {op : Operation} {h : Handle} {answer : Answer} {c : Call}
    (asks : op.Asks h answer c) : op.handle? = some h := by
  cases asks <;> rfl

theorem Removes.handle {op : Operation} {h : Handle} {lease : Lease}
    (removes : op.Removes h lease) : op.handle? = some h := by
  cases removes <;> rfl

/-- The answer to an operation that left the books alone. An opening under a key does only if
nothing is idle there. -/
def Rests (pool : Pool) : Operation → Answer → Prop
  | .openStream .., answer => ∃ fault, answer = .fault fault
  | .openPersistent key _, answer => pool.idle.stack key = [] ∧ ∃ fault, answer = .fault fault
  | .close _, answer | .closeHandle _, answer | .releaseHandle _, answer => answer = .verdict false
  | .setGuarded .., _ | .closeAll, _ => False
  | _, answer => ∀ o, answer ≠ .opened o

end Operation

/-! ## Moves -/

/-- How an operation takes books to books, with its answer and the calls it makes. -/
inductive Move (b : Books) : Operation → Answer → Books → List (StreamId × Call) → Prop
  /-- Nothing happens to the books, and nobody is called. -/
  | rest {op answer} (rests : op.Rests b.pool answer)
      (absent : ∀ h answer c, op.Asks h answer c → b.slots.get? h = none)
      (kept : ∀ h lease, op.Removes h lease → b.slots.get? h ≠ some lease) :
      Move b op answer b []
  /-- A held stream is asked something. -/
  | asked {op answer h lease c} (asks : op.Asks h answer c)
      (here : b.slots.get? h = some lease) :
      Move b op answer b [(lease.stream, c)]
  /-- A supplied stream is held. -/
  | held {op key guarded} (supplies : op.Supplies b.pool key guarded) :
      Move b op (.opened ⟨(b.slots.insert ⟨b.supplied, key, guarded⟩).1, b.supplied, true⟩)
        ⟨(b.slots.insert ⟨b.supplied, key, guarded⟩).2, b.pool, b.supplied + 1⟩ []
  /-- An idle stream is held again. -/
  | reused {key source s idle} (taken : b.pool.idle.pop? key = some (s, idle)) :
      Move b (.openPersistent key source)
        (.opened ⟨(b.slots.insert ⟨s, some key, false⟩).1, s, false⟩)
        ⟨(b.slots.insert ⟨s, some key, false⟩).2, { b.pool with idle := idle }, b.supplied⟩ []
  /-- A guard is set or lifted. -/
  | guarded (h : Handle) (guarded : Bool) :
      Move b (.setGuarded h guarded) (.verdict (b.slots.contains h))
        { b with slots := b.slots.update h fun lease => { lease with guarded := guarded } } []
  /-- A held stream is torn down. -/
  | closed {op h lease left} (removes : op.Removes h lease) (transient : op.returnKey lease = none)
      (removed : b.slots.remove h = some (lease, left)) :
      Move b op (.verdict true) { b with slots := left } [(lease.stream, .close)]
  /-- A held stream becomes idle. -/
  | parked {op h lease left key} (removes : op.Removes h lease)
      (persistent : op.returnKey lease = some key)
      (removed : b.slots.remove h = some (lease, left))
      (room : b.pool.idleCount key < b.pool.limit) :
      Move b op (.verdict true)
        ⟨left, { b.pool with idle := b.pool.idle.push key lease.stream, parked := b.pool.parked + 1 },
          b.supplied⟩
        [(lease.stream, .release)]
  /-- A held stream is released and, since its key is full, torn down. -/
  | overflowed {op h lease left key} (removes : op.Removes h lease)
      (persistent : op.returnKey lease = some key)
      (removed : b.slots.remove h = some (lease, left))
      (full : b.pool.limit ≤ b.pool.idleCount key) :
      Move b op (.verdict true)
        ⟨left, { b.pool with overflow := b.pool.overflow + 1 }, b.supplied⟩
        [(lease.stream, .release), (lease.stream, .close)]
  /-- Everything is torn down, what is held before what is idle. -/
  | emptied {gone left} (removed : b.slots.removeEach b.slots.handles = (gone, left)) :
      Move b .closeAll (.count (gone.map Lease.stream ++ b.idle).length)
        ⟨left, { b.pool with idle := [] }, b.supplied⟩
        ((gone.map Lease.stream ++ b.idle).map fun s => (s, .close))

/-- An operation that names no held stream leaves the books alone. -/
theorem Move.rest_of_absent {b : Books} {op : Operation} {answer : Answer}
    (rests : op.Rests b.pool answer)
    (absent : ∀ h, op.handle? = some h → b.slots.get? h = none) :
    Move b op answer b [] :=
  .rest rests (fun h _ _ asks => absent h asks.handle) fun h lease removes here => by
    rw [absent h removes.handle] at here
    cases here

/-! ## The registry's functions -/

theorem Answer.ofOpening_eq_opened {result : Except Disk.Fault Opened} {o : Opened}
    (opens : ofOpening result = .opened o) : result = .ok o := by
  cases result <;> cases opens
  rfl

namespace Registry

variable {r : Registry} {h : Handle} {lease : Lease} {op : Operation}

/-- A source with none to give changes nothing. -/
theorem supply_error {source : Stream.Source} {fault : Disk.Fault}
    (misses : source.take r.world.disk = .error fault) (key : Option Key) (guarded : Bool) :
    r.supply source key guarded = ⟨.error fault, r, []⟩ := by
  unfold supply
  rw [misses]

theorem supply_ok {source : Stream.Source} {stream : Stream} {disk : Disk}
    (gives : source.take r.world.disk = .ok (stream, disk)) (key : Option Key) (guarded : Bool) :
    r.supply source key guarded =
      let lease : Lease := ⟨r.world.streams.length, key, guarded⟩
      ⟨.ok ⟨(r.slots.insert lease).1, r.world.streams.length, true⟩,
        { r with slots := (r.slots.insert lease).2, world := ⟨disk, r.world.streams ++ [stream]⟩ },
        []⟩ := by
  unfold supply
  rw [gives]
  rfl

/-- What is held is what the source gave, under the terms that were asked for. -/
theorem supply_opened {source : Stream.Source} {key : Option Key} {guarded : Bool} {o : Opened}
    (opens : (r.supply source key guarded).answer = .ok o) :
    let lease : Lease := ⟨o.stream, key, guarded⟩
    let after := (r.supply source key guarded).state
    o.handle = (r.slots.insert lease).1 ∧ after.slots = (r.slots.insert lease).2 ∧
      ∃ stream disk, source.take r.world.disk = .ok (stream, disk) ∧
        after.world.stream? o.stream = some stream := by
  cases takes : source.take r.world.disk with
  | error fault =>
    rw [supply_error takes] at opens
    cases opens
  | ok found =>
    rw [supply_ok takes] at opens ⊢
    cases opens
    exact ⟨rfl, rfl, found.1, found.2, rfl, List.getElem?_concat_length⟩

theorem supply_move {source : Stream.Source} {key : Option Key} {guarded : Bool}
    (supplies : op.Supplies r.pool key guarded) (rests : ∀ fault, op.Rests r.pool (.fault fault))
    (unnamed : op.handle? = none) :
    let o := r.supply source key guarded
    Move r.books op (.ofOpening o.answer) o.state.books (callsIn o.events) := by
  cases takes : source.take r.world.disk with
  | error fault =>
    rw [supply_error takes]
    refine .rest_of_absent (rests fault) fun h named => ?_
    rw [unnamed] at named
    cases named
  | ok found =>
    have move := Move.held (b := r.books) supplies
    have length : (r.world.streams ++ [found.1]).length = r.world.streams.length + 1 :=
      List.length_append
    rw [supply_ok takes]
    simp only [books, length]
    exact move

/-- Without an idle stream of the key, opening under it is a supply. -/
theorem openPersistent_missed {key : Key} (nothing : r.pool.idle.stack key = [])
    (source : Stream.Source) :
    r.openPersistent key source = r.supply source (some key) false := by
  unfold openPersistent Pool.take?
  rw [Shelf.pop?_eq_none_iff.mpr nothing]
  rfl

/-- With one, the source is not asked, and the world is left alone. -/
theorem openPersistent_taken {key : Key} {s : StreamId} {left : Shelf StreamId}
    (taken : r.pool.idle.pop? key = some (s, left)) (source : Stream.Source) :
    r.openPersistent key source =
      ⟨.ok ⟨(r.slots.insert ⟨s, some key, false⟩).1, s, false⟩,
        { r with slots := (r.slots.insert ⟨s, some key, false⟩).2,
                 pool := { r.pool with idle := left } },
        [.note (.reused key)]⟩ := by
  unfold openPersistent Pool.take?
  rw [taken]
  rfl

theorem openPersistent_move {key : Key} {source : Stream.Source} :
    let o := r.openPersistent key source
    Move r.books (.openPersistent key source) (.ofOpening o.answer) o.state.books
      (callsIn o.events) := by
  cases popped : r.pool.idle.pop? key with
  | none =>
    have nothing := Shelf.pop?_eq_none_iff.mp popped
    rw [openPersistent_missed nothing]
    exact supply_move (.openPersistent nothing) (fun fault => ⟨nothing, fault, rfl⟩) rfl
  | some found =>
    rw [openPersistent_taken popped]
    exact Move.reused (b := r.books) popped

theorem reach_none {α : Type} {call : World → StreamId → Outcome World α}
    (absent : r.get? h = none) : r.reach h call = ⟨none, r, []⟩ := by
  unfold reach
  rw [absent]

theorem reach_some {α : Type} {call : World → StreamId → Outcome World α}
    (here : r.get? h = some lease) :
    r.reach h call =
      ⟨some (call r.world lease.stream).answer,
        { r with world := (call r.world lease.stream).state },
        (call r.world lease.stream).events⟩ := by
  unfold reach
  rw [here]

/-- An operation that reaches for a handle's stream, whatever it asks it. -/
theorem reach_move {α : Type} {fallback : α} {ask : Stream → Disk → Stream.Reaction Stream α}
    {describe : α → Call} (answer : Option α → Answer) (sound : r.books.Sound)
    (asks : ∀ a, op.Asks h (answer (some a)) (describe a)) (handle : op.handle? = some h)
    (rests : op.Rests r.pool (answer none)) :
    let o := r.reach h fun w s => w.ask s fallback ask describe
    Move r.books op (answer o.answer) o.state.books (callsIn o.events) := by
  cases here : r.get? h with
  | none =>
    rw [reach_none here]
    refine .rest_of_absent rests fun k same => ?_
    cases handle.symm.trans same
    exact here
  | some lease =>
    have known := sound.known _ (Books.mem_owned_of_get? here)
    rw [reach_some here]
    simp only [books, World.ask_length, World.callsIn_ask fallback ask describe known]
    exact .asked (asks _) here

theorem setGuarded_move (h : Handle) (guarded : Bool) :
    Move r.books (.setGuarded h guarded) (.verdict (r.setGuarded h guarded).answer)
      (r.setGuarded h guarded).state.books (callsIn (r.setGuarded h guarded).events) :=
  Move.guarded (b := r.books) h guarded

theorem close_none (absent : r.get? h = none) : r.close h = ⟨false, r, []⟩ := by
  unfold close
  rw [Slots.remove_eq_none_iff.mpr absent]

theorem release_none (absent : r.get? h = none) : r.release h = ⟨false, r, []⟩ := by
  unfold release
  rw [Slots.remove_eq_none_iff.mpr absent]

theorem close_some {left : Slots Lease} (removed : r.slots.remove h = some (lease, left)) :
    r.close h =
      ⟨true, { r with slots := left, world := (r.world.close lease.stream).state },
        (r.world.close lease.stream).events⟩ := by
  unfold close
  rw [removed]

/-- A release without a key is a close. -/
theorem release_eq_close (removed : r.slots.remove h = some (lease, left))
    (transient : lease.key = none) : r.release h = r.close h := by
  unfold release close
  rw [removed]
  simp only [transient]

theorem close_move {left : Slots Lease} (sound : r.books.Sound) (removes : op.Removes h lease)
    (transient : op.returnKey lease = none) (removed : r.slots.remove h = some (lease, left)) :
    Move r.books op (.verdict (r.close h).answer) (r.close h).state.books
      (callsIn (r.close h).events) := by
  have known := sound.known _ (Books.mem_owned_of_get? (Slots.remove_spec removed).1)
  have move := Move.closed (b := r.books) removes transient removed
  rw [close_some removed]
  unfold books
  simp only [World.close_length, World.callsIn_close known]
  exact move

theorem release_move {left : Slots Lease} {key : Key} (sound : r.books.Sound)
    (removes : op.Removes h lease) (persistent : op.returnKey lease = some key)
    (held : lease.key = some key) (removed : r.slots.remove h = some (lease, left)) :
    Move r.books op (.verdict (r.release h).answer) (r.release h).state.books
      (callsIn (r.release h).events) := by
  have known := sound.known _ (Books.mem_owned_of_get? (Slots.remove_spec removed).1)
  have still : lease.stream < (r.world.release lease.stream).state.streams.length := by
    rw [World.release_length]
    exact known
  unfold release Pool.park
  rw [removed]
  simp only [held]
  by_cases full : r.pool.limit ≤ r.pool.idleCount key
  · have move := Move.overflowed (b := r.books) removes persistent removed full
    simp only [full, if_true, books, callsIn_append, World.callsIn_release known,
      World.callsIn_close still, World.close_length, World.release_length]
    exact move
  · have move := Move.parked (b := r.books) removes persistent removed (Nat.lt_of_not_le full)
    simp only [full, if_false, books, callsIn_append, World.callsIn_release known,
      World.release_length]
    exact move

/-- Closing several handles removes them and closes the streams that they reached. -/
theorem closeEach_spec (hs : List Handle)
    (known : ∀ lease ∈ r.slots.things, lease.stream < r.world.streams.length) :
    (r.closeEach hs).answer = (r.slots.removeEach hs).1.length ∧
      (r.closeEach hs).state.books =
        { r.books with slots := (r.slots.removeEach hs).2 } ∧
      callsIn (r.closeEach hs).events =
        (r.slots.removeEach hs).1.map fun lease => (lease.stream, .close) := by
  induction hs generalizing r with
  | nil => exact ⟨rfl, rfl, rfl⟩
  | cons h rest ih =>
    cases removed : r.slots.remove h with
    | none =>
      have absent : r.get? h = none := Slots.remove_eq_none_iff.mp removed
      have others := ih known
      simp only [closeEach, close_none absent, Slots.removeEach_cons_none removed, callsIn_append]
      simpa using others
    | some found =>
      obtain ⟨lease, left⟩ := found
      have parts := Slots.things_remove removed
      have here := known lease (parts.mem_iff.mpr List.mem_cons_self)
      have others := ih (r := (r.close h).state) fun other there => by
        rw [close_some removed] at there ⊢
        simp only [World.close_length]
        exact known other (parts.mem_iff.mpr (List.mem_cons_of_mem _ there))
      simp only [closeEach, Slots.removeEach_cons_some removed, callsIn_append]
      rw [close_some removed] at others ⊢
      obtain ⟨answer, state, calls⟩ := others
      refine ⟨?_, ?_, ?_⟩
      · rw [answer]
        exact Nat.add_comm ..
      · rw [state]
        simp only [books, World.close_length]
      · rw [calls, World.callsIn_close here]
        rfl

theorem closeAll_move (sound : r.books.Sound) :
    Move r.books .closeAll (.count r.closeAll.answer) r.closeAll.state.books
      (callsIn r.closeAll.events) := by
  have owned : ∀ s ∈ r.books.owned, s < r.world.streams.length := sound.known
  obtain ⟨answer, state, calls⟩ := closeEach_spec (r := r) r.slots.handles fun _ => sound.held_known
  have length := congrArg Books.supplied state
  have pool := congrArg Books.pool state
  have slots := congrArg Books.slots state
  simp only [books] at length pool slots
  have idle : ∀ s ∈ r.pool.idle.toList,
      s < (r.closeEach r.slots.handles).state.world.streams.length := by
    intro s here
    rw [length]
    exact owned s (List.mem_append_right _ here)
  have move := Move.emptied (b := r.books) (Prod.eta _).symm
  unfold closeAll Pool.drain
  simp only [books, callsIn_append, World.closeEach_length, pool, slots, length, calls,
    World.callsIn_closeEach _ _ idle, answer]
  rw [List.length_append, List.length_map, List.map_append, List.map_map] at move
  rw [Pool.totalIdle, Shelf.total_eq_length_toList]
  exact move

end Registry

/-! ## Steps -/

namespace Broker

variable {b : Broker} {h : Handle} {lease : Lease}

theorem writeArguments_eq_ok_iff {stream data : Value} {bytes : Bytes} :
    writeArguments stream data = .ok (h, bytes) ↔ stream = .resource h ∧ data = .string bytes := by
  unfold writeArguments expectHandle expectBytes
  cases stream <;> cases data <;> simp

theorem expectHandle_eq_ok_iff {operation parameter : String} {v : Value} :
    expectHandle operation parameter v = .ok h ↔ v = .resource h := by
  unfold expectHandle
  cases v <;> simp

theorem callsIn_report (operation : String) (refusal : Refusal) :
    callsIn (b.report operation refusal) = [] := by
  unfold report Sink.emit
  cases b.sink <;> rfl

/-- A delivery is the registry's write with a better answer and notes. -/
theorem deliver_spec (b : Broker) (h : Handle) (bytes : Bytes) :
    (b.deliver h bytes).answer =
        (match (b.registry.write h bytes).answer with
          | none => .error (.notLive h)
          | some n => .ok n) ∧
      (b.deliver h bytes).state.registry = (b.registry.write h bytes).state ∧
      callsIn (b.deliver h bytes).events = callsIn (b.registry.write h bytes).events := by
  unfold deliver Registry.write
  cases here : b.registry.get? h with
  | none =>
    rw [Registry.reach_none here]
    exact ⟨rfl, rfl, rfl⟩
  | some lease =>
    rw [Registry.reach_some here]
    refine ⟨rfl, rfl, ?_⟩
    simp only [callsIn_append]
    split
    · exact List.append_nil _
    · exact List.append_nil _

/-- A write that is refused or has nothing in it makes no call. -/
theorem write_rest {stream data : Value}
    (nothing : ∀ h bytes, stream = .resource h → data = .string bytes → bytes = []) :
    (b.write stream data).state = b ∧ callsIn (b.write stream data).events = [] ∧
      (b.discard stream data).state = b ∧ callsIn (b.discard stream data).events = [] := by
  unfold write discard
  cases arguments : writeArguments stream data with
  | error refusal =>
    refine ⟨rfl, callsIn_report .., rfl, ?_⟩
    simp only
    split
    · exact callsIn_report ..
    · rfl
  | ok pair =>
    obtain ⟨h, bytes⟩ := pair
    obtain ⟨isResource, isString⟩ := writeArguments_eq_ok_iff.mp arguments
    simp [nothing h bytes isResource isString]

/-- A write with something in it is a delivery. -/
theorem write_deliver {bytes : Bytes} (something : bytes ≠ []) :
    b.write (.resource h) (.string bytes) = b.deliver h bytes ∧
      b.discard (.resource h) (.string bytes) =
        ⟨(), (b.deliver h bytes).state, (b.deliver h bytes).events⟩ := by
  unfold write discard
  rw [writeArguments_eq_ok_iff.mpr ⟨rfl, rfl⟩]
  simp [something]

/-- Without an answer a write does the same. -/
theorem discard_eq_write (b : Broker) (stream data : Value) :
    (b.discard stream data).state = (b.write stream data).state ∧
      callsIn (b.discard stream data).events = callsIn (b.write stream data).events := by
  unfold discard write
  cases writeArguments stream data with
  | error refusal =>
    refine ⟨rfl, ?_⟩
    simp only [callsIn_report]
    split
    · exact callsIn_report ..
    · rfl
  | ok pair =>
    simp only
    split <;> exact ⟨rfl, rfl⟩

theorem write_move (sound : b.registry.books.Sound) (stream data : Value) :
    Move b.registry.books (.write stream data) (.written (b.write stream data).answer)
        (b.write stream data).state.registry.books (callsIn (b.write stream data).events) ∧
      Move b.registry.books (.discard stream data) .nothing
        (b.discard stream data).state.registry.books (callsIn (b.discard stream data).events) := by
  -- only bytes for a handle get as far as the registry
  by_cases delivers : ∃ h bytes, stream = .resource h ∧ data = .string bytes ∧ bytes ≠ []
  · obtain ⟨h, bytes, rfl, rfl, something⟩ := delivers
    obtain ⟨answer, state, calls⟩ := deliver_spec b h bytes
    rw [(write_deliver something).1, (write_deliver something).2]
    simp only [answer, state, calls]
    constructor
    · exact Registry.reach_move (fun a => .written (match a with
          | none => .error (.notLive h)
          | some n => .ok n)) sound (fun n => .write something) rfl nofun
    · exact Registry.reach_move (fun _ => .nothing) sound
        (fun n => .discard something) rfl nofun
  · have nothing : ∀ h bytes, stream = .resource h → data = .string bytes → bytes = [] := by
      intro h bytes isResource isString
      apply Decidable.byContradiction
      intro something
      exact delivers ⟨h, bytes, isResource, isString, something⟩
    obtain ⟨state, calls, state', calls'⟩ := write_rest (b := b) nothing
    rw [state, calls, state', calls']
    constructor
    · refine .rest nofun (fun h answer c asks => ?_) fun h lease removes => nomatch removes
      cases asks with
      | write something => exact absurd (nothing h _ rfl rfl) something
    · refine .rest nofun (fun h answer c asks => ?_) fun h lease removes => nomatch removes
      cases asks with
      | discard something => exact absurd (nothing h _ rfl rfl) something

theorem atEnd_move (sound : b.registry.books.Sound) (stream : Value) :
    Move b.registry.books (.atEnd stream) (.verdict (b.atEnd stream).answer)
      (b.atEnd stream).state.registry.books (callsIn (b.atEnd stream).events) := by
  unfold atEnd
  cases handle : expectHandle atEndName "stream" stream with
  | error refusal =>
    simp only [callsIn_report]
    refine .rest nofun (fun h answer c asks => ?_) fun h lease removes => nomatch removes
    cases asks
    cases handle
  | ok h =>
    cases expectHandle_eq_ok_iff.mp handle
    have move : Move b.registry.books (.atEnd (.resource h))
        (.verdict ((b.registry.atEnd h).answer.getD false)) (b.registry.atEnd h).state.books
        (callsIn (b.registry.atEnd h).events) :=
      Registry.reach_move (fun b => .verdict (b.getD false)) sound (fun n => .atEnd) rfl nofun
    unfold Registry.atEnd at move ⊢
    cases here : b.registry.get? h with
    | none =>
      simp only [Registry.reach_none here] at move ⊢
      exact move
    | some lease =>
      simp only [Registry.reach_some here] at move ⊢
      exact move

/-- A close that is refused makes no call. -/
theorem close_rest {stream : Value}
    (kept : ∀ h lease, stream = .resource h → b.registry.get? h = some lease →
      lease.guarded = true) :
    (b.close stream).answer = false ∧ (b.close stream).state = b ∧
      callsIn (b.close stream).events = [] := by
  unfold close
  cases handle : expectHandle closeName "stream" stream with
  | error refusal => exact ⟨rfl, rfl, callsIn_report ..⟩
  | ok h =>
    cases here : b.registry.get? h with
    | none =>
      simp only [here, callsIn_report]
      exact ⟨trivial, trivial, trivial⟩
    | some lease =>
      have guarded := kept h lease (expectHandle_eq_ok_iff.mp handle) here
      simp only [here, guarded, if_true, callsIn_report]
      exact ⟨trivial, trivial, trivial⟩

/-- A close of an unguarded stream is the registry's release, with a note in front that tells
whether the stream may go back to its pool. -/
theorem close_eq_release (here : b.registry.get? h = some lease)
    (unguarded : lease.guarded = false) :
    b.close (.resource h) =
      ⟨(b.registry.release h).answer, { b with registry := (b.registry.release h).state },
        .note (if lease.key.isSome then .releasing h else .closing h) ::
          (b.registry.release h).events⟩ := by
  unfold close
  rw [expectHandle_eq_ok_iff.mpr rfl]
  simp only [here, unguarded, Bool.false_eq_true, if_false, Lease.persistent]
  by_cases persistent : lease.key.isSome = true
  · simp only [persistent, if_true]
  · -- without a key the registry's release is a close too
    have keyless : lease.key = none := by simpa using persistent
    rw [Registry.release_eq_close (Slots.remove_eq here) keyless]
    simp only [persistent, Bool.false_eq_true, if_false]

theorem close_move (sound : b.registry.books.Sound) (stream : Value) :
    Move b.registry.books (.close stream) (.verdict (b.close stream).answer)
      (b.close stream).state.registry.books (callsIn (b.close stream).events) := by
  -- either an unguarded lease is given back, or the close is refused
  by_cases gives : ∃ h lease, stream = .resource h ∧ b.registry.get? h = some lease ∧
      lease.guarded = false
  · obtain ⟨h, lease, rfl, here, unguarded⟩ := gives
    have removed := Slots.remove_eq here
    rw [close_eq_release here unguarded, callsIn_note_cons]
    cases key : lease.key with
    | none =>
      rw [Registry.release_eq_close removed key]
      exact Registry.close_move sound (.close unguarded) key removed
    | some key' => exact Registry.release_move sound (.close unguarded) key key removed
  · have kept : ∀ h lease, stream = .resource h → b.registry.get? h = some lease →
        lease.guarded = true := by
      intro h lease isResource here
      apply Bool.of_not_eq_false
      intro unguarded
      exact gives ⟨h, lease, isResource, here, unguarded⟩
    obtain ⟨answer, state, calls⟩ := close_rest kept
    rw [answer, state, calls]
    refine .rest rfl (fun h answer c asks => nomatch asks) fun h lease removes here => ?_
    cases removes with
    | close unguarded => rw [kept h lease rfl here] at unguarded; cases unguarded

/-- Every step of a broker with sound books is a move. -/
theorem step_move (sound : b.registry.books.Sound) (op : Operation) :
    Move b.registry.books op (b.step op).answer (b.step op).state.registry.books
      (callsIn (b.step op).events) := by
  cases op with
  | openStream source terms =>
    exact Registry.supply_move .openStream (fun fault => ⟨fault, rfl⟩) rfl
  | openPersistent key source => exact Registry.openPersistent_move
  | write stream data => exact (write_move sound stream data).1
  | discard stream data => exact (write_move sound stream data).2
  | atEnd stream => exact atEnd_move sound stream
  | close stream => exact close_move sound stream
  | fileExists path =>
    have still : (b.fileExists path).state = b ∧ callsIn (b.fileExists path).events = [] := by
      unfold fileExists
      split <;> exact ⟨rfl, rfl⟩
    simp only [step, answering, still]
    exact .rest_of_absent nofun nofun
  | writeTo h data =>
    exact Registry.reach_move .accepted sound (fun n => .writeTo) rfl nofun
  | readFrom h size =>
    exact Registry.reach_move .got sound (fun n => .readFrom) rfl nofun
  | atEndOf h =>
    exact Registry.reach_move .ended sound (fun n => .atEndOf) rfl nofun
  | setGuarded h guarded => exact Registry.setGuarded_move h guarded
  | closeHandle h =>
    cases removed : b.registry.slots.remove h with
    | none =>
      have absent : b.registry.get? h = none := Slots.remove_eq_none_iff.mp removed
      simp only [step, ofRegistry, Registry.close_none absent]
      exact .rest_of_absent rfl fun k same => by cases same; exact absent
    | some found => exact Registry.close_move sound .closeHandle rfl removed
  | releaseHandle h =>
    cases removed : b.registry.slots.remove h with
    | none =>
      have absent : b.registry.get? h = none := Slots.remove_eq_none_iff.mp removed
      simp only [step, ofRegistry, Registry.release_none absent]
      exact .rest_of_absent rfl fun k same => by cases same; exact absent
    | some found =>
      obtain ⟨lease, left⟩ := found
      cases key : lease.key with
      | none =>
        simp only [step, ofRegistry, Registry.release_eq_close removed key]
        exact Registry.close_move sound .releaseHandle key removed
      | some key' => exact Registry.release_move sound .releaseHandle key key removed
  | closeAll => exact Registry.closeAll_move sound
  | setSink | setFiles | change => exact .rest_of_absent nofun nofun

end Broker

end StreamBroker
