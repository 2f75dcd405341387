import StreamBroker.Proofs.Guard
import StreamBroker.Proofs.Locality
import StreamBroker.Proofs.Writes

/-!
# Operations on different handles

What is asked of the streams of two handles can be asked in either order. Main statements:

* **deeds** — all that a task leaves behind: its stream as it has become, an amendment of the
  disk, and what became of the lease (`Deed`);
* **agreement** — brokers that agree on what a task looks at answer it alike, with the same
  events, and the same deed is done to both (`Task.settled`);
* **interchange** — a deed leaves alone what a task of another handle looks at
  (`Agree.after`), and two such deeds done in either order come to the same but for the order
  of slots that both freed (`Deed.interchange`); `tasks_commute` states it for runs.
-/

namespace StreamBroker

/-! ## What becomes of a lease -/

/-- What becomes of a lease. -/
inductive Fate
  | kept
  | guarded (guarded : Bool)
  | closed
  | parked (key : Key)
  /-- Closed since the pool has no room under the key. -/
  | overflowed

namespace Fate

/-- Whether the slot is free afterwards. -/
def frees : Fate → Bool
  | kept | guarded _ => false
  | _ => true

/-- The key that a stream is put under. -/
def key? : Fate → Option Key
  | parked key => some key
  | _ => none

/-- The slot of the lease afterwards. -/
def slot : Fate → Slot Lease → Slot Lease
  | kept => id
  | .guarded value => fun slot =>
    { slot with entry := slot.entry.map fun lease => { lease with guarded := value } }
  | _ => fun slot => ⟨slot.generation + 1, none⟩

/-- The free slots afterwards, for a lease that a handle reached. -/
def free (fate : Fate) (h : Handle) (listed : List Nat) : List Nat :=
  if fate.frees then h.slot :: listed else listed

def slots (fate : Fate) (h : Handle) (t : Slots Lease) : Slots Lease :=
  ⟨t.slots.modify h.slot fate.slot, fate.free h t.free, t.live - fate.frees.toNat⟩

/-- The pool afterwards, for a lease of stream `s`. -/
def pool (fate : Fate) (s : StreamId) (p : Pool) : Pool :=
  match fate with
  | parked key => { p with idle := p.idle.push key s, parked := p.parked + 1 }
  | overflowed => { p with overflow := p.overflow + 1 }
  | _ => p

theorem slots_kept (h : Handle) (t : Slots Lease) : kept.slots h t = t := by
  have same : t.slots.modify h.slot id = t.slots := List.modify_id ..
  exact congrArg (fun slots => Slots.mk slots t.free t.live) same

theorem slots_guarded {h : Handle} {t : Slots Lease} {lease : Lease} (here : t.get? h = some lease)
    (value : Bool) :
    t.update h (fun lease => { lease with guarded := value }) = (guarded value).slots h t := by
  unfold Slots.update
  rw [if_pos (by rw [Slots.contains, here]; rfl)]
  rfl

/-- Slots are listed as free in the order in which they were freed; else the order does not
show. -/
theorem free_comm (fate fate' : Fate) (h h' : Handle) (listed : List Nat) :
    fate.free h (fate'.free h' listed) = fate'.free h' (fate.free h listed) ∨
      (fate.frees = true ∧ fate'.frees = true ∧
        fate'.free h' (fate.free h listed) = h'.slot :: h.slot :: listed ∧
        fate.free h (fate'.free h' listed) = h.slot :: h'.slot :: listed) := by
  unfold free
  cases fate.frees with
  | false => exact .inl rfl
  | true =>
    cases fate'.frees with
    | false => exact .inl rfl
    | true => exact .inr ⟨rfl, rfl, rfl, rfl⟩

/-- A handle of another slot reaches what it reached before. -/
theorem get?_slots (fate : Fate) {h k : Handle} (apart : h.slot ≠ k.slot) (t : Slots Lease) :
    (fate.slots h t).get? k = t.get? k := by
  unfold Slots.get? slots
  rw [List.getElem?_modify_ne _ _ apart]

theorem stack_pool (fate : Fate) (s : StreamId) (p : Pool) (key : Key) :
    (fate.pool s p).idle.stack key =
      if fate.key? = some key then s :: p.idle.stack key else p.idle.stack key := by
  cases fate with
  | parked k =>
    show (p.idle.push k s).stack key = _
    rw [Shelf.stack_push]
    by_cases same : key = k
    · subst same
      rw [if_pos rfl]
      exact (if_pos rfl).symm
    · have other : (parked k).key? ≠ some key := fun equal => same (Option.some.inj equal).symm
      rw [if_neg same, if_neg other]
  | _ => rfl

theorem idleCount_pool {fate : Fate} {key : Key} (other : fate.key? ≠ some key) (s : StreamId)
    (p : Pool) : (fate.pool s p).idleCount key = p.idleCount key := by
  show ((fate.pool s p).idle.stack key).length = _
  rw [stack_pool, if_neg other]
  rfl

theorem totalIdle_pool (fate : Fate) (s : StreamId) (p : Pool) :
    (fate.pool s p).totalIdle = p.totalIdle + fate.key?.toList.length := by
  cases fate with
  | parked k => exact Shelf.total_push p.idle k s
  | _ => rfl

/-- Streams that do not go under one key can be given back in either order. -/
theorem stack_pool_comm {fate fate' : Fate} (apart : ∀ key, fate.key? = some key →
    fate'.key? ≠ some key) (s s' : StreamId) (p : Pool) (key : Key) :
    (fate.pool s (fate'.pool s' p)).idle.stack key =
      (fate'.pool s' (fate.pool s p)).idle.stack key := by
  simp only [stack_pool]
  by_cases own : fate.key? = some key
  · simp only [own, apart key own, if_true, if_false]
  · simp only [own, if_false]

theorem limit_pool (fate : Fate) (s : StreamId) (p : Pool) : (fate.pool s p).limit = p.limit := by
  cases fate <;> rfl

end Fate

/-! ## Deeds -/

/-- What a task does: what its stream has become, an amendment of the disk, and what became
of the lease. -/
structure Deed where
  handle : Handle
  stream : StreamId
  next : Stream
  amendment : Disk.Amendment
  fate : Fate

/-- The broker after a deed. -/
def Deed.on (deed : Deed) (b : Broker) : Broker :=
  { b with registry :=
    ⟨deed.fate.slots deed.handle b.registry.slots, deed.fate.pool deed.stream b.registry.pool,
      b.registry.world.turned deed.stream deed.next deed.amendment⟩ }

/-! ## Tasks -/

/-- What is asked of the stream of a handle. -/
inductive Task
  | write (data : Value)
  | discard (data : Value)
  | atEnd
  | close
  | setGuarded (guarded : Bool)

namespace Task

/-- The operation that asks it of the stream of a handle. -/
def on (t : Task) (h : Handle) : Operation :=
  match t with
  | write data => .write (.resource h) data
  | discard data => .discard (.resource h) data
  | atEnd => .atEnd (.resource h)
  | close => .close (.resource h)
  | setGuarded guarded => .setGuarded h guarded

/-- The key under which a task gives a stream back. -/
def key? : Task → Lease → Option Key
  | close, lease => if lease.guarded then none else lease.key
  | _, _ => none

end Task

/-- The second broker agrees with the first one on all that a task looks at. -/
structure Agree (t : Task) (h : Handle) (lease : Lease) (stream : Stream) (b b' : Broker) :
    Prop where
  here : b'.registry.get? h = some lease
  there : b'.registry.world.stream? lease.stream = some stream
  sees : stream.Sees b.registry.world.disk b'.registry.world.disk
  /-- Only a close that gives its stream back looks at the pool, and only at its own key. -/
  count : ∀ key, t.key? lease = some key →
    b'.registry.pool.idleCount key = b.registry.pool.idleCount key
  limit : b'.registry.pool.limit = b.registry.pool.limit
  config : b'.config = b.config
  sink : b'.sink = b.sink

/-- A deed that a task of a handle may come to. -/
structure Deed.Of (deed : Deed) (t : Task) (h : Handle) (lease : Lease) (stream : Stream) :
    Prop where
  handle : deed.handle = h
  number : deed.stream = lease.stream
  place : deed.amendment.At stream.node?
  key : ∀ key, deed.fate.key? = some key → t.key? lease = some key
  frees : deed.fate.frees = true → t = .close

/-- A task answers in all brokers that agree with the given one with the same answer, the same
events and the same deed. -/
def Task.Settled (t : Task) (h : Handle) (lease : Lease) (stream : Stream) (b : Broker) : Prop :=
  ∃ deed : Deed, deed.Of t h lease stream ∧ ∃ answer events, Concerns lease.stream events ∧
    ∀ b', Agree t h lease stream b b' → b'.step (t.on h) = ⟨answer, deed.on b', events⟩

section Tasks

variable {b : Broker} {h : Handle} {lease : Lease} {stream : Stream}

theorem Agree.refl {t : Task} (here : b.registry.get? h = some lease)
    (there : b.registry.world.stream? lease.stream = some stream) :
    Agree t h lease stream b b :=
  ⟨here, there, .refl stream _, fun _ _ => rfl, rfl, rfl, rfl⟩

/-- The deed of a call that leaves the lease as it is. -/
def Deed.call (h : Handle) (lease : Lease) (next : Stream) (a : Disk.Amendment) : Deed :=
  ⟨h, lease.stream, next, a, .kept⟩

theorem Deed.call_on (h : Handle) (lease : Lease) (next : Stream) (a : Disk.Amendment) (b : Broker) :
    (Deed.call h lease next a).on b =
      { b with registry.world := b.registry.world.turned lease.stream next a } := by
  unfold Deed.on Deed.call
  simp only [Fate.slots_kept]
  rfl

theorem Deed.call_of {t : Task} {next : Stream} {a : Disk.Amendment} (place : a.At stream.node?) :
    (Deed.call h lease next a).Of t h lease stream :=
  ⟨rfl, rfl, place, nofun, nofun⟩

/-- A task that only answers and tells is settled by what it looks at. -/
theorem Task.Settled.still {t : Task} (answer : Answer) {events : List Event}
    (silent : callsIn events = [])
    (answers : ∀ b', Agree t h lease stream b b' → b'.step (t.on h) = ⟨answer, b', events⟩) :
    t.Settled h lease stream b := by
  refine ⟨.call h lease stream none, Deed.call_of .nowhere, answer, events, ?_, ?_⟩
  · intro made here
    rw [silent] at here
    cases here
  · intro b' agree
    rw [Deed.call_on, World.turned_self agree.there]
    exact answers b' agree

theorem Task.write_settled (data : Value) :
    (Task.write data).Settled h lease stream b := by
  cases mismatch : Broker.mismatch? (.resource h) data with
  | some refusal =>
    apply Task.Settled.still (.written (.error refusal))
      (Broker.callsIn_report (b := b) Broker.writeName refusal)
    intro b' agree
    show Broker.answering (b'.write (.resource h) data) .written = _
    rw [Broker.write_refused mismatch]
    unfold Broker.report
    rw [agree.sink]
    rfl
  | none =>
    obtain ⟨bytes, rfl⟩ : ∃ bytes, data = .string bytes := by
      have string := (Broker.mismatch?_eq_none_iff.mp mismatch).2
      cases data <;> first | exact ⟨_, rfl⟩ | cases string
    by_cases nothing : bytes = []
    · apply Task.Settled.still (.written (.ok 0)) callsIn_nil
      intro b' agree
      show Broker.answering (b'.write (.resource h) (.string bytes)) .written = _
      rw [nothing, Broker.write_nothing]
      rfl
    · obtain ⟨a, place, writes⟩ := Stream.write_local bytes stream b.registry.world.disk
      let r := stream.write b.registry.world.disk bytes
      refine ⟨.call h lease r.stream a, Deed.call_of place, .written (.ok r.answer),
        r.notes.map .note ++ [.call lease.stream (.write bytes r.answer)] ++
          (Broker.shortNotes h r.answer bytes.length).map .note, ?_, ?_⟩
      · intro made here
        simp only [callsIn_append, callsIn_notes, List.append_nil, List.nil_append] at here
        cases List.mem_singleton.mp here
        rfl
      · intro b' agree
        show Broker.answering (b'.write (.resource h) (.string bytes)) .written = _
        rw [(Broker.write_deliver nothing).1, Broker.deliver_known agree.here agree.there,
          Deed.call_on]
        simp only [writes _ agree.sees]
        rfl

theorem Task.discard_settled {data : Value} (written : (Task.write data).Settled h lease stream b) :
    (Task.discard data).Settled h lease stream b := by
  obtain ⟨deed, of, answer, events, concerns, writes⟩ := written
  refine ⟨deed, ⟨of.handle, of.number, of.place, of.key, fun frees => nomatch of.frees frees⟩,
    .nothing,
    if b.config.warnOnDiscard = false ∧ (Broker.mismatch? (.resource h) data).isSome then []
    else events, ?_, ?_⟩
  · split
    · exact nofun
    · exact concerns
  · intro b' agree
    have wrote : Broker.answering (b'.write (.resource h) data) .written = _ :=
      writes b' ⟨agree.here, agree.there, agree.sees, nofun, agree.limit, agree.config, agree.sink⟩
    have state : (b'.write (.resource h) data).state = deed.on b' := congrArg Outcome.state wrote
    have told : (b'.write (.resource h) data).events = events := congrArg Outcome.events wrote
    show Broker.answering (b'.discard (.resource h) data) (fun _ => .nothing) = _
    unfold Broker.answering
    rw [(Broker.discard_eq_write b' _ _).1, Broker.discard_events, state, told, agree.config]

theorem Task.atEnd_settled (there : b.registry.world.stream? lease.stream = some stream) :
    Task.atEnd.Settled h lease stream b := by
  obtain ⟨next, a, place, asks⟩ :=
    World.ask_local Stream.atEnd_local there false Call.atEnd
  refine ⟨.call h lease next a, Deed.call_of place,
    .verdict (b.registry.world.atEnd lease.stream).answer,
    (b.registry.world.atEnd lease.stream).events, World.concerns_ask there false Call.atEnd, ?_⟩
  intro b' agree
  show Broker.answering (b'.atEnd (.resource h)) .verdict = _
  have asked : b'.registry.atEnd h = _ := Registry.reach_some agree.here
  unfold Broker.atEnd
  rw [Broker.expectHandle_eq_ok_iff.mpr rfl]
  have known : b'.registry.world.atEnd lease.stream = _ :=
    asks b'.registry.world agree.there agree.sees
  simp only [asked, known, Deed.call_on]
  rfl

theorem Task.setGuarded_settled (guarded : Bool) :
    (Task.setGuarded guarded).Settled h lease stream b := by
  refine ⟨⟨h, lease.stream, stream, none, .guarded guarded⟩, ⟨rfl, rfl, .nowhere, nofun, nofun⟩,
    .verdict true, [], nofun, ?_⟩
  intro b' agree
  have held : b'.registry.slots.contains h = true := by
    unfold Slots.contains
    rw [show b'.registry.slots.get? h = some lease from agree.here]
    rfl
  show (⟨.verdict (b'.registry.slots.contains h), _, []⟩ : Outcome Broker Answer) = _
  unfold Registry.setGuarded Deed.on
  rw [held, World.turned_self agree.there, Fate.slots_guarded agree.here]
  rfl

/-- Parking under a key that has room. -/
theorem Registry.release_room {r : Registry} {key : Key} (here : r.get? h = some lease)
    (persistent : lease.key = some key) (room : r.pool.idleCount key < r.pool.limit) :
    r.release h =
      ⟨true, ⟨(Fate.parked key).slots h r.slots, (Fate.parked key).pool lease.stream r.pool,
          (r.world.release lease.stream).state⟩,
        (r.world.release lease.stream).events ++
          [.note (.parked key (r.pool.idleCount key + 1))]⟩ := by
  unfold release Pool.park
  rw [Slots.remove_eq here]
  simp only [persistent, if_neg (Nat.not_le_of_lt room)]
  rfl

/-- Parking under a key that has no room. -/
theorem Registry.release_full {r : Registry} {key : Key} (here : r.get? h = some lease)
    (there : r.world.stream? lease.stream = some stream) (persistent : lease.key = some key)
    (full : r.pool.limit ≤ r.pool.idleCount key) :
    let retired := r.world.ask lease.stream () Stream.retire fun _ => .close
    r.release h =
      ⟨true, ⟨Fate.overflowed.slots h r.slots, Fate.overflowed.pool lease.stream r.pool,
          retired.state⟩,
        (r.world.release lease.stream).events ++ (retired.events ++ [.note (.keyFull key)])⟩ := by
  intro retired
  unfold release Pool.park
  rw [Slots.remove_eq here]
  simp only [persistent, if_pos full, World.close_release there]
  rfl

theorem Task.close_guarded (guarded : lease.guarded = true) :
    Task.close.Settled h lease stream b := by
  apply Task.Settled.still (.verdict false)
    (Broker.callsIn_report (b := b) Broker.closeName (.guarded h))
  intro b' agree
  show b'.step (.close (.resource h)) = _
  rw [Broker.step_close_guarded agree.here guarded, agree.sink]
  rfl

theorem Task.close_transient (there : b.registry.world.stream? lease.stream = some stream)
    (unguarded : lease.guarded = false) (transient : lease.key = none) :
    Task.close.Settled h lease stream b := by
  obtain ⟨next, a, place, closes⟩ := World.ask_local Stream.close_local there () fun _ => .close
  refine ⟨⟨h, lease.stream, next, a, .closed⟩, ⟨rfl, rfl, place, nofun, fun _ => rfl⟩,
    .verdict true, .note (.closing h) :: (b.registry.world.close lease.stream).events,
    World.concerns_ask there () fun _ => .close, ?_⟩
  intro b' agree
  have closed : b'.registry.world.close lease.stream = _ :=
    closes b'.registry.world agree.there agree.sees
  have removed := Slots.remove_eq (t := b'.registry.slots) agree.here
  show Broker.answering (b'.close (.resource h)) .verdict = _
  rw [Broker.close_eq_release agree.here unguarded, Registry.release_eq_close removed transient,
    Registry.close_some removed, closed, transient]
  rfl

/-- The key of an unguarded lease is the one that a close returns its stream under. -/
theorem Task.key?_close (unguarded : lease.guarded = false) : Task.close.key? lease = lease.key := by
  show (if lease.guarded then none else lease.key) = lease.key
  rw [unguarded]
  rfl

theorem Task.close_full {key : Key} (there : b.registry.world.stream? lease.stream = some stream)
    (unguarded : lease.guarded = false) (persistent : lease.key = some key)
    (full : b.registry.pool.limit ≤ b.registry.pool.idleCount key) :
    Task.close.Settled h lease stream b := by
  obtain ⟨_, _, _, releases⟩ := World.ask_local Stream.release_local there () fun _ => .release
  obtain ⟨next, a, place, retires⟩ :=
    World.ask_local Stream.retire_local there () fun _ => .close
  let released := b.registry.world.release lease.stream
  let retired := b.registry.world.ask lease.stream () Stream.retire fun _ => .close
  refine ⟨⟨h, lease.stream, next, a, .overflowed⟩, ⟨rfl, rfl, place, nofun, fun _ => rfl⟩,
    .verdict true,
    .note (.releasing h) :: (released.events ++ (retired.events ++ [.note (.keyFull key)])), ?_, ?_⟩
  · have first : Concerns lease.stream released.events :=
      World.concerns_ask there () fun _ => .release
    have last : Concerns lease.stream retired.events :=
      World.concerns_ask there () fun _ => .close
    exact first.append (last.append nofun)
  · intro b' agree
    have released' : b'.registry.world.release lease.stream = _ :=
      releases b'.registry.world agree.there agree.sees
    have full' : b'.registry.pool.limit ≤ b'.registry.pool.idleCount key := by
      rw [agree.limit, agree.count key ((Task.key?_close unguarded).trans persistent)]
      exact full
    show Broker.answering (b'.close (.resource h)) .verdict = _
    rw [Broker.close_eq_release agree.here unguarded,
      Registry.release_full agree.here agree.there persistent full', released',
      retires b'.registry.world agree.there agree.sees, persistent]
    rfl

theorem Task.close_room {key : Key} (there : b.registry.world.stream? lease.stream = some stream)
    (unguarded : lease.guarded = false) (persistent : lease.key = some key)
    (room : b.registry.pool.idleCount key < b.registry.pool.limit) :
    Task.close.Settled h lease stream b := by
  obtain ⟨next, a, place, releases⟩ :=
    World.ask_local Stream.release_local there () fun _ => .release
  let released := b.registry.world.release lease.stream
  have own : Task.close.key? lease = some key := (Task.key?_close unguarded).trans persistent
  refine ⟨⟨h, lease.stream, next, a, .parked key⟩, ⟨rfl, rfl, place, ?_, fun _ => rfl⟩,
    .verdict true,
    .note (.releasing h) :: (released.events ++
      [.note (.parked key (b.registry.pool.idleCount key + 1))]), ?_, ?_⟩
  · rintro _ ⟨⟩
    exact own
  · have first : Concerns lease.stream released.events :=
      World.concerns_ask there () fun _ => .release
    exact first.append nofun
  · intro b' agree
    have released' : b'.registry.world.release lease.stream = _ :=
      releases b'.registry.world agree.there agree.sees
    have count := agree.count key own
    have room' : b'.registry.pool.idleCount key < b'.registry.pool.limit := by
      rw [agree.limit, count]
      exact room
    show Broker.answering (b'.close (.resource h)) .verdict = _
    rw [Broker.close_eq_release agree.here unguarded,
      Registry.release_room agree.here persistent room', released', count, persistent]
    rfl

theorem Task.close_settled (there : b.registry.world.stream? lease.stream = some stream) :
    Task.close.Settled h lease stream b := by
  cases guarded : lease.guarded with
  | true => exact Task.close_guarded guarded
  | false =>
    cases returns : lease.key with
    | none => exact Task.close_transient there guarded returns
    | some key =>
      by_cases full : b.registry.pool.limit ≤ b.registry.pool.idleCount key
      · exact Task.close_full there guarded returns full
      · exact Task.close_room there guarded returns (Nat.lt_of_not_le full)

/-- A task is settled by what it looks at. -/
theorem Task.settled (t : Task) (there : b.registry.world.stream? lease.stream = some stream) :
    t.Settled h lease stream b := by
  cases t with
  | write data => exact Task.write_settled data
  | discard data => exact Task.discard_settled (Task.write_settled data)
  | atEnd => exact Task.atEnd_settled there
  | close => exact Task.close_settled there
  | setGuarded guarded => exact Task.setGuarded_settled guarded

end Tasks

/-! ## Interchange -/

/-- Two tasks of different handles, whose streams share no node of the disk, and which do not
both return a stream under one key. -/
structure Task.Apart (f g : Task) (h h' : Handle) (lease lease' : Lease)
    (stream stream' : Stream) : Prop where
  slot : h.slot ≠ h'.slot
  number : lease.stream ≠ lease'.stream
  node : ∀ i, stream.node? = some i → stream'.node? ≠ some i
  key : ∀ key, f.key? lease = some key → g.key? lease' ≠ some key

/-- The brokers are the same but for the orders in which free slots are listed and in which
the pool lists its keys. -/
structure Broker.Reordered (b b' : Broker) : Prop where
  entries : b'.registry.slots.slots = b.registry.slots.slots
  live : b'.registry.slots.live = b.registry.slots.live
  stack : ∀ key, b'.registry.pool.idle.stack key = b.registry.pool.idle.stack key
  total : b'.registry.pool.totalIdle = b.registry.pool.totalIdle
  limit : b'.registry.pool.limit = b.registry.pool.limit
  parked : b'.registry.pool.parked = b.registry.pool.parked
  overflow : b'.registry.pool.overflow = b.registry.pool.overflow
  world : b'.registry.world = b.registry.world
  config : b'.config = b.config
  files : b'.files = b.files
  sink : b'.sink = b.sink

section Interchange

variable {f g : Task} {b : Broker} {h h' : Handle} {lease lease' : Lease} {stream stream' : Stream}
  {deed deed' : Deed}

theorem Task.Apart.symm (apart : f.Apart g h h' lease lease' stream stream') :
    g.Apart f h' h lease' lease stream' stream where
  slot := apart.slot.symm
  number := apart.number.symm
  node i own other := apart.node i other own
  key key own other := apart.key key other own

/-- A deed leaves alone what a task of another handle looks at. -/
theorem Agree.after (here : b.registry.get? h' = some lease')
    (there : b.registry.world.stream? lease'.stream = some stream')
    (apart : f.Apart g h h' lease lease' stream stream') (of : deed.Of f h lease stream) :
    Agree g h' lease' stream' b (deed.on b) where
  here := by
    show (deed.fate.slots deed.handle b.registry.slots).get? h' = some lease'
    rw [of.handle, Fate.get?_slots _ apart.slot]
    exact here
  there := by
    show (b.registry.world.streams.set deed.stream deed.next)[lease'.stream]? = some stream'
    rw [of.number, List.getElem?_set_ne apart.number]
    exact there
  sees := (Stream.Sees.refl stream' _).amend of.place apart.node
  count key own := by
    have other : deed.fate.key? ≠ some key := fun same => apart.key key (of.key key same) own
    exact Fate.idleCount_pool other ..
  limit := Fate.limit_pool ..
  config := rfl
  sink := rfl

/-- Two deeds of tasks that are apart, done in either order, come to the same but for some
orders. -/
theorem Deed.interchange (apart : f.Apart g h h' lease lease' stream stream')
    (of : deed.Of f h lease stream) (of' : deed'.Of g h' lease' stream') :
    (deed'.on (deed.on b)).Reordered (deed.on (deed'.on b)) where
  entries := by
    have slots : deed'.handle.slot ≠ deed.handle.slot := by
      rw [of.handle, of'.handle]
      exact apart.slot.symm
    exact List.modify_modify_ne _ _ b.registry.slots.slots slots
  live := Nat.sub_right_comm ..
  stack key := by
    have keys : ∀ key, deed.fate.key? = some key → deed'.fate.key? ≠ some key :=
      fun key own other => apart.key key (of.key key own) (of'.key key other)
    exact Fate.stack_pool_comm keys ..
  total := by
    show (deed.fate.pool _ (deed'.fate.pool _ _)).totalIdle =
      (deed'.fate.pool _ (deed.fate.pool _ _)).totalIdle
    simp only [Fate.totalIdle_pool]
    omega
  limit := by
    show (deed.fate.pool _ (deed'.fate.pool _ _)).limit =
      (deed'.fate.pool _ (deed.fate.pool _ _)).limit
    simp only [Fate.limit_pool]
  parked := by
    show (deed.fate.pool _ (deed'.fate.pool _ _)).parked =
      (deed'.fate.pool _ (deed.fate.pool _ _)).parked
    cases deed.fate <;> cases deed'.fate <;> rfl
  overflow := by
    show (deed.fate.pool _ (deed'.fate.pool _ _)).overflow =
      (deed'.fate.pool _ (deed.fate.pool _ _)).overflow
    cases deed.fate <;> cases deed'.fate <;> rfl
  world := by
    have numbers : deed'.stream ≠ deed.stream := by
      rw [of.number, of'.number]
      exact apart.number.symm
    have disks := Disk.amend_comm of'.place of.place apart.symm.node b.registry.world.disk
    have streams := List.set_comm deed'.next deed.next (l := b.registry.world.streams) numbers
    exact congrArg₂ World.mk disks streams
  config := rfl
  files := rfl
  sink := rfl

/-- The free slots after two deeds; those that both freed come in the order of the deeds. -/
theorem Deed.free_after (of : deed.Of f h lease stream) (of' : deed'.Of g h' lease' stream') :
    let first := (deed'.on (deed.on b)).registry.slots.free
    let second := (deed.on (deed'.on b)).registry.slots.free
    let free := b.registry.slots.free
    second = first ∨ (f = .close ∧ g = .close ∧
      first = h'.slot :: h.slot :: free ∧ second = h.slot :: h'.slot :: free) := by
  intro first second free
  have one : first = deed'.fate.free h' (deed.fate.free h free) := by
    rw [← of.handle, ← of'.handle]
    rfl
  have two : second = deed.fate.free h (deed'.fate.free h' free) := by
    rw [← of.handle, ← of'.handle]
    rfl
  rw [one, two]
  rcases deed.fate.free_comm deed'.fate h h' free with same | ⟨frees, frees', listed, listed'⟩
  · exact .inl same
  · exact .inr ⟨of.frees frees, of'.frees frees', listed, listed'⟩

theorem Task.key?_eq_some {t : Task} {key : Key} (returns : t.key? lease = some key) :
    t = .close ∧ lease.guarded = false ∧ lease.key = some key := by
  cases t with
  | close =>
    cases guarded : lease.guarded with
    | true =>
      have none : Task.close.key? lease = none := if_pos guarded
      rw [none] at returns
      cases returns
    | false => exact ⟨rfl, rfl, (Task.key?_close guarded).symm.trans returns⟩
  | write | discard | atEnd | setGuarded => cases returns

end Interchange

/-- Handles that reach something are of different slots if they differ. -/
theorem Slots.slot_ne {α : Type} {t : Slots α} {h h' : Handle} {a a' : α} (here : t.get? h = some a)
    (here' : t.get? h' = some a') (differ : h ≠ h') : h.slot ≠ h'.slot := by
  intro same
  apply differ
  apply Handle.eq_of_slot same
  rw [← (thing?_of_get? here).1, ← (thing?_of_get? here').1, same]

/-- Different handles have different streams. -/
theorem Books.Sound.stream_ne {b : Books} (sound : b.Sound) {h h' : Handle} {lease lease' : Lease}
    (here : b.slots.get? h = some lease) (here' : b.slots.get? h' = some lease')
    (differ : h ≠ h') : lease.stream ≠ lease'.stream := by
  have removed := Slots.remove_eq here
  have left : _ = some lease' := (Slots.get?_remove removed h').trans
    ((if_neg differ.symm).trans here')
  exact (sound.stream_ne_removed removed left).symm

namespace Broker

/-- Two steps as a run. -/
theorem run_pair {b b₁ b₂ : Broker} {x y : Operation} {a a' : Answer} {e e' : List Event}
    (first : b.step x = ⟨a, b₁, e⟩) (second : b₁.step y = ⟨a', b₂, e'⟩) :
    b.run [x, y] = ⟨[a, a'], b₂, e ++ e'⟩ := by
  simp only [run, first, second, List.append_nil]

/-- At every point of a run of a new broker, let two different handles reach streams that are
not open on one node of the disk, and let something be asked of each: to write, with an
answer or without, whether it is at its end, to close it, to guard it or to lift the guard.
Unless both are closed for one key of the pool, the order is of no consequence: both get the
same answers, each stream receives the same calls, the same is reported and logged, every
handle reaches the same afterwards, the world is the same, and so are the pool, key by key, and
the slots, but that those freed by two closes are listed in the order of the closes. -/
theorem tasks_commute (config : Config) (files : FileSystem) (sink : Sink) (disk : Disk)
    (ops : List Operation) {h h' : Handle} {lease lease' : Lease} (f g : Task) :
    let b := ((ofConfig config files sink (.ofDisk disk)).run ops).state
    let r := b.registry
    r.get? h = some lease → r.get? h' = some lease' → h ≠ h' →
    (∀ i, r.world.node? lease.stream = some i → r.world.node? lease'.stream ≠ some i) →
    ¬(f = .close ∧ g = .close ∧ lease.guarded = false ∧ lease'.guarded = false ∧
      lease.persistent = true ∧ lease.key = lease'.key) →
    let first := b.run [f.on h, g.on h']
    let second := b.run [g.on h', f.on h]
    second.answer = first.answer.reverse ∧
      (∀ s, callsTo s (callsIn second.events) = callsTo s (callsIn first.events)) ∧
      second.events.Perm first.events ∧
      (reportsIn second.events).Perm (reportsIn first.events) ∧
      (∀ k, second.state.registry.get? k = first.state.registry.get? k) ∧
      first.state.Reordered second.state ∧
      let listed := first.state.registry.slots.free
      let listed' := second.state.registry.slots.free
      listed' = listed ∨ (f = .close ∧ g = .close ∧
        listed = h'.slot :: h.slot :: r.slots.free ∧ listed' = h.slot :: h'.slot :: r.slots.free) := by
  intro b r here here' differ distinct unlike first second
  have sound : r.books.Sound := (run_reached config files sink disk ops).sound
  obtain ⟨stream, there⟩ : ∃ stream, r.world.stream? lease.stream = some stream :=
    ⟨_, List.getElem?_eq_getElem (sound.known _ (Books.mem_owned_of_get? here))⟩
  obtain ⟨stream', there'⟩ : ∃ stream, r.world.stream? lease'.stream = some stream :=
    ⟨_, List.getElem?_eq_getElem (sound.known _ (Books.mem_owned_of_get? here'))⟩
  have number : lease.stream ≠ lease'.stream := sound.stream_ne here here' differ
  have apart : f.Apart g h h' lease lease' stream stream' := by
    refine ⟨Slots.slot_ne here here' differ, number, fun i own other => ?_, fun key own other => ?_⟩
    · apply distinct i
      · unfold World.node?
        rw [there]
        exact own
      · unfold World.node?
        rw [there']
        exact other
    · obtain ⟨close, unguarded, returns⟩ := Task.key?_eq_some own
      obtain ⟨close', unguarded', returns'⟩ := Task.key?_eq_some other
      apply unlike
      refine ⟨close, close', unguarded, unguarded', ?_, returns.trans returns'.symm⟩
      unfold Lease.persistent
      rw [returns]
      rfl
  -- each task is settled by what it looks at, and the deed of the other one leaves that alone
  obtain ⟨deed, of, answer, events, concerns, settles⟩ := f.settled (h := h) there
  obtain ⟨deed', of', answer', events', concerns', settles'⟩ := g.settled (h := h') there'
  have ran : first = ⟨[answer, answer'], deed'.on (deed.on b), events ++ events'⟩ :=
    run_pair (settles b (.refl here there)) (settles' _ (.after here' there' apart of))
  have ran' : second = ⟨[answer', answer], deed.on (deed'.on b), events' ++ events⟩ :=
    run_pair (settles' b (.refl here' there')) (settles _ (.after here there apart.symm of'))
  have same := Deed.interchange (b := b) apart of of'
  rw [ran, ran']
  refine ⟨rfl, fun s => ?_, List.perm_append_comm, List.perm_append_comm.filter _, fun k => ?_,
    same, Deed.free_after of of'⟩
  · -- no stream is called by both tasks
    simp only [callsIn_append, callsTo_append]
    by_cases own : s = lease.stream
    · rw [concerns'.others (own.trans_ne number), List.append_nil]
      rfl
    · rw [concerns.others own, List.append_nil]
      rfl
  · unfold Registry.get? Slots.get?
    rw [same.entries]

/-- A stream that goes back to a pool and one that does not. -/
def neighbours : List Operation :=
  [.openPersistent "a" (.ready (.memory .empty)), .openStream (.ready (.memory .empty)) {}]

theorem tasks_commute_neighbours :
    let b := ((ofConfig {} .disk .recording (.ofDisk .empty)).run neighbours).state
    let r := b.registry
    let first := b.run [Task.close.on ⟨0, 0⟩, Task.close.on ⟨1, 0⟩]
    let second := b.run [Task.close.on ⟨1, 0⟩, Task.close.on ⟨0, 0⟩]
    r.get? ⟨0, 0⟩ = some ⟨0, some "a", false⟩ ∧ r.get? ⟨1, 0⟩ = some ⟨1, none, false⟩ ∧
      (∀ i, r.world.node? 0 = some i → r.world.node? 1 ≠ some i) ∧
      second.answer = first.answer.reverse ∧ first.state.Reordered second.state ∧
      first.state.registry.slots.free = [1, 0] ∧ second.state.registry.slots.free = [0, 1] := by
  intro b r first second
  have here : r.get? ⟨0, 0⟩ = some ⟨0, some "a", false⟩ := by decide +kernel
  have here' : r.get? ⟨1, 0⟩ = some ⟨1, none, false⟩ := by decide +kernel
  have nowhere : r.world.node? 0 = none := by decide +kernel
  have distinct : ∀ i, r.world.node? 0 = some i → r.world.node? 1 ≠ some i :=
    fun i own => nomatch nowhere.symm.trans own
  obtain ⟨answers, -, -, -, -, same, -⟩ :=
    tasks_commute {} .disk .recording .empty neighbours .close .close here here' (by decide)
      distinct fun ⟨_, _, _, _, _, keys⟩ => nomatch keys
  exact ⟨here, here', distinct, answers, same, by decide +kernel, by decide +kernel⟩

end Broker

end StreamBroker
