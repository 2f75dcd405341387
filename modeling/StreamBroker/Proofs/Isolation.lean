import StreamBroker.Proofs.Ledger

/-!
# Isolation of keys

A stream has one home: the key of its first lease, or none. However it is given back and
held again, all its leases are under that key. Main statements:

* **homes** — `Homed`: held and idle streams are under their home, and so was every lease
  of the history (`Homed.move`, `Reached.homed`);
* **leases** — while a handle is held, only the guard of its lease changes
  (`Move.lease_kept`, `run_lease_kept`);
* **isolation** — `key_isolation`: opening under a key takes the stream parked there last
  or the supplied one, and never a stream that was held under another key or none.
-/

namespace StreamBroker

/-- The key that an opening puts on its lease. -/
def Operation.leaseKey : Operation → Option Key
  | .openStream _ terms => terms.key
  | .openPersistent key _ => some key
  | _ => none

/-- The stream and the key of a lease. -/
def Lease.home (lease : Lease) : StreamId × Option Key := (lease.stream, lease.key)

theorem Terms.key_eq_some_iff {terms : Terms} {key : Key} :
    terms.key = some key ↔ terms.persistent = true ∧ key = Registry.anonymousKey := by
  cases persistent : terms.persistent with
  | true => simp [Terms.key, persistent, eq_comm]
  | false => simp [Terms.key, persistent]

/-- An opening under a key names the key, or asks for persistence without one. -/
theorem Operation.leaseKey_eq_some_iff {op : Operation} {key : Key} :
    op.leaseKey = some key ↔ (∃ source, op = .openPersistent key source) ∨
      (key = Registry.anonymousKey ∧
        ∃ source terms, op = .openStream source terms ∧ terms.persistent = true) := by
  cases op with
  | openStream source terms =>
    show terms.key = some key ↔ _
    rw [Terms.key_eq_some_iff]
    constructor
    · intro ⟨persistent, anonymous⟩
      exact Or.inr ⟨anonymous, source, terms, rfl, persistent⟩
    · rintro (⟨source, named⟩ | ⟨anonymous, source, terms, same, persistent⟩)
      · cases named
      · cases same
        exact ⟨persistent, anonymous⟩
  | openPersistent key' source => simp [leaseKey]
  | _ => simp [leaseKey]

theorem Operation.Supplies.leaseKey {pool : Pool} {op : Operation} {key : Option Key}
    {guarded : Bool} (supplies : op.Supplies pool key guarded) : op.leaseKey = key := by
  cases supplies <;> rfl

theorem Operation.Removes.key {op : Operation} {h : Handle} {lease : Lease} {key : Key}
    (removes : op.Removes h lease) (persistent : op.returnKey lease = some key) :
    lease.key = some key := by
  cases removes with
  | close | releaseHandle => exact persistent
  | closeHandle => cases persistent

/-- The home of a stream is the key of its leases, of those that are held, of the one that
it is idle after, and of those in the history. -/
structure Homed (home : StreamId → Option Key) (history : List (Operation × Answer))
    (b : Books) : Prop where
  held : ∀ e ∈ b.slots.things.map Lease.home, home e.1 = e.2
  idle : ∀ key, ∀ s ∈ b.pool.idle.stack key, home s = some key
  opened : ∀ op o, (op, .opened o) ∈ history →
    o.stream < b.supplied ∧ home o.stream = op.leaseKey

namespace Homed

variable {home : StreamId → Option Key} {history : List (Operation × Answer)} {b b' : Books}
  {op : Operation} {answer : Answer} {calls : List (StreamId × Call)}

/-- An operation that opens nothing adds no lease to the history. -/
theorem opened_append (homed : Homed home history b) (other : ∀ o, answer ≠ .opened o) :
    ∀ op' o, (op', .opened o) ∈ history ++ [(op, answer)] →
      o.stream < b.supplied ∧ home o.stream = op'.leaseKey := by
  intro op' o here
  rcases List.mem_append.mp here with old | new
  · exact homed.opened op' o old
  · cases List.mem_singleton.mp new
    exact absurd rfl (other o)

theorem held_remove (homed : Homed home history b) {h : Handle} {lease : Lease}
    {left : Slots Lease} (removed : b.slots.remove h = some (lease, left)) :
    home lease.stream = lease.key ∧ ∀ e ∈ left.things.map Lease.home, home e.1 = e.2 := by
  have parts := (Slots.things_remove removed).map Lease.home
  refine ⟨homed.held _ (parts.mem_iff.mpr List.mem_cons_self), fun e here => ?_⟩
  exact homed.held e (parts.mem_iff.mpr (List.mem_cons_of_mem _ here))

theorem held_insert (homed : Homed home history b) (wf : b.slots.Wf) {lease : Lease}
    (new : home lease.stream = lease.key) :
    ∀ e ∈ (b.slots.insert lease).2.things.map Lease.home, home e.1 = e.2 := by
  intro e here
  have parts := (Slots.things_insert wf lease).map Lease.home
  rcases List.mem_cons.mp (parts.mem_iff.mp here) with rfl | old
  · exact new
  · exact homed.held e old

/-- A supplied stream gets its home with its first lease. -/
theorem settle (homed : Homed home history b) (sound : b.Sound) (key : Option Key) :
    Homed (Function.update home b.supplied key) history b := by
  have other : ∀ s < b.supplied, Function.update home b.supplied key s = home s :=
    fun s old => Function.update_of_ne (Nat.ne_of_lt old) key home
  refine ⟨fun e here => ?_, fun k s here => ?_, fun op o here => ?_⟩
  · obtain ⟨lease, there, rfl⟩ := List.mem_map.mp here
    rw [Lease.home, other _ (sound.held_known there)]
    exact homed.held _ here
  · have owned : s ∈ b.owned := List.mem_append_right _ (Shelf.mem_toList_of_mem_stack here)
    rw [other _ (sound.known s owned)]
    exact homed.idle k s here
  · obtain ⟨old, same⟩ := homed.opened op o here
    rw [other _ old]
    exact ⟨old, same⟩

/-- Every move finds a home for what it was supplied with and leaves the others' homes. -/
theorem move (homed : Homed home history b) (sound : b.Sound)
    (move : Move b op answer b' calls) :
    ∃ home', Homed home' (history ++ [(op, answer)]) b' := by
  cases move with
  | rest rests =>
    exact ⟨home, homed.held, homed.idle, homed.opened_append rests.ne_opened⟩
  | asked asks =>
    exact ⟨home, homed.held, homed.idle, homed.opened_append asks.ne_opened⟩
  | @held _ key guarded supplies =>
    -- the new stream's home is free to choose, as nothing refers to it yet
    have settled := homed.settle sound key
    have new : Function.update home b.supplied key b.supplied = key := Function.update_self ..
    refine ⟨_, settled.held_insert sound.slots new, settled.idle, fun op' o here => ?_⟩
    rcases List.mem_append.mp here with old | last
    · obtain ⟨before, same⟩ := settled.opened op' o old
      exact ⟨Nat.lt_succ_of_lt before, same⟩
    · cases List.mem_singleton.mp last
      exact ⟨Nat.lt_succ_self _, new.trans supplies.leaseKey.symm⟩
  | @reused key source s left taken =>
    have stack := Shelf.stack_pop? sound.shelf taken
    have top : s ∈ b.pool.idle.stack key := by
      rw [stack, if_pos rfl]
      exact List.mem_cons_self
    have same := homed.idle key s top
    refine ⟨home, homed.held_insert sound.slots same, fun k s' here => ?_, fun op' o here => ?_⟩
    · refine homed.idle k s' ?_
      rw [stack]
      split
      · rename_i equal
        rw [equal] at here
        exact List.mem_cons_of_mem _ here
      · exact here
    · rcases List.mem_append.mp here with old | last
      · exact homed.opened op' o old
      · cases List.mem_singleton.mp last
        have owned : s ∈ b.owned := List.mem_append_right _ (Shelf.mem_toList_of_mem_stack top)
        exact ⟨sound.known s owned, same⟩
  | guarded h guarded =>
    refine ⟨home, ?_, homed.idle, homed.opened_append nofun⟩
    have same := Slots.things_update b.slots h Lease.home
      (f := fun lease => { lease with guarded := guarded }) fun _ => rfl
    simp only [same]
    exact homed.held
  | closed removes transient removed | overflowed removes transient removed =>
    have remaining := (homed.held_remove removed).2
    exact ⟨home, remaining, homed.idle, homed.opened_append nofun⟩
  | @parked _ _ lease _ key removes persistent removed room =>
    obtain ⟨own, remaining⟩ := homed.held_remove removed
    refine ⟨home, remaining, fun k s here => ?_, homed.opened_append nofun⟩
    rw [Shelf.stack_push] at here
    split at here
    · -- the key that the stream is parked under is the one of its lease
      rename_i equal
      rw [equal]
      rcases List.mem_cons.mp here with rfl | old
      · exact own.trans (removes.key persistent)
      · exact homed.idle key s old
    · exact homed.idle k s here
  | emptied removed =>
    have parts := (Slots.things_removeEach b.slots b.slots.handles).map Lease.home
    rw [removed, List.map_append] at parts
    refine ⟨home, fun e here => ?_, nofun, homed.opened_append nofun⟩
    exact homed.held e (parts.mem_iff.mpr (List.mem_append_right _ here))

end Homed

/-- In books that were reached every stream has a home. -/
theorem Reached.homed {limit : Nat} {history : List (Operation × Answer)}
    {calls : List (StreamId × Call)} {b : Books} (past : Reached limit history calls b) :
    ∃ home, Homed home history b := by
  induction past with
  | start => exact ⟨fun _ => none, nofun, nofun, fun _ _ here => absurd here List.not_mem_nil⟩
  | move past move ih =>
    obtain ⟨home, homed⟩ := ih
    exact homed.move past.sound move

/-- Of all openings of one stream in a history, each is under the key of each other. -/
theorem Reached.leaseKey_eq {limit : Nat} {history : List (Operation × Answer)}
    {calls : List (StreamId × Call)} {b : Books} (past : Reached limit history calls b)
    {op op' : Operation} {o o' : Opened} (one : (op, .opened o) ∈ history)
    (other : (op', .opened o') ∈ history) (same : o'.stream = o.stream) :
    op'.leaseKey = op.leaseKey := by
  obtain ⟨home, homed⟩ := past.homed
  calc op'.leaseKey = home o'.stream := (homed.opened op' o' other).2.symm
    _ = home o.stream := by rw [same]
    _ = op.leaseKey := (homed.opened op o one).2

/-! ## Leases -/

/-- While a handle is held, a move changes at most the guard of its lease. -/
theorem Move.lease_kept {b b' : Books} {op : Operation} {answer : Answer}
    {calls : List (StreamId × Call)} (sound : b.Sound) (move : Move b op answer b' calls)
    {h : Handle} {lease lease' : Lease}
    (before : b.slots.get? h = some lease) (after : b'.slots.get? h = some lease') :
    lease'.home = lease.home := by
  cases move with
  | rest | asked =>
    rw [before] at after
    cases after
    rfl
  | held | reused =>
    -- the new lease is in a vacant slot, so this one is where it was
    rw [Slots.get?_insert_of_get? sound.slots before] at after
    cases after
    rfl
  | guarded k guarded =>
    rw [Slots.get?_update, before] at after
    split at after <;> cases after <;> rfl
  | closed removes transient removed | parked removes persistent removed
  | overflowed removes persistent removed =>
    rw [Slots.get?_of_remove removed after] at before
    cases before
    rfl
  | emptied removed =>
    have back := Slots.get?_of_removeEach b.slots.handles (k := h) (a := lease') (t := b.slots)
    rw [removed] at back
    rw [back after] at before
    cases before
    rfl

namespace Broker

/-- As long as a handle is held, its lease is of the same stream under the same key. -/
theorem run_lease_kept {b : Broker} (sound : b.registry.books.Sound) (ops : List Operation)
    {h : Handle} {lease lease' : Lease} (before : b.registry.get? h = some lease)
    (held : ∀ part, part <+: ops → ((b.run part).state.registry.get? h).isSome)
    (after : (b.run ops).state.registry.get? h = some lease') : lease'.home = lease.home := by
  induction ops generalizing b lease with
  | nil =>
    cases before.symm.trans after
    rfl
  | cons op rest ih =>
    have move := step_move sound op
    have later := move.sound sound
    obtain ⟨next, here⟩ := Option.isSome_iff_exists.mp
      (held [op] (List.cons_prefix_cons.mpr ⟨rfl, List.nil_prefix⟩))
    have first : next.home = lease.home :=
      move.lease_kept sound before here
    have others : lease'.home = next.home := by
      refine ih later here (fun part short => ?_) after
      exact held (op :: part) (List.cons_prefix_cons.mpr ⟨rfl, short⟩)
    exact others.trans first

end Broker

/-! ## Isolation -/

/-- However an opening under a key gets its stream, the lease is under the key and starts
without a guard. -/
theorem Registry.openPersistent_lease {r : Registry} {key : Key} {source : Stream.Source}
    {o : Opened} (opens : (r.openPersistent key source).answer = .ok o) :
    let lease : Lease := ⟨o.stream, some key, false⟩
    o.handle = (r.slots.insert lease).1 ∧
      (r.openPersistent key source).state.slots = (r.slots.insert lease).2 := by
  cases popped : r.pool.idle.pop? key with
  | some found =>
    rw [openPersistent_taken popped] at opens ⊢
    cases opens
    exact ⟨rfl, rfl⟩
  | none =>
    rw [openPersistent_missed (Shelf.pop?_eq_none_iff.mp popped)] at opens ⊢
    obtain ⟨handle, slots, -⟩ := supply_opened opens
    exact ⟨handle, slots⟩

namespace Broker

/-- With an idle stream of the key no source is asked: the step is the same with every other
one, and leaves the world alone. -/
theorem step_taken {b : Broker} {key : Key} {s : StreamId} {left : Shelf StreamId}
    (taken : b.registry.pool.idle.pop? key = some (s, left)) (source : Stream.Source) :
    let next := b.step (.openPersistent key source)
    (∃ h, next.answer = .opened ⟨h, s, false⟩) ∧
      next.state.registry.world = b.registry.world ∧
      ∀ other, b.step (.openPersistent key other) = next := by
  have step : ∀ source, b.step (.openPersistent key source) = b.ofRegistry _ .ofOpening :=
    fun source => congrArg (fun o => b.ofRegistry o .ofOpening)
      (Registry.openPersistent_taken taken source)
  refine ⟨⟨_, congrArg Outcome.answer (step source)⟩, ?_, fun other => ?_⟩
  · exact congrArg (fun o => o.state.registry.world) (step source)
  · exact (step other).trans (step source).symm

/-- Without one the source is asked, and everything depends on what it gives. -/
theorem step_missed {b : Broker} {key : Key} (nothing : b.registry.pool.idle.stack key = [])
    (source : Stream.Source) :
    let next := b.step (.openPersistent key source)
    let w := b.registry.world
    (∀ fault, source.take w.disk = .error fault →
        next.answer = .fault fault ∧ next.state = b) ∧
      ∀ stream disk, source.take w.disk = .ok (stream, disk) →
        (∃ h, next.answer = .opened ⟨h, w.streams.length, true⟩) ∧
        next.state.registry.world = ⟨disk, w.streams ++ [stream]⟩ := by
  have step : b.step (.openPersistent key source) =
      b.ofRegistry (b.registry.supply source (some key) false) .ofOpening :=
    congrArg (fun o => b.ofRegistry o .ofOpening) (Registry.openPersistent_missed nothing source)
  intro next w
  have next_eq : next = _ := step
  constructor
  · intro fault misses
    rw [next_eq, Registry.supply_error misses]
    exact ⟨rfl, rfl⟩
  · intro stream disk gives
    rw [next_eq, Registry.supply_ok gives]
    exact ⟨⟨_, rfl⟩, rfl⟩

/-- At every point of a run of a new broker with few slots, an opening under a key goes one
of two ways. If a stream is idle under the key by the ledger of the history, the one that was
parked there last is held, and no source is asked: the step is the same with every other
source, it does not fail, and it leaves the disk and the streams alone. Only if none is idle
is the source asked, and the stream that it gives is held; if it has none to give, nothing
changes. Every earlier lease of a stream that is held in this way was opened under the same
key. The lease starts without a guard; and as long as a handle is held, its lease stays one
of the same stream under the same key. -/
theorem key_isolation (config : Config) (files : FileSystem) (sink : Sink) (disk : Disk)
    (ops later : List Operation)
    (few : ((Broker.ofConfig config files sink (.ofDisk disk)).run
      (ops ++ later)).state.registry.slots.slots.length ≤ Slots.maxSlots) :
    let start := Broker.ofConfig config files sink (.ofDisk disk)
    let b := (start.run ops).state
    let r := b.registry
    let ledger := Ledger.ofHistory config.idleLimit (start.history ops)
    (∀ key source,
      let next := b.step (.openPersistent key source)
      let after := next.state.registry
      r.pool.idleCount key = (ledger.idle key).length ∧
      (∀ s below, ledger.idle key = s :: below →
        (∃ h, next.answer = .opened ⟨h, s, false⟩) ∧ after.world = r.world ∧
        ∀ other, b.step (.openPersistent key other) = next) ∧
      (ledger.idle key = [] →
        (∀ fault, source.take r.world.disk = .error fault →
          next.answer = .fault fault ∧ next.state = b) ∧
        ∀ stream disk', source.take r.world.disk = .ok (stream, disk') →
          (∃ h, next.answer = .opened ⟨h, r.world.streams.length, true⟩) ∧
          after.world = ⟨disk', r.world.streams ++ [stream]⟩) ∧
      ∀ o, next.answer = .opened o →
        (∀ op o', (op, .opened o') ∈ start.history ops → o'.stream = o.stream →
          (∃ source, op = .openPersistent key source) ∨
            (key = Registry.anonymousKey ∧
              ∃ source terms, op = .openStream source terms ∧ terms.persistent = true)) ∧
        (after.slots.slots.length ≤ Slots.maxSlots →
          r.get? o.handle = none ∧ after.get? o.handle = some ⟨o.stream, some key, false⟩)) ∧
    (∀ h lease lease', r.get? h = some lease →
      (∀ part, part <+: later → ((b.run part).state.registry.get? h).isSome) →
      (b.run later).state.registry.get? h = some lease' →
        lease'.stream = lease.stream ∧ lease'.key = lease.key) := by
  intro start b r ledger
  have past : Reached config.idleLimit (start.history ops) _ r.books :=
    run_reached config files sink disk ops
  have sound : r.books.Sound := past.sound
  rw [run_append] at few
  have agrees : ledger.Agrees r.books :=
    past.agrees (Nat.le_trans (length_le_run sound later) few)
  constructor
  · intro key source next after
    have idle : r.pool.idle.stack key = ledger.idle key := agrees.idle key
    refine ⟨congrArg List.length idle, fun s below top => ?_, fun nothing => ?_, fun o opens => ?_⟩
    · obtain ⟨left, taken⟩ := Shelf.pop?_of_stack sound.shelf (idle.trans top)
      exact step_taken taken source
    · exact step_missed (idle.trans nothing) source
    · have next' := past.move (step_move sound (.openPersistent key source))
      rw [opens] at next'
      obtain ⟨handle, slots⟩ := Registry.openPersistent_lease (Answer.ofOpening_eq_opened opens)
      refine ⟨fun op o' old same => ?_, fun room => ?_⟩
      · rw [← Operation.leaseKey_eq_some_iff]
        exact next'.leaseKey_eq (List.mem_append_right _ (List.mem_singleton_self _))
          (List.mem_append_left _ old) same
      · have slots' : after.slots = _ := slots
        rw [slots'] at room
        show r.slots.get? o.handle = none ∧ after.slots.get? o.handle = _
        rw [slots', handle]
        refine ⟨Slots.get?_insert_fst sound.slots room, ?_⟩
        exact (Slots.get?_insert sound.slots _ room _).trans (if_pos rfl)
  · intro h lease lease' before held here
    have same := run_lease_kept sound later before held here
    exact Prod.mk.inj same

/-- A guarded stream of a key is given back, beside a file with something in it. -/
def lending : List Operation :=
  [.change [.file [0x61] [7]], .openPersistent "db" (.ready (.memory .empty)),
    .setGuarded ⟨0, 0⟩ true, .releaseHandle ⟨0, 0⟩]

/-- The stream is held again without opening the file, which would be emptied, and without
looking for one that does not exist. For another key it is looked for. -/
theorem key_isolation_reuse :
    let b := ((Broker.ofConfig {} .disk .log (.ofDisk .empty)).run lending).state
    let file := b.step (.openPersistent "db" (.file .create [0x61]))
    let absent := b.step (.openPersistent "db" (.file .read [0x62]))
    let other := b.step (.openPersistent "web" (.file .read [0x62]))
    let ready := b.step (.openPersistent "web" (.ready (.memory .empty)))
    (∃ h, file.answer = .opened ⟨h, 0, false⟩) ∧
      file.state.registry.get? ⟨0, 1⟩ = some ⟨0, some "db", false⟩ ∧
      file.state.registry.world = b.registry.world ∧ absent = file ∧
      other.answer = .fault .notFound ∧ other.state = b ∧
      ∃ h, ready.answer = .opened ⟨h, 1, true⟩ := by
  intro b file absent other ready
  obtain ⟨opening, -⟩ := key_isolation {} .disk .log .empty lending [] (by decide +kernel)
  obtain ⟨-, hit, -, lease⟩ := opening "db" (.file .create [0x61])
  obtain ⟨-, -, miss, -⟩ := opening "web" (.file .read [0x62])
  obtain ⟨-, -, supplied, -⟩ := opening "web" (.ready (.memory .empty))
  obtain ⟨answer, world, same⟩ := hit 0 [] (by decide +kernel)
  obtain ⟨missed, -⟩ := miss (by decide +kernel)
  obtain ⟨fault, unchanged⟩ := missed .notFound rfl
  obtain ⟨-, fresh⟩ := supplied (by decide +kernel)
  have opened : file.answer = .opened ⟨⟨0, 1⟩, 0, false⟩ := by rfl
  obtain ⟨-, held⟩ := (lease _ opened).2 (by decide +kernel)
  exact ⟨answer, held, world, same _, fault, unchanged, (fresh _ _ rfl).1⟩

end Broker

end StreamBroker
