import StreamBroker.Pool
import StreamBroker.Slots

/-!
# The registry

The books of held streams: a slot for each stream that is held, and the pool of
those that are idle. A stream is held under a lease, which knows the key that the
stream goes back under, if it is persistent, and whether it is guarded.

* **opening** — a stream from a source gets a slot; a source with none to give changes
  nothing. `openPersistent` holds an idle stream of the key when there is one, and only
  when there is none does it ask the source;
* **giving back** — `close` tears the stream down, `release` parks it under its key,
  and `closeAll` tears down all that are held and then all that are idle. A handle
  that holds nothing changes nothing and makes no call;
* **guarding** — a guarded lease is a mark that the broker heeds; here it is only kept.
-/

namespace StreamBroker

/-- The terms on which a stream is held. -/
structure Lease where
  stream : StreamId
  key : Option Key
  guarded : Bool
deriving DecidableEq

def Lease.persistent (l : Lease) : Bool := l.key.isSome

/-- How a stream is to be held. -/
structure Terms where
  persistent : Bool := false
  guarded : Bool := false
deriving DecidableEq

/-- An opened stream: its handle, its number, and whether it is new, from the source. -/
structure Opened where
  handle : Handle
  stream : StreamId
  fresh : Bool
deriving DecidableEq

/-- Held streams, idle streams, and the world they live in. -/
structure Registry where
  slots : Slots Lease
  pool : Pool
  world : World
deriving DecidableEq

namespace Registry

/-- The key of persistent streams that were opened without one. -/
def anonymousKey : Key := ""

/-- A registry that holds nothing, with a limit of idle streams per key. -/
def ofLimit (limit : Nat) (world : World) : Registry := ⟨.empty, .ofLimit limit, world⟩

def liveCount (r : Registry) : Nat := r.slots.live

/-- The lease that a handle stands for. -/
def get? (r : Registry) (h : Handle) : Option Lease := r.slots.get? h

/-! ## Opening -/

/-- Holds the stream that a source gives, if it gives one. -/
def supply (r : Registry) (source : Stream.Source) (key : Option Key) (guarded : Bool) :
    Outcome Registry (Except Disk.Fault Opened) :=
  match source.take r.world.disk with
  | .error fault => ⟨.error fault, r, []⟩
  | .ok (stream, disk) =>
    let (s, world) := World.add { r.world with disk := disk } stream
    let (h, slots) := r.slots.insert ⟨s, key, guarded⟩
    ⟨.ok ⟨h, s, true⟩, { r with slots := slots, world := world }, []⟩

/-- Holds a stream from a source on the given terms. -/
def openStream (r : Registry) (source : Stream.Source) (terms : Terms) :
    Outcome Registry (Except Disk.Fault Opened) :=
  r.supply source (if terms.persistent then some anonymousKey else none) terms.guarded

/-- Holds the idle stream of the key that was parked last. The source is asked for a stream
only when there is none. -/
def openPersistent (r : Registry) (key : Key) (source : Stream.Source) :
    Outcome Registry (Except Disk.Fault Opened) :=
  match r.pool.take? key with
  | none => r.supply source (some key) false
  | some (s, pool) =>
    -- whatever the terms of its earlier leases were, the stream starts without a guard
    let (h, slots) := r.slots.insert ⟨s, some key, false⟩
    ⟨.ok ⟨h, s, false⟩, { r with slots := slots, pool := pool }, [.note (.reused key)]⟩

/-! ## Using -/

/-- Makes a call of the stream that a handle stands for. -/
def reach {α : Type} (r : Registry) (h : Handle) (call : World → StreamId → Outcome World α) :
    Outcome Registry (Option α) :=
  match r.get? h with
  | none => ⟨none, r, []⟩
  | some lease =>
    let o := call r.world lease.stream
    ⟨some o.answer, { r with world := o.state }, o.events⟩

def write (r : Registry) (h : Handle) (data : Bytes) : Outcome Registry (Option Nat) :=
  r.reach h fun w s => w.write s data

def read (r : Registry) (h : Handle) (size : Nat) : Outcome Registry (Option Bytes) :=
  r.reach h fun w s => w.read s size

def atEnd (r : Registry) (h : Handle) : Outcome Registry (Option Bool) :=
  r.reach h fun w s => w.atEnd s

/-- Sets or lifts the guard of a lease. The answer says whether there is one. -/
def setGuarded (r : Registry) (h : Handle) (guarded : Bool) : Outcome Registry Bool :=
  ⟨r.slots.contains h,
    { r with slots := r.slots.update h fun lease => { lease with guarded := guarded } }, []⟩

/-! ## Giving back -/

/-- Tears the stream down. The answer says whether there was one. -/
def close (r : Registry) (h : Handle) : Outcome Registry Bool :=
  match r.slots.remove h with
  | none => ⟨false, r, []⟩
  | some (lease, slots) =>
    let closed := r.world.close lease.stream
    ⟨true, { r with slots := slots, world := closed.state }, closed.events⟩

/-- Parks the stream under its key, or tears it down when it has none. -/
def release (r : Registry) (h : Handle) : Outcome Registry Bool :=
  match r.slots.remove h with
  | none => ⟨false, r, []⟩
  | some (lease, slots) =>
    match lease.key with
    | none =>
      let closed := r.world.close lease.stream
      ⟨true, { r with slots := slots, world := closed.state }, closed.events⟩
    | some key =>
      let released := r.world.release lease.stream
      let parked := r.pool.park released.state key lease.stream
      ⟨true, ⟨slots, parked.state.1, parked.state.2⟩, released.events ++ parked.events⟩

/-- Tears the streams of several handles down, and counts those there were. -/
def closeEach (r : Registry) : List Handle → Outcome Registry Nat
  | [] => ⟨0, r, []⟩
  | h :: rest =>
    let first := r.close h
    let others := first.state.closeEach rest
    ⟨first.answer.toNat + others.answer, others.state, first.events ++ others.events⟩

/-- Tears down every held stream by ascending slot, then every idle one. -/
def closeAll (r : Registry) : Outcome Registry Nat :=
  -- what is persistent is torn down too, and is not parked on the way
  let held := r.closeEach r.slots.handles
  let idle := held.state.pool.drain held.state.world
  ⟨held.answer + idle.answer,
    { held.state with pool := idle.state.1, world := idle.state.2 }, held.events ++ idle.events⟩

end Registry

end StreamBroker
