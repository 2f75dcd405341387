import Mathlib.Logic.Function.Basic
import StreamBroker.Proofs.History

/-!
# The ledger

What a host can work out from what it did and what it was answered, without a look at
slots, generations or stacks: which handle stands for which lease, and which streams
wait under which key. Of an opening the ledger reads the handle only; that a lease is
of a supplied or of an idle stream, and of which one, follows from the ledger itself.
Main statements:

* **agreement** — one move and its record keep ledger and books in agreement
  (`Agrees.move`); hence the ledger of a history agrees with the books that were reached
  (`Reached.agrees`), as long as indices are exact.
-/

namespace StreamBroker

/-- The leases of the handles that are held, the idle streams of each key with the one
parked last first, and the number of streams supplied. -/
structure Ledger where
  held : Handle → Option Lease
  idle : Key → List StreamId
  supplied : Nat

namespace Ledger

/-- The ledger of a host that has done nothing. -/
def empty : Ledger := ⟨fun _ => none, fun _ => [], 0⟩

/-- A handle is given out. -/
def enter (l : Ledger) (h : Handle) (lease : Lease) : Ledger :=
  { l with held := Function.update l.held h (some lease) }

/-- A supplied stream is held. -/
def hold (l : Ledger) (h : Handle) (key : Option Key) (guarded : Bool) : Ledger :=
  { l.enter h ⟨l.supplied, key, guarded⟩ with supplied := l.supplied + 1 }

/-- The idle stream that was parked last under a key is held, or else the supplied one. -/
def reuse (l : Ledger) (h : Handle) (key : Key) : Ledger :=
  match l.idle key with
  | [] => l.hold h (some key) false
  | s :: below =>
    { l.enter h ⟨s, some key, false⟩ with idle := Function.update l.idle key below }

/-- The guard of one lease is set or lifted. -/
def guard (l : Ledger) (h : Handle) (guarded : Bool) : Ledger :=
  { l with
    held := Function.update l.held h
      ((l.held h).map fun lease => { lease with guarded := guarded }) }

/-- A handle is given back. -/
def strike (l : Ledger) (h : Handle) : Ledger :=
  { l with held := Function.update l.held h none }

/-- A stream waits under a key, if there is room for one more. -/
def park (limit : Nat) (l : Ledger) (key : Key) (s : StreamId) : Ledger :=
  if limit ≤ (l.idle key).length then l
  else { l with idle := Function.update l.idle key (s :: l.idle key) }

/-- A handle is given back, and its stream waits under its key, if it has one. -/
def release (limit : Nat) (l : Ledger) (h : Handle) : Ledger :=
  match l.held h with
  | none => l
  | some lease =>
    match lease.key with
    | none => l.strike h
    | some key => (l.strike h).park limit key lease.stream

/-- Notes one operation with its answer. -/
def record (limit : Nat) (l : Ledger) : Operation × Answer → Ledger
  | (.openStream _ terms, .opened o) => l.hold o.handle terms.key terms.guarded
  | (.openPersistent key _, .opened o) => l.reuse o.handle key
  | (.setGuarded h guarded, _) => l.guard h guarded
  | (.close (.resource h), .verdict true) => l.release limit h
  | (.releaseHandle h, .verdict true) => l.release limit h
  | (.closeHandle h, .verdict true) => l.strike h
  | (.closeAll, _) => { empty with supplied := l.supplied }
  | _ => l

/-- The ledger of a history. -/
def ofHistory (limit : Nat) (history : List (Operation × Answer)) : Ledger :=
  history.foldl (record limit) empty

/-- Ledger and books say the same. -/
structure Agrees (l : Ledger) (b : Books) : Prop where
  held : ∀ h, b.slots.get? h = l.held h
  idle : ∀ key, b.pool.idle.stack key = l.idle key
  supplied : b.supplied = l.supplied

variable {limit : Nat} {l : Ledger} {op : Operation} {answer : Answer} {h : Handle}

/-! ## What is recorded -/

theorem record_rests {pool : Pool} (rests : op.Rests pool answer) :
    l.record limit (op, answer) = l := by
  cases op with
  | openStream =>
    obtain ⟨fault, rfl⟩ := rests
    rfl
  | openPersistent =>
    obtain ⟨-, fault, rfl⟩ := rests
    rfl
  | close stream =>
    obtain rfl : answer = .verdict false := rests
    cases stream <;> rfl
  | closeHandle | releaseHandle =>
    obtain rfl : answer = .verdict false := rests
    rfl
  | setGuarded | closeAll => cases rests
  | write | discard | atEnd | fileExists | writeTo | readFrom | atEndOf | setSink | setFiles
  | change => rfl

theorem record_asks {c : Call} (asks : op.Asks h answer c) : l.record limit (op, answer) = l := by
  cases asks <;> rfl

theorem record_removes {lease : Lease} (removes : op.Removes h lease)
    (here : l.held h = some lease) :
    l.record limit (op, .verdict true) =
      match op.returnKey lease with
      | none => l.strike h
      | some key => (l.strike h).park limit key lease.stream := by
  have released : l.release limit h =
      match lease.key with
      | none => l.strike h
      | some key => (l.strike h).park limit key lease.stream := by
    unfold release
    rw [here]
  cases removes with
  | close | releaseHandle => exact released
  | closeHandle => rfl

theorem reuse_nil {key : Key} (none : l.idle key = []) :
    l.reuse h key = l.hold h (some key) false := by
  unfold reuse
  rw [none]

theorem reuse_cons {key : Key} {s : StreamId} {below : List StreamId}
    (top : l.idle key = s :: below) :
    l.reuse h key =
      { l.enter h ⟨s, some key, false⟩ with idle := Function.update l.idle key below } := by
  unfold reuse
  rw [top]

theorem record_supplies {pool : Pool} {key : Option Key} {guarded : Bool} {o : Opened}
    (supplies : op.Supplies pool key guarded) (idle : ∀ key, pool.idle.stack key = l.idle key) :
    l.record limit (op, .opened o) = l.hold o.handle key guarded := by
  cases supplies with
  | openStream => rfl
  | openPersistent none =>
    rw [idle] at none
    exact reuse_nil none

end Ledger

/-! ## Agreement -/

namespace Ledger.Agrees

variable {limit : Nat} {l : Ledger} {b b' : Books} {op : Operation} {answer : Answer}
  {calls : List (StreamId × Call)}

theorem entered (agrees : l.Agrees b) (sound : b.Sound) (lease : Lease)
    (few : (b.slots.insert lease).2.slots.length ≤ Slots.maxSlots) (h : Handle) :
    (b.slots.insert lease).2.get? h = (l.enter (b.slots.insert lease).1 lease).held h := by
  rw [Slots.get?_insert sound.slots lease few, agrees.held]
  exact (Function.update_apply ..).symm

theorem struck {left : Slots Lease} {h : Handle} {lease : Lease} (agrees : l.Agrees b)
    (removed : b.slots.remove h = some (lease, left)) (k : Handle) :
    left.get? k = (l.strike h).held k := by
  rw [Slots.get?_remove removed, agrees.held]
  exact (Function.update_apply ..).symm

/-- A move and its record keep ledger and books in agreement. -/
theorem move (agrees : l.Agrees b) (sound : b.Sound) (move : Move b op answer b' calls)
    (few : b'.slots.slots.length ≤ Slots.maxSlots) (bound : b.pool.limit = limit) :
    (l.record limit (op, answer)).Agrees b' := by
  cases move with
  | rest rests =>
    rw [Ledger.record_rests rests]
    exact agrees
  | asked asks =>
    rw [Ledger.record_asks asks]
    exact agrees
  | held supplies =>
    rw [Ledger.record_supplies supplies agrees.idle]
    unfold Ledger.hold
    rw [← agrees.supplied]
    exact ⟨agrees.entered sound _ few, agrees.idle, rfl⟩
  | @reused key source s idle taken =>
    -- the ledger finds the stream by itself: it is on top of the key's list
    have stack := Shelf.stack_pop? sound.shelf taken
    have top : l.idle key = s :: Shelf.stack idle key := by
      rw [← agrees.idle, stack, if_pos rfl]
    show (l.reuse _ key).Agrees _
    rw [Ledger.reuse_cons top]
    refine ⟨agrees.entered sound _ few, fun other => ?_, agrees.supplied⟩
    show Shelf.stack idle other = Function.update l.idle key (Shelf.stack idle key) other
    rw [Function.update_apply, ← agrees.idle, stack other]
    split
    · rename_i same
      rw [same]
    · rfl
  | guarded h guarded =>
    refine ⟨fun k => ?_, agrees.idle, agrees.supplied⟩
    show _ = Function.update l.held h _ k
    rw [Slots.get?_update, Function.update_apply, agrees.held]
    split
    · rename_i same
      rw [same]
    · rfl
  | closed removes transient removed =>
    have here := (agrees.held _).symm.trans (Slots.remove_spec removed).1
    rw [Ledger.record_removes removes here, transient]
    exact ⟨agrees.struck removed, agrees.idle, agrees.supplied⟩
  | @parked _ h lease left key removes persistent removed room =>
    have here := (agrees.held _).symm.trans (Slots.remove_spec removed).1
    have fits : ¬limit ≤ ((l.strike h).idle key).length := by
      rw [Pool.idleCount, Shelf.count, agrees.idle, bound] at room
      exact Nat.not_le_of_lt room
    rw [Ledger.record_removes removes here, persistent]
    show ((l.strike h).park limit key lease.stream).Agrees _
    unfold Ledger.park
    rw [if_neg fits]
    refine ⟨agrees.struck removed, fun other => ?_, agrees.supplied⟩
    show Shelf.stack (b.pool.idle.push key lease.stream) other =
      Function.update l.idle key (lease.stream :: l.idle key) other
    rw [Shelf.stack_push, Function.update_apply, agrees.idle, agrees.idle]
  | @overflowed _ h lease left key removes persistent removed full =>
    have here := (agrees.held _).symm.trans (Slots.remove_spec removed).1
    have crowded : limit ≤ ((l.strike h).idle key).length := by
      rw [Pool.idleCount, Shelf.count, agrees.idle, bound] at full
      exact full
    rw [Ledger.record_removes removes here, persistent]
    show ((l.strike h).park limit key lease.stream).Agrees _
    unfold Ledger.park
    rw [if_pos crowded]
    exact ⟨agrees.struck removed, agrees.idle, agrees.supplied⟩
  | @emptied gone left removed =>
    -- only with exact indices do the handles reach all things
    have length := Slots.length_removeEach b.slots b.slots.handles
    rw [removed] at length
    have nothing := (Slots.removeEach_handles (t := b.slots) (by rw [← length]; exact few)).2
    rw [removed] at nothing
    exact ⟨fun h => Slots.get?_of_things_eq_nil nothing h, fun key => rfl, agrees.supplied⟩

end Ledger.Agrees

namespace Reached

variable {limit : Nat} {history : List (Operation × Answer)} {calls : List (StreamId × Call)}
  {b : Books}

theorem limit_eq (past : Reached limit history calls b) : b.pool.limit = limit := by
  induction past with
  | start => rfl
  | move past move ih => exact move.limit.trans ih

/-- The ledger of a history agrees with the books that it led to. -/
theorem agrees (past : Reached limit history calls b)
    (few : b.slots.slots.length ≤ Slots.maxSlots) :
    (Ledger.ofHistory limit history).Agrees b := by
  induction past with
  | start => exact ⟨Slots.get?_empty, fun key => rfl, rfl⟩
  | move past move ih =>
    have before := ih (Nat.le_trans (move.edit.length_le past.sound.slots) few)
    unfold Ledger.ofHistory
    rw [List.foldl_append]
    exact before.move past.sound move few past.limit_eq

end Reached

end StreamBroker
