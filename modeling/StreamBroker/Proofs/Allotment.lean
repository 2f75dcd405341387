import Mathlib.Logic.Function.Basic
import StreamBroker.Proofs.Handles
import StreamBroker.Proofs.Table

/-!
# Allotment

Which slot an opening gets, and in which generation, as a host can tell it from the
operations of a run and their answers. Main statements:

* **growth** — an edit leaves as many slots as there were, or as many as are in use now if
  these are more (`Slots.Edit.length_eq`); over a run that is the most that were ever in
  use (`Broker.run_peak`);
* **agreement** — one move and its record keep an allotment and the slots in agreement
  (`Allotment.Agrees.move`); hence the allotment of a history agrees with the slots that
  were reached (`Reached.allotted`), as long as indices are exact;
* **exact handles** — `Broker.slots_allotted`: an opening gets the slot freed last of those
  not taken again, or else a new one behind the others, and the generation counts how often
  the slot was freed.
-/

namespace StreamBroker

/-! ## Growth -/

namespace Slots

variable {α : Type} {t t' : Slots α}

theorem Wf.live_le_length (wf : t.Wf) : t.live ≤ t.slots.length := by
  have total := wf.live_add_free
  omega

theorem next_eq (t : Slots α) : t.next = t.free.headD t.slots.length := by
  unfold next
  cases t.free <;> rfl

theorem live_insert (t : Slots α) (a : α) : (t.insert a).2.live = t.live + 1 := by
  unfold insert
  split <;> rfl

theorem free_insert (t : Slots α) (a : α) : (t.insert a).2.free = t.free.erase t.next := by
  unfold insert next
  cases t.free with
  | cons i rest => exact (List.erase_cons_head ..).symm
  | nil => rfl

/-- After an edit there are more slots than before only if all are in use. -/
theorem Edit.length_eq (wf : t.Wf) (edit : Edit t t') :
    t'.slots.length = max t.slots.length t'.live := by
  have within := (edit.wf wf).live_le_length
  cases edit with
  | same => omega
  | inserted a =>
    have total := wf.live_add_free
    have next := t.next_eq
    rw [wf.length_insert, live_insert] at *
    cases free : t.free with
    | cons i rest =>
      have inside := (wf.head_vacant free).1
      rw [free] at total next
      simp only [List.length_cons, List.headD_cons] at total next
      omega
    | nil =>
      rw [free] at total next
      simp only [List.length_nil, List.headD_nil] at total next
      omega
  | changed h f =>
    rw [length_update] at *
    omega
  | removed hs =>
    rw [length_removeEach] at *
    omega

end Slots

namespace Broker

variable {b : Broker}

/-- The slots are as many as there were, or as many as were in use at some time. -/
theorem run_peak (sound : b.registry.books.Sound) (ops : List Operation) :
    let n := (b.run ops).state.registry.slots.slots.length
    n = b.registry.slots.slots.length ∨
      ∃ past, past <+: ops ∧ (b.run past).state.registry.liveCount = n := by
  induction ops generalizing b with
  | nil => exact Or.inl rfl
  | cons op rest ih =>
    have move := step_move sound op
    rcases ih (move.sound sound) with same | ⟨past, early, peak⟩
    · -- no slot came after the first operation; did one come with it?
      have length : (b.step op).state.registry.slots.slots.length =
          max b.registry.slots.slots.length (b.step op).state.registry.liveCount :=
        move.edit.length_eq sound.slots
      have last : (b.run (op :: rest)).state.registry.slots.slots.length = _ := same
      rcases Nat.le_total (b.step op).state.registry.liveCount b.registry.slots.slots.length with
        fits | grown
      · rw [Nat.max_eq_left fits] at length
        exact Or.inl (last.trans length)
      · rw [Nat.max_eq_right grown] at length
        exact Or.inr ⟨[op], List.prefix_cons_inj op |>.mpr rest.nil_prefix,
          (last.trans length).symm⟩
    · exact Or.inr ⟨op :: past, List.prefix_cons_inj op |>.mpr early, peak⟩

end Broker

/-! ## The record of the slots -/

/-- What a host can tell of the slots: how many there are, which are taken, the others with
the one freed last first, and how often each was freed. -/
structure Allotment where
  count : Nat
  taken : Nat → Bool
  vacant : List Nat
  frees : Nat → Nat

namespace Allotment

/-- The allotment of a host that has done nothing. -/
def empty : Allotment := ⟨0, fun _ => false, [], fun _ => 0⟩

def take (a : Allotment) (i : Nat) : Allotment :=
  { a with
    count := max a.count (i + 1)
    taken := Function.update a.taken i true
    vacant := a.vacant.erase i }

def free (a : Allotment) (i : Nat) : Allotment :=
  { a with
    taken := Function.update a.taken i false
    vacant := i :: a.vacant
    frees := Function.update a.frees i (a.frees i + 1) }

/-- Frees the slots that are taken, by ascending position. -/
def freeAll (a : Allotment) : Allotment := ((List.range a.count).filter a.taken).foldl free a

/-- Notes one operation with its answer. What was refused frees nothing. -/
def record (a : Allotment) : Operation × Answer → Allotment
  | (.openStream .., .opened o) | (.openPersistent .., .opened o) => a.take o.handle.slot
  | (.close (.resource h), .verdict true) => a.free h.slot
  | (.closeHandle h, .verdict true) | (.releaseHandle h, .verdict true) => a.free h.slot
  | (.closeAll, _) => a.freeAll
  | _ => a

/-- The allotment of a history. -/
def ofHistory (history : List (Operation × Answer)) : Allotment := history.foldl record empty

variable {a : Allotment} {op : Operation} {answer : Answer} {h : Handle}

theorem record_rests {pool : Pool} (rests : op.Rests pool answer) :
    a.record (op, answer) = a := by
  cases op with
  | openStream =>
    obtain ⟨fault, rfl⟩ := rests
    rfl
  | openPersistent =>
    obtain ⟨-, fault, rfl⟩ := rests
    rfl
  | close stream =>
    obtain rfl : answer = .verdict false := rests
    cases stream <;> rfl
  | closeHandle | releaseHandle =>
    obtain rfl : answer = .verdict false := rests
    rfl
  | setGuarded | closeAll => cases rests
  | write | discard | atEnd | fileExists | writeTo | readFrom | atEndOf | setSink | setFiles
  | change => rfl

theorem record_asks {c : Call} (asks : op.Asks h answer c) : a.record (op, answer) = a := by
  cases asks <;> rfl

theorem record_removes {lease : Lease} (removes : op.Removes h lease) :
    a.record (op, .verdict true) = a.free h.slot := by
  cases removes <;> rfl

theorem record_supplies {pool : Pool} {key : Option Key} {guarded : Bool} {o : Opened}
    (supplies : op.Supplies pool key guarded) :
    a.record (op, .opened o) = a.take o.handle.slot := by
  cases supplies <;> rfl

/-! ## Agreement -/

/-- Allotment and slots say the same. -/
structure Agrees (a : Allotment) (t : Slots Lease) : Prop where
  count : t.slots.length = a.count
  taken : ∀ i, t.occupied i = a.taken i
  vacant : t.free = a.vacant
  generation : ∀ i, t.generation i = UInt32.ofNat (a.frees i)

namespace Agrees

variable {t left : Slots Lease} {lease : Lease}

theorem inserted (agrees : a.Agrees t) (wf : t.Wf) (lease : Lease)
    (few : (t.insert lease).2.slots.length ≤ Slots.maxSlots) :
    (a.take (t.insert lease).1.slot).Agrees (t.insert lease).2 := by
  rw [Slots.insert_fst, t.slot_handleOf (wf.next_lt few)]
  refine ⟨?_, fun i => ?_, ?_, fun i => ?_⟩
  · rw [wf.length_insert, agrees.count]
    rfl
  · show _ = Function.update a.taken t.next true i
    rw [Function.update_apply, ← agrees.taken, Slots.occupied, Slots.thing?_insert wf]
    split <;> rfl
  · rw [Slots.free_insert, agrees.vacant]
    rfl
  · rw [Slots.generation_insert]
    exact agrees.generation i

theorem changed (agrees : a.Agrees t) (h : Handle) (f : Lease → Lease) :
    a.Agrees (t.update h f) := by
  refine ⟨?_, fun i => ?_, ?_, fun i => ?_⟩
  · rw [Slots.length_update]
    exact agrees.count
  · rw [← agrees.taken, Slots.occupied, Slots.thing?_update]
    split
    · exact Option.isSome_map
    · rfl
  · rw [Slots.free_update]
    exact agrees.vacant
  · rw [Slots.generation_update]
    exact agrees.generation i

theorem removed (agrees : a.Agrees t) (removed : t.remove h = some (lease, left)) :
    (a.free h.slot).Agrees left := by
  refine ⟨?_, fun i => ?_, ?_, fun i => ?_⟩
  · rw [Slots.length_remove removed]
    exact agrees.count
  · show _ = Function.update a.taken h.slot false i
    rw [Function.update_apply, ← agrees.taken, Slots.occupied, Slots.thing?_remove removed]
    split <;> rfl
  · rw [(Slots.remove_spec removed).2]
    exact congrArg (h.slot :: ·) agrees.vacant
  · show _ = UInt32.ofNat (Function.update a.frees h.slot (a.frees h.slot + 1) i)
    rw [Function.update_apply, Slots.generation_remove removed, agrees.generation]
    split
    · rename_i same
      rw [same, UInt32.ofNat_add]
      rfl
    · rfl

/-- Removing several handles, each of which reaches something, frees their slots in turn. -/
theorem removedEach (agrees : a.Agrees t) {hs : List Handle} (once : hs.Nodup)
    (reached : ∀ h ∈ hs, ∃ lease, t.get? h = some lease) :
    ((hs.map Handle.slot).foldl free a).Agrees (t.removeEach hs).2 := by
  induction hs generalizing a t with
  | nil => exact agrees
  | cons h rest ih =>
    obtain ⟨lease, here⟩ := reached h List.mem_cons_self
    obtain ⟨left, removed⟩ : ∃ left, t.remove h = some (lease, left) := ⟨_, Slots.remove_eq here⟩
    obtain ⟨apart, once⟩ := List.nodup_cons.mp once
    rw [Slots.removeEach_cons_some removed]
    refine ih (agrees.removed removed) once fun k listed => ?_
    have other : k ≠ h := fun same => apart (same ▸ listed)
    rw [Slots.get?_remove removed, if_neg other]
    exact reached k (List.mem_cons_of_mem _ listed)

theorem emptied (agrees : a.Agrees t) (few : t.slots.length ≤ Slots.maxSlots) :
    a.freeAll.Agrees (t.removeEach t.handles).2 := by
  have slots := Slots.map_slot_handles few
  rw [agrees.count, show t.occupied = a.taken from funext agrees.taken] at slots
  unfold freeAll
  rw [← slots]
  exact agrees.removedEach (Slots.nodup_handles few) fun h => Slots.get?_of_mem_handles few

/-- A move and its record keep allotment and slots in agreement. -/
theorem move {b b' : Books} {calls : List (StreamId × Call)} (agrees : a.Agrees b.slots)
    (sound : b.Sound) (move : Move b op answer b' calls)
    (few : b'.slots.slots.length ≤ Slots.maxSlots) : (a.record (op, answer)).Agrees b'.slots := by
  cases move with
  | rest rests =>
    rw [record_rests rests]
    exact agrees
  | asked asks =>
    rw [record_asks asks]
    exact agrees
  | held supplies =>
    rw [record_supplies supplies]
    exact agrees.inserted sound.slots _ few
  | reused => exact agrees.inserted sound.slots _ few
  | guarded h => exact agrees.changed h _
  | closed removes _ removed | parked removes _ removed | overflowed removes _ removed =>
    rw [record_removes removes]
    exact agrees.removed removed
  | @emptied gone left removed =>
    have length := Slots.length_removeEach b.slots b.slots.handles
    rw [removed] at length
    have emptied := agrees.emptied (by rw [← length]; exact few)
    rw [removed] at emptied
    exact emptied

end Agrees

end Allotment

/-- The allotment of a history agrees with the slots that it led to. -/
theorem Reached.allotted {limit : Nat} {history : List (Operation × Answer)}
    {calls : List (StreamId × Call)} {b : Books} (past : Reached limit history calls b)
    (few : b.slots.slots.length ≤ Slots.maxSlots) :
    (Allotment.ofHistory history).Agrees b.slots := by
  induction past with
  | start => exact ⟨rfl, fun i => rfl, rfl, fun i => rfl⟩
  | move past move ih =>
    have before := ih (Nat.le_trans (move.edit.length_le past.sound.slots) few)
    unfold Allotment.ofHistory
    rw [List.foldl_append]
    exact before.move past.sound move few

namespace Broker

/-- Over a run of a new broker there are as many slots as were in use at the most. As long
as they are few, each opening gets the slot that was freed last and not taken again, or a
new one behind the others when there is none, and a generation that counts, as far as it
can, how often the slot was freed. What was freed is told by the answers. -/
theorem slots_allotted (config : Config) (files : FileSystem) (sink : Sink) (disk : Disk)
    (ops : List Operation) :
    let start := Broker.ofConfig config files sink (.ofDisk disk)
    let n := (start.run ops).state.registry.slots.slots.length
    ((∀ past, past <+: ops → (start.run past).state.registry.liveCount ≤ n) ∧
      ∃ past, past <+: ops ∧ (start.run past).state.registry.liveCount = n) ∧
    (n ≤ Slots.maxSlots → ∀ before op after o, ops = before ++ op :: after →
      let b := (start.run before).state
      let a := Allotment.ofHistory (start.history before)
      (b.step op).answer = .opened o →
      o.handle.slot = a.vacant.headD b.registry.slots.slots.length ∧
        o.handle.generation.toNat = a.frees o.handle.slot % UInt32.size) := by
  intro start n
  have reached := run_reached config files sink disk
  have new : start.registry.books.Sound := (reached []).sound
  refine ⟨⟨fun past early => ?_, ?_⟩, ?_⟩
  · exact Nat.le_trans (run_sound new past).slots.live_le_length (length_le_in_run new early)
  · rcases run_peak new ops with none | ⟨past, early, peak⟩
    · exact ⟨[], ops.nil_prefix, Eq.symm none⟩
    · exact ⟨past, early, peak⟩
  · rintro few before op after o rfl b a opens
    have sound : b.registry.books.Sound := run_sound new before
    have move := step_move sound op
    -- the slots after the opening are few, and so are those before it
    have few : (b.step op).state.registry.slots.slots.length ≤ Slots.maxSlots := by
      have early : before ++ [op] <+: before ++ op :: after := ⟨after, List.append_assoc ..⟩
      have length := length_le_in_run new early
      rw [run_append start before [op]] at length
      exact Nat.le_trans length few
    have agrees : a.Agrees b.registry.slots :=
      (reached before).allotted (Nat.le_trans (move.edit.length_le sound.slots) few)
    obtain ⟨handle, slot⟩ := move.opened_next sound few opens
    constructor
    · rw [slot, ← agrees.vacant]
      exact Slots.next_eq _
    · have generation : o.handle.generation = UInt32.ofNat (a.frees o.handle.slot) := by
        rw [← agrees.generation, slot, handle]
        rfl
      rw [generation]
      exact UInt32.toNat_ofNat'

/-- Slots freed by a close, a release and all at once, and a close that is refused. -/
def moving : List Operation :=
  let source := Stream.Source.ready (.memory .empty)
  [.openStream source {}, .openStream source {}, .openPersistent "k" source, .closeHandle ⟨1, 0⟩,
    .close (.resource ⟨2, 0⟩), .closeHandle ⟨1, 0⟩, .openStream source {}, .closeAll]

theorem slots_allotted_moving :
    let start := Broker.ofConfig {} .disk .log (.ofDisk .empty)
    let op := Operation.openStream (.ready (.memory .empty)) {}
    (start.run (moving ++ [op])).state.registry.slots.slots.length = 3 ∧
      ∃ o, ((start.run moving).state.step op).answer = .opened o ∧
        o.handle.slot = 2 ∧ o.handle.generation.toNat = 2 := by
  intro start op
  have gives : ((start.run moving).state.step op).answer.handle? = some ⟨2, 2⟩ := by decide +kernel
  obtain ⟨o, opens, -⟩ := Answer.handle?_eq_some_iff.mp gives
  obtain ⟨slot, generation⟩ := (slots_allotted {} .disk .log .empty (moving ++ [op])).2
    (by decide +kernel) moving op [] o rfl opens
  have slot : o.handle.slot = 2 := slot.trans (by decide +kernel)
  rw [slot] at generation
  exact ⟨by decide +kernel, o, opens, slot, generation.trans (by decide +kernel)⟩

end Broker

end StreamBroker
