import StreamBroker.Proofs.History

/-!
# The table over a run

What every run keeps true of the slots of a broker, and what therefore cannot go wrong
when a slot is taken, emptied or numbered. Main statements:

* **handles** — the handles of a table are those of its occupied positions
  (`mem_handles_iff`), each once, by ascending position (`map_slot_handles`);
* **consistency** — `table_consistent`: the free list, the entries and the count agree
  after every run; the next operation takes no occupied or missing slot, counts nothing
  below zero, and adds a slot only when none is vacant.
-/

namespace StreamBroker

namespace Slots

variable {α : Type} {t : Slots α}

/-- The handles of a table are those of its occupied positions. -/
theorem mem_handles_iff {h : Handle} :
    h ∈ t.handles ↔ ∃ i, t.occupied i = true ∧ h = t.handleOf i := by
  unfold handles
  simp only [List.mem_filterMap, Prod.exists, List.mem_zipIdx_iff_getElem?, Option.map_eq_some_iff]
  constructor
  · rintro ⟨slot, i, there, a, holds, rfl⟩
    refine ⟨i, occupied_eq_true_iff.mpr ⟨a, ?_⟩, ?_⟩
    · unfold thing?
      rw [there]
      exact holds
    · unfold handleOf generation
      rw [there]
  · rintro ⟨i, here, rfl⟩
    obtain ⟨a, here⟩ := occupied_eq_true_iff.mp here
    obtain ⟨slot, there, holds⟩ := Option.bind_eq_some_iff.mp here
    refine ⟨slot, i, there, a, holds, ?_⟩
    unfold handleOf generation
    rw [there]

theorem map_slot_handlesFrom (front back : List (Slot α)) {i : Nat} (start : front.length = i)
    (shape : t.slots = front ++ back) (few : t.slots.length ≤ maxSlots) :
    (handlesFrom i back).map Handle.slot = (List.range' i back.length).filter t.occupied := by
  -- the slots passed move to the front, so that the position of the next one is known
  induction back generalizing front i with
  | nil => rfl
  | cons slot back ih =>
    have rest := ih (i := i + 1) (front ++ [slot]) (by simp [start])
      (by rw [shape, List.append_assoc]; rfl)
    have here : t.thing? i = slot.entry := by
      unfold thing?
      rw [shape, ← start]
      simp
    rw [List.length_cons, List.range'_succ]
    cases held : slot.entry with
    | none =>
      rw [handlesFrom_cons_none held, rest, List.filter_cons_of_neg]
      simp [occupied, here, held]
    | some a =>
      have small : i < maxSlots := by
        rw [shape, List.length_append, List.length_cons] at few
        omega
      have position : Handle.slot ⟨UInt32.ofNat i, slot.generation⟩ = i :=
        UInt32.toNat_ofNat_of_lt' small
      rw [handlesFrom_cons_some held, List.map_cons, rest, position, List.filter_cons_of_pos]
      simp [occupied, here, held]

/-- The handles of a table come by ascending position. -/
theorem map_slot_handles (few : t.slots.length ≤ maxSlots) :
    t.handles.map Handle.slot = (List.range t.slots.length).filter t.occupied := by
  rw [List.range_eq_range']
  exact map_slot_handlesFrom [] t.slots rfl rfl few

/-- Each of the handles of a table reaches something. -/
theorem get?_of_mem_handles (few : t.slots.length ≤ maxSlots) {h : Handle} (listed : h ∈ t.handles) :
    ∃ a, t.get? h = some a := by
  obtain ⟨i, here, rfl⟩ := mem_handles_iff.mp listed
  obtain ⟨a, thing⟩ := occupied_eq_true_iff.mp here
  have slot := t.slot_handleOf (Nat.lt_of_lt_of_le (lt_length_of_thing? thing) few)
  refine ⟨a, ?_⟩
  rw [get?_eq, slot, thing]
  exact if_pos rfl

theorem nodup_handles (few : t.slots.length ≤ maxSlots) : t.handles.Nodup := by
  have positions : (t.handles.map Handle.slot).Nodup := by
    rw [map_slot_handles few]
    exact List.nodup_range.filter _
  exact (List.pairwise_map.mp positions).imp fun apart same => apart (congrArg Handle.slot same)

theorem lt_length_of_occupied {i : Nat} (here : t.occupied i = true) : i < t.slots.length := by
  obtain ⟨a, here⟩ := occupied_eq_true_iff.mp here
  exact lt_length_of_thing? here

/-- A removal finds something in use, whatever was removed before. -/
theorem Wf.live_pos (wf : t.Wf) {left : Slots α} {h : Handle} {a : α}
    (removed : t.remove h = some (a, left)) : 0 < t.live := by
  have counted := wf.live_remove removed
  omega

end Slots

theorem Registry.closeEach_slots {r : Registry} (sound : r.books.Sound) (hs : List Handle) :
    (r.closeEach hs).state.slots = (r.slots.removeEach hs).2 :=
  congrArg Books.slots (closeEach_spec hs fun _ => sound.held_known).2.1

/-- Whatever a host did with a new broker, the free list names each vacant slot once and
no other, and the count is that of the occupied ones. Hence the slot that an opening takes
exists or is the next one, and is vacant; a removal, also the later ones of `closeAll`,
finds a positive count; the positions that are turned into indices are small enough as
long as there are few slots; and a slot is added only when all are occupied. -/
theorem Broker.table_consistent (config : Config) (files : FileSystem) (sink : Sink) (disk : Disk)
    (ops : List Operation) :
    let b := ((Broker.ofConfig config files sink (.ofDisk disk)).run ops).state
    let t := b.registry.slots
    (t.free.Nodup ∧ (∀ i, i ∈ t.free ↔ i < t.slots.length ∧ t.thing? i = none) ∧
      t.live = t.slots.countP (fun slot => slot.entry.isSome) ∧
      t.free.length ≤ t.slots.length ∧ t.live = t.slots.length - t.free.length) ∧
    (∀ i rest, t.free = i :: rest → i < t.slots.length ∧ t.thing? i = none) ∧
    (∀ hs h lease left, (b.registry.closeEach hs).state.slots.remove h = some (lease, left) →
      0 < (b.registry.closeEach hs).state.slots.live) ∧
    (t.slots.length ≤ Slots.maxSlots →
      ∀ h ∈ t.handles, ∃ i < Slots.maxSlots, h = t.handleOf i ∧ h.slot = i ∧
        t.get? h = t.thing? i ∧ t.occupied i = true) ∧
    ∀ op,
      let o := b.step op
      let t' := o.state.registry.slots
      (t'.slots.length ≤ Slots.maxSlots → ∀ opened, o.answer = .opened opened →
        t.next < Slots.maxSlots ∧ opened.handle.slot = t.next ∧ t.occupied t.next = false ∧
          t'.occupied t.next = true ∧ ∀ i, i ≠ t.next → t'.thing? i = t.thing? i) ∧
      (t.slots.length < t'.slots.length → ∀ i < t.slots.length, t.occupied i = true) := by
  intro b t
  have sound : b.registry.books.Sound := (run_reached config files sink disk ops).sound
  have wf : t.Wf := sound.slots
  refine ⟨⟨wf.nodup, wf.mem_free, wf.live_eq, ?_, ?_⟩, fun i rest => wf.head_vacant, ?_, ?_, ?_⟩
  · have total := wf.live_add_free
    omega
  · have total := wf.live_add_free
    omega
  · intro hs h lease left removed
    have later : (b.registry.closeEach hs).state.slots.Wf := by
      rw [Registry.closeEach_slots sound]
      exact wf.removeEach hs
    exact later.live_pos removed
  · intro few h listed
    obtain ⟨i, here, rfl⟩ := Slots.mem_handles_iff.mp listed
    have small : i < Slots.maxSlots := Nat.lt_of_lt_of_le (Slots.lt_length_of_occupied here) few
    have slot := t.slot_handleOf small
    refine ⟨i, small, rfl, slot, ?_, here⟩
    rw [Slots.get?_eq, slot]
    exact if_pos rfl
  · intro op o t'
    have move := step_move sound op
    refine ⟨?_, fun grown i inside => move.edit.occupied_of_lt wf grown inside⟩
    intro few opened opens
    obtain ⟨lease, -, handle, after⟩ := move.inserted opens
    have after : t' = (t.insert lease).2 := after
    have small : t.next < Slots.maxSlots := by
      rw [after, wf.length_insert] at few
      omega
    refine ⟨small, ?_, ?_, ?_, ?_⟩
    · rw [handle, Slots.insert_fst]
      exact Slots.slot_handleOf small
    · exact Slots.occupied_eq_false_iff.mpr wf.thing?_next
    · rw [after]
      exact Slots.occupied_eq_true_iff.mpr ⟨lease, by rw [Slots.thing?_insert wf, if_pos rfl]⟩
    · intro i other
      rw [after, Slots.thing?_insert wf, if_neg other]

end StreamBroker
