import StreamBroker.Proofs.Allotment
import StreamBroker.Proofs.Lifecycle

/-!
# Teardown

What `closeAll` leaves behind, and how the slots are used again afterwards. Main statements:

* **emptying** — its move tears down what is owned, the held streams by ascending slot and
  before the idle ones, and leaves every slot vacant (`Move.torn_down`); where nothing is
  owned it does nothing (`Registry.closeAll_idle`);
* **spare slots** — a run that opens no more streams than there are spare slots adds none
  (`Broker.run_spare`), and unless it gives a stream back it uses the vacant slots in their
  order (`Broker.run_retaken`);
* **all together** — `Broker.closeAll_empties`.
-/

namespace StreamBroker

namespace Slots

variable {α : Type} {t : Slots α}

/-- The contents by ascending position. -/
theorem things_eq (t : Slots α) :
    t.things = (List.range t.slots.length).filterMap t.thing? := by
  unfold things thing?
  induction t.slots with
  | nil => rfl
  | cons slot rest ih =>
    have others : ((List.range rest.length).map Nat.succ).filterMap
        (fun i => (slot :: rest)[i]?.bind Slot.entry) = rest.filterMap Slot.entry := by
      rw [List.filterMap_map, ih]
      rfl
    rw [List.length_cons, List.range_succ_eq_map, List.filterMap_cons, List.filterMap_cons, others]
    rfl

theorem handles_of_things_eq_nil (nothing : t.things = []) : t.handles = [] := by
  apply List.eq_nil_iff_forall_not_mem.mpr
  intro h listed
  obtain ⟨i, here, -⟩ := mem_handles_iff.mp listed
  rw [occupied_eq_false_iff.mpr (thing?_of_things_eq_nil nothing i)] at here
  cases here

/-- Where nothing is held, every slot is free. -/
theorem Wf.free_perm (wf : t.Wf) (nothing : t.things = []) :
    t.free.Perm (List.range t.slots.length) := by
  rw [List.perm_ext_iff_of_nodup wf.nodup List.nodup_range]
  intro i
  rw [wf.mem_free, List.mem_range]
  exact and_iff_left (thing?_of_things_eq_nil nothing i)

theorem live_removeEach_le (t : Slots α) (hs : List Handle) : (t.removeEach hs).2.live ≤ t.live :=
  removeEach_preserves (P := fun other => other.live ≤ t.live)
    (fun removed le => by
      rw [(remove_spec removed).2]
      exact Nat.le_trans (Nat.sub_le ..) le)
    hs (Nat.le_refl _)

end Slots

/-! ## Emptying -/

/-- The move of `closeAll` tears down all that is owned, and leaves nothing in the slots. -/
theorem Move.torn_down {b b' : Books} {answer : Answer} {calls : List (StreamId × Call)}
    (move : Move b .closeAll answer b' calls) (few : b.slots.slots.length ≤ Slots.maxSlots) :
    answer = .count b.owned.length ∧ calls = b.owned.map (fun s => (s, .close)) ∧
      b'.slots.things = [] ∧ b'.slots.slots.length = b.slots.slots.length ∧
      b'.pool = { b.pool with idle := [] } := by
  obtain ⟨gone, removed, pool, answer, calls⟩ := move.of_closeAll
  have length := Slots.length_removeEach b.slots b.slots.handles
  obtain ⟨all, nothing⟩ := Slots.removeEach_handles few
  rw [removed] at length all nothing
  cases all
  exact ⟨answer, calls, nothing, length, pool⟩

/-- Where nothing is owned there is nothing to tear down. -/
theorem Registry.closeAll_idle {r : Registry} (nothing : r.slots.things = [])
    (idle : r.pool.idle = []) : r.closeAll = ⟨0, r, []⟩ := by
  obtain ⟨slots, ⟨_, limit, parked, overflow⟩, world⟩ := r
  cases idle
  have handles : slots.handles = [] := Slots.handles_of_things_eq_nil nothing
  unfold closeAll
  rw [handles]
  rfl

/-! ## Spare slots -/

/-- Operations that can free slots. -/
def Operation.frees : Operation → Bool
  | .close _ | .closeHandle _ | .releaseHandle _ | .closeAll => true
  | _ => false

namespace Move

variable {b b' : Books} {op : Operation} {answer : Answer} {calls : List (StreamId × Call)}

/-- A move puts no more into slots than it gives handles for. -/
theorem live_le (sound : b.Sound) (move : Move b op answer b' calls) :
    b'.slots.live ≤ b.slots.live + answer.handle?.toList.length := by
  cases move with
  | rest | asked => exact Nat.le_add_right ..
  | held | reused => exact Nat.le_of_eq (Slots.live_insert ..)
  | guarded h => exact Nat.le_of_eq (Slots.live_update ..)
  | closed removes _ removed | parked removes _ removed | overflowed removes _ removed =>
    have counted := sound.slots.live_remove removed
    simp only
    omega
  | emptied removed =>
    have fewer := Slots.live_removeEach_le b.slots b.slots.handles
    rw [removed] at fewer
    exact Nat.le_trans fewer (Nat.le_add_right ..)

/-- A move that frees nothing takes at most the next position from the free ones. -/
theorem retaken (sound : b.Sound) (move : Move b op answer b' calls) (keeps : op.frees = false)
    (few : b'.slots.slots.length ≤ Slots.maxSlots) :
    (answer.handle? = none ∧ b'.slots.free = b.slots.free) ∨
      ∃ h, answer.handle? = some h ∧ h.slot = b.slots.next ∧
        b'.slots.free = b.slots.free.erase b.slots.next := by
  have opened := fun o => move.opened_next (o := o) sound few
  cases move with
  | rest rests => exact Or.inl ⟨Answer.handle?_eq_none rests.ne_opened, rfl⟩
  | asked asks => exact Or.inl ⟨Answer.handle?_eq_none asks.ne_opened, rfl⟩
  | held | reused => exact Or.inr ⟨_, rfl, (opened _ rfl).2, Slots.free_insert ..⟩
  | guarded h => exact Or.inl ⟨rfl, Slots.free_update ..⟩
  | closed removes | parked removes | overflowed removes => cases removes <;> cases keeps
  | emptied => cases keeps

end Move

namespace Broker

variable {b : Broker}

/-- A run that opens no more streams than there are spare slots adds no slot. -/
theorem run_spare (sound : b.registry.books.Sound) (ops : List Operation)
    (spare : b.registry.liveCount + (issued (b.run ops).answer).length ≤
      b.registry.slots.slots.length) :
    (b.run ops).state.registry.slots.slots.length = b.registry.slots.slots.length := by
  induction ops generalizing b with
  | nil => rfl
  | cons op rest ih =>
    have move := step_move sound op
    have spare : b.registry.liveCount +
        (issued ((b.step op).answer :: ((b.step op).state.run rest).answer)).length ≤
          b.registry.slots.slots.length := spare
    rw [issued_cons, List.length_append] at spare
    have live : (b.step op).state.registry.liveCount ≤ b.registry.liveCount + _ :=
      move.live_le sound
    have length : (b.step op).state.registry.slots.slots.length =
        max b.registry.slots.slots.length (b.step op).state.registry.liveCount :=
      move.edit.length_eq sound.slots
    have same : (b.step op).state.registry.slots.slots.length =
        b.registry.slots.slots.length := by omega
    exact (ih (move.sound sound) (by omega)).trans same

/-- A run that frees nothing uses the vacant slots in their order, as far as they go. -/
theorem run_retaken (sound : b.registry.books.Sound) (ops : List Operation)
    (keep : ∀ op ∈ ops, op.frees = false)
    (few : (b.run ops).state.registry.slots.slots.length ≤ Slots.maxSlots)
    (spare : (issued (b.run ops).answer).length ≤ b.registry.slots.free.length) :
    (issued (b.run ops).answer).map Handle.slot <+: b.registry.slots.free := by
  induction ops generalizing b with
  | nil => exact List.nil_prefix
  | cons op rest ih =>
    have move := step_move sound op
    have later := move.sound sound
    have fewer := Nat.le_trans (length_le_run later rest) few
    have others := ih later (fun op here => keep op (List.mem_cons_of_mem _ here)) few
    show (issued ((b.step op).answer :: ((b.step op).state.run rest).answer)).map _ <+: _
    have spare : (issued ((b.step op).answer :: ((b.step op).state.run rest).answer)).length ≤ _ :=
      spare
    rw [issued_cons] at spare ⊢
    rcases move.retaken sound (keep op List.mem_cons_self) fewer with
      ⟨none, same⟩ | ⟨h, some, slot, free⟩
    · have same : (b.step op).state.registry.slots.free = b.registry.slots.free := same
      rw [none] at spare ⊢
      rw [same] at others
      exact others spare
    · have free : (b.step op).state.registry.slots.free =
        b.registry.slots.free.erase b.registry.slots.next := free
      have slot : h.slot = b.registry.slots.next := slot
      rw [some] at spare ⊢
      -- there is a vacant slot left for this opening, and it is the next position
      cases vacant : b.registry.slots.free with
      | nil =>
        rw [vacant] at spare
        exact absurd spare (Nat.not_succ_le_zero _)
      | cons i below =>
        have next : b.registry.slots.next = i := by
          rw [Slots.next_eq, vacant]
          rfl
        rw [vacant, next, List.erase_cons_head] at free
        rw [free] at others
        rw [vacant] at spare
        show h.slot :: _ <+: i :: below
        rw [slot, next]
        exact (List.prefix_cons_inj i).mpr (others (Nat.le_of_succ_le_succ spare))

/-- After any run of a new broker, as long as there are few slots: `closeAll` answers with the
number of streams that are held or idle, and leaves neither. No handle reaches anything, the
counts of the pool and the number of slots are as they were, and every slot is free, once. The
calls are one close of each stream, guarded and persistent ones included: first of those held
by ascending slot, then of the idle ones. Another `closeAll` answers with nothing and does
nothing. From then on no slot is added for as many openings as there are slots; and unless
something is given back in between, they take free slots one after the other. -/
theorem closeAll_empties (config : Config) (files : FileSystem) (sink : Sink) (disk : Disk)
    (ops : List Operation)
    (few : ((Broker.ofConfig config files sink (.ofDisk disk)).run
      ops).state.registry.slots.slots.length ≤ Slots.maxSlots) :
    let b := ((Broker.ofConfig config files sink (.ofDisk disk)).run ops).state
    let r := b.registry
    let n := r.slots.slots.length
    let o := b.step .closeAll
    let r' := o.state.registry
    (o.answer = .count (r.liveCount + r.pool.totalIdle) ∧ r'.liveCount = 0 ∧
      r'.pool.totalIdle = 0 ∧ (∀ h, r'.get? h = none) ∧
      r'.pool.parked = r.pool.parked ∧ r'.pool.overflow = r.pool.overflow ∧
      r'.slots.slots.length = n ∧ r'.slots.free.Perm (List.range n)) ∧
    (∃ drained, drained.Perm r.books.idle ∧
      callsIn o.events =
        (((List.range n).filterMap r.slots.thing?).map Lease.stream ++ drained).map
          fun s => (s, .close)) ∧
    (∀ s, callsTo s (callsIn o.events) = if s ∈ r.books.owned then [.close] else []) ∧
    o.state.step .closeAll = ⟨.count 0, o.state, []⟩ ∧
    ∀ later,
      let p := o.state.run later
      let opened := (issued p.answer).map Handle.slot
      opened.length ≤ n →
        p.state.registry.slots.slots.length = n ∧
        ((∀ op ∈ later, op.frees = false) → opened <+: r'.slots.free) := by
  intro b r n o r'
  have sound : r.books.Sound := (run_reached config files sink disk ops).sound
  have move := step_move sound .closeAll
  have wf : r'.slots.Wf := (move.sound sound).slots
  obtain ⟨answer, calls, nothing, length, pool⟩ := move.torn_down few
  have nothing : r'.slots.things = [] := nothing
  have length : r'.slots.slots.length = n := length
  have pool : r'.pool = { r.pool with idle := [] } := pool
  have live : r'.liveCount = 0 := by
    rw [Registry.liveCount, wf.live_eq_length, nothing]
    rfl
  have free : r'.slots.free.Perm (List.range n) := by
    rw [← length]
    exact wf.free_perm nothing
  refine ⟨⟨?_, live, ?_, Slots.get?_of_things_eq_nil nothing, ?_, ?_, length, free⟩,
    ⟨r.books.idle, List.Perm.refl _, ?_⟩, fun s => ?_, ?_, ?_⟩
  · rw [liveCount_add_totalIdle sound]
    exact answer
  · rw [pool]
    rfl
  · rw [pool]
  · rw [pool]
  · rw [← Slots.things_eq]
    exact calls
  · rw [show callsIn o.events = _ from calls, callsTo_map, List.Nodup.count sound.once]
    split <;> rfl
  · show o.state.ofRegistry r'.closeAll .count = _
    rw [Registry.closeAll_idle nothing (by rw [pool])]
    rfl
  · intro later p opened spare
    have spare : (issued p.answer).length ≤ n := by
      rw [← List.length_map]
      exact spare
    have vacant : r'.liveCount + (issued p.answer).length ≤ r'.slots.slots.length := by
      rw [live, length, Nat.zero_add]
      exact spare
    have same : p.state.registry.slots.slots.length = n :=
      (run_spare (move.sound sound) later vacant).trans length
    refine ⟨same, fun keep => run_retaken (move.sound sound) later keep ?_ ?_⟩
    · rw [same]
      exact few
    · rw [free.length_eq, List.length_range]
      exact spare

/-- A stream without a key and a guarded one are held, with a hole between them, and a third
one is idle. -/
def furnished : List Operation :=
  let source := Stream.Source.ready (.memory .empty)
  [.openStream source {}, .openPersistent "k" source, .openStream source { guarded := true },
    .close (.resource ⟨1, 0⟩)]

theorem closeAll_empties_furnished :
    let b := ((Broker.ofConfig {} .disk .log (.ofDisk .empty)).run furnished).state
    let o := b.step .closeAll
    let source := Stream.Source.ready (.memory .empty)
    let later := [Operation.openStream source {}, .openPersistent "k" source, .atEndOf ⟨0, 0⟩,
      .openPersistent "k" source]
    o.answer = .count 3 ∧ callsTo 2 (callsIn o.events) = [.close] ∧
      o.state.step .closeAll = ⟨.count 0, o.state, []⟩ ∧
      (issued (o.state.run later).answer).map Handle.slot <+: [2, 0, 1] := by
  intro b o source later
  obtain ⟨⟨answer, -⟩, -, calls, again, reuse⟩ := closeAll_empties {} .disk .log .empty furnished
    (by decide +kernel)
  refine ⟨answer.trans (congrArg Answer.count (by decide +kernel)),
    (calls 2).trans (by decide +kernel), again, ?_⟩
  have prefixed := (reuse later (by decide +kernel)).2 (by decide)
  exact prefixed.trans (by decide +kernel)

end Broker

end StreamBroker
