import StreamBroker.Proofs.Move

/-!
# Histories

Books with the operations, the answers and the calls that led to them, and what no
move can undo. Main statements:

* **accounting** — a move adds the stream that it was supplied with to those owned or
  torn down, and loses none (`Move.owned`);
* **soundness** — a move is one edit of the slots (`Move.edit`) and keeps books sound
  (`Move.sound`);
* **histories** — `Reached` collects the moves of a run (`run_reached`). Books that
  were reached are sound, and the streams owned and those torn down are together the
  streams supplied, each once (`Reached.accounted`).
-/

namespace StreamBroker

/-- The stream that an operation was supplied with, told by its answer. -/
def Answer.supplied : Answer → List StreamId
  | .opened o => if o.fresh then [o.stream] else []
  | _ => []

namespace Books

/-! ## What is held -/

theorem held_insert {t : Slots Lease} (wf : t.Wf) (lease : Lease) :
    ((t.insert lease).2.things.map Lease.stream).Perm
      (lease.stream :: t.things.map Lease.stream) :=
  (Slots.things_insert wf lease).map Lease.stream

theorem held_remove {t left : Slots Lease} {h : Handle} {lease : Lease}
    (removed : t.remove h = some (lease, left)) :
    (t.things.map Lease.stream).Perm (lease.stream :: left.things.map Lease.stream) :=
  (Slots.things_remove removed).map Lease.stream

theorem held_removeEach {t left : Slots Lease} {hs : List Handle} {gone : List Lease}
    (removed : t.removeEach hs = (gone, left)) :
    (t.things.map Lease.stream).Perm
      (gone.map Lease.stream ++ left.things.map Lease.stream) := by
  have parts := (Slots.things_removeEach t hs).map Lease.stream
  rw [removed, List.map_append] at parts
  exact parts

end Books

theorem Operation.Rests.ne_opened {pool : Pool} {op : Operation} {answer : Answer}
    (rests : op.Rests pool answer) (o : Opened) : answer ≠ .opened o := by
  rintro rfl
  cases op <;> simp [Operation.Rests] at rests

theorem Operation.Asks.ne_opened {op : Operation} {h : Handle} {answer : Answer} {c : Call}
    (asks : op.Asks h answer c) (o : Opened) : answer ≠ .opened o := by
  cases asks <;> exact nofun

theorem Answer.supplied_eq_nil {answer : Answer} (other : ∀ o, answer ≠ .opened o) :
    answer.supplied = [] := by
  cases answer with
  | opened o => exact absurd rfl (other o)
  | nothing | fault | written | verdict | count | accepted | got | ended => rfl

theorem Operation.Rests.supplied {pool : Pool} {op : Operation} {answer : Answer}
    (rests : op.Rests pool answer) : answer.supplied = [] :=
  Answer.supplied_eq_nil rests.ne_opened

theorem Operation.Asks.supplied {op : Operation} {h : Handle} {answer : Answer} {c : Call}
    (asks : op.Asks h answer c) : answer.supplied = [] :=
  Answer.supplied_eq_nil asks.ne_opened

/-- Asking is neither tearing down nor releasing. -/
theorem Operation.Asks.call_ne {op : Operation} {h : Handle} {answer : Answer} {c : Call}
    (asks : op.Asks h answer c) : c ≠ .close ∧ c ≠ .release := by
  cases asks <;> exact ⟨nofun, nofun⟩

namespace Move

variable {b b' : Books} {op : Operation} {answer : Answer} {calls : List (StreamId × Call)}

/-! ## Accounting -/

/-- What a move leaves owned or tears down is what was owned, and what it was supplied with. -/
theorem owned (sound : b.Sound) (move : Move b op answer b' calls) :
    (b'.owned ++ madeOf .close calls).Perm (b.owned ++ answer.supplied) := by
  -- a move shifts one stream from place to place, so each stream's count is kept
  rw [List.perm_iff_count]
  intro s
  cases move with
  | rest rests => simp [rests.supplied, madeOf]
  | asked asks here => simp [asks.supplied, madeOf, asks.call_ne.1]
  | @held _ key guarded supplies =>
    have held := (Books.held_insert sound.slots ⟨b.supplied, key, guarded⟩).count_eq s
    simp only [Books.owned, Books.held, Books.idle, Answer.supplied, madeOf, List.count_append,
      List.count_cons, List.filter_nil, List.map_nil, List.count_nil, if_true] at held ⊢
    omega
  | @reused key _ reused _ taken =>
    have held := (Books.held_insert sound.slots ⟨reused, some key, false⟩).count_eq s
    have idle := (Shelf.toList_pop? taken).count_eq s
    simp only [Books.owned, Books.held, Books.idle, Answer.supplied, madeOf, List.count_append,
      List.count_cons, List.filter_nil, List.map_nil, List.count_nil, Bool.false_eq_true,
      if_false] at held idle ⊢
    omega
  | guarded h guarded =>
    have held := Slots.things_update b.slots h Lease.stream
      (f := fun lease => { lease with guarded := guarded }) fun _ => rfl
    simp [Books.owned, Books.held, Books.idle, Answer.supplied, madeOf, held]
  | @closed _ _ lease _ removes transient removed =>
    have held := (Books.held_remove removed).count_eq s
    have torn : madeOf .close [(lease.stream, .close)] = [lease.stream] := rfl
    simp only [Books.owned, Books.held, Books.idle, Answer.supplied, torn, List.count_append,
      List.count_cons, List.count_nil] at held ⊢
    omega
  | @parked _ _ lease _ key removes persistent removed room =>
    have held := (Books.held_remove removed).count_eq s
    have idle := (Shelf.toList_push b.pool.idle key lease.stream).count_eq s
    have torn : madeOf .close [(lease.stream, .release)] = [] := rfl
    simp only [Books.owned, Books.held, Books.idle, Answer.supplied, torn, List.count_append,
      List.count_cons, List.count_nil] at held idle ⊢
    omega
  | @overflowed _ _ lease _ _ removes persistent removed full =>
    have held := (Books.held_remove removed).count_eq s
    have torn : madeOf .close [(lease.stream, .release), (lease.stream, .close)] = [lease.stream] :=
      rfl
    simp only [Books.owned, Books.held, Books.idle, Answer.supplied, torn, List.count_append,
      List.count_cons, List.count_nil] at held ⊢
    omega
  | emptied removed =>
    have held := (Books.held_removeEach removed).count_eq s
    rw [madeOf_map]
    simp only [Books.owned, Books.held, Books.idle, Answer.supplied, List.count_append,
      List.count_nil] at held ⊢
    simp [Shelf.toList]
    omega

/-- The numbers of the supplied streams follow one another. -/
theorem supplied (move : Move b op answer b' calls) :
    List.range b'.supplied = List.range b.supplied ++ answer.supplied := by
  cases move with
  | rest rests => rw [rests.supplied, List.append_nil]
  | asked asks here => rw [asks.supplied, List.append_nil]
  | held supplies => exact List.range_succ
  | reused | guarded | closed | parked | overflowed | emptied => exact (List.append_nil _).symm

/-! ## Soundness -/

/-- A move is one edit of the slots. -/
theorem edit (move : Move b op answer b' calls) : Slots.Edit b.slots b'.slots := by
  cases move with
  | rest | asked => exact .same
  | held | reused => exact .inserted _
  | guarded h => exact .changed h _
  | closed removes transient removed => exact .of_remove removed
  | parked removes persistent removed | overflowed removes persistent removed =>
    exact .of_remove removed
  | emptied removed =>
    have edit := Slots.Edit.removed (t := b.slots) b.slots.handles
    rw [removed] at edit
    exact edit

/-- An opening is an insertion, and answers with the handle and the stream. -/
theorem inserted {o : Opened} (move : Move b op answer b' calls) (opens : answer = .opened o) :
    ∃ lease : Lease, lease.stream = o.stream ∧ o.handle = (b.slots.insert lease).1 ∧
      b'.slots = (b.slots.insert lease).2 := by
  cases move with
  | rest rests => exact absurd opens (rests.ne_opened o)
  | asked asks here => exact absurd opens (asks.ne_opened o)
  | held | reused =>
    cases opens
    exact ⟨_, rfl, rfl, rfl⟩
  | guarded | closed | parked | overflowed | emptied => cases opens

/-- While indices are exact, the handle that an opening gives out names the next position. -/
theorem opened_next {o : Opened} (sound : b.Sound) (move : Move b op answer b' calls)
    (few : b'.slots.slots.length ≤ Slots.maxSlots) (opens : answer = .opened o) :
    o.handle = b.slots.handleOf b.slots.next ∧ o.handle.slot = b.slots.next := by
  obtain ⟨lease, -, handle, after⟩ := move.inserted opens
  rw [after] at few
  rw [handle, Slots.insert_fst]
  exact ⟨rfl, Slots.slot_handleOf (sound.slots.next_lt few)⟩

theorem shelf_wf (sound : b.Sound) (move : Move b op answer b' calls) : b'.pool.idle.Wf := by
  cases move with
  | rest | asked | held | guarded | closed | overflowed => exact sound.shelf
  | reused taken => exact sound.shelf.pop? taken
  | parked => exact sound.shelf.push _ _
  | emptied => exact Shelf.Wf.nil

/-- Moves keep books sound. -/
theorem sound (sound : b.Sound) (move : Move b op answer b' calls) : b'.Sound := by
  have parts := move.owned sound
  have streams := move.supplied
  have everything : ∀ s ∈ b.owned ++ answer.supplied, s < b'.supplied := by
    intro s here
    rw [← List.mem_range, streams, List.mem_append, List.mem_range]
    rcases List.mem_append.mp here with old | new
    · exact Or.inl (sound.known s old)
    · exact Or.inr new
  -- a supplied stream has the next number, which no stream owned has
  have once : (b.owned ++ answer.supplied).Nodup := by
    have numbers : (List.range b.supplied ++ answer.supplied).Nodup := by
      rw [← streams]
      exact List.nodup_range
    obtain ⟨-, new, apart⟩ := List.nodup_append.mp numbers
    refine List.nodup_append.mpr ⟨sound.once, new, fun s old s' fresh => ?_⟩
    exact apart s (List.mem_range.mpr (sound.known s old)) s' fresh
  refine ⟨move.edit.wf sound.slots, move.shelf_wf sound, fun s here => ?_, ?_⟩
  · exact everything s (parts.mem_iff.mp (List.mem_append_left _ here))
  · exact (List.nodup_append.mp (parts.nodup_iff.mpr once)).1

theorem limit (move : Move b op answer b' calls) : b'.pool.limit = b.pool.limit := by
  cases move <;> rfl

end Move

/-! ## Histories -/

/-- The books that a history leads to, with the calls that were made on the way. -/
inductive Reached (limit : Nat) :
    List (Operation × Answer) → List (StreamId × Call) → Books → Prop
  | start : Reached limit [] [] ⟨.empty, .ofLimit limit, 0⟩
  | move {history calls b op answer b' more} (past : Reached limit history calls b)
      (move : Move b op answer b' more) :
      Reached limit (history ++ [(op, answer)]) (calls ++ more) b'

theorem Slots.Wf.empty {α : Type} : (Slots.empty : Slots α).Wf :=
  ⟨List.nodup_nil, fun i => by simp [Slots.empty], rfl, rfl⟩

namespace Reached

variable {limit : Nat} {history : List (Operation × Answer)} {calls : List (StreamId × Call)}
  {b : Books}

theorem sound (past : Reached limit history calls b) : b.Sound := by
  induction past with
  | start => exact ⟨.empty, Shelf.Wf.nil, nofun, List.nodup_nil⟩
  | move past move ih => exact move.sound ih

/-- The streams owned and those torn down are the streams supplied, each once. -/
theorem accounted (past : Reached limit history calls b) :
    (b.owned ++ madeOf .close calls).Perm (List.range b.supplied) := by
  induction past with
  | start => exact List.Perm.refl _
  | move past move ih =>
    have parts := move.owned past.sound
    rw [move.supplied, madeOf_append]
    rw [List.perm_iff_count] at ih parts ⊢
    intro s
    have before := ih s
    have step := parts s
    simp only [List.count_append] at before step ⊢
    omega

end Reached

/-! ## Runs -/

namespace Broker

/-- The operations of a run with their answers. -/
def history (b : Broker) (ops : List Operation) : List (Operation × Answer) :=
  ops.zip (b.run ops).answer

/-- A run goes on with the history of the books that it starts from. -/
theorem run_reached_from {b : Broker} {limit : Nat} {history : List (Operation × Answer)}
    {calls : List (StreamId × Call)} (past : Reached limit history calls b.registry.books)
    (ops : List Operation) :
    Reached limit (history ++ b.history ops) (calls ++ callsIn (b.run ops).events)
      (b.run ops).state.registry.books := by
  induction ops generalizing b history calls with
  | nil => simpa [Broker.history, run] using past
  | cons op rest ih =>
    have later := ih (.move past (step_move past.sound op))
    rw [List.append_assoc, List.append_assoc, ← callsIn_append] at later
    exact later

/-- Whatever a host does with a new broker, its books are reached by the history. -/
theorem run_reached (config : Config) (files : FileSystem) (sink : Sink) (disk : Disk)
    (ops : List Operation) :
    let b := Broker.ofConfig config files sink (.ofDisk disk)
    Reached config.idleLimit (b.history ops) (callsIn (b.run ops).events)
      (b.run ops).state.registry.books := by
  intro b
  have new : Reached config.idleLimit [] [] b.registry.books := .start
  exact run_reached_from new ops

/-- A run drops no slot. -/
theorem length_le_run {b : Broker} (sound : b.registry.books.Sound) (ops : List Operation) :
    b.registry.slots.slots.length ≤ (b.run ops).state.registry.slots.slots.length := by
  induction ops generalizing b with
  | nil => exact Nat.le_refl _
  | cons op rest ih =>
    have move := step_move sound op
    exact Nat.le_trans (move.edit.length_le sound.slots) (ih (move.sound sound))

theorem run_sound {b : Broker} (sound : b.registry.books.Sound) (ops : List Operation) :
    (b.run ops).state.registry.books.Sound := by
  induction ops generalizing b with
  | nil => exact sound
  | cons op rest ih => exact ih ((step_move sound op).sound sound)

/-- A run has at least the slots that there were in the course of it. -/
theorem length_le_in_run {b : Broker} (sound : b.registry.books.Sound)
    {past ops : List Operation} (early : past <+: ops) :
    (b.run past).state.registry.slots.slots.length ≤
      (b.run ops).state.registry.slots.slots.length := by
  obtain ⟨rest, rfl⟩ := early
  rw [run_append]
  exact length_le_run (run_sound sound past) rest

end Broker

end StreamBroker
