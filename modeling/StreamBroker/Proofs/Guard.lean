import StreamBroker.Proofs.Lifecycle
import StreamBroker.Proofs.Reports

/-!
# Guarded streams

A guarded lease outlasts everything but three things: its guard is lifted, its handle is
given back around the broker, or everything is torn down at once. Main statements:

* **steps** — an operation that spares a handle keeps the handle's guarded lease, and
  neither closes nor releases its stream (`Move.guarded_kept`);
* **refusals** — to close a guarded stream through the broker changes nothing, calls
  nobody and is reported once (`step_close_guarded`);
* **runs** — `guarded_survives`: both, at every point of a run of such operations.
-/

namespace StreamBroker

/-- An operation that neither lifts the guard of a handle, nor gives the handle back
around the broker, nor tears everything down. -/
def Operation.Spares (h : Handle) : Operation → Prop
  | .setGuarded k guarded => k = h → guarded = true
  | .closeHandle k | .releaseHandle k => k ≠ h
  | .closeAll => False
  | _ => True

/-- The handle that an operation removes is not one that it spares. -/
theorem Operation.Removes.ne_of_spares {op : Operation} {t : Slots Lease} {h k : Handle}
    {lease gone : Lease} (removes : op.Removes k gone) (there : t.get? k = some gone)
    (spares : op.Spares h) (here : t.get? h = some lease) (guarded : lease.guarded = true) :
    k ≠ h := by
  cases removes with
  | close unguarded =>
    rintro rfl
    cases there.symm.trans here
    rw [guarded] at unguarded
    cases unguarded
  | closeHandle | releaseHandle => exact spares

/-- What is left after a removal is of another stream. -/
theorem Books.Sound.stream_ne_removed {b : Books} (sound : b.Sound) {h k : Handle}
    {lease gone : Lease} {left : Slots Lease} (removed : b.slots.remove k = some (gone, left))
    (here : left.get? h = some lease) : lease.stream ≠ gone.stream := by
  have streams := (Books.held_remove removed).nodup_iff.mp (List.nodup_append.mp sound.once).1
  have kept : lease.stream ∈ left.things.map Lease.stream :=
    Books.mem_held_of_get? (b := { b with slots := left }) here
  intro same
  rw [same] at kept
  exact (List.nodup_cons.mp streams).1 kept

namespace Move

variable {b b' : Books} {op : Operation} {answer : Answer} {calls : List (StreamId × Call)}
  {h : Handle} {lease : Lease}

/-- An operation that spares a handle keeps its guarded lease, and neither closes nor
releases its stream. -/
theorem guarded_kept (sound : b.Sound) (move : Move b op answer b' calls)
    (spares : op.Spares h) (here : b.slots.get? h = some lease) (guarded : lease.guarded = true) :
    b'.slots.get? h = some lease ∧
      ∀ c, (lease.stream, c) ∈ calls → c ≠ .close ∧ c ≠ .release := by
  -- a removal is of another handle, hence of another stream
  have aside : ∀ {k gone left}, op.Removes k gone → b.slots.remove k = some (gone, left) →
      left.get? h = some lease ∧ lease.stream ≠ gone.stream := by
    intro k gone left removes removed
    have other := removes.ne_of_spares (Slots.remove_spec removed).1 spares here guarded
    have kept : left.get? h = some lease := by
      rw [Slots.get?_remove removed, if_neg other.symm]
      exact here
    exact ⟨kept, sound.stream_ne_removed removed kept⟩
  cases move with
  | rest => exact ⟨here, nofun⟩
  | asked asks =>
    refine ⟨here, fun c made => ?_⟩
    obtain ⟨-, rfl⟩ := Prod.mk.inj (List.mem_singleton.mp made)
    exact asks.call_ne
  | held | reused => exact ⟨Slots.get?_insert_of_get? sound.slots here, nofun⟩
  | guarded k mark =>
    refine ⟨?_, nofun⟩
    show (b.slots.update k fun lease => { lease with guarded := mark }).get? h = _
    rw [Slots.get?_update, here]
    split
    · -- a handle that is spared may have its guard set once more, but not lifted
      rename_i same
      rw [Option.map_some, spares same.symm, ← guarded]
    · rfl
  | closed removes transient removed | parked removes persistent removed =>
    obtain ⟨kept, other⟩ := aside removes removed
    refine ⟨kept, fun c made => ?_⟩
    exact absurd (Prod.mk.inj (List.mem_singleton.mp made)).1 other
  | overflowed removes persistent removed =>
    obtain ⟨kept, other⟩ := aside removes removed
    refine ⟨kept, fun c made => ?_⟩
    rcases List.mem_cons.mp made with first | second
    · exact absurd (Prod.mk.inj first).1 other
    · exact absurd (Prod.mk.inj (List.mem_singleton.mp second)).1 other
  | emptied => cases spares

end Move

namespace Broker

variable {b : Broker} {h : Handle} {lease : Lease}

/-- A run of operations that spare a handle keeps its guarded lease. -/
theorem run_guarded_kept (sound : b.registry.books.Sound) (ops : List Operation)
    (spared : ∀ op ∈ ops, op.Spares h) (here : b.registry.get? h = some lease)
    (guarded : lease.guarded = true) :
    (b.run ops).state.registry.get? h = some lease ∧
      (lease.stream, .release) ∉ callsIn (b.run ops).events := by
  induction ops generalizing b with
  | nil => exact ⟨here, List.not_mem_nil⟩
  | cons op rest ih =>
    have move := step_move sound op
    obtain ⟨kept, harmless⟩ :=
      move.guarded_kept sound (spared op List.mem_cons_self) here guarded
    obtain ⟨last, others⟩ :=
      ih (move.sound sound) (fun op' later => spared op' (List.mem_cons_of_mem _ later)) kept
    refine ⟨last, ?_⟩
    show _ ∉ callsIn ((b.step op).events ++ _)
    rw [callsIn_append, List.mem_append, not_or]
    exact ⟨fun made => (harmless _ made).2 rfl, others⟩

/-- To close a guarded stream is refused and reported, and nothing happens. -/
theorem step_close_guarded (here : b.registry.get? h = some lease)
    (guarded : lease.guarded = true) :
    b.step (.close (.resource h)) =
      ⟨.verdict false, b, [b.sink.emit (Operation.warning (.close (.resource h)) (.guarded h))]⟩ := by
  have refused : b.close (.resource h) = ⟨false, b, b.report closeName (.guarded h)⟩ := by
    unfold close
    rw [expectHandle_eq_ok_iff.mpr rfl]
    simp only [here, guarded, if_true]
  show answering (b.close (.resource h)) .verdict = _
  rw [refused]
  rfl

/-- Let a handle reach a guarded lease at some point of a run of a new broker, and let the
run go on with operations that spare the handle. Then at every later point the handle
reaches the same lease, guarded as before, and its stream was never closed, nor released
since. Each close of the handle through the broker is answered with no, leaves all as it
is, makes no call, and hands in one diagnostic, which names the handle's index. -/
theorem guarded_survives (config : Config) (files : FileSystem) (sink : Sink) (disk : Disk)
    (before after : List Operation) (h : Handle) (lease : Lease)
    (here : ((Broker.ofConfig config files sink (.ofDisk disk)).run before).state.registry.get? h =
      some lease)
    (guarded : lease.guarded = true) (spared : ∀ op ∈ after, op.Spares h) :
    let start := Broker.ofConfig config files sink (.ofDisk disk)
    let b := (start.run before).state
    (∀ part, part <+: after →
      (b.run part).state.registry.get? h = some lease ∧
      (lease.stream, .close) ∉ callsIn (start.run (before ++ part)).events ∧
      (lease.stream, .release) ∉ callsIn (b.run part).events) ∧
    ∀ part rest, after = part ++ .close (.resource h) :: rest →
      let now := (b.run part).state
      let o := now.step (.close (.resource h))
      o.answer = .verdict false ∧ o.state = now ∧ callsIn o.events = [] ∧
      ∃ d, o.events = [now.sink.emit d] ∧ d.severity = .warning ∧ d.code = some "W0003" ∧
        d.operation = some "stream_close" ∧
        d.message = s!"{Nat.repr h.index.toNat} is not a valid stream resource" ∧
        d.help = some Refusal.guardedHelp := by
  intro start b
  have sound : b.registry.books.Sound := (run_reached config files sink disk before).sound
  have kept : ∀ part, part <+: after → (b.run part).state.registry.get? h = some lease ∧
      (lease.stream, .release) ∉ callsIn (b.run part).events := by
    intro part short
    exact run_guarded_kept sound part (fun op there => spared op (short.subset there)) here guarded
  constructor
  · intro part short
    obtain ⟨reached, unreleased⟩ := kept part short
    have past := run_reached config files sink disk (before ++ part)
    have same : (start.run (before ++ part)).state = (b.run part).state := by rw [run_append]
    have owned : lease.stream ∈ (start.run (before ++ part)).state.registry.books.owned := by
      rw [same]
      exact Books.mem_owned_of_get? reached
    exact ⟨reached, fun made => past.notMem_closed owned (mem_madeOf.mpr made), unreleased⟩
  · rintro part rest rfl now o
    obtain ⟨reached, -⟩ := kept part (List.prefix_append ..)
    have outcome : o = _ := step_close_guarded reached guarded
    rw [outcome]
    refine ⟨rfl, rfl, ?_, _, rfl, rfl, rfl, rfl, rfl, rfl⟩
    cases now.sink <;> rfl

/-- A persistent stream, given back, held again and guarded. -/
def entrenched : List Operation :=
  let source := Stream.Source.ready (.memory .empty)
  [.openPersistent "db" source, .close (.resource ⟨0, 0⟩), .openPersistent "db" source,
    .setGuarded ⟨0, 1⟩ true]

/-- Closes of its handle, a stale handle of its slot, and a neighbour under its key. -/
def siege : List Operation :=
  let source := Stream.Source.ready (.memory .empty)
  [.close (.resource ⟨0, 1⟩), .releaseHandle ⟨0, 0⟩, .openPersistent "db" source,
    .close (.resource ⟨1, 0⟩), .setGuarded ⟨0, 1⟩ true, .closeHandle ⟨1, 0⟩,
    .openPersistent "db" source, .write (.resource ⟨0, 1⟩) (.string [1]),
    .close (.resource ⟨0, 1⟩)]

theorem guarded_survives_siege :
    let b := ((Broker.ofConfig {} .disk .recording (.ofDisk .empty)).run entrenched).state
    (b.run siege).state.registry.get? ⟨0, 1⟩ = some ⟨0, some "db", true⟩ ∧
      ((b.run (siege.take 8)).state.step (.close (.resource ⟨0, 1⟩))).answer = .verdict false := by
  obtain ⟨kept, refused⟩ := guarded_survives {} .disk .recording .empty entrenched siege ⟨0, 1⟩
    ⟨0, some "db", true⟩ (by decide +kernel) rfl (by simp [siege, Operation.Spares])
  exact ⟨(kept siege (List.prefix_refl _)).1, (refused (siege.take 8) [] rfl).1⟩

end Broker

end StreamBroker
