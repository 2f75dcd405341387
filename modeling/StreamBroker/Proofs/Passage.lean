import StreamBroker.Proofs.Move

/-!
# Passages

What operations do to the world. A world passes to another as streams are called, one after
the other, and supplied ones join it. Main statements:

* **calls** — a stream answers a call by what it and the disk are at that time
  (`Stream.Answers`); `World.Passes` strings such calls together;
* **one stream** — it changes only as it answers the calls that it receives
  (`World.Passes.serves`, `run_serves`);
* **steps** — an operation asks a source for a stream or changes the disk itself
  (`Operation.entry`); the rest of every step is a passage, with the calls that are among its
  events (`step_passes`).
-/

namespace StreamBroker

/-- A call with the answer that a stream gives to it, and what the stream and the disk are
afterwards. -/
inductive Stream.Answers (stream : Stream) (d : Disk) : Call → Stream → Disk → Prop
  | write (data : Bytes) :
      Answers stream d (.write data (stream.write d data).answer) (stream.write d data).stream
        (stream.write d data).disk
  | read (size : Nat) :
      Answers stream d (.read size (stream.read d size).answer) (stream.read d size).stream
        (stream.read d size).disk
  | atEnd :
      Answers stream d (.atEnd (stream.atEnd d).answer) (stream.atEnd d).stream
        (stream.atEnd d).disk
  | close : Answers stream d .close (stream.close d).stream (stream.close d).disk
  | release : Answers stream d .release (stream.release d).stream (stream.release d).disk

/-- The calls that a stream answers one after the other, whatever the disk is at each time. -/
inductive Stream.Serves : Stream → List Call → Stream → Prop
  | nil (stream : Stream) : Serves stream [] stream
  | cons {stream next last : Stream} {c : Call} {calls : List Call} {d d' : Disk}
      (answers : stream.Answers d c next d') (later : Serves next calls last) :
      Serves stream (c :: calls) last

theorem Stream.Serves.append {stream next last : Stream} {calls more : List Call}
    (first : stream.Serves calls next) (second : next.Serves more last) :
    stream.Serves (calls ++ more) last := by
  induction first with
  | nil => exact second
  | cons answers later ih => exact .cons answers (ih second)

/-! ## Sources -/

namespace Stream.Source

variable {source : Source} {stream : Stream} {d d' : Disk}

/-- The disk once a source was asked for a stream. -/
def opened (source : Source) (d : Disk) : Disk :=
  match source.take d with
  | .error _ => d
  | .ok (_, opened) => opened

theorem opened_of_error {fault : Disk.Fault} (misses : source.take d = .error fault) :
    source.opened d = d := by
  unfold opened
  rw [misses]

theorem opened_of_ok (gives : source.take d = .ok (stream, d')) : source.opened d = d' := by
  unfold opened
  rw [gives]

end Stream.Source

/-! ## Worlds -/

namespace World

/-- How a world passes to another, with the calls that its streams received. -/
inductive Passes : World → World → List (StreamId × Call) → Prop
  | still (w : World) : Passes w w []
  /-- A stream is called. -/
  | called {w w' : World} {s : StreamId} {stream stream' : Stream} {c : Call} {d : Disk}
      {calls : List (StreamId × Call)} (there : w.stream? s = some stream)
      (answers : stream.Answers w.disk c stream' d)
      (later : Passes ⟨d, w.streams.set s stream'⟩ w' calls) : Passes w w' ((s, c) :: calls)
  /-- A supplied stream is taken in. -/
  | joined {w w' : World} {calls : List (StreamId × Call)} (stream : Stream)
      (later : Passes (w.add stream).2 w' calls) : Passes w w' calls

theorem Passes.trans {w w' w'' : World} {calls more : List (StreamId × Call)}
    (first : Passes w w' calls) (second : Passes w' w'' more) : Passes w w'' (calls ++ more) := by
  induction first with
  | still => exact second
  | called there answers later ih => exact .called there answers (ih second)
  | joined stream later ih => exact .joined stream (ih second)

/-- A stream of the world only changes as it answers its own calls. -/
theorem Passes.serves {w w' : World} {calls : List (StreamId × Call)} (passes : w.Passes w' calls)
    {s : StreamId} {stream : Stream} (there : w.stream? s = some stream) :
    ∃ last, w'.stream? s = some last ∧ stream.Serves (callsTo s calls) last := by
  induction passes generalizing stream with
  | still => exact ⟨stream, there, .nil stream⟩
  | @called w w' s' other next c d calls here answers later ih =>
    by_cases same : s' = s
    · subst same
      cases here.symm.trans there
      have known := (List.getElem?_eq_some_iff.mp here).1
      obtain ⟨last, reached, serves⟩ := ih (List.getElem?_set_self known)
      refine ⟨last, reached, ?_⟩
      rw [callsTo_cons_self]
      exact .cons answers serves
    · rw [callsTo_cons_of_ne same]
      exact ih ((List.getElem?_set_ne same).trans there)
  | joined other later ih =>
    have known := (List.getElem?_eq_some_iff.mp there).1
    exact ih ((List.getElem?_append_left known).trans there)

theorem ask_passes {α : Type} (w : World) (s : StreamId) (fallback : α)
    {call : Stream → Disk → Stream.Reaction Stream α} {describe : α → Call}
    (answers : ∀ stream d, Stream.Answers stream d (describe (call stream d).answer)
      (call stream d).stream (call stream d).disk) :
    Passes w (w.ask s fallback call describe).state
      (callsIn (w.ask s fallback call describe).events) := by
  unfold ask
  cases there : w.stream? s with
  | none => exact .still w
  | some stream =>
    simp only [callsIn_append, callsIn_notes, callsIn_call_cons, callsIn_nil, List.nil_append]
    exact .called there (answers stream w.disk) (.still _)

theorem close_passes (w : World) (s : StreamId) :
    Passes w (w.close s).state (callsIn (w.close s).events) :=
  ask_passes w s () fun _ _ => .close

theorem release_passes (w : World) (s : StreamId) :
    Passes w (w.release s).state (callsIn (w.release s).events) :=
  ask_passes w s () fun _ _ => .release

theorem closeEach_passes (w : World) (streams : List StreamId) :
    Passes w (w.closeEach streams).state (callsIn (w.closeEach streams).events) := by
  induction streams generalizing w with
  | nil => exact .still w
  | cons s rest ih =>
    simp only [closeEach, callsIn_append]
    exact (close_passes w s).trans (ih _)

end World

theorem Pool.park_passes (p : Pool) (w : World) (key : Key) (s : StreamId) :
    w.Passes (p.park w key s).state.2 (callsIn (p.park w key s).events) := by
  simp only [park]
  split
  · rw [callsIn_append, callsIn_note_cons, callsIn_nil, List.append_nil]
    exact w.close_passes s
  · exact .still w

namespace Registry

variable {r : Registry}

/-- A source that is asked leaves the disk as it does by itself, and its stream joins. -/
theorem supply_passes (source : Stream.Source) (key : Option Key) (guarded : Bool) :
    World.Passes { r.world with disk := source.opened r.world.disk }
      (r.supply source key guarded).state.world
      (callsIn (r.supply source key guarded).events) := by
  cases takes : source.take r.world.disk with
  | error fault =>
    rw [supply_error takes, Stream.Source.opened_of_error takes]
    exact .still _
  | ok found =>
    rw [supply_ok takes, Stream.Source.opened_of_ok takes]
    exact .joined found.1 (.still _)

theorem reach_passes {α : Type} (h : Handle) {call : World → StreamId → Outcome World α}
    (passes : ∀ w s, World.Passes w (call w s).state (callsIn (call w s).events)) :
    r.world.Passes (r.reach h call).state.world (callsIn (r.reach h call).events) := by
  simp only [reach]
  split
  · exact .still _
  · exact passes ..

theorem write_passes (h : Handle) (data : Bytes) :
    r.world.Passes (r.write h data).state.world (callsIn (r.write h data).events) :=
  reach_passes h fun w s => w.ask_passes s 0 fun _ _ => .write data

theorem read_passes (h : Handle) (size : Nat) :
    r.world.Passes (r.read h size).state.world (callsIn (r.read h size).events) :=
  reach_passes h fun w s => w.ask_passes s [] fun _ _ => .read size

theorem atEnd_passes (h : Handle) :
    r.world.Passes (r.atEnd h).state.world (callsIn (r.atEnd h).events) :=
  reach_passes h fun w s => w.ask_passes s false fun _ _ => .atEnd

theorem close_passes (h : Handle) :
    r.world.Passes (r.close h).state.world (callsIn (r.close h).events) := by
  simp only [close]
  split
  · exact .still _
  · exact r.world.close_passes _

theorem release_passes (h : Handle) :
    r.world.Passes (r.release h).state.world (callsIn (r.release h).events) := by
  simp only [release]
  split
  · exact .still _
  · split
    · exact r.world.close_passes _
    · simp only [callsIn_append]
      exact (r.world.release_passes _).trans (r.pool.park_passes ..)

theorem closeEach_passes (hs : List Handle) :
    r.world.Passes (r.closeEach hs).state.world (callsIn (r.closeEach hs).events) := by
  induction hs generalizing r with
  | nil => exact .still _
  | cons h rest ih =>
    simp only [closeEach, callsIn_append]
    exact (close_passes h).trans ih

theorem closeAll_passes :
    r.world.Passes r.closeAll.state.world (callsIn r.closeAll.events) := by
  simp only [closeAll, callsIn_append]
  exact (closeEach_passes r.slots.handles).trans (World.closeEach_passes ..)

end Registry

/-! ## Steps -/

namespace Operation

/-- Where an opening takes its stream from. -/
def source? : Operation → Option Stream.Source
  | .openStream source _ | .openPersistent _ source => some source
  | _ => none

/-- The disk once an operation has asked its source or changed the disk itself. For a key with
an idle stream no source is asked. -/
def entry (op : Operation) (pool : Pool) (d : Disk) : Disk :=
  match op with
  | .openStream source _ => source.opened d
  | .openPersistent key source => if pool.idle.stack key = [] then source.opened d else d
  | .change changes => d.changeAll changes
  | _ => d

end Operation

namespace Broker

variable {b : Broker}

/-- The world once an operation has asked its source or changed the disk itself. -/
def entered (b : Broker) (op : Operation) : World :=
  { b.registry.world with disk := op.entry b.registry.pool b.registry.world.disk }

theorem deliver_passes (h : Handle) (bytes : Bytes) :
    b.registry.world.Passes (b.deliver h bytes).state.registry.world
      (callsIn (b.deliver h bytes).events) := by
  obtain ⟨-, registry, calls⟩ := deliver_spec b h bytes
  rw [registry, calls]
  exact Registry.write_passes h bytes

theorem write_passes (stream data : Value) :
    b.registry.world.Passes (b.write stream data).state.registry.world
      (callsIn (b.write stream data).events) := by
  unfold write
  split
  · rw [callsIn_report]
    exact .still _
  · split
    · exact .still _
    · exact deliver_passes ..

theorem atEnd_passes (stream : Value) :
    b.registry.world.Passes (b.atEnd stream).state.registry.world
      (callsIn (b.atEnd stream).events) := by
  simp only [atEnd]
  split
  · rw [callsIn_report]
    exact .still _
  · split
    · exact .still _
    · exact Registry.atEnd_passes _

theorem close_passes (stream : Value) :
    b.registry.world.Passes (b.close stream).state.registry.world
      (callsIn (b.close stream).events) := by
  simp only [close]
  repeat' split
  -- refused, released or closed; a refusal calls nobody
  any_goals simp only [callsIn_report, callsIn_note_cons]
  any_goals exact .still _
  · exact Registry.release_passes _
  · exact Registry.close_passes _

theorem openPersistent_passes (key : Key) (source : Stream.Source) :
    (b.entered (.openPersistent key source)).Passes
      (b.registry.openPersistent key source).state.world
      (callsIn (b.registry.openPersistent key source).events) := by
  let d := b.registry.world.disk
  show World.Passes { b.registry.world with
    disk := if b.registry.pool.idle.stack key = [] then source.opened d else d } _ _
  cases popped : b.registry.pool.idle.pop? key with
  | none =>
    have nothing := Shelf.pop?_eq_none_iff.mp popped
    rw [if_pos nothing, Registry.openPersistent_missed nothing]
    exact Registry.supply_passes source (some key) false
  | some found =>
    have something : b.registry.pool.idle.stack key ≠ [] := fun nothing => by
      rw [Shelf.pop?_eq_none_iff.mpr nothing] at popped
      cases popped
    rw [if_neg something, Registry.openPersistent_taken popped]
    exact .still _

/-- Once an operation has asked its source or changed the disk itself, it only makes calls
and takes in what it was supplied with. -/
theorem step_passes (b : Broker) (op : Operation) :
    (b.entered op).Passes (b.step op).state.registry.world (callsIn (b.step op).events) := by
  cases op with
  | openStream source terms => exact Registry.supply_passes ..
  | openPersistent key source => exact openPersistent_passes key source
  | write stream data => exact write_passes stream data
  | discard stream data =>
    obtain ⟨state, calls⟩ := discard_eq_write b stream data
    show (b.entered _).Passes (b.discard stream data).state.registry.world
      (callsIn (b.discard stream data).events)
    rw [state, calls]
    exact write_passes stream data
  | atEnd stream => exact atEnd_passes stream
  | close stream => exact close_passes stream
  | fileExists path =>
    show b.registry.world.Passes (b.fileExists path).state.registry.world
      (callsIn (b.fileExists path).events)
    unfold fileExists
    split <;> exact .still _
  | writeTo h data => exact Registry.write_passes h data
  | readFrom h size => exact Registry.read_passes h size
  | atEndOf h => exact Registry.atEnd_passes h
  | closeHandle h => exact Registry.close_passes h
  | releaseHandle h => exact Registry.release_passes h
  | closeAll => exact Registry.closeAll_passes
  | setGuarded | setSink | setFiles | change => exact .still _

/-- Asking a source or changing the disk leaves the streams alone, so in a step too a stream
only answers its own calls. -/
theorem step_serves {s : StreamId} {stream : Stream}
    (there : b.registry.world.stream? s = some stream) (op : Operation) :
    ∃ last, (b.step op).state.registry.world.stream? s = some last ∧
      stream.Serves (callsTo s (callsIn (b.step op).events)) last := by
  have entered : (b.entered op).stream? s = some stream := there
  exact (step_passes b op).serves entered

/-- A stream that is known answers, in a run, the calls that are recorded for it. -/
theorem run_serves {s : StreamId} {stream : Stream}
    (there : b.registry.world.stream? s = some stream) (ops : List Operation) :
    ∃ last, (b.run ops).state.registry.world.stream? s = some last ∧
      stream.Serves (callsTo s (callsIn (b.run ops).events)) last := by
  induction ops generalizing b stream with
  | nil => exact ⟨stream, there, .nil stream⟩
  | cons op rest ih =>
    obtain ⟨next, here, first⟩ := step_serves there op
    obtain ⟨last, reached, others⟩ := ih here
    refine ⟨last, reached, ?_⟩
    show stream.Serves (callsTo s (callsIn (_ ++ _))) last
    rw [callsIn_append, callsTo_append]
    exact first.append others

end Broker

end StreamBroker
