import StreamBroker.Proofs.Descriptors

/-!
# Requests that the disk declines

A stream over a file tells of a failure by its answer alone. Main statements:

* **requests** — what the disk declines is answered in vain and noted once, and a closed stream
  answers in vain without a note; nothing has changed afterwards (`visit_declined`,
  `visit_closed`);
* **leaving out** — writes to a stream that was opened for reading, and uses of a closed stream,
  can be left out of a run (`visitAll_unread`, `visitAll_unclosed`).

`failures_contained` states them for every run.
-/

namespace StreamBroker

/-- Whether a call is a write. -/
def Call.writes : Call → Bool
  | .write .. => true
  | _ => false

namespace Stream

/-- Whether a write is asked for. -/
def Use.writes : Use → Bool
  | .write _ => true
  | _ => false

theorem serve_writes (s : Stream) (d : Disk) (use : Use) :
    (s.serve d use).answer.writes = use.writes := by
  cases use <;> rfl

/-- The stream was opened for reading, or is closed. -/
def File.Reads (f : File) : Prop := ∀ h, f.descriptor = some h → h.mode = .read

theorem File.Reads.follows {f f' : File} (reads : f.Reads) (follows : f.Follows f') :
    f'.Reads := by
  intro h' opened'
  obtain ⟨h, opened, -, mode⟩ := follows.descriptor h' opened'
  exact mode.trans (reads h opened)

theorem File.closed_follows {f f' : File} (closed : f.descriptor = none)
    (follows : f.Follows f') : f'.descriptor = none := by
  cases opened' : f'.descriptor with
  | none => rfl
  | some h' =>
    obtain ⟨h, opened, -⟩ := follows.descriptor h' opened'
    cases closed.symm.trans opened

/-- A write to a stream that was opened for reading comes to nothing. -/
theorem serve_unwritable {f : File} (reads : f.Reads) (d : Disk) (data : Bytes) :
    ∃ notes, (Stream.file f).serve d (.write data) = ⟨.write data 0, .file f, d, notes⟩ := by
  cases opened : f.descriptor with
  | none => exact ⟨[], serve_closed opened d _⟩
  | some h =>
    have fails : d.write h data = .error .badDescriptor :=
      Disk.write_reading (reads h opened) d data
    exact ⟨_, serve_declined (.write opened fails)⟩

end Stream

namespace World

variable {w : World} {s : StreamId} {f : Stream.File}

/-- A visit that uses the stream. -/
def Visit.uses (s : StreamId) : Visit → Bool
  | .use s' _ => s' = s
  | _ => false

/-- A visit that writes to the stream. -/
def Visit.writesTo (s : StreamId) : Visit → Bool
  | .use s' asked => s' = s && asked.writes
  | _ => false

theorem Visit.eq_use {v : Visit} (uses : v.uses s = true) : ∃ use, v = .use s use := by
  cases v with
  | use s' use =>
    cases of_decide_eq_true uses
    exact ⟨use, rfl⟩
  | openFile | change => cases uses

theorem Visit.eq_write {v : Visit} (writes : v.writesTo s = true) :
    ∃ data, v = .use s (.write data) := by
  cases v with
  | use s' use =>
    obtain ⟨same, write⟩ := Bool.and_eq_true_iff.mp writes
    cases of_decide_eq_true same
    cases use with
    | write data => exact ⟨data, rfl⟩
    | read | atEnd | close | release => cases write
  | openFile | change => cases writes

/-- A stream over a file stays one, and follows what it was. -/
theorem visit_follows (there : w.stream? s = some (.file f)) (v : Visit) :
    ∃ f', (w.visit v).state.stream? s = some (.file f') ∧ f.Follows f' := by
  rcases visit_stream there v with ⟨use, rfl, served⟩ | still
  · obtain ⟨f', stream, follows⟩ := Stream.serve_follows f w.disk use
    exact ⟨f', by rw [served, stream], follows⟩
  · exact ⟨f, still, .refl f⟩

/-- What a stream over a file keeps while it is used, it keeps whatever is done. -/
theorem visit_keeps_file {Q : Stream.File → Prop}
    (stable : ∀ f f', Q f → f.Follows f' → Q f') (w : World) (v : Visit)
    (holds : ∃ f, w.stream? s = some (.file f) ∧ Q f) :
    ∃ f, (w.visit v).state.stream? s = some (.file f) ∧ Q f := by
  obtain ⟨f, there, now⟩ := holds
  obtain ⟨f', there', follows⟩ := visit_follows there v
  exact ⟨f', there', stable f f' now follows⟩

/-! ## Requests -/

theorem visit_declined (there : w.stream? s = some (.file f)) {use : Stream.Use}
    {request : FileRequest} {fault : Disk.Fault} (declines : f.Declines w.disk use request fault) :
    w.visit (.use s use) =
      ⟨[], w, [.note (.fileFailed request f.path fault), .call s use.vain]⟩ :=
  visit_use_same there (Stream.serve_declined declines)

theorem visit_closed (there : w.stream? s = some (.file f)) (closed : f.descriptor = none)
    (use : Stream.Use) : w.visit (.use s use) = ⟨[], w, [.call s use.vain]⟩ :=
  visit_use_same there (Stream.serve_closed closed w.disk use)

/-! ## Leaving out -/

/-- Writes to a stream that was opened for reading can be left out. -/
theorem visitAll_unread (there : w.stream? s = some (.file f)) (reads : f.Reads)
    (vs : List Visit) :
    let all := w.visitAll vs
    let fewer := w.visitAll (vs.filter fun v => !v.writesTo s)
    fewer.answer = all.answer ∧ fewer.state = all.state ∧
      callsIn fewer.events = (callsIn all.events).filter fun c => !(c.1 = s && c.2.writes) := by
  -- a stream that was opened for reading stays one, so every write to it is in vain
  refine visitAll_filter (P := fun w => ∃ f, w.stream? s = some (.file f) ∧ f.Reads)
    (visit_keeps_file fun _ _ reads => reads.follows) ?_ ?_ ⟨f, there, reads⟩ vs
  · rintro w v ⟨f, there, reads⟩ writes
    obtain ⟨data, rfl⟩ := Visit.eq_write writes
    obtain ⟨notes, served⟩ := Stream.serve_unwritable reads w.disk data
    rw [visit_use_same there served]
    exact ⟨rfl, rfl⟩
  · intro w v _ c made
    obtain ⟨use, stream, rfl, -, answer⟩ := mem_callsIn_visit made
    rw [answer, Stream.serve_writes]
    rfl

/-- Uses of a closed stream can be left out. -/
theorem visitAll_unclosed (there : w.stream? s = some (.file f)) (closed : f.descriptor = none)
    (vs : List Visit) :
    let all := w.visitAll vs
    let fewer := w.visitAll (vs.filter fun v => !v.uses s)
    fewer.answer = all.answer ∧ fewer.state = all.state ∧
      callsIn fewer.events = (callsIn all.events).filter fun c => !decide (c.1 = s) := by
  refine visitAll_filter (P := fun w => ∃ f, w.stream? s = some (.file f) ∧ f.descriptor = none)
    (visit_keeps_file fun _ _ => Stream.File.closed_follows) ?_ ?_ ⟨f, there, closed⟩ vs
  · rintro w v ⟨f, there, closed⟩ uses
    obtain ⟨use, rfl⟩ := Visit.eq_use uses
    rw [visit_closed there closed]
    exact ⟨rfl, rfl⟩
  · intro w v _ c made
    obtain ⟨use, stream, rfl, -, -⟩ := mem_callsIn_visit made
    rfl

/-- Once it is closed, a stream over a file is closed for good. -/
theorem visit_close (there : w.stream? s = some (.file f)) :
    (w.visit (.use s .close)).state.stream? s = some (.file { f with descriptor := none }) := by
  have known := (List.getElem?_eq_some_iff.mp there).1
  rw [visit_use there]
  obtain ⟨path, descriptor⟩ := f
  cases descriptor <;> exact List.getElem?_set_self known

/-- **Failures are told by answers alone.** Whatever is done with any streams and with the disk,
a stream over a file answers in vain what the disk declines, with one note for the log, and the
world is the same afterwards; once it is closed it answers everything in vain, without a note,
and the world is the same as well. Hence writes to a stream that was opened for reading, and
whatever is asked of a stream after it was closed, can be left out: every other call has the
same answer, every file can be opened or not as before, and the disk and all streams end up the
same. -/
theorem failures_contained (there : w.stream? s = some (.file f)) (vs : List Visit) :
    let o := w.visitAll vs
    ∃ f', o.state.stream? s = some (.file f') ∧
      (∀ use request fault, f'.Declines o.state.disk use request fault →
        let note : Note := .fileFailed request f'.path fault
        o.state.visit (.use s use) = ⟨[], o.state, [.note note, .call s use.vain]⟩ ∧
          note.level = .debug ∧ note.topic.target = "strand::stream") ∧
      (f'.descriptor = none →
        ∀ use, o.state.visit (.use s use) = ⟨[], o.state, [.call s use.vain]⟩) ∧
      (f.Reads →
        let fewer := w.visitAll (vs.filter fun v => !v.writesTo s)
        fewer.answer = o.answer ∧ fewer.state = o.state ∧
          callsIn fewer.events = (callsIn o.events).filter fun c => !(c.1 = s && c.2.writes)) ∧
      ∀ later,
        let closed := (o.state.visit (.use s .close)).state
        let all := closed.visitAll later
        let fewer := closed.visitAll (later.filter fun v => !v.uses s)
        fewer.answer = all.answer ∧ fewer.state = all.state ∧
          callsIn fewer.events = (callsIn all.events).filter fun c => !decide (c.1 = s) := by
  intro o
  obtain ⟨f', there', -⟩ := visitAll_keeps (visit_keeps_file fun _ _ _ _ => trivial)
    (P := fun w => ∃ f, w.stream? s = some (.file f) ∧ True) ⟨f, there, trivial⟩ vs
  refine ⟨f', there', ?_, visit_closed there', fun reads => visitAll_unread there reads vs, ?_⟩
  · intro use request fault declines note
    exact ⟨visit_declined there' declines, rfl, rfl⟩
  · intro later
    exact visitAll_unclosed (visit_close there') rfl later

/-- A directory that is open for reading, a queue that is open for appending, and a new file. -/
def assorted : World :=
  let disk := Disk.empty.changeAll [.folder [0x64], .fifo [0x71], .file [0x61] [1, 2]]
  ((World.ofDisk disk).visitAll
    [.openFile .read [0x64], .openFile .append [0x71], .openFile .create [0x61]]).state

/-- Uses of all three, some of which are declined. -/
def attempts : List Visit :=
  [.use 0 (.write [7]), .use 1 (.write [8]), .use 0 (.read 3), .use 1 .atEnd, .use 2 (.write [9]),
    .use 0 .atEnd]

theorem failures_contained_attempts :
    let o := assorted.visitAll attempts
    let folder : Stream.File := ⟨[0x64], some ⟨2, .read, 0⟩⟩
    assorted.stream? 0 = some (.file folder) ∧ folder.Reads ∧
      folder.Declines o.state.disk (.read 3) .read .isDirectory ∧
      o.state.visit (.use 0 (.read 3)) =
        ⟨[], o.state, [.note (.fileFailed .read [0x64] .isDirectory), .call 0 (.read 3 [])]⟩ ∧
      (assorted.visitAll (attempts.filter fun v => !v.writesTo 0)).state = o.state := by
  intro o folder
  have there : assorted.stream? 0 = some (.file folder) := by decide +kernel
  have reads : folder.Reads := by
    rintro _ ⟨⟩
    rfl
  obtain ⟨f', there', declined, -, unread, -⟩ := failures_contained there attempts
  have same : o.state.stream? 0 = some (.file folder) := by decide +kernel
  cases same.symm.trans there'
  have fails : folder.Declines o.state.disk (.read 3) .read .isDirectory :=
    .read rfl rfl
  exact ⟨there, reads, fails, (declined _ _ _ fails).1, (unread reads).2.1⟩

end World

end StreamBroker
