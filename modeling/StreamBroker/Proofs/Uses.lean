import StreamBroker.Proofs.Growth
import StreamBroker.Proofs.Queue

/-!
# Streams in use

What is done with streams below the broker: files are opened, streams are used, and others
change the disk. Main statements:

* **uses** — every stream can be asked for what a stream in memory can (`Stream.serve`), and
  answers as a stream does (`serve_answers`);
* **visits** — a visit opens a file, uses a stream or changes the disk from outside
  (`World.visit`). A stream is changed by its own uses only (`visit_stream`), and a file on
  the disk stays a file (`visit_keepsFiles`);
* **leaving out** — visits that leave the world as it is can be left out of a run, and nothing
  but their own calls is missing then (`visitAll_filter`).
-/

namespace StreamBroker

/-! ## Uses -/

namespace Stream

/-- The same reaction, with the call that it answers. -/
def Reaction.telling {σ α : Type} (r : Reaction σ α) (describe : α → Call) : Reaction σ Call :=
  ⟨describe r.answer, r.stream, r.disk, r.notes⟩

/-- What any stream can be asked for. -/
abbrev Use := Memory.Use

def serve (s : Stream) (d : Disk) : Use → Reaction Stream Call
  | .write data => (s.write d data).telling (.write data)
  | .read size => (s.read d size).telling (.read size)
  | .atEnd => (s.atEnd d).telling .atEnd
  | .close => (s.close d).telling fun _ => .close
  | .release => (s.release d).telling fun _ => .release

/-- Serves some uses, one after the other. -/
def serveAll (s : Stream) (d : Disk) : List Use → Reaction Stream (List Call)
  | [] => ⟨[], s, d, []⟩
  | use :: rest =>
    let first := s.serve d use
    let others := first.stream.serveAll first.disk rest
    ⟨first.answer :: others.answer, others.stream, others.disk, first.notes ++ others.notes⟩

theorem serve_answers (s : Stream) (d : Disk) (use : Use) :
    s.Answers d (s.serve d use).answer (s.serve d use).stream (s.serve d use).disk := by
  cases use <;> constructor

end Stream

/-! ## Visits -/

namespace World

/-- What can be done without a broker. -/
inductive Visit
  /-- Opens a file, and takes it in. -/
  | openFile (mode : Disk.Mode) (path : Bytes)
  | use (s : StreamId) (use : Stream.Use)
  /-- Changes the disk from outside. -/
  | change (changes : List Disk.Change)

/-- A use that is over; its answer is told by its events. -/
def quiet {α : Type} (o : Outcome World α) : Outcome World (List (Except Disk.Fault Stream)) :=
  ⟨[], o.state, o.events⟩

/-- A visit answers with what became of an opening: a fault, or the stream as it was opened. -/
def visit (w : World) : Visit → Outcome World (List (Except Disk.Fault Stream))
  | .openFile mode path =>
    match (Stream.Source.file mode path).take w.disk with
    | .error fault => ⟨[.error fault], w, []⟩
    | .ok (stream, disk) => ⟨[.ok stream], ({ w with disk := disk }.add stream).2, []⟩
  | .use s (.write data) => quiet (w.write s data)
  | .use s (.read size) => quiet (w.read s size)
  | .use s .atEnd => quiet (w.atEnd s)
  | .use s .close => quiet (w.close s)
  | .use s .release => quiet (w.release s)
  | .change changes => ⟨[], { w with disk := w.disk.changeAll changes }, []⟩

def visitAll (w : World) : List Visit → Outcome World (List (Except Disk.Fault Stream))
  | [] => ⟨[], w, []⟩
  | v :: rest =>
    let first := w.visit v
    let others := first.state.visitAll rest
    ⟨first.answer ++ others.answer, others.state, first.events ++ others.events⟩

variable {w : World} {s : StreamId} {stream : Stream}

/-- What every visit keeps, a run of visits keeps. -/
theorem visitAll_keeps {P : World → Prop} (keeps : ∀ w v, P w → P (w.visit v).state)
    (holds : P w) (vs : List Visit) : P (w.visitAll vs).state := by
  induction vs generalizing w with
  | nil => exact holds
  | cons v rest ih => exact ih (keeps w v holds)

/-- A stream that is there is used as it serves. -/
theorem visit_use (there : w.stream? s = some stream) (use : Stream.Use) :
    w.visit (.use s use) =
      let r := stream.serve w.disk use
      ⟨[], ⟨r.disk, w.streams.set s r.stream⟩, r.notes.map .note ++ [.call s r.answer]⟩ := by
  cases use <;> exact congrArg quiet (ask_known there _ _ _)

theorem visit_absent (absent : w.stream? s = none) (use : Stream.Use) :
    w.visit (.use s use) = ⟨[], w, []⟩ := by
  cases use <;> simp only [visit, quiet, write, read, atEnd, close, release, ask, absent]

theorem callsIn_visit_use (there : w.stream? s = some stream) (use : Stream.Use) :
    callsIn (w.visit (.use s use)).events = [(s, (stream.serve w.disk use).answer)] := by
  rw [visit_use there]
  simp

/-- A stream is changed by its own uses only. -/
theorem visit_stream (there : w.stream? s = some stream) (v : Visit) :
    (∃ use, v = .use s use ∧
      (w.visit v).state.stream? s = some (stream.serve w.disk use).stream) ∨
    (w.visit v).state.stream? s = some stream := by
  have known := (List.getElem?_eq_some_iff.mp there).1
  cases v with
  | openFile mode path =>
    refine .inr ?_
    simp only [visit]
    split
    · exact there
    · exact (List.getElem?_append_left known).trans there
  | use s' use =>
    by_cases same : s' = s
    · subst same
      refine .inl ⟨use, rfl, ?_⟩
      rw [visit_use there]
      exact List.getElem?_set_self known
    · refine .inr ?_
      cases here : w.stream? s' with
      | none =>
        rw [visit_absent here]
        exact there
      | some other =>
        rw [visit_use here]
        exact (List.getElem?_set_ne same).trans there
  | change changes => exact .inr there

/-- A use changes contents on the disk at most. -/
theorem visit_use_skeleton (w : World) (s : StreamId) (use : Stream.Use) :
    (w.visit (.use s use)).state.disk.skeleton = w.disk.skeleton := by
  cases there : w.stream? s with
  | none => rw [visit_absent there]
  | some stream =>
    rw [visit_use there]
    exact (stream.serve_answers w.disk use).skeleton

theorem visit_openFile_ok {mode : Disk.Mode} {path : Bytes} {h : Disk.Descriptor} {d : Disk}
    (opened : w.disk.openFile mode path = .ok (h, d)) :
    w.visit (.openFile mode path) =
      let file : Stream := .file ⟨path, some h⟩
      ⟨[.ok file], ⟨d, w.streams ++ [file]⟩, []⟩ := by
  simp only [visit, Stream.Source.take, Stream.File.openPath, opened]
  rfl

theorem visit_openFile_error {mode : Disk.Mode} {path : Bytes} {fault : Disk.Fault}
    (fails : w.disk.openFile mode path = .error fault) :
    w.visit (.openFile mode path) = ⟨[.error fault], w, []⟩ := by
  simp only [visit, Stream.Source.take, Stream.File.openPath, fails]

/-- A visit makes a call only if it uses a stream that is there. -/
theorem mem_callsIn_visit {v : Visit} {c : StreamId × Call}
    (made : c ∈ callsIn (w.visit v).events) :
    ∃ use stream, v = .use c.1 use ∧ w.stream? c.1 = some stream ∧
      c.2 = (stream.serve w.disk use).answer := by
  cases v with
  | openFile mode path =>
    simp only [visit] at made
    split at made <;> cases made
  | use s use =>
    cases there : w.stream? s with
    | none =>
      rw [visit_absent there] at made
      cases made
    | some stream =>
      rw [callsIn_visit_use there] at made
      cases List.mem_singleton.mp made
      exact ⟨use, stream, rfl, there, rfl⟩
  | change changes => cases made

/-- A use that leaves its stream and the disk as they are leaves the world as it is. -/
theorem visit_use_same (there : w.stream? s = some stream) {use : Stream.Use} {c : Call}
    {notes : List Note} (same : stream.serve w.disk use = ⟨c, stream, w.disk, notes⟩) :
    w.visit (.use s use) = ⟨[], w, notes.map .note ++ [.call s c]⟩ := by
  have back : w.streams.set s stream = w.streams := by
    obtain ⟨known, rfl⟩ := List.getElem?_eq_some_iff.mp there
    exact List.set_getElem_self known
  rw [visit_use there, same]
  simp only [back]

theorem visit_keepsFiles (w : World) (v : Visit) :
    w.disk.KeepsFiles (w.visit v).state.disk := by
  cases v with
  | openFile mode path =>
    cases opened : w.disk.openFile mode path with
    | error fault =>
      rw [visit_openFile_error opened]
      exact .refl _
    | ok found =>
      rw [visit_openFile_ok opened]
      exact (Disk.openFile_opens opened).2.keepsFiles
  | use s use => exact .of_skeleton (visit_use_skeleton w s use)
  | change changes => exact Disk.keepsFiles_changeAll _ _

/-! ## Leaving out -/

/-- Visits that leave the world as it is can be left out of a run: the openings, the calls of
the other visits and the world at the end are the same. -/
theorem visitAll_filter {P : World → Prop} {idle : Visit → Bool} {other : StreamId × Call → Bool}
    (keeps : ∀ w v, P w → P (w.visit v).state)
    (idles : ∀ w v, P w → idle v = true → (w.visit v).answer = [] ∧ (w.visit v).state = w)
    (tells : ∀ w v, P w → ∀ c ∈ callsIn (w.visit v).events, other c = !idle v)
    (holds : P w) (vs : List Visit) :
    let all := w.visitAll vs
    let fewer := w.visitAll (vs.filter fun v => !idle v)
    fewer.answer = all.answer ∧ fewer.state = all.state ∧
      callsIn fewer.events = (callsIn all.events).filter other := by
  induction vs generalizing w with
  | nil => exact ⟨rfl, rfl, rfl⟩
  | cons v rest ih =>
    obtain ⟨answer, state, calls⟩ := ih (keeps w v holds)
    cases left : idle v with
    | true =>
      obtain ⟨nothing, same⟩ := idles w v holds left
      -- left out or not, the rest of the run starts from the same world
      have untold : (callsIn (w.visit v).events).filter other = [] := by
        refine List.filter_eq_nil_iff.mpr fun c here => ?_
        rw [tells w v holds c here, left]
        decide
      rw [same] at answer state calls
      simp only [List.filter_cons, left, Bool.not_true, Bool.false_eq_true, if_false, visitAll, same,
        nothing, List.nil_append, callsIn_append, List.filter_append, untold]
      exact ⟨answer, state, calls⟩
    | false =>
      have told : (callsIn (w.visit v).events).filter other = callsIn (w.visit v).events := by
        refine List.filter_eq_self.mpr fun c here => ?_
        rw [tells w v holds c here, left]
        rfl
      simp only [List.filter_cons, left, Bool.not_false, if_true, visitAll, callsIn_append,
        List.filter_append, told]
      exact ⟨congrArg _ answer, state, congrArg _ calls⟩

end World

end StreamBroker
