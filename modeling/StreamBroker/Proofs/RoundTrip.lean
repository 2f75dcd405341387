import StreamBroker.Proofs.Descriptors

/-!
# What was written is what is read

A file is made by one stream and read by the next. Main statements:

* **writing** — the stream that makes a file stands at the end of all that it wrote
  (`Stream.writer`): a write lands in full, and there is nothing to read (`serve_writer`,
  `serveAll_writer`);
* **reading** — a stream that is open for reading gives the next bytes and leaves the disk alone
  (`serve_reader`), so it is at its end once it gave them all (`serveAll_reader`).

`file_round_trip` puts one after the other.
-/

namespace StreamBroker

theorem Disk.put_same {d : Disk} {i : Disk.NodeId} {node : Disk.Node}
    (there : d.node? i = some node) : d.put i node = d := by
  obtain ⟨known, rfl⟩ := List.getElem?_eq_some_iff.mp there
  exact congrArg Disk.mk (List.set_getElem_self known)

theorem Disk.put_put (d : Disk) (i : Disk.NodeId) (node last : Disk.Node) :
    (d.put i node).put i last = d.put i last :=
  congrArg Disk.mk (List.set_set ..)

/-- A file that was opened to be made is empty. -/
theorem Disk.Opens.created {d d' : Disk} {path : Bytes} {i : Disk.NodeId}
    (opens : d.Opens .create path i d') (regular : d'.IsFile i) :
    d'.node? i = some (.file []) := by
  obtain ⟨content, regular⟩ := regular
  cases opens with
  | made leads there absent =>
    have apart := Nat.ne_of_gt (List.getElem?_eq_some_iff.mp there).1
    rw [Disk.node?_made there, if_neg apart, if_pos rfl]
  | file leads there =>
    rw [if_pos rfl]
    exact Disk.node?_put_self (List.getElem?_eq_some_iff.mp there).1
  | fifo leads there =>
    rw [Disk.node?_put_self (List.getElem?_eq_some_iff.mp there).1] at regular
    cases regular
  | folder leads there reads => cases reads

namespace Stream

open Memory (bytesOffered)

variable {d d₁ : Disk} {i : Disk.NodeId} {path content : Bytes} {use : Use} {uses : List Use}

/-! ## Writing -/

/-- A stream that has written all that its file holds. -/
def writer (path : Bytes) (i : Disk.NodeId) (content : Bytes) : Stream :=
  .file ⟨path, some ⟨i, .create, content.length⟩⟩

/-- What a stream answers that takes all that it is offered and has nothing to give. -/
def Use.landed : Use → Call
  | .write data => .write data data.length
  | .read size => .read size []
  | .atEnd => .atEnd true
  | .close => .close
  | .release => .release

theorem serve_writer (there : d.node? i = some (.file content)) (unclosed : use ≠ .close) :
    (writer path i content).serve d use =
      ⟨use.landed, writer path i (content ++ use.offered),
        d.put i (.file (content ++ use.offered)), []⟩ := by
  let h : Disk.Descriptor := ⟨i, .create, content.length⟩
  have writes : h.mode ≠ .read := nofun
  -- A use that offers nothing puts the content there that is there.
  have idle (c : Call) : (⟨c, writer path i content, d, []⟩ : Reaction Stream Call) =
      ⟨c, writer path i (content ++ []), d.put i (.file (content ++ [])), []⟩ := by
    rw [List.append_nil, Disk.put_same there]
  cases use with
  | write data =>
    by_cases nothing : data = []
    · subst nothing
      exact (serve_write (h := h) (Disk.write_nothing there writes)).trans (idle _)
    · have end_eq : content.length + data.length = (content ++ data).length :=
        List.length_append.symm
      have wrote := Disk.write_atEnd (h := h) there writes (.inr rfl) nothing
      rw [end_eq] at wrote
      exact serve_write wrote
  | read size =>
    have gave := Disk.read_file (h := h) there size
    rw [List.drop_length, List.take_nil] at gave
    exact (serve_read gave).trans (idle _)
  | atEnd =>
    have ends := Disk.atEnd_file (h := h) there
    rw [decide_eq_true (Nat.le_refl content.length)] at ends
    exact (serve_atEnd ends).trans (idle _)
  | close => exact absurd rfl unclosed
  | release => exact idle _

theorem serveAll_writer (there : d.node? i = some (.file content)) (unclosed : .close ∉ uses) :
    (writer path i content).serveAll d uses =
      ⟨uses.map Use.landed, writer path i (content ++ bytesOffered uses),
        d.put i (.file (content ++ bytesOffered uses)), []⟩ := by
  induction uses generalizing d content with
  | nil =>
    rw [bytesOffered, List.flatMap_nil, List.append_nil, Disk.put_same there]
    rfl
  | cons use rest ih =>
    obtain ⟨first, others⟩ := not_or.mp fun here => unclosed (List.mem_cons.mpr here)
    have known := (List.getElem?_eq_some_iff.mp there).1
    simp only [serveAll, serve_writer there (Ne.symm first), ih (Disk.node?_put_self known) others,
      Disk.put_put, List.append_assoc]
    rfl

/-! ## Reading -/

/-- A stream that is open for reading. -/
def reader (path : Bytes) (i : Disk.NodeId) (position : Nat) : Stream :=
  .file ⟨path, some ⟨i, .read, position⟩⟩

/-- The number of bytes that a use asks for. -/
def Use.asked : Use → Nat
  | .read size => size
  | _ => 0

def bytesAsked : List Use → Nat
  | [] => 0
  | use :: rest => use.asked + bytesAsked rest

/-- What a stream answers that gives the next of the bytes that are left. -/
def Use.given (left : Bytes) : Use → Call
  | .write data => .write data 0
  | .read size => .read size (left.take size)
  | .atEnd => .atEnd (decide (left = []))
  | .close => .close
  | .release => .release

theorem Use.got_given (left : Bytes) (use : Use) : (use.given left).got = left.take use.asked := by
  cases use <;> rfl

/-- Whatever it is asked, a stream that is open for reading leaves the disk alone. -/
theorem serve_reader (path : Bytes) (there : d.node? i = some (.file content)) (position : Nat)
    (unclosed : use ≠ .close) :
    let left := content.drop position
    let r := (reader path i position).serve d use
    r.answer = use.given left ∧
      r.stream = reader path i (position + (left.take use.asked).length) ∧ r.disk = d := by
  cases use with
  | write data =>
    have fails := Disk.write_reading (h := ⟨i, .read, position⟩) rfl d data
    have declines : File.Declines ⟨path, some ⟨i, .read, position⟩⟩ d (.write data) .write _ :=
      .write rfl fails
    intro left r
    have idle : r = _ := serve_declined declines
    rw [idle]
    exact ⟨rfl, rfl, rfl⟩
  | read size =>
    intro left r
    have moved : r = _ := serve_read (Disk.read_file (h := ⟨i, .read, position⟩) there size)
    rw [moved]
    exact ⟨rfl, rfl, rfl⟩
  | atEnd =>
    intro left r
    have ends : r = _ := serve_atEnd (Disk.atEnd_file (h := ⟨i, .read, position⟩) there)
    rw [ends]
    refine ⟨congrArg Call.atEnd (decide_eq_decide.mpr ?_), rfl, rfl⟩
    exact List.drop_eq_nil_iff.symm
  | close => exact absurd rfl unclosed
  | release => exact ⟨rfl, rfl, rfl⟩

theorem serveAll_reader (there : d.node? i = some (.file content)) (position : Nat)
    (unclosed : .close ∉ uses) :
    let got := (content.drop position).take (bytesAsked uses)
    let r := (reader path i position).serveAll d uses
    bytesRead r.answer = got ∧ r.stream = reader path i (position + got.length) ∧ r.disk = d := by
  induction uses generalizing position with
  | nil => exact ⟨rfl, rfl, rfl⟩
  | cons use rest ih =>
    obtain ⟨first, others⟩ := not_or.mp fun here => unclosed (List.mem_cons.mpr here)
    let left := content.drop position
    let next := left.take use.asked
    obtain ⟨answer, stream, disk⟩ := serve_reader path there position (Ne.symm first)
    obtain ⟨answers, last, still⟩ := ih (position + next.length) others
    rw [Disk.drop_read] at answers last
    have whole : left.take (bytesAsked (use :: rest)) =
        next ++ (left.drop use.asked).take (bytesAsked rest) := List.take_add
    simp only [serveAll, stream, disk]
    refine ⟨?_, ?_, still⟩
    · show Call.got _ ++ bytesRead _ = _
      rw [answer, Use.got_given, answers]
      exact whole.symm
    · rw [whole, last, List.length_append, Nat.add_assoc]

/-- From the beginning on, a stream that is open for reading gives the file. -/
theorem reads_back (there : d.node? i = some (.file content)) (unclosed : .close ∉ uses) :
    let r := (reader path i 0).serveAll d uses
    bytesRead r.answer = content.take (bytesAsked uses) ∧
      (∀ size, (r.stream.read r.disk size).answer =
        (content.drop (bytesAsked uses)).take size) ∧
      ((r.stream.atEnd r.disk).answer = true ↔ bytesRead r.answer = content) ∧ r.disk = d := by
  intro r
  let got := content.take (bytesAsked uses)
  obtain ⟨answers, stream, disk⟩ :
      bytesRead r.answer = got ∧ r.stream = reader path i (0 + got.length) ∧ r.disk = d :=
    serveAll_reader there 0 unclosed
  rw [Nat.zero_add] at stream
  refine ⟨answers, fun size => ?_, ?_, disk⟩
  · have left : content.drop got.length = content.drop (bytesAsked uses) := by
      rw [List.length_take, ← List.drop_eq_drop_min]
    have unclosed : Memory.Use.read size ≠ .close := nofun
    rw [stream, disk, ← left]
    exact congrArg Call.got (serve_reader path there got.length unclosed).1
  · have unclosed : Memory.Use.atEnd ≠ .close := nofun
    have ends : ((reader path i got.length).atEnd d).answer = decide (content.drop got.length = []) :=
      Call.atEnd.inj (serve_reader path there got.length unclosed).1
    rw [stream, disk, ends, answers, decide_eq_true_eq, List.drop_eq_nil_iff]
    constructor
    · intro all
      exact List.take_of_length_le (Nat.le_trans all (List.length_take_le _ _))
    · intro whole
      exact Nat.le_of_eq (congrArg List.length whole).symm

/-! ## The round trip -/

/-- **A file gives back what was written to it.** A path is opened to make a file, over whatever
it led to before. Until the stream is closed each write lands in full, each read gives nothing,
and the stream is at its end. Then the file holds all that was written, and nothing else; it can
be opened for reading by the same path. Asked for some bytes, however the sizes and the chunks
are cut, the new stream gives that many from the beginning on, so the next read goes on there;
it is at its end exactly when it gave them all, and gives nothing from then on. -/
theorem file_round_trip {f : File} (opened : File.openPath d .create path = .ok (f, d₁))
    (regular : ∃ h, f.descriptor = some h ∧ d₁.IsFile h.node) (unclosed : .close ∉ uses) :
    let content := bytesOffered uses
    let written := (Stream.file f).serveAll d₁ uses
    let shut := (written.stream.close written.disk).disk
    written.answer = uses.map Use.landed ∧ shut.contents path = .ok content ∧
      ∃ g, File.openPath shut .read path = .ok (g, shut) ∧
        ∀ later, .close ∉ later →
          let r := (Stream.file g).serveAll shut later
          bytesRead r.answer = content.take (bytesAsked later) ∧
            (∀ size, (r.stream.read r.disk size).answer =
              (content.drop (bytesAsked later)).take size) ∧
            ((r.stream.atEnd r.disk).answer = true ↔ bytesRead r.answer = content) ∧
            r.disk = shut := by
  intro content written shut
  obtain ⟨h, rfl, openedFile⟩ := File.openPath_spec opened
  obtain ⟨_, ⟨⟩, regular⟩ := regular
  obtain ⟨start, opens⟩ := Disk.openFile_opens openedFile
  have there : d₁.node? h.node = some (.file []) := opens.created regular
  have known := (List.getElem?_eq_some_iff.mp there).1
  have lease : written =
      ⟨uses.map Use.landed, writer path h.node content, d₁.put h.node (.file content), []⟩ := by
    show (Stream.file ⟨path, some h⟩).serveAll d₁ uses = _
    rw [start]
    exact serveAll_writer there unclosed
  have there' : (d₁.put h.node (.file content)).node? h.node = some (.file content) :=
    Disk.node?_put_self known
  have shut_eq : shut = d₁.put h.node (.file content) := by
    show (written.stream.close written.disk).disk = _
    rw [lease]
    exact Disk.close_file (h := ⟨h.node, .create, content.length⟩) there'
  -- The path still leads to it.
  have leads : shut.resolve false path = .ok (.node h.node) := by
    have grows : d₁.Grows shut := by
      rw [shut_eq]
      exact .of_skeleton (Disk.skeleton_put there rfl)
    exact grows.resolve opens.resolve (.node h.node)
  rw [← shut_eq] at there'
  have reopened : File.openPath shut .read path = .ok (⟨path, some ⟨h.node, .read, 0⟩⟩, shut) := by
    rw [File.openPath, Disk.openFile_read leads there']
  refine ⟨by rw [lease], Disk.contents_eq leads there', _, reopened, fun later unclosed => ?_⟩
  exact reads_back there' unclosed

/-- A disk with a file that holds two bytes. -/
def lettered : Disk := Disk.empty.changeAll [.file [0x61] [0x6f, 0x6c]]

/-- Two chunks and an empty one, with a read and an end query between them. -/
def chunked : List Use := [.write [1, 2], .read 4, .write [], .atEnd, .write [3]]

theorem file_round_trip_replacing :
    let f : File := ⟨[0x61], some ⟨2, .create, 0⟩⟩
    let d₁ := lettered.put 2 (.file [])
    let written := (Stream.file f).serveAll d₁ chunked
    let shut := (written.stream.close written.disk).disk
    File.openPath lettered .create [0x61] = .ok (f, d₁) ∧ d₁.IsFile 2 ∧ .close ∉ chunked ∧
      written.answer = [.write [1, 2] 2, .read 4 [], .write [] 0, .atEnd true, .write [3] 1] ∧
      shut.contents [0x61] = .ok [1, 2, 3] ∧
      ∃ g, File.openPath shut .read [0x61] = .ok (g, shut) ∧
        let r := (Stream.file g).serveAll shut [.read 2, .write [9]]
        bytesRead r.answer = [1, 2] ∧ (r.stream.read r.disk 2).answer = [3] ∧
          (r.stream.atEnd r.disk).answer ≠ true := by
  intro f d₁ written shut
  have opened : File.openPath lettered .create [0x61] = .ok (f, d₁) := rfl
  have regular : d₁.IsFile 2 := ⟨[], rfl⟩
  have unclosed : .close ∉ chunked := by decide
  obtain ⟨answers, contents, g, reopened, reads⟩ :=
    file_round_trip opened ⟨_, rfl, regular⟩ unclosed
  obtain ⟨got, next, ends, -⟩ := reads [.read 2, .write [9]] (by decide)
  refine ⟨opened, regular, unclosed, answers, contents, g, reopened, got, next 2, ?_⟩
  rw [Ne, ends, got]
  decide

end Stream

end StreamBroker
