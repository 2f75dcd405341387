import StreamBroker.Proofs.Descriptors

/-!
# Draining

Reading until the end. Main statements:

* **progress** — a stream that says that it is not at its end gives at least one byte to the
  next read (`atEnd_eq`, `read_eq`), unless its bytes are stranded: a stream in memory that was
  closed before it was read to its end (`Stream.Stranded`);
* **termination** — hence the loop that reads until the end ends, with all that was left
  (`drains`); over stranded bytes it never does (`Stranded.never`).

`draining_progresses` states them for streams in memory and over files, whatever was done with
them before.
-/

namespace StreamBroker

namespace Stream

variable {s : Stream} {d d' : Disk} {size : Nat}

/-- The bytes that a stream has not given yet. -/
def unread (s : Stream) (d : Disk) : Bytes :=
  match s with
  | .memory m => m.unread
  | .file ⟨_, some h⟩ =>
    match d.node? h.node with
    | some (.file content) => content.drop h.position
    | _ => []
  | _ => []

/-- A stream in memory, a closed stream over a file, or an open one over a file on the disk. -/
inductive Drainable (d : Disk) : Stream → Prop
  | memory (m : Memory) : Drainable d (.memory m)
  | closed (path : Bytes) : Drainable d (.file ⟨path, none⟩)
  | file {h : Disk.Descriptor} (path : Bytes) (there : d.IsFile h.node) :
      Drainable d (.file ⟨path, some h⟩)

/-- A stream in memory was closed with bytes left, which it does not give any more. -/
inductive Stranded : Stream → Prop
  | memory {m : Memory} (closed : m.closed = true) (left : m.unread ≠ []) : Stranded (.memory m)

theorem not_stranded_file (f : File) : ¬ (Stream.file f).Stranded := nofun

theorem Drainable.mono (drainable : s.Drainable d) (kept : d.KeepsFiles d') : s.Drainable d' := by
  cases drainable with
  | memory m => exact .memory m
  | closed path => exact .closed path
  | file path there => exact .file path (kept _ there)

theorem Drainable.serve (drainable : s.Drainable d) (use : Use) :
    (s.serve d use).stream.Drainable (s.serve d use).disk := by
  have kept : d.KeepsFiles (s.serve d use).disk := .of_skeleton (s.serve_answers d use).skeleton
  cases drainable with
  | memory m => cases use <;> exact .memory _
  | closed path =>
    rw [serve_closed rfl]
    exact .closed path
  | @file h path there =>
    obtain ⟨⟨path', descriptor⟩, stream, follows⟩ := serve_follows ⟨path, some h⟩ d use
    rw [stream]
    cases descriptor with
    | none => exact .closed path'
    | some h' =>
      obtain ⟨_, ⟨⟩, node, -⟩ := follows.descriptor h' rfl
      refine .file path' (kept _ ?_)
      rw [node]
      exact there

/-! ## Progress -/

/-- The end is where nothing is left to read, and asking for it changes nothing. -/
theorem Drainable.atEnd_eq (drainable : s.Drainable d) :
    s.atEnd d = ⟨decide (s.unread d = []), s, d, []⟩ := by
  cases drainable with
  | memory m =>
    have ends : m.atEnd = decide (m.unread = []) := by
      rw [Bool.eq_iff_iff, Memory.atEnd_iff_remaining, decide_eq_true_eq, Memory.unread_eq_nil]
    show (⟨m.atEnd, .memory m, d, []⟩ : Reaction Stream Bool) = _
    rw [ends]
    rfl
  | closed path => rfl
  | @file h path there =>
    obtain ⟨content, there⟩ := there
    simp only [Stream.atEnd, File.atEnd, Disk.atEnd_file there, unread, there, Reaction.embed,
      List.drop_eq_nil_iff]

/-- Unless they are stranded, a read gives the next of the bytes that are left. -/
theorem Drainable.read_eq (drainable : s.Drainable d) (usable : ¬ s.Stranded) (size : Nat) :
    let r := s.read d size
    r.answer = (s.unread d).take size ∧ r.stream.unread r.disk = (s.unread d).drop size ∧
      r.stream.Drainable r.disk ∧ ¬ r.stream.Stranded := by
  intro r
  have after : r.stream.Drainable r.disk := drainable.serve (.read size)
  cases drainable with
  | memory m =>
    cases shut : m.closed with
    | true =>
      -- closed, yet not stranded: all was read before
      have nothing : m.unread = [] := Classical.byContradiction fun left => usable (.memory shut left)
      have idle : r = ⟨[], .memory m, d, []⟩ := by
        show (⟨(m.read size).1, .memory (m.read size).2, d, []⟩ : Reaction Stream Bytes) = _
        rw [Memory.read_closed shut]
      rw [idle]
      show [] = m.unread.take size ∧ m.unread = m.unread.drop size ∧ _
      rw [nothing, List.take_nil, List.drop_nil]
      exact ⟨rfl, rfl, .memory m, usable⟩
    | false =>
      refine ⟨?_, Memory.unread_read shut size, after, ?_⟩
      · show (m.read size).1 = m.unread.take size
        rw [Memory.read_open shut]
      · have still : (m.read size).2.closed = false := by
          rw [Memory.read_open shut]
          exact shut
        rintro ⟨closed, -⟩
        cases still.symm.trans closed
  | closed path =>
    exact ⟨List.take_nil.symm, List.drop_nil.symm, after, not_stranded_file _⟩
  | @file h path there =>
    obtain ⟨content, there⟩ := there
    let left := content.drop h.position
    let moved : Disk.Descriptor := { h with position := h.position + (left.take size).length }
    have gave : r = ⟨left.take size, .file ⟨path, some moved⟩, d, []⟩ := by
      show (File.read ⟨path, some h⟩ d size).embed Stream.file = _
      simp only [File.read, Disk.read_file there]
      rfl
    have unread_eq (h' : Disk.Descriptor) (same : h'.node = h.node) :
        (Stream.file ⟨path, some h'⟩).unread d = content.drop h'.position := by
      simp only [unread, same, there]
    rw [gave] at after ⊢
    refine ⟨?_, ?_, after, not_stranded_file _⟩
    · rw [unread_eq h rfl]
    · rw [unread_eq moved rfl, unread_eq h rfl]
      exact Disk.drop_read content h.position size

/-- A stream that is not at its end gives at least one byte. -/
theorem Drainable.progress (drainable : s.Drainable d) (usable : ¬ s.Stranded)
    (goesOn : (s.atEnd d).answer = false) (asked : 0 < size) : (s.read d size).answer ≠ [] := by
  rw [drainable.atEnd_eq] at goesOn
  have left : s.unread d ≠ [] := of_decide_eq_false goesOn
  rw [(drainable.read_eq usable size).1]
  intro nothing
  rcases List.take_eq_nil_iff.mp nothing with none | none
  · exact Nat.ne_of_gt asked none
  · exact left none

/-! ## The loop -/

/-- The loop that reads until the end: in turn `n` it asks for `sizes n` bytes, and it ends with
the pieces that it got. -/
inductive Drains (sizes : Nat → Nat) : Nat → Stream → Disk → List Bytes → Stream → Disk → Prop
  | ended {n : Nat} {s : Stream} {d : Disk} (ends : (s.atEnd d).answer = true) :
      Drains sizes n s d [] (s.atEnd d).stream (s.atEnd d).disk
  | turn {n : Nat} {s last : Stream} {d d' : Disk} {pieces : List Bytes}
      (goesOn : (s.atEnd d).answer = false)
      (later :
        let r := (s.atEnd d).stream.read (s.atEnd d).disk (sizes n)
        Drains sizes (n + 1) r.stream r.disk pieces last d') :
      Drains sizes n s d (((s.atEnd d).stream.read (s.atEnd d).disk (sizes n)).answer :: pieces)
        last d'

/-- The loop ends, with all that was left: each turn takes something away from it. -/
theorem Drainable.drains (drainable : s.Drainable d) (usable : ¬ s.Stranded) {sizes : Nat → Nat}
    (asked : ∀ n, 0 < sizes n) (n : Nat) :
    ∃ pieces last d', Drains sizes n s d pieces last d' ∧ pieces.flatten = s.unread d := by
  -- on what is left, which every turn makes shorter, whatever it asks for
  induction count : (s.unread d).length using Nat.strongRecOn generalizing s d n with
  | ind total ih =>
    have asks := drainable.atEnd_eq
    cases ends : (s.atEnd d).answer with
    | true =>
      refine ⟨[], _, _, .ended ends, ?_⟩
      rw [asks] at ends
      exact (of_decide_eq_true ends).symm
    | false =>
      obtain ⟨got, rest, after, still⟩ := drainable.read_eq usable (sizes n)
      have left : s.unread d ≠ [] := by
        rw [asks] at ends
        exact of_decide_eq_false ends
      have fewer : ((s.read d (sizes n)).stream.unread (s.read d (sizes n)).disk).length < total := by
        have some := List.length_pos_iff.mpr left
        have one := asked n
        rw [rest, List.length_drop]
        omega
      obtain ⟨pieces, last, d', later, whole⟩ := ih _ fewer after still (n + 1) rfl
      have turn : Drains sizes n s d (_ :: pieces) last d' := .turn ends (by rw [asks]; exact later)
      refine ⟨_, last, d', turn, ?_⟩
      rw [asks, List.flatten_cons, whole, rest, got, List.take_append_drop]

theorem Stranded.atEnd_eq (stranded : s.Stranded) (d : Disk) : s.atEnd d = ⟨false, s, d, []⟩ := by
  cases stranded with
  | @memory m closed left =>
    have goesOn : decide ((Stream.memory m).unread d = []) = false := decide_eq_false left
    rw [(Drainable.memory m).atEnd_eq, goesOn]

theorem Stranded.read_eq (stranded : s.Stranded) (d : Disk) (size : Nat) :
    s.read d size = ⟨[], s, d, []⟩ := by
  cases stranded with
  | @memory m closed left =>
    show (⟨(m.read size).1, .memory (m.read size).2, d, []⟩ : Reaction Stream Bytes) = _
    rw [Memory.read_closed closed]

/-- Over stranded bytes the loop does not end. -/
theorem Stranded.never (stranded : s.Stranded) {sizes : Nat → Nat} {n : Nat} {d d' : Disk}
    {pieces : List Bytes} {last : Stream} : ¬ Drains sizes n s d pieces last d' := by
  intro drains
  induction drains with
  | ended ends =>
    rw [stranded.atEnd_eq] at ends
    cases ends
  | turn goesOn later ih =>
    apply ih
    rw [stranded.atEnd_eq, stranded.read_eq]
    exact stranded

end Stream

/-! ## Every state -/

namespace World

variable {w : World} {s : StreamId} {stream : Stream}

/-- Whatever is done, what can be read to its end stays such. -/
theorem visit_drainable (w : World) (v : Visit)
    (holds : ∃ now, w.stream? s = some now ∧ now.Drainable w.disk) :
    ∃ now, (w.visit v).state.stream? s = some now ∧ now.Drainable (w.visit v).state.disk := by
  obtain ⟨now, there, drainable⟩ := holds
  rcases visit_stream there v with ⟨use, rfl, served⟩ | still
  · refine ⟨_, served, ?_⟩
    have disk : (w.visit (.use s use)).state.disk = (now.serve w.disk use).disk := by
      rw [visit_use there]
    rw [disk]
    exact drainable.serve use
  · exact ⟨now, still, drainable.mono (visit_keepsFiles w v)⟩

/-- **Draining makes progress.** Take a stream in memory, or one over a file in any mode, and
whatever is done with it, with other streams and with the disk. Unless it was closed in memory
before it was read to its end, it gives at least one byte to a read as long as it is not at its
end, and the loop that reads until the end ends, however many bytes each turn asks for, and
gives all that was left. A stream over a file is at its end once it is closed. A stream in
memory that was closed with bytes left is never at its end and never gives a byte, so there
the loop does not end. -/
theorem draining_progresses (there : w.stream? s = some stream) (drainable : stream.Drainable w.disk)
    (vs : List Visit) :
    let d := (w.visitAll vs).state.disk
    ∃ now, (w.visitAll vs).state.stream? s = some now ∧
      (¬ now.Stranded →
        ((now.atEnd d).answer = false → ∀ size, 0 < size → (now.read d size).answer ≠ []) ∧
        ∀ sizes : Nat → Nat, (∀ n, 0 < sizes n) →
          ∃ pieces last d', Stream.Drains sizes 0 now d pieces last d' ∧
            pieces.flatten = now.unread d) ∧
      (∀ f : Stream.File, now = .file f → f.descriptor = none → (now.atEnd d).answer = true) ∧
      (now.Stranded →
        (now.atEnd d).answer = false ∧ (∀ size, (now.read d size).answer = []) ∧
          ∀ sizes pieces last d', ¬ Stream.Drains sizes 0 now d pieces last d') := by
  intro d
  obtain ⟨now, there', drainable'⟩ :=
    visitAll_keeps (P := fun w => ∃ now, w.stream? s = some now ∧ now.Drainable w.disk)
      visit_drainable ⟨stream, there, drainable⟩ vs
  refine ⟨now, there', fun usable => ⟨?_, ?_⟩, ?_, fun stranded => ⟨?_, ?_, ?_⟩⟩
  · intro goesOn size asked
    exact drainable'.progress usable goesOn asked
  · intro sizes asked
    exact drainable'.drains usable asked 0
  · rintro ⟨path, _⟩ rfl rfl
    rfl
  · rw [stranded.atEnd_eq]
  · intro size
    rw [stranded.read_eq]
  · intro sizes pieces last d'
    exact stranded.never

/-- A file with five bytes that is open for reading. -/
def shelved : World :=
  ((World.ofDisk (Disk.empty.changeAll [.file [0x61] [1, 2, 3, 4, 5]])).visitAll
    [.openFile .read [0x61]]).state

theorem draining_progresses_shortened :
    let o := shelved.visitAll [.use 0 (.read 2), .change [.file [0x61] [7, 8, 9]]]
    let now : Stream := .file ⟨[0x61], some ⟨2, .read, 2⟩⟩
    o.state.stream? 0 = some now ∧ (now.read o.state.disk 4).answer ≠ [] ∧
      ∃ pieces last d', Stream.Drains (fun _ => 4) 0 now o.state.disk pieces last d' ∧
        pieces.flatten = [9] := by
  intro o now
  have there : shelved.stream? 0 = some (.file ⟨[0x61], some ⟨2, .read, 0⟩⟩) := by decide +kernel
  have drainable : (Stream.file ⟨[0x61], some ⟨2, .read, 0⟩⟩).Drainable shelved.disk :=
    .file [0x61] ⟨[1, 2, 3, 4, 5], by decide +kernel⟩
  obtain ⟨now', there', usable, -⟩ := draining_progresses there drainable
    [.use 0 (.read 2), .change [.file [0x61] [7, 8, 9]]]
  have same : o.state.stream? 0 = some now := by decide +kernel
  cases same.symm.trans there'
  obtain ⟨progress, ends⟩ := usable (Stream.not_stranded_file _)
  obtain ⟨pieces, last, d', drains, whole⟩ := ends (fun _ => 4) (fun _ => by decide)
  have left : now.unread o.state.disk = [9] := by decide +kernel
  exact ⟨same, progress (by decide +kernel) 4 (by decide), pieces, last, d', drains,
    whole.trans left⟩

/-- A stream in memory that was closed with bytes left is not at its end, and gives nothing. -/
theorem stranded_without_end :
    ¬ ∀ (m : Stream.Memory) (uses : List Stream.Use), m.Made →
      let s := Stream.memory (m.serveAll uses).2
      (s.atEnd .empty).answer = false → (s.read .empty 1).answer ≠ [] := by
  intro progress
  exact progress (.ofBytes [0x61]) [.close] (.ofBytes [0x61]) rfl rfl

end World

end StreamBroker
