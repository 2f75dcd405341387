import StreamBroker.Proofs.Uses

/-!
# What streams over files answer

What becomes of each use, by what the descriptor is open on. Main statements:

* **files** — a write at the end appends, a read gives the next bytes and the end is where the
  content ends (`Disk.write_atEnd`, `Disk.read_file`, `Disk.atEnd_file`);
* **in vain** — a closed stream answers every use as if nothing could be had
  (`Stream.serve_closed`), as does every stream that the disk declines a request of
  (`Stream.serve_declined`);
* **descriptors** — a use moves a descriptor or gives it up: its file and its mode stay
  (`Stream.serve_open`, `Stream.serve_follows`).
-/

namespace StreamBroker

namespace Disk

variable {d d' : Disk} {h : Descriptor} {content data : Bytes}

theorem write_reading (reads : h.mode = .read) (d : Disk) (data : Bytes) :
    d.write h data = .error .badDescriptor := if_pos reads

theorem write_nothing (there : d.node? h.node = some (.file content)) (writes : h.mode ≠ .read) :
    d.write h [] = .ok (0, h, d) := by
  unfold write
  rw [if_neg writes, there]
  rfl

/-- A write appends if the descriptor does, or if it is at the end. -/
theorem write_atEnd (there : d.node? h.node = some (.file content)) (writes : h.mode ≠ .read)
    (atEnd : h.mode = .append ∨ h.position = content.length) (something : data ≠ []) :
    d.write h data =
      .ok (data.length, { h with position := content.length + data.length },
        d.put h.node (.file (content ++ data))) := by
  have position : (if h.mode = .append then content.length else h.position) = content.length := by
    split
    · rfl
    · rename_i positioned
      exact atEnd.resolve_left positioned
  unfold write
  rw [if_neg writes, there]
  simp only [if_neg something, position, splice_length]

theorem read_file (there : d.node? h.node = some (.file content)) (size : Nat) :
    d.read h size =
      let got := (content.drop h.position).take size
      .ok (got, { h with position := h.position + got.length }, d) := by
  unfold read
  rw [there]

/-- The bytes after a read are those that it left. -/
theorem drop_read (content : Bytes) (position size : Nat) :
    content.drop (position + ((content.drop position).take size).length) =
      (content.drop position).drop size := by
  rw [← List.drop_drop, List.length_take, ← List.drop_eq_drop_min]

theorem atEnd_file (there : d.node? h.node = some (.file content)) :
    d.atEnd h = .ok (decide (content.length ≤ h.position)) := by
  unfold atEnd
  rw [there]

theorem close_file (there : d.node? h.node = some (.file content)) : d.close h = d := by
  unfold close
  rw [there]

/-- A write moves a descriptor along its file. -/
theorem write_moved {n : Nat} {moved : Descriptor} (wrote : d.write h data = .ok (n, moved, d')) :
    moved.node = h.node ∧ moved.mode = h.mode := by
  unfold write at wrote
  repeat' split at wrote
  all_goals cases wrote
  all_goals exact ⟨rfl, rfl⟩

theorem read_moved {size : Nat} {got : Bytes} {moved : Descriptor}
    (gave : d.read h size = .ok (got, moved, d')) :
    moved.node = h.node ∧ moved.mode = h.mode := by
  unfold read at gave
  split at gave <;> cases gave
  all_goals exact ⟨rfl, rfl⟩

end Disk

namespace Stream

variable {f f' f'' : File} {d d' : Disk} {h moved : Disk.Descriptor} {path : Bytes}

/-- What a stream answers to a use for which nothing can be had. -/
def Use.vain : Use → Call
  | .write data => .write data 0
  | .read size => .read size []
  | .atEnd => .atEnd true
  | .close => .close
  | .release => .release

/-! ## Requests -/

theorem serve_closed (closed : f.descriptor = none) (d : Disk) (use : Use) :
    (Stream.file f).serve d use = ⟨use.vain, .file f, d, []⟩ := by
  obtain ⟨path, descriptor⟩ := f
  cases closed
  cases use <;> rfl

theorem serve_write {data : Bytes} {n : Nat} (wrote : d.write h data = .ok (n, moved, d')) :
    (Stream.file ⟨path, some h⟩).serve d (.write data) =
      ⟨.write data n, .file ⟨path, some moved⟩, d', []⟩ := by
  simp only [serve, Stream.write, File.write, wrote]
  rfl

theorem serve_read {size : Nat} {got : Bytes} (gave : d.read h size = .ok (got, moved, d')) :
    (Stream.file ⟨path, some h⟩).serve d (.read size) =
      ⟨.read size got, .file ⟨path, some moved⟩, d', []⟩ := by
  simp only [serve, Stream.read, File.read, gave]
  rfl

theorem serve_atEnd {answer : Bool} (ends : d.atEnd h = .ok answer) :
    (Stream.file ⟨path, some h⟩).serve d .atEnd =
      ⟨.atEnd answer, .file ⟨path, some h⟩, d, []⟩ := by
  simp only [serve, Stream.atEnd, File.atEnd, ends]
  rfl

/-- The disk declines what a use asks of it. -/
inductive File.Declines (f : File) (d : Disk) : Use → FileRequest → Disk.Fault → Prop
  | write {h : Disk.Descriptor} {data : Bytes} {fault : Disk.Fault}
      (opened : f.descriptor = some h) (fails : d.write h data = .error fault) :
      Declines f d (.write data) .write fault
  | read {h : Disk.Descriptor} {size : Nat} {fault : Disk.Fault}
      (opened : f.descriptor = some h) (fails : d.read h size = .error fault) :
      Declines f d (.read size) .read fault
  | atEnd {h : Disk.Descriptor} {fault : Disk.Fault}
      (opened : f.descriptor = some h) (fails : d.atEnd h = .error fault) :
      Declines f d .atEnd .atEnd fault

/-- A declined request is noted once, and leaves all as it was. -/
theorem serve_declined {use : Use} {request : FileRequest} {fault : Disk.Fault}
    (declines : f.Declines d use request fault) :
    (Stream.file f).serve d use =
      ⟨use.vain, .file f, d, [.fileFailed request f.path fault]⟩ := by
  cases declines with
  | write opened fails =>
    simp only [serve, Stream.write, File.write, opened, fails]
    rfl
  | read opened fails =>
    simp only [serve, Stream.read, File.read, opened, fails]
    rfl
  | atEnd opened fails =>
    simp only [serve, Stream.atEnd, File.atEnd, opened, fails]
    rfl

/-! ## Descriptors -/

/-- A stream over the same file by the same path, in the same mode unless it is closed. -/
structure File.Follows (f f' : File) : Prop where
  path : f'.path = f.path
  descriptor : ∀ h', f'.descriptor = some h' →
    ∃ h, f.descriptor = some h ∧ h'.node = h.node ∧ h'.mode = h.mode

theorem File.Follows.refl (f : File) : f.Follows f := ⟨rfl, fun h' here => ⟨h', here, rfl, rfl⟩⟩

theorem File.Follows.of_moved {f : File} {h moved : Disk.Descriptor} (opened : f.descriptor = some h)
    (same : moved.node = h.node ∧ moved.mode = h.mode) :
    f.Follows { f with descriptor := some moved } := by
  refine ⟨rfl, ?_⟩
  rintro _ ⟨⟩
  exact ⟨h, opened, same⟩

/-- Until it is closed, a stream stays open on its file, in its mode. -/
theorem serve_open (path : Bytes) (h : Disk.Descriptor) (d : Disk) {use : Use}
    (unclosed : use ≠ .close) :
    ∃ moved, ((Stream.file ⟨path, some h⟩).serve d use).stream = .file ⟨path, some moved⟩ ∧
      moved.node = h.node ∧ moved.mode = h.mode := by
  cases use with
  | write data =>
    cases wrote : d.write h data with
    | error fault => exact ⟨h, by rw [serve_declined (.write rfl wrote)], rfl, rfl⟩
    | ok r => exact ⟨_, by rw [serve_write wrote], Disk.write_moved wrote⟩
  | read size =>
    cases gave : d.read h size with
    | error fault => exact ⟨h, by rw [serve_declined (.read rfl gave)], rfl, rfl⟩
    | ok r => exact ⟨_, by rw [serve_read gave], Disk.read_moved gave⟩
  | atEnd =>
    cases ends : d.atEnd h with
    | error fault => exact ⟨h, by rw [serve_declined (.atEnd rfl ends)], rfl, rfl⟩
    | ok answer => exact ⟨h, by rw [serve_atEnd ends], rfl, rfl⟩
  | close => exact absurd rfl unclosed
  | release => exact ⟨h, rfl, rfl, rfl⟩

theorem serve_follows (f : File) (d : Disk) (use : Use) :
    ∃ f', ((Stream.file f).serve d use).stream = .file f' ∧ f.Follows f' := by
  obtain ⟨path, descriptor⟩ := f
  cases descriptor with
  | none => exact ⟨_, by rw [serve_closed rfl], .refl _⟩
  | some h =>
    by_cases closes : use = .close
    · subst closes
      exact ⟨⟨path, none⟩, rfl, rfl, nofun⟩
    · obtain ⟨moved, stream, same⟩ := serve_open path h d closes
      exact ⟨_, stream, .of_moved rfl same⟩

end Stream

end StreamBroker
