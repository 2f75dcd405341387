import StreamBroker.Disk.Descriptor
import StreamBroker.Note

/-!
# Streams over files

What one call of a stream comes to, and an open file as a stream. A count is the only
way to fail: a request that the disk declines answers as if nothing could be had, zero
bytes or the end, leaves everything as it was and is noted in the log.

* **end** — the end is reached once the position is at the size of the file, so
  right after its last byte was read;
* **closing** — the descriptor is given up; a closed stream answers zero bytes and
  the end, touches no file and notes nothing.
-/

namespace StreamBroker.Stream

/-- The result of one call of a stream of type `σ`: the answer, the stream and the disk
afterwards, and what there is to log, whoever listens. -/
structure Reaction (σ α : Type) where
  answer : α
  stream : σ
  disk : Disk
  notes : List Note

/-- The same reaction of a stream that contains this one. -/
def Reaction.embed {σ τ α : Type} (r : Reaction σ α) (f : σ → τ) : Reaction τ α :=
  ⟨r.answer, f r.stream, r.disk, r.notes⟩

/-! ## Files -/

structure File where
  path : Bytes
  descriptor : Option Disk.Descriptor
deriving DecidableEq

namespace File

def openPath (d : Disk) (mode : Disk.Mode) (path : Bytes) : Except Disk.Fault (File × Disk) :=
  match d.openFile mode path with
  | .error fault => .error fault
  | .ok (h, opened) => .ok (⟨path, some h⟩, opened)

/-- A file is opened with a descriptor of its own. -/
theorem openPath_spec {f : File} {d d' : Disk} {mode : Disk.Mode} {path : Bytes}
    (opened : openPath d mode path = .ok (f, d')) :
    ∃ h, f = ⟨path, some h⟩ ∧ d.openFile mode path = .ok (h, d') := by
  unfold openPath at opened
  split at opened
  · cases opened
  · rename_i h left openedFile
    cases opened
    exact ⟨h, rfl, openedFile⟩

def closed (f : File) : Bool := f.descriptor.isNone

/-- Writes at the position of the descriptor. -/
def write (f : File) (d : Disk) (data : Bytes) : Reaction File Nat :=
  match f.descriptor with
  | none => ⟨0, f, d, []⟩
  | some h =>
    match d.write h data with
    | .ok (n, moved, written) => ⟨n, { f with descriptor := some moved }, written, []⟩
    | .error fault => ⟨0, f, d, [.fileFailed .write f.path fault]⟩

/-- Reads at the position of the descriptor. -/
def read (f : File) (d : Disk) (size : Nat) : Reaction File Bytes :=
  match f.descriptor with
  | none => ⟨[], f, d, []⟩
  | some h =>
    match d.read h size with
    | .ok (got, moved, left) => ⟨got, { f with descriptor := some moved }, left, []⟩
    | .error fault => ⟨[], f, d, [.fileFailed .read f.path fault]⟩

/-- Whether the position is at the end. -/
def atEnd (f : File) (d : Disk) : Reaction File Bool :=
  match f.descriptor with
  | none => ⟨true, f, d, []⟩
  | some h =>
    match d.atEnd h with
    | .ok answer => ⟨answer, f, d, []⟩
    | .error fault => ⟨true, f, d, [.fileFailed .atEnd f.path fault]⟩

def close (f : File) (d : Disk) : Reaction File Unit :=
  match f.descriptor with
  | none => ⟨(), f, d, []⟩
  | some h => ⟨(), { f with descriptor := none }, d.close h, []⟩

end File

end StreamBroker.Stream
