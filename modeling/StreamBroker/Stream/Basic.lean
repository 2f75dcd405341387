import StreamBroker.Stream.File
import StreamBroker.Stream.Memory

/-!
# Streams

A stream of any kind, and the five calls it answers: `write`, `read`, `atEnd`,
`close`, and `release`, which says that it goes back to a pool.

* **scripts** — a scripted stream stands for any host's own: it answers by a script,
  whatever it is given, even with a count of more bytes than there were. The last entry
  of a list repeats. Without entries, writes are accepted in full and the end is never
  reached. Nothing can be read, and closing does nothing;
* **sources** — a `Source` is a stream that is still to be had; only a file can fail
  to be.
-/

namespace StreamBroker

namespace Stream

/-- A stream that answers by a script. -/
structure Script where
  returns : List Nat
  ends : List Bool
  writes : Nat := 0
  queries : Nat := 0
deriving DecidableEq

namespace Script

/-- Entry `i` of a script; past the end its last one, and `fallback` when there is none. -/
def entry {α : Type} (script : List α) (i : Nat) (fallback : α) : α :=
  (script[i]?.or script.getLast?).getD fallback

def write (s : Script) (data : Bytes) : Nat × Script :=
  (entry s.returns s.writes data.length, { s with writes := s.writes + 1 })

def atEnd (s : Script) : Bool × Script :=
  (entry s.ends s.queries false, { s with queries := s.queries + 1 })

end Script

end Stream

inductive Stream
  | memory (m : Stream.Memory)
  | file (f : Stream.File)
  | script (s : Stream.Script)
deriving DecidableEq

namespace Stream

/-- Offers `data`; the answer is the number of bytes accepted. -/
def write (s : Stream) (d : Disk) (data : Bytes) : Reaction Stream Nat :=
  match s with
  | .memory m => let (n, m) := m.write data; ⟨n, .memory m, d, []⟩
  | .file f => (f.write d data).embed .file
  | .script s => let (n, s) := s.write data; ⟨n, .script s, d, []⟩

def read (s : Stream) (d : Disk) (size : Nat) : Reaction Stream Bytes :=
  match s with
  | .memory m => let (got, m) := m.read size; ⟨got, .memory m, d, []⟩
  | .file f => (f.read d size).embed .file
  | .script s => ⟨[], .script s, d, []⟩

def atEnd (s : Stream) (d : Disk) : Reaction Stream Bool :=
  match s with
  | .memory m => ⟨m.atEnd, .memory m, d, []⟩
  | .file f => (f.atEnd d).embed .file
  | .script s => let (answer, s) := s.atEnd; ⟨answer, .script s, d, []⟩

def close (s : Stream) (d : Disk) : Reaction Stream Unit :=
  match s with
  | .memory m => ⟨(), .memory m.close, d, []⟩
  | .file f => (f.close d).embed .file
  | .script s => ⟨(), .script s, d, []⟩

/-- Says that the stream goes back to its pool; only streams in memory take notice. -/
def release (s : Stream) (d : Disk) : Reaction Stream Unit :=
  match s with
  | .memory m => ⟨(), .memory m.release, d, []⟩
  | .file f => ⟨(), .file f, d, []⟩
  | .script s => ⟨(), .script s, d, []⟩

/-- Where a stream comes from. -/
inductive Source
  | ready (stream : Stream)
  /-- The file of a path, which is not opened before the stream is wanted. -/
  | file (mode : Disk.Mode) (path : Bytes)

/-- The stream of a source, and the disk afterwards. -/
def Source.take (source : Source) (d : Disk) : Except Disk.Fault (Stream × Disk) :=
  match source with
  | .ready stream => .ok (stream, d)
  | .file mode path =>
    match File.openPath d mode path with
    | .error fault => .error fault
    | .ok (f, opened) => .ok (.file f, opened)

end Stream

end StreamBroker
