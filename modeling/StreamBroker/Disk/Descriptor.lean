import StreamBroker.Disk.Walk

/-!
# Descriptors

A descriptor is an open file: its node, the mode it was opened in and a position
that reading and writing share. Several descriptors of one file have a position
each and one content.

* **modes** — `create` empties or makes the file, `read` opens what is there, a
  directory too, and `append` opens or makes the file and writes at its end;
* **files** — a write lands in full at the position, or at the end when
  appending, and leaves the position behind it; a gap is filled with zero bytes;
* **queues** — a write adds at the back and a read takes from the front; there is
  no position, and the bytes are gone when the last descriptor is closed;
* **faults** — a failed request changes nothing.

Queues are simpler here than those of a system, where a read of an empty queue waits as
long as there is a writer, a write waits for room and fails once nobody reads, and
opening for one side waits for the other. Here a read of an empty queue gives nothing,
a write always lands, and opening comes to an end at once. The size of a directory is
one fixed number, in place of what a file system happens to report.
-/

namespace StreamBroker.Disk

/-- What a file is opened for. -/
inductive Mode
  | create
  | read
  | append
deriving DecidableEq

/-- Whether opening makes a missing file. -/
def Mode.creates : Mode → Bool
  | .read => false
  | _ => true

structure Descriptor where
  node : NodeId
  mode : Mode
  position : Nat
deriving DecidableEq

/-- The size that a directory reports. -/
def folderSize : Nat := 4096

def openFile (d : Disk) (mode : Mode) (path : Bytes) : Except Fault (Descriptor × Disk) :=
  match d.resolve mode.creates path with
  | .error fault => .error fault
  | .ok (.vacant folder name) =>
    let (i, grown) := d.add (.file [])
    .ok (⟨i, mode, 0⟩, grown.attach folder name i)
  | .ok (.node i) =>
    match d.node? i with
    -- only the content is gone: a descriptor that was open before keeps its position
    | some (.file _) => .ok (⟨i, mode, 0⟩, if mode = .create then d.put i (.file []) else d)
    | some (.fifo queue openers) => .ok (⟨i, mode, 0⟩, d.put i (.fifo queue (openers + 1)))
    | some (.folder ..) => if mode.creates then .error .isDirectory else .ok (⟨i, mode, 0⟩, d)
    | _ => .error .notFound

/-- `content` with `data` written from `position` on. -/
def splice (content : Bytes) (position : Nat) (data : Bytes) : Bytes :=
  content.take position ++ List.replicate (position - content.length) 0 ++ data
    ++ content.drop (position + data.length)

/-- Writing at the end appends. -/
theorem splice_length (content data : Bytes) :
    splice content content.length data = content ++ data := by
  simp [splice]

/-- Writes `data`, all of it. -/
def write (d : Disk) (h : Descriptor) (data : Bytes) : Except Fault (Nat × Descriptor × Disk) :=
  if h.mode = .read then .error .badDescriptor
  else
    match d.node? h.node with
    | some (.file content) =>
      -- nothing moves, not even to the end of the file
      if data = [] then .ok (0, h, d)
      else
        let position := if h.mode = .append then content.length else h.position
        .ok (data.length, { h with position := position + data.length },
          d.put h.node (.file (splice content position data)))
    | some (.fifo queue openers) =>
      .ok (data.length, h, d.put h.node (.fifo (queue ++ data) openers))
    | _ => .error .badDescriptor

def read (d : Disk) (h : Descriptor) (size : Nat) : Except Fault (Bytes × Descriptor × Disk) :=
  match d.node? h.node with
  | some (.file content) =>
    let got := (content.drop h.position).take size
    .ok (got, { h with position := h.position + got.length }, d)
  | some (.fifo queue openers) =>
    .ok (queue.take size, h, d.put h.node (.fifo (queue.drop size) openers))
  | some (.folder ..) => .error .isDirectory
  | _ => .error .badDescriptor

/-- Whether the position is at the end or past it. -/
def atEnd (d : Disk) (h : Descriptor) : Except Fault Bool :=
  match d.node? h.node with
  | some (.file content) => .ok (decide (content.length ≤ h.position))
  | some (.folder ..) => .ok (decide (folderSize ≤ h.position))
  | some (.fifo ..) => .error .illegalSeek
  | _ => .error .badDescriptor

def close (d : Disk) (h : Descriptor) : Disk :=
  match d.node? h.node with
  | some (.fifo queue openers) =>
    d.put h.node (.fifo (if openers ≤ 1 then [] else queue) (openers - 1))
  | _ => d

/-- The content that a path leads to. -/
def contents (d : Disk) (path : Bytes) : Except Fault Bytes :=
  match d.resolve false path with
  | .error fault => .error fault
  | .ok (.vacant ..) => .error .notFound
  | .ok (.node i) =>
    match d.node? i with
    | some (.file content) => .ok content
    | some (.fifo queue _) => .ok queue
    | some (.folder ..) => .error .isDirectory
    | _ => .error .notFound

end StreamBroker.Disk
