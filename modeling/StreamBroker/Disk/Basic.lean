import StreamBroker.Disk.Path

/-!
# The disk

A disk is a list of nodes: files, directories, links and queues. A node is never
taken off the list, so an open descriptor keeps its file when the last name of it
is removed. Node 0 is the root; node 1 is the directory that relative paths start
from, and the root is above it.
-/

namespace StreamBroker

namespace Disk

/-- The place of a node on its disk. -/
abbrev NodeId := Nat

/-- A thing on the disk. -/
inductive Node
  | file (content : Bytes)
  /-- A directory, the one above it, and what its names stand for. -/
  | folder (parent : NodeId) (entries : List (Name × NodeId))
  /-- A symbolic link and the path that it stands for. -/
  | link (target : Bytes)
  /-- A queue of bytes, and the number of descriptors open on it. -/
  | fifo (queue : Bytes) (openers : Nat)
deriving DecidableEq

end Disk

structure Disk where
  nodes : List Disk.Node
deriving DecidableEq

namespace Disk

def root : NodeId := 0

/-- The directory that relative paths start from. -/
def home : NodeId := 1

/-- A disk with its two directories and nothing in them. -/
def empty : Disk := ⟨[.folder root [], .folder root []]⟩

def node? (d : Disk) (i : NodeId) : Option Node := d.nodes[i]?

/-- Puts a node in the place of another. -/
def put (d : Disk) (i : NodeId) (n : Node) : Disk := ⟨d.nodes.set i n⟩

/-- Adds a node, and says where it is. -/
def add (d : Disk) (n : Node) : NodeId × Disk := (d.nodes.length, ⟨d.nodes ++ [n]⟩)

/-- What a name stands for in a directory. -/
def child? (d : Disk) (folder : NodeId) (name : Name) : Option NodeId :=
  match d.node? folder with
  | some (.folder _ entries) => entries.lookup name
  | _ => none

/-- Gives a node a name in a directory. -/
def attach (d : Disk) (folder : NodeId) (name : Name) (i : NodeId) : Disk :=
  match d.node? folder with
  | some (.folder parent entries) => d.put folder (.folder parent ((name, i) :: entries))
  | _ => d

/-- Takes a name out of a directory. -/
def detach (d : Disk) (folder : NodeId) (name : Name) : Disk :=
  match d.node? folder with
  | some (.folder parent entries) =>
    d.put folder (.folder parent (entries.filter fun e => e.1 ≠ name))
  | _ => d

def isFolder (d : Disk) (i : NodeId) : Bool :=
  match d.node? i with
  | some (.folder ..) => true
  | _ => false

theorem node?_put_self {d : Disk} {i : NodeId} {n : Node} (h : i < d.nodes.length) :
    (d.put i n).node? i = some n := by
  simp [put, node?, h]

theorem node?_put_of_ne {d : Disk} {i j : NodeId} {n : Node} (h : i ≠ j) :
    (d.put i n).node? j = d.node? j := by
  simp [put, node?, List.getElem?_set_ne h]

end Disk

end StreamBroker
