import StreamBroker.Disk.Descriptor

/-!
# Changes from outside

What others do to the disk while streams are open on it. A change that the disk
declines leaves it as it was. Making a directory, a link or a queue and removing
a name look at the last name itself and do not follow a link there (`spot?`).
-/

namespace StreamBroker.Disk

inductive Change
  /-- Writes a whole file, in place when there is one. -/
  | file (path content : Bytes)
  | folder (path : Bytes)
  | link (path target : Bytes)
  | fifo (path : Bytes)
  /-- Removes a name that stands for no directory. -/
  | remove (path : Bytes)

/-- The directory of a path's last name, and that name. -/
def spot? (d : Disk) (path : Bytes) : Option (NodeId × Name) :=
  match Path.read? path with
  | .error _ => none
  | .ok p =>
    match p.names.getLast? with
    | none => none
    | some name =>
      if name = dot ∨ name = dotDot ∨ maxNameLength < name.length then none
      else
        match follow d false linkBudget true (p.origin home) p.names.dropLast with
        | .ok (.node folder) => some (folder, name)
        | _ => none

/-- Adds a node under a path that nothing has yet. -/
def make (d : Disk) (path : Bytes) (node : NodeId → Node) : Disk :=
  match d.spot? path with
  | none => d
  | some (folder, name) =>
    if (d.child? folder name).isSome then d
    else
      let (i, grown) := d.add (node folder)
      grown.attach folder name i

def writeFile (d : Disk) (path content : Bytes) : Disk :=
  match d.openFile .create path with
  | .error _ => d
  | .ok (h, opened) =>
    match opened.write h content with
    | .error _ => opened.close h
    | .ok (_, h, written) => written.close h

def remove (d : Disk) (path : Bytes) : Disk :=
  match d.spot? path with
  | none => d
  | some (folder, name) =>
    match d.child? folder name with
    | none => d
    | some i => if d.isFolder i then d else d.detach folder name

/-- Whether a path ends in a slash, and so cannot name a new link or queue. -/
def endsInSlash (path : Bytes) : Bool := path.getLast? == some slash

/-- Makes a link to what can be a path. -/
def makeLink (d : Disk) (path target : Bytes) : Disk :=
  match Path.read? target with
  | .error _ => d
  | .ok _ => if endsInSlash path then d else d.make path fun _ => .link target

def change (d : Disk) : Change → Disk
  | .file path content => d.writeFile path content
  | .folder path => d.make path fun parent => .folder parent []
  | .link path target => d.makeLink path target
  | .fifo path => if endsInSlash path then d else d.make path fun _ => .fifo [] 0
  | .remove path => if endsInSlash path then d else d.remove path

def changeAll (d : Disk) (changes : List Change) : Disk := changes.foldl change d

end StreamBroker.Disk
