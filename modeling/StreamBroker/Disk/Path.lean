import StreamBroker.Bytes

/-!
# Faults and paths

Why the disk declined a request: `Fault.message` is the text that reaches the log and the
host. And what a request names: a path is read once into the names to walk through:

* **names** — the pieces between slashes; a repeated slash adds none;
* **start** — a leading slash starts at the root, else the walk starts where
  the path is used;
* **end** — a trailing slash asks for a directory.

`Path.read?` first turns away what no path may be: a zero byte, nothing at all,
or more bytes than `maxPathLength` leaves room for.
-/

namespace StreamBroker.Disk

/-- Why a request to the disk failed. -/
inductive Fault
  | notFound
  /-- A path goes through, or ends in a slash at, something that is no directory. -/
  | notDirectory
  | isDirectory
  /-- A path goes through more links than are followed. -/
  | tooManyLinks
  /-- A name or a whole path is over its limit. -/
  | nameTooLong
  | nulInPath
  /-- The descriptor was not opened for this. -/
  | badDescriptor
  /-- A queue has no position. -/
  | illegalSeek
deriving DecidableEq

def Fault.message : Fault → String
  | .notFound => "No such file or directory (os error 2)"
  | .notDirectory => "Not a directory (os error 20)"
  | .isDirectory => "Is a directory (os error 21)"
  | .tooManyLinks => "Too many levels of symbolic links (os error 40)"
  | .nameTooLong => "File name too long (os error 36)"
  | .nulInPath => "file name contained an unexpected NUL byte"
  | .badDescriptor => "Bad file descriptor (os error 9)"
  | .illegalSeek => "Illegal seek (os error 29)"

/-! ## Paths -/

abbrev Name := Bytes

/-- The byte between the names of a path. -/
def slash : UInt8 := 0x2F

/-- The name of the directory itself. -/
def dot : Name := [0x2E]

/-- The name of the directory above. -/
def dotDot : Name := [0x2E, 0x2E]

/-- The bytes that a name may have. -/
def maxNameLength : Nat := 255

/-- The bytes that a path may have, with the zero byte that ends it. -/
def maxPathLength : Nat := 4096

structure Path where
  absolute : Bool
  names : List Name
  folderOnly : Bool
deriving DecidableEq

namespace Path

/-- The pieces between slashes; there is always a first one. -/
def pieces : Bytes → List Name
  | [] => [[]]
  | b :: rest =>
    if b = slash then [] :: pieces rest
    else match pieces rest with
      | [] => [[b]]
      | piece :: others => (b :: piece) :: others

def parse (bytes : Bytes) : Path where
  absolute := bytes.head? == some slash
  names := (pieces bytes).filter (· ≠ [])
  folderOnly := bytes.getLast? == some slash

/-- Reads a path, or says why it can be none. -/
def read? (bytes : Bytes) : Except Fault Path :=
  if 0 ∈ bytes then .error .nulInPath
  else if bytes = [] then .error .notFound
  -- the limit counts the zero byte at the end
  else if maxPathLength ≤ bytes.length then .error .nameTooLong
  else .ok (parse bytes)

end Path

end StreamBroker.Disk
