import StreamBroker.Disk.Descriptor

/-!
# Existence queries

Whether a path exists, as the broker asks it. The answer may be that the question
could not be answered. A broker asks the disk, or a host's own list of paths.

* **the disk** — the empty path is missing and a path with a zero byte is a failed
  query, both without a walk; a walk that finds nothing is missing, and any other
  fault is a failed query with that fault's text.
-/

namespace StreamBroker

/-- Why a query was not answered. -/
inductive QueryFault
  | nulInPath
  | disk (fault : Disk.Fault)
  /-- The host's list says so. -/
  | listed
deriving DecidableEq

def QueryFault.message : QueryFault → String
  | .nulInPath => "path contains a NUL byte"
  | .disk fault => fault.message
  | .listed => "query failed"

inductive Existence
  | exists
  | missing
  | failed (fault : QueryFault)
deriving DecidableEq

/-- A failed query does not show that something exists. -/
def Existence.holds : Existence → Bool
  | .exists => true
  | _ => false

/-- Whether the path leads to something on the disk. -/
def Disk.existence (d : Disk) (path : Bytes) : Existence :=
  if path = [] then .missing
  else if 0 ∈ path then .failed .nulInPath
  else
    match d.resolve false path with
    | .ok _ => .exists
    | .error .notFound => .missing
    | .error fault => .failed (.disk fault)

/-- Where existence queries go. -/
inductive FileSystem
  | disk
  /-- To a list of paths whose query fails, and one of paths that exist. -/
  | listed (known failing : List Bytes)

/-- The answer of a file system; `d` is the disk at that time. -/
def FileSystem.existence (fs : FileSystem) (d : Disk) (path : Bytes) : Existence :=
  match fs with
  | .disk => d.existence path
  | .listed known failing =>
    if path ∈ failing then .failed .listed
    else if path ∈ known then .exists
    else .missing

end StreamBroker
