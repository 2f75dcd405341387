import StreamBroker.Diagnostic
import StreamBroker.Disk.Path
import StreamBroker.Slots
import StreamBroker.Bytes

/-!
# Notes for the log

What the library has to say beside its answers. A note is data; its level, its
topic and its text are functions of it, and whether anyone hears it is decided
outside. A diagnostic that is sent to the log is a note too, and the only kind
that is more than a debugging aid.
-/

namespace StreamBroker

inductive Level
  | trace
  | debug
  | info
  | warn
  | error
deriving DecidableEq

namespace Level

/-- The rank of a level, from the least important upwards. -/
def rank : Level → Nat
  | .trace => 0
  | .debug => 1
  | .info => 2
  | .warn => 3
  | .error => 4

def name : Level → String
  | .trace => "TRACE"
  | .debug => "DEBUG"
  | .info => "INFO"
  | .warn => "WARN"
  | .error => "ERROR"

def ofSeverity : Severity → Level
  | .warning => .warn
  | .error => .error

end Level

/-- The part of the library that a record comes from. -/
inductive Topic
  | diagnostics
  | broker
  | table
  | pool
  | stream
deriving DecidableEq

/-- The target under which the records of a topic are logged. -/
def Topic.target : Topic → String
  | .diagnostics => "strand"
  | .broker => "strand::gateway"
  | .table => "strand::table"
  | .pool => "strand::pool"
  | .stream => "strand::stream"

/-- What a file stream was asked when the disk declined. -/
inductive FileRequest
  | write
  | read
  | atEnd
deriving DecidableEq

def FileRequest.phrase : FileRequest → String
  | .write => "write to"
  | .read => "read from"
  | .atEnd => "eof check on"

inductive Note
  /-- A stream was parked; `idle` counts it. -/
  | parked (key : String) (idle : Nat)
  /-- A released stream was closed because its key was full. -/
  | keyFull (key : String)
  /-- A parked stream was opened again. -/
  | reused (key : String)
  /-- A close turns into a release to the pool. -/
  | releasing (handle : Handle)
  | closing (handle : Handle)
  | writeNotLive (handle : Handle)
  | atEndNotLive (handle : Handle)
  /-- A stream accepted less than it was given. -/
  | shortWrite (handle : Handle) (written length : Nat)
  /-- The disk declined a request of a file stream. -/
  | fileFailed (request : FileRequest) (path : Bytes) (fault : Disk.Fault)
  | diagnostic (d : Diagnostic)
deriving DecidableEq

namespace Note

def level : Note → Level
  | .parked .. | .reused _ | .releasing _ | .closing _ => .trace
  | .keyFull _ | .writeNotLive _ | .atEndNotLive _ | .shortWrite .. | .fileFailed .. => .debug
  | .diagnostic d => .ofSeverity d.severity

def topic : Note → Topic
  | .parked .. | .keyFull _ => .pool
  | .reused _ => .table
  | .releasing _ | .closing _ | .writeNotLive _ | .atEndNotLive _ | .shortWrite .. => .broker
  | .fileFailed .. => .stream
  | .diagnostic _ => .diagnostics

def text : Note → String
  | .parked key idle => s!"parked stream under '{key}' ({idle} idle)"
  | .keyFull key => s!"pool key '{key}' full; closed released stream"
  | .reused key => s!"reusing pooled stream for '{key}'"
  | .releasing handle => s!"stream_close: pooled release of {handle}"
  | .closing handle => s!"stream_close: closing {handle}"
  | .writeNotLive handle => s!"stream_write: resource {handle} not live"
  | .atEndNotLive handle => s!"stream_is_at_end: resource {handle} not live"
  | .shortWrite handle written length =>
    s!"stream_write: short write to {handle} ({written} of {length} bytes)"
  | .fileFailed request path fault =>
    s!"{request.phrase} {Bytes.text path} failed: {fault.message}"
  | .diagnostic d => d.render

end Note

end StreamBroker
