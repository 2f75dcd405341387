import StreamBroker.FileSystem
import StreamBroker.Refusal
import StreamBroker.Registry

/-!
# The broker

The guarded operations: they take loosely typed values, check them, and act on the
registry. Every failure is told by the answer; some are reported as warnings too.

* **write** — the stream argument is checked first, then the data; each mismatch is
  reported once. Empty data is accepted without a look at the handle. A handle that
  holds nothing is refused without a report;
* **discard** — the same write for a caller that takes no answer; a mismatch is
  reported only if the configuration says so;
* **atEnd** — a mismatch is reported and answered with no, as is, without a report,
  a handle that holds nothing;
* **close** — refused, each time with a report, for a mismatch, for a handle that
  holds nothing and for a guarded stream; otherwise a persistent stream goes back to
  its pool and any other is torn down;
* **fileExists** — yes only for a string that names something; never a report.
-/

namespace StreamBroker

structure Config where
  /-- Whether `discard` reports a mismatch. -/
  warnOnDiscard : Bool := true
  /-- The idle streams kept for one key. -/
  idleLimit : Nat := 16
deriving DecidableEq

/-- Where diagnostics go. -/
inductive Sink
  | log
  /-- To a record that the host looks at. -/
  | recording
deriving DecidableEq

def Sink.emit : Sink → Diagnostic → Event
  | .log, d => .note (.diagnostic d)
  | .recording, d => .recorded d

/-- A registry with its settings and its collaborators. -/
structure Broker where
  registry : Registry
  config : Config
  files : FileSystem
  sink : Sink

namespace Broker

def fileExistsName : String := "file_exists"

/-- The name of `write` and `discard` in diagnostics. -/
def writeName : String := "stream_write"

def atEndName : String := "stream_is_at_end"

def closeName : String := "stream_close"

/-- A broker that holds nothing. -/
def ofConfig (config : Config) (files : FileSystem) (sink : Sink) (world : World) : Broker :=
  ⟨.ofLimit config.idleLimit world, config, files, sink⟩

def report (b : Broker) (operation : String) (refusal : Refusal) : List Event :=
  [b.sink.emit (refusal.diagnostic operation)]

/-! ## Arguments -/

/-- The handle of an argument that has to be a resource. -/
def expectHandle (operation parameter : String) (v : Value) : Except Refusal Handle :=
  match v with
  | .resource h => .ok h
  | _ => .error (.wrongTag operation parameter .resource v.tag)

/-- The bytes of an argument that has to be a string. -/
def expectBytes (operation parameter : String) (v : Value) : Except Refusal Bytes :=
  match v with
  | .string bytes => .ok bytes
  | _ => .error (.wrongTag operation parameter .string v.tag)

/-- The arguments of a write, the stream first. -/
def writeArguments (stream data : Value) : Except Refusal (Handle × Bytes) :=
  match expectHandle writeName "stream" stream with
  | .error refusal => .error refusal
  | .ok h =>
    match expectBytes writeName "data" data with
    | .error refusal => .error refusal
    | .ok bytes => .ok (h, bytes)

/-! ## Operations -/

/-- Writes to the stream of a handle; less than was given is noted. -/
def deliver (b : Broker) (h : Handle) (bytes : Bytes) : Outcome Broker (Except Refusal Nat) :=
  let o := b.registry.write h bytes
  match o.answer with
  | none => ⟨.error (.notLive h), b, [.note (.writeNotLive h)]⟩
  | some n =>
    -- a count above the length is passed on as it is
    ⟨.ok n, { b with registry := o.state },
      o.events ++ if n < bytes.length then [.note (.shortWrite h n bytes.length)] else []⟩

/-- Writes `data` to `stream`. The answer is the number of bytes that the stream
accepted, which may be less than there were. -/
def write (b : Broker) (stream data : Value) : Outcome Broker (Except Refusal Nat) :=
  match writeArguments stream data with
  | .error refusal => ⟨.error refusal, b, b.report writeName refusal⟩
  -- with nothing to write nobody is asked, so the handle need not hold anything
  | .ok (h, bytes) => if bytes = [] then ⟨.ok 0, b, []⟩ else b.deliver h bytes

/-- Writes `data` to `stream` for a caller that takes no answer. -/
def discard (b : Broker) (stream data : Value) : Outcome Broker Unit :=
  match writeArguments stream data with
  | .error refusal =>
    ⟨(), b, if b.config.warnOnDiscard then b.report writeName refusal else []⟩
  | .ok (h, bytes) =>
    -- the settings are only about arguments; a handle that holds nothing is noted as ever
    if bytes = [] then ⟨(), b, []⟩
    else
      let o := b.deliver h bytes
      ⟨(), o.state, o.events⟩

def atEnd (b : Broker) (stream : Value) : Outcome Broker Bool :=
  match expectHandle atEndName "stream" stream with
  | .error refusal => ⟨false, b, b.report atEndName refusal⟩
  | .ok h =>
    let o := b.registry.atEnd h
    match o.answer with
    | none => ⟨false, b, [.note (.atEndNotLive h)]⟩
    | some answer => ⟨answer, { b with registry := o.state }, o.events⟩

/-- Gives `stream` back. After a yes its handle holds nothing. -/
def close (b : Broker) (stream : Value) : Outcome Broker Bool :=
  match expectHandle closeName "stream" stream with
  | .error refusal => ⟨false, b, b.report closeName refusal⟩
  | .ok h =>
    match b.registry.get? h with
    | none => ⟨false, b, b.report closeName (.notLive h)⟩
    | some lease =>
      if lease.guarded then ⟨false, b, b.report closeName (.guarded h)⟩
      else if lease.persistent then
        let o := b.registry.release h
        ⟨o.answer, { b with registry := o.state }, .note (.releasing h) :: o.events⟩
      else
        let o := b.registry.close h
        ⟨o.answer, { b with registry := o.state }, .note (.closing h) :: o.events⟩

/-- Whether `path` is a string that names something. -/
def fileExists (b : Broker) (path : Value) : Outcome Broker Bool :=
  match expectBytes fileExistsName "path" path with
  -- the one operation that reports no mistake
  | .error _ => ⟨false, b, []⟩
  | .ok bytes =>
    ⟨(b.files.existence b.registry.world.disk bytes).holds, b, [.query bytes]⟩

end Broker

end StreamBroker
