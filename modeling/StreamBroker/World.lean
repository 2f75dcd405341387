import StreamBroker.Stream.Basic

/-!
# The world

Everything outside the broker's own books: the disk, and every stream that was
ever taken in, each under the number it got then. The books hold numbers only, so
what happened to a stream can be told from the calls that name its number.

* **events** — every step lists what can be noticed of it from outside, in order:
  the calls that streams received (with their answers), the existence queries, the
  notes for the log, and the diagnostics that were recorded;
* **outcomes** — a step is a function from a state to an `Outcome`: its answer, the
  state afterwards and its events. Nothing in a state depends on who listens;
* **observers** — who listens: the log, up to a level, and a record of diagnostics.
  An observer takes events in and acts on nothing.
-/

namespace StreamBroker

/-- The number of a stream. -/
abbrev StreamId := Nat

/-- A call that a stream received, and what it answered. -/
inductive Call
  | write (data : Bytes) (accepted : Nat)
  | read (size : Nat) (got : Bytes)
  | atEnd (answer : Bool)
  | close
  | release
deriving DecidableEq

/-- Something that can be noticed from outside. -/
inductive Event
  | call (stream : StreamId) (call : Call)
  /-- A file system was asked whether a path exists. -/
  | query (path : Bytes)
  | note (n : Note)
  /-- A diagnostic was recorded. -/
  | recorded (d : Diagnostic)
deriving DecidableEq

/-- What a step answers, what it leaves behind, and its events in order. -/
structure Outcome (σ α : Type) where
  answer : α
  state : σ
  events : List Event

structure World where
  disk : Disk
  streams : List Stream
deriving DecidableEq

namespace World

def ofDisk (disk : Disk) : World := ⟨disk, []⟩

def stream? (w : World) (s : StreamId) : Option Stream := w.streams[s]?

/-- Takes a stream in, under the next number. -/
def add (w : World) (stream : Stream) : StreamId × World :=
  (w.streams.length, { w with streams := w.streams ++ [stream] })

/-- Makes one call of a stream. A number that no stream has is answered with
`fallback`, and no call is made. -/
def ask {α : Type} (w : World) (s : StreamId) (fallback : α)
    (call : Stream → Disk → Stream.Reaction Stream α) (describe : α → Call) : Outcome World α :=
  match w.stream? s with
  | none => ⟨fallback, w, []⟩
  | some stream =>
    let r := call stream w.disk
    ⟨r.answer, ⟨r.disk, w.streams.set s r.stream⟩,
      r.notes.map .note ++ [.call s (describe r.answer)]⟩

def write (w : World) (s : StreamId) (data : Bytes) : Outcome World Nat :=
  w.ask s 0 (fun stream d => stream.write d data) (.write data)

def read (w : World) (s : StreamId) (size : Nat) : Outcome World Bytes :=
  w.ask s [] (fun stream d => stream.read d size) (.read size)

def atEnd (w : World) (s : StreamId) : Outcome World Bool :=
  w.ask s false (fun stream d => stream.atEnd d) .atEnd

/-- Tears a stream down. -/
def close (w : World) (s : StreamId) : Outcome World Unit :=
  w.ask s () (fun stream d => stream.close d) fun _ => .close

/-- Tells a stream that it goes back to its pool. -/
def release (w : World) (s : StreamId) : Outcome World Unit :=
  w.ask s () (fun stream d => stream.release d) fun _ => .release

def closeEach (w : World) : List StreamId → Outcome World Unit
  | [] => ⟨(), w, []⟩
  | s :: rest =>
    let first := w.close s
    let others := first.state.closeEach rest
    ⟨(), others.state, first.events ++ others.events⟩

end World

/-! ## Observers -/

/-- What a host has heard: the notes at the log's level or above it, and the
recorded diagnostics, each with the oldest first. A log that is off has no level. -/
structure Observer where
  level : Option Level
  heard : List Note
  recorded : List Diagnostic

namespace Observer

/-- An observer that has heard nothing yet. -/
def ofLevel (level : Option Level) : Observer := ⟨level, [], []⟩

/-- Whether a note reaches the log. -/
def hears (o : Observer) (n : Note) : Bool :=
  match o.level with
  | none => false
  | some level => decide (level.rank ≤ n.level.rank)

def take (o : Observer) : Event → Observer
  | .note n => if o.hears n then { o with heard := o.heard ++ [n] } else o
  | .recorded d => { o with recorded := o.recorded ++ [d] }
  | .call .. | .query _ => o

def takeAll (o : Observer) (events : List Event) : Observer := events.foldl take o

def clear (o : Observer) : Observer := { o with recorded := [] }

end Observer

end StreamBroker
