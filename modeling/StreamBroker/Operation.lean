import StreamBroker.Broker
import StreamBroker.Disk.Change

/-!
# Runs

All that a host can do with a broker as one type, so that a run is a list. Beside
the broker's own operations a host reaches the registry directly, changes the disk
from outside and exchanges the collaborators.

* **step** — every operation answers in every state; what could not be done is an
  answer too;
* **run** — the answers and the events of a run are those of its steps, in order.
-/

namespace StreamBroker

inductive Operation
  /-- Takes a stream from a source and holds it. -/
  | openStream (source : Stream.Source) (terms : Terms)
  /-- Holds an idle stream of a key, or one from a source if there is none. -/
  | openPersistent (key : Key) (source : Stream.Source)
  /-- Writes, and wants the answer. -/
  | write (stream data : Value)
  /-- Writes, and wants no answer. -/
  | discard (stream data : Value)
  | atEnd (stream : Value)
  | close (stream : Value)
  | fileExists (path : Value)
  | writeTo (h : Handle) (data : Bytes)
  | readFrom (h : Handle) (size : Nat)
  | atEndOf (h : Handle)
  | setGuarded (h : Handle) (guarded : Bool)
  | closeHandle (h : Handle)
  | releaseHandle (h : Handle)
  | closeAll
  /-- Sends diagnostics elsewhere. -/
  | setSink (sink : Sink)
  /-- Sends existence queries elsewhere. -/
  | setFiles (files : FileSystem)
  /-- Changes the disk from outside. -/
  | change (changes : List Disk.Change)

inductive Answer
  | nothing
  /-- A source had no stream to give: its file could not be opened. -/
  | fault (fault : Disk.Fault)
  | opened (o : Opened)
  | written (result : Except Refusal Nat)
  | verdict (b : Bool)
  | count (n : Nat)
  /-- The bytes that a stream accepted, if the handle reached one. -/
  | accepted (n : Option Nat)
  /-- The bytes that a stream gave, if the handle reached one. -/
  | got (bytes : Option Bytes)
  /-- The end query of a stream, if the handle reached one. -/
  | ended (b : Option Bool)

/-- The answer to an opening. -/
def Answer.ofOpening : Except Disk.Fault Opened → Answer
  | .ok o => .opened o
  | .error why => .fault why

namespace Broker

/-- The outcome of a step of the registry. -/
def ofRegistry {α : Type} (b : Broker) (o : Outcome Registry α) (answer : α → Answer) :
    Outcome Broker Answer :=
  ⟨answer o.answer, { b with registry := o.state }, o.events⟩

/-- The outcome of an operation of the broker. -/
def answering {α : Type} (o : Outcome Broker α) (answer : α → Answer) : Outcome Broker Answer :=
  ⟨answer o.answer, o.state, o.events⟩

/-- Changes the disk from outside. -/
def changeDisk (b : Broker) (changes : List Disk.Change) : Broker :=
  let world := b.registry.world
  { b with registry.world := { world with disk := world.disk.changeAll changes } }

def step (b : Broker) : Operation → Outcome Broker Answer
  | .openStream source terms => b.ofRegistry (b.registry.openStream source terms) .ofOpening
  | .openPersistent key source => b.ofRegistry (b.registry.openPersistent key source) .ofOpening
  | .write stream data => answering (b.write stream data) .written
  | .discard stream data => answering (b.discard stream data) fun _ => .nothing
  | .atEnd stream => answering (b.atEnd stream) .verdict
  | .close stream => answering (b.close stream) .verdict
  | .fileExists path => answering (b.fileExists path) .verdict
  | .writeTo h data => b.ofRegistry (b.registry.write h data) .accepted
  | .readFrom h size => b.ofRegistry (b.registry.read h size) .got
  | .atEndOf h => b.ofRegistry (b.registry.atEnd h) .ended
  | .setGuarded h guarded => b.ofRegistry (b.registry.setGuarded h guarded) .verdict
  | .closeHandle h => b.ofRegistry (b.registry.close h) .verdict
  | .releaseHandle h => b.ofRegistry (b.registry.release h) .verdict
  | .closeAll => b.ofRegistry b.registry.closeAll .count
  | .setSink sink => ⟨.nothing, { b with sink := sink }, []⟩
  | .setFiles files => ⟨.nothing, { b with files := files }, []⟩
  | .change changes => ⟨.nothing, b.changeDisk changes, []⟩

def run (b : Broker) : List Operation → Outcome Broker (List Answer)
  | [] => ⟨[], b, []⟩
  | op :: rest =>
    let first := b.step op
    let others := first.state.run rest
    ⟨first.answer :: others.answer, others.state, first.events ++ others.events⟩

theorem run_append (b : Broker) (first second : List Operation) :
    b.run (first ++ second) =
      let before := b.run first
      let after := before.state.run second
      ⟨before.answer ++ after.answer, after.state, before.events ++ after.events⟩ := by
  induction first generalizing b with
  | nil => rfl
  | cons op rest ih => simp [run, ih]

end Broker

end StreamBroker
