import StreamBroker.Shelf
import StreamBroker.World

/-!
# The pool

Idle streams that wait to be opened again under the key they were released under.

* **park** — puts a stream on top of its key's stack while there are fewer than the
  limit; otherwise the stream is closed, and only the count of overflows changes;
* **take** — gives the stream parked last under a key;
* **drain** — closes every idle stream and counts them.
-/

namespace StreamBroker

/-- Idle streams, the limit for one key, and how many streams were parked and how
many closed for lack of room. -/
structure Pool where
  idle : Shelf StreamId
  limit : Nat
  parked : Nat
  overflow : Nat
deriving DecidableEq

namespace Pool

def ofLimit (limit : Nat) : Pool := ⟨[], limit, 0, 0⟩

def idleCount (p : Pool) (key : Key) : Nat := p.idle.count key

def totalIdle (p : Pool) : Nat := p.idle.total

/-- Parks a stream under a key, or closes it when the key is full. The answer says
whether it was parked. -/
def park (p : Pool) (w : World) (key : Key) (s : StreamId) : Outcome (Pool × World) Bool :=
  -- with a limit of zero nothing is ever kept
  if p.limit ≤ p.idleCount key then
    let closed := w.close s
    ⟨false, ({ p with overflow := p.overflow + 1 }, closed.state),
      closed.events ++ [.note (.keyFull key)]⟩
  else
    ⟨true, ({ p with idle := p.idle.push key s, parked := p.parked + 1 }, w),
      [.note (.parked key (p.idleCount key + 1))]⟩

/-- Takes the stream parked last under a key. -/
def take? (p : Pool) (key : Key) : Option (StreamId × Pool) :=
  (p.idle.pop? key).map fun (s, left) => (s, { p with idle := left })

/-- Closes every idle stream and counts them. -/
def drain (p : Pool) (w : World) : Outcome (Pool × World) Nat :=
  let closed := w.closeEach p.idle.toList
  ⟨p.totalIdle, ({ p with idle := [] }, closed.state), closed.events⟩

end Pool

end StreamBroker
