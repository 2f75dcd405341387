import StreamBroker.Bytes

/-!
# Streams in memory

A queue of bytes that keeps what was read: writing appends to the contents,
reading moves a cursor along them.

* **limit** — with a limit, a write is cut where the contents would grow over it;
* **closing** — a closed stream accepts and returns nothing; its contents and its
  cursor stay, so its end query still answers by the cursor;
* **release** — going back to a pool skips what was not read.
-/

namespace StreamBroker.Stream

structure Memory where
  contents : Bytes
  cursor : Nat
  limit : Option Nat
  closed : Bool
deriving DecidableEq

namespace Memory

def empty : Memory := ⟨[], 0, none, false⟩

/-- An empty stream whose contents grow to `limit` bytes at most. -/
def limited (limit : Nat) : Memory := { empty with limit := some limit }

/-- A stream with `data` to read, and without a limit. -/
def ofBytes (data : Bytes) : Memory := { empty with contents := data }

/-- The number of bytes that are still to be read. -/
def remaining (m : Memory) : Nat := m.contents.length - m.cursor

/-- The number of bytes of a write of `size` that there is room for. -/
def room (m : Memory) (size : Nat) : Nat :=
  match m.limit with
  | none => size
  | some limit => min (limit - m.contents.length) size

/-- Appends what there is room for, and says how much that was. -/
def write (m : Memory) (data : Bytes) : Nat × Memory :=
  if m.closed then (0, m)
  else
    let n := m.room data.length
    (n, { m with contents := m.contents ++ data.take n })

/-- Returns the next bytes, `size` at most, and moves the cursor behind them. -/
def read (m : Memory) (size : Nat) : Bytes × Memory :=
  if m.closed then ([], m)
  else
    let got := (m.contents.drop m.cursor).take size
    (got, { m with cursor := m.cursor + got.length })

-- Whether the stream is closed does not count: bytes left unread keep it from its end.
def atEnd (m : Memory) : Bool := decide (m.contents.length ≤ m.cursor)

def close (m : Memory) : Memory := { m with closed := true }

/-- Skips what was not read. -/
def release (m : Memory) : Memory := { m with cursor := m.contents.length }

/-! ## What the calls do -/

theorem room_le (m : Memory) (size : Nat) : m.room size ≤ size := by
  unfold room
  split
  · exact Nat.le_refl _
  · exact Nat.min_le_right _ _

theorem atEnd_iff_remaining {m : Memory} : m.atEnd = true ↔ m.remaining = 0 := by
  simp only [atEnd, remaining, decide_eq_true_eq]
  omega

theorem write_contents (m : Memory) (data : Bytes) :
    (m.write data).2.contents = m.contents ++ data.take (m.write data).1 := by
  unfold write
  split <;> simp

/-- A write does nothing but append what it accepts. -/
theorem write_snd (m : Memory) (data : Bytes) :
    (m.write data).2 = { m with contents := m.contents ++ data.take (m.write data).1 } := by
  unfold write
  split
  · simp
  · rfl

theorem write_le (m : Memory) (data : Bytes) : (m.write data).1 ≤ data.length := by
  unfold write
  split
  · exact Nat.zero_le _
  · exact m.room_le data.length

end Memory

end StreamBroker.Stream
