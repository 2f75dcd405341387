/-!
# Slots and handles

Things that are reached by handle. A handle names the slot that a thing was put into
and the slot's generation at that time. A slot is used again after it was freed; its
generation then differs, so a handle that outlived its thing is told apart from one of
the slot's next owner.

* **insert** — takes the slot freed last, or a new one behind the others when none
  is free, and gives the handle of the slot's present generation;
* **remove** — empties the slot, moves its generation on by one (it wraps) and puts
  it on top of the free ones;
* **get?** — a handle from elsewhere reaches nothing.

An index is exact while there are at most `maxSlots` slots.
-/

namespace StreamBroker

/-- The name of a thing in a slot, such as a held stream. -/
structure Handle where
  index : UInt32
  generation : UInt32
deriving DecidableEq

namespace Handle

/-- The position of the handle's slot. -/
def slot (h : Handle) : Nat := h.index.toNat

/-- A handle is shown by its index alone. -/
def text (h : Handle) : String := Nat.repr h.slot

end Handle

instance : ToString Handle := ⟨Handle.text⟩

/-- One place for a thing, with the number of times that it was freed. -/
structure Slot (α : Type) where
  generation : UInt32
  entry : Option α
deriving DecidableEq

/-- Slots, the free ones among them with the last freed first, and the number of
slots in use. -/
structure Slots (α : Type) where
  slots : List (Slot α)
  free : List Nat
  live : Nat
deriving DecidableEq

namespace Slots

variable {α : Type}

/-- The number of slots that handles can tell apart. -/
def maxSlots : Nat := UInt32.size

def empty : Slots α := ⟨[], [], 0⟩

/-- The thing that a handle reaches. -/
def get? (t : Slots α) (h : Handle) : Option α :=
  match t.slots[h.slot]? with
  | none => none
  | some slot => if slot.generation = h.generation then slot.entry else none

def contains (t : Slots α) (h : Handle) : Bool := (t.get? h).isSome

def generation (t : Slots α) (i : Nat) : UInt32 :=
  match t.slots[i]? with
  | none => 0
  | some slot => slot.generation

/-- The handle of a slot as it is now. -/
def handleOf (t : Slots α) (i : Nat) : Handle := ⟨UInt32.ofNat i, t.generation i⟩

/-- Puts a thing into a slot, and gives its handle. -/
def insert (t : Slots α) (a : α) : Handle × Slots α :=
  match t.free with
  -- the slot that came free last is filled first
  | i :: free =>
    (t.handleOf i,
      ⟨t.slots.modify i fun slot => { slot with entry := some a }, free, t.live + 1⟩)
  | [] => (⟨UInt32.ofNat t.slots.length, 0⟩, ⟨t.slots ++ [⟨0, some a⟩], [], t.live + 1⟩)

/-- Changes the thing that a handle reaches. -/
def update (t : Slots α) (h : Handle) (f : α → α) : Slots α :=
  if t.contains h then
    { t with slots := t.slots.modify h.slot fun slot => { slot with entry := slot.entry.map f } }
  else t

/-- Takes out the thing that a handle reaches. -/
def remove (t : Slots α) (h : Handle) : Option (α × Slots α) :=
  match t.get? h with
  | none => none
  | some a =>
    -- the generation goes around, so that after 2 ^ 32 removals an old handle matches again
    some (a,
      ⟨t.slots.modify h.slot fun slot => ⟨slot.generation + 1, none⟩, h.slot :: t.free, t.live - 1⟩)

/-- The handles that reach something, by ascending slot. -/
def handles (t : Slots α) : List Handle :=
  t.slots.zipIdx.filterMap fun (slot, i) =>
    slot.entry.map fun _ => ⟨UInt32.ofNat i, slot.generation⟩

/-! ## What handles reach -/

theorem get?_eq_some_iff {t : Slots α} {h : Handle} {a : α} :
    t.get? h = some a ↔
      ∃ slot, t.slots[h.slot]? = some slot ∧ slot.generation = h.generation ∧
        slot.entry = some a := by
  unfold get?
  split <;> simp_all

theorem get?_empty (h : Handle) : (empty : Slots α).get? h = none := rfl

theorem remove_eq_none_iff {t : Slots α} {h : Handle} : t.remove h = none ↔ t.get? h = none := by
  unfold remove
  split <;> simp_all

/-- Once removed, a thing is out of reach: the generation has moved on. -/
theorem get?_remove_self {t left : Slots α} {h : Handle} {a : α}
    (removed : t.remove h = some (a, left)) : left.get? h = none := by
  unfold remove at removed
  split at removed
  · cases removed
  · simp only [Option.some.injEq, Prod.mk.injEq] at removed
    obtain ⟨-, rfl⟩ := removed
    simp only [get?, List.getElem?_modify]
    cases t.slots[h.slot]? <;> simp

end Slots

end StreamBroker
