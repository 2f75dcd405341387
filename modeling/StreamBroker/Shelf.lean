/-!
# Shelves

Stacks of things, one for each key that has any. The last thing put under a key is
the first one taken; a key whose stack has become empty is gone.
-/

namespace StreamBroker

/-- The name that idle streams are kept under. -/
abbrev Key := String

/-- The stacks by key, each with its top first. -/
abbrev Shelf (α : Type) := List (Key × List α)

namespace Shelf

variable {α : Type}

def stack (shelf : Shelf α) (key : Key) : List α := (shelf.lookup key).getD []

def count (shelf : Shelf α) (key : Key) : Nat := (shelf.stack key).length

def total : Shelf α → Nat
  | [] => 0
  | (_, stack) :: rest => stack.length + total rest

/-- Puts a thing on top of the stack of a key. -/
def push (key : Key) (a : α) : Shelf α → Shelf α
  | [] => [(key, [a])]
  | (k, stack) :: rest =>
    if k = key then (k, a :: stack) :: rest else (k, stack) :: push key a rest

/-- Takes the top of the stack of a key. -/
def pop? (key : Key) : Shelf α → Option (α × Shelf α)
  | [] => none
  | (k, stack) :: rest =>
    if k = key then
      match stack with
      | [] => none
      | [a] => some (a, rest)
      | a :: b :: below => some (a, (k, b :: below) :: rest)
    else (pop? key rest).map fun (a, left) => (a, (k, stack) :: left)

/-- All things, those of a key together, from the bottom up. -/
def toList (shelf : Shelf α) : List α := shelf.flatMap fun e => e.2.reverse

/-! ## The stacks -/

theorem stack_cons (k : Key) (top : List α) (rest : Shelf α) (key : Key) :
    stack ((k, top) :: rest) key = if key = k then top else stack rest key := by
  by_cases h : key = k
  · simp [stack, h]
  · have hb : (key == k) = false := by simpa using h
    simp [stack, List.lookup_cons, hb, h]

theorem stack_push (shelf : Shelf α) (key other : Key) (a : α) :
    (shelf.push key a).stack other =
      if other = key then a :: shelf.stack key else shelf.stack other := by
  induction shelf with
  | nil => rw [push, stack_cons]; rfl
  | cons e rest ih =>
    obtain ⟨k, top⟩ := e
    by_cases hk : k = key
    · subst hk
      simp only [push, if_true, stack_cons]
      split <;> rfl
    · simp only [push, if_neg hk, stack_cons, ih]
      by_cases ho : other = k
      · subst ho
        simp [hk]
      · simp [ho, Ne.symm hk]

theorem total_push (shelf : Shelf α) (key : Key) (a : α) :
    (shelf.push key a).total = shelf.total + 1 := by
  induction shelf with
  | nil => rfl
  | cons e rest ih =>
    obtain ⟨k, top⟩ := e
    by_cases hk : k = key
    · simp only [push, hk, if_true, total, List.length_cons]
      omega
    · simp only [push, hk, if_false, total, ih]
      omega

end Shelf

end StreamBroker
