import StreamBroker.Shelf

/-!
# Theory of shelves

A shelf whose keys are distinct (`Wf`) is the family of its stacks. Main statements:

* **push and pop** — both keep the keys distinct; a pop takes the top of its key's
  stack and leaves the other stacks alone (`stack_pop?`, beside `stack_push`);
* **contents** — `toList` gains or loses that one thing (`toList_push`, `toList_pop?`),
  holds exactly the members of the stacks (`mem_toList_iff`), and has `total` members;
* **entries** — push and pop keep no key without a stack (`Stocked`), so the keys are
  those under which there is something (`Stocked.mem_keys_iff`).
-/

namespace StreamBroker.Shelf

variable {α : Type} {shelf left : Shelf α} {key other : Key} {a : α}

/-- No key has two stacks. -/
def Wf (shelf : Shelf α) : Prop := (shelf.map Prod.fst).Nodup

theorem Wf.nil : Wf ([] : Shelf α) := List.nodup_nil

theorem Wf.tail {e : Key × List α} {rest : Shelf α} (wf : Wf (e :: rest)) : Wf rest :=
  (List.nodup_cons.mp wf).2

/-- The stack of a key that does not occur is empty. -/
theorem stack_eq_nil_of_notMem (absent : key ∉ shelf.map Prod.fst) : shelf.stack key = [] := by
  induction shelf with
  | nil => rfl
  | cons e rest ih =>
    obtain ⟨k, top⟩ := e
    simp only [List.map_cons, List.mem_cons, not_or] at absent
    rw [stack_cons, if_neg absent.1]
    exact ih absent.2

/-! ## Pushing -/

theorem mem_keys_push {k : Key} :
    k ∈ (shelf.push key a).map Prod.fst ↔ k = key ∨ k ∈ shelf.map Prod.fst := by
  induction shelf with
  | nil => simp [push]
  | cons e rest ih =>
    obtain ⟨k', top⟩ := e
    by_cases same : k' = key
    · simp [push, same]
    · simp only [push, same, if_false, List.map_cons, List.mem_cons, ih]
      exact or_left_comm

theorem Wf.push (wf : Wf shelf) (key : Key) (a : α) : Wf (shelf.push key a) := by
  induction shelf with
  | nil => simp [Wf, Shelf.push]
  | cons e rest ih =>
    obtain ⟨k, top⟩ := e
    by_cases same : k = key
    · simpa [Wf, Shelf.push, same] using wf
    · have absent := (List.nodup_cons.mp wf).1
      simp only [Wf, Shelf.push, if_neg same, List.map_cons, List.nodup_cons, mem_keys_push,
        not_or]
      exact ⟨⟨same, absent⟩, ih wf.tail⟩

theorem toList_push (shelf : Shelf α) (key : Key) (a : α) :
    (shelf.push key a).toList.Perm (a :: shelf.toList) := by
  induction shelf with
  | nil => exact List.Perm.refl _
  | cons e rest ih =>
    obtain ⟨k, top⟩ := e
    by_cases same : k = key
    · simp only [push, same, if_true, toList, List.flatMap_cons, List.reverse_cons,
        List.append_assoc]
      exact List.perm_middle
    · simp only [push, same, if_false, toList, List.flatMap_cons]
      exact (ih.append_left _).trans List.perm_middle

/-! ## Popping -/

theorem pop?_eq_none_iff : shelf.pop? key = none ↔ shelf.stack key = [] := by
  induction shelf with
  | nil => simp [pop?, stack]
  | cons e rest ih =>
    obtain ⟨k, top⟩ := e
    rw [stack_cons]
    by_cases same : k = key
    · simp only [pop?, same, if_true]
      rcases top with _ | ⟨b, _ | ⟨c, below⟩⟩ <;> simp
    · simp only [pop?, same, Ne.symm same, if_false, Option.map_eq_none_iff, ih]

/-- What a pop says and does, at the head of the shelf or further down. -/
theorem pop?_cons {k : Key} {top : List α} {rest : Shelf α}
    (popped : pop? key ((k, top) :: rest) = some (a, left)) :
    (k = key ∧ top = [a] ∧ left = rest) ∨
      (k = key ∧ ∃ b below, top = a :: b :: below ∧ left = (k, b :: below) :: rest) ∨
      (k ≠ key ∧ ∃ left', rest.pop? key = some (a, left') ∧ left = (k, top) :: left') := by
  by_cases same : k = key
  · simp only [pop?, same, if_true] at popped
    rcases top with _ | ⟨b, _ | ⟨c, below⟩⟩
    · cases popped
    · cases popped
      exact Or.inl ⟨same, rfl, rfl⟩
    · cases popped
      exact Or.inr (Or.inl ⟨same, c, below, rfl, by rw [same]⟩)
  · simp only [pop?, same, if_false, Option.map_eq_some_iff] at popped
    obtain ⟨⟨b, left'⟩, popped, equal⟩ := popped
    cases equal
    exact Or.inr (Or.inr ⟨same, left', popped, rfl⟩)

theorem keys_pop?_sublist (popped : shelf.pop? key = some (a, left)) :
    (left.map Prod.fst).Sublist (shelf.map Prod.fst) := by
  induction shelf generalizing left with
  | nil => cases popped
  | cons e rest ih =>
    obtain ⟨k, top⟩ := e
    rcases pop?_cons popped with ⟨-, -, rfl⟩ | ⟨-, b, deeper, -, rfl⟩ | ⟨-, left', below, rfl⟩
    · exact List.sublist_cons_self ..
    · exact List.Sublist.refl _
    · exact (ih below).cons_cons k

theorem Wf.pop? (wf : Wf shelf) (popped : shelf.pop? key = some (a, left)) : Wf left :=
  wf.sublist (keys_pop?_sublist popped)

theorem toList_pop? (popped : shelf.pop? key = some (a, left)) :
    shelf.toList.Perm (a :: left.toList) := by
  induction shelf generalizing left with
  | nil => cases popped
  | cons e rest ih =>
    obtain ⟨k, top⟩ := e
    rcases pop?_cons popped with ⟨-, rfl, rfl⟩ | ⟨-, b, deeper, rfl, rfl⟩ | ⟨-, left', below, rfl⟩
    · exact List.Perm.refl _
    · simp only [toList, List.flatMap_cons]
      rw [List.reverse_cons, List.append_assoc]
      exact List.perm_middle
    · simp only [toList, List.flatMap_cons]
      exact ((ih below).append_left _).trans List.perm_middle

/-- A pop takes the top of its key's stack and leaves the other stacks alone. -/
theorem stack_pop? (wf : Wf shelf) (popped : shelf.pop? key = some (a, left)) (other : Key) :
    shelf.stack other = if other = key then a :: left.stack key else left.stack other := by
  induction shelf generalizing left with
  | nil => cases popped
  | cons e rest ih =>
    obtain ⟨k, top⟩ := e
    -- a stack that was used up is gone, and no other has its key
    have absent := (List.nodup_cons.mp wf).1
    rw [stack_cons]
    rcases pop?_cons popped with
      ⟨rfl, rfl, rfl⟩ | ⟨rfl, b, deeper, rfl, rfl⟩ | ⟨apart, left', below, rfl⟩
    · rw [stack_eq_nil_of_notMem absent]
    · simp only [stack_cons, if_true]
      split <;> rfl
    · rw [stack_cons, stack_cons, if_neg (Ne.symm apart), ih wf.tail below]
      by_cases same : other = k
      · simp [same, apart]
      · simp [same]

/-! ## Contents -/

theorem pop?_of_stack {below : List α} (wf : Wf shelf) (top : shelf.stack key = a :: below) :
    ∃ left, shelf.pop? key = some (a, left) := by
  cases popped : shelf.pop? key with
  | none =>
    rw [pop?_eq_none_iff.mp popped] at top
    cases top
  | some found =>
    have stack := stack_pop? wf popped key
    rw [if_pos rfl, top] at stack
    cases stack
    exact ⟨_, rfl⟩

theorem mem_toList_of_mem_stack (here : a ∈ shelf.stack key) : a ∈ shelf.toList := by
  induction shelf with
  | nil => cases here
  | cons e rest ih =>
    obtain ⟨k, top⟩ := e
    rw [stack_cons] at here
    simp only [toList, List.flatMap_cons, List.mem_append, List.mem_reverse]
    split at here
    · exact Or.inl here
    · exact Or.inr (ih here)

theorem mem_toList_iff (wf : Wf shelf) : a ∈ shelf.toList ↔ ∃ key, a ∈ shelf.stack key := by
  constructor
  · intro here
    induction shelf with
    | nil => cases here
    | cons e rest ih =>
      obtain ⟨k, top⟩ := e
      simp only [toList, List.flatMap_cons, List.mem_append, List.mem_reverse] at here
      rcases here with here | here
      · exact ⟨k, by rw [stack_cons, if_pos rfl]; exact here⟩
      · obtain ⟨key, here⟩ := ih wf.tail here
        have apart : key ≠ k := by
          intro same
          rw [same, stack_eq_nil_of_notMem (List.nodup_cons.mp wf).1] at here
          cases here
        exact ⟨key, by rw [stack_cons, if_neg apart]; exact here⟩
  · intro ⟨key, here⟩
    exact mem_toList_of_mem_stack here

theorem total_eq_length_toList (shelf : Shelf α) : shelf.total = shelf.toList.length := by
  induction shelf with
  | nil => rfl
  | cons e rest ih =>
    obtain ⟨k, top⟩ := e
    simp only [total, toList, List.flatMap_cons, List.length_append, List.length_reverse] at ih ⊢
    omega

theorem total_pop? (popped : shelf.pop? key = some (a, left)) : shelf.total = left.total + 1 := by
  rw [total_eq_length_toList, total_eq_length_toList, (toList_pop? popped).length_eq]
  rfl

/-! ## Entries -/

/-- No key has an empty stack. -/
def Stocked (shelf : Shelf α) : Prop := ∀ e ∈ shelf, e.2 ≠ []

theorem Stocked.nil : Stocked ([] : Shelf α) := nofun

theorem Stocked.tail {e : Key × List α} {rest : Shelf α} (stocked : Stocked (e :: rest)) :
    Stocked rest :=
  fun e' here => stocked e' (List.mem_cons_of_mem _ here)

theorem Stocked.cons {e : Key × List α} {rest : Shelf α} (first : e.2 ≠ [])
    (stocked : Stocked rest) : Stocked (e :: rest) := by
  intro e' here
  rcases List.mem_cons.mp here with rfl | later
  · exact first
  · exact stocked e' later

theorem Stocked.push (stocked : Stocked shelf) (key : Key) (a : α) :
    Stocked (shelf.push key a) := by
  induction shelf with
  | nil => exact .cons (List.cons_ne_nil _ _) .nil
  | cons e rest ih =>
    obtain ⟨k, top⟩ := e
    by_cases same : k = key
    · rw [Shelf.push, if_pos same]
      exact .cons (List.cons_ne_nil _ _) stocked.tail
    · rw [Shelf.push, if_neg same]
      exact .cons (stocked _ List.mem_cons_self) (ih stocked.tail)

theorem Stocked.pop? (stocked : Stocked shelf) (popped : shelf.pop? key = some (a, left)) :
    Stocked left := by
  induction shelf generalizing left with
  | nil => cases popped
  | cons e rest ih =>
    obtain ⟨k, top⟩ := e
    rcases pop?_cons popped with ⟨-, -, rfl⟩ | ⟨-, b, deeper, -, rfl⟩ | ⟨-, left', below, rfl⟩
    · exact stocked.tail
    · exact .cons (List.cons_ne_nil _ _) stocked.tail
    · exact .cons (stocked _ List.mem_cons_self) (ih stocked.tail below)

/-- The keys of a shelf are those under which there is something. -/
theorem Stocked.mem_keys_iff (stocked : Stocked shelf) :
    key ∈ shelf.map Prod.fst ↔ shelf.stack key ≠ [] := by
  induction shelf with
  | nil => simp [stack]
  | cons e rest ih =>
    obtain ⟨k, top⟩ := e
    rw [stack_cons, List.map_cons, List.mem_cons, ih stocked.tail]
    by_cases same : key = k
    · simpa [same] using stocked _ List.mem_cons_self
    · simp [same]

end StreamBroker.Shelf
