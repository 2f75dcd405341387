import StreamBroker.Slots

/-!
# Theory of slots

A table of slots is seen through three functions of a position: what is there
(`thing?`), its generation, and whether it is occupied. Main statements:

* **positions** — `insert` changes the position `next` only, `update` and `remove`
  that of their handle only (`thing?_insert`, `thing?_update`, `thing?_remove`);
  only `remove` moves a generation on (`generation_remove`);
* **well-formedness** — `Wf`: the free list names the vacant positions, each once,
  and `live` counts the others. The three operations keep it;
* **reach** — what a handle reaches afterwards (`get?_insert`, `get?_remove`): since
  `next` is vacant, no other handle notices;
* **contents** — `things` lists what the slots hold; the operations add and take one
  thing (`things_insert`, `things_remove`).
-/

namespace StreamBroker

/-- A handle is its slot and its generation. -/
theorem Handle.eq_of_slot {h k : Handle} (slot : h.slot = k.slot)
    (generation : h.generation = k.generation) : h = k := by
  obtain ⟨i, g⟩ := h
  obtain ⟨j, g'⟩ := k
  have index : i = j := UInt32.toNat_inj.mp slot
  have same : g = g' := generation
  rw [index, same]

namespace Slots

variable {α : Type} {t left : Slots α} {h k : Handle} {a : α}

/-! ## Positions -/

/-- What is at a position. -/
def thing? (t : Slots α) (i : Nat) : Option α := t.slots[i]?.bind Slot.entry

/-- Whether there is something at a position. -/
def occupied (t : Slots α) (i : Nat) : Bool := (t.thing? i).isSome

/-- The position that the next thing goes to. -/
def next (t : Slots α) : Nat :=
  match t.free with
  | i :: _ => i
  | [] => t.slots.length

/-- What is in the slots, by ascending position. -/
def things (t : Slots α) : List α := t.slots.filterMap Slot.entry

/-- The free list names the vacant positions, each once, and `live` counts the
occupied ones. -/
structure Wf (t : Slots α) : Prop where
  nodup : t.free.Nodup
  mem_free : ∀ i, i ∈ t.free ↔ i < t.slots.length ∧ t.thing? i = none
  live_eq : t.live = t.slots.countP fun slot => slot.entry.isSome
  live_add_free : t.live + t.free.length = t.slots.length

theorem Wf.live_eq_length (wf : t.Wf) : t.live = t.things.length := by
  rw [things, List.length_filterMap_eq_countP]
  exact wf.live_eq

theorem thing?_of_le {i : Nat} (out : t.slots.length ≤ i) : t.thing? i = none := by
  unfold thing?
  rw [List.getElem?_eq_none out]
  rfl

theorem lt_length_of_thing? {i : Nat} (here : t.thing? i = some a) : i < t.slots.length := by
  apply Nat.lt_of_not_le
  intro out
  rw [thing?_of_le out] at here
  cases here

theorem occupied_eq_false_iff {i : Nat} : t.occupied i = false ↔ t.thing? i = none := by
  simp [occupied]

theorem occupied_eq_true_iff {i : Nat} : t.occupied i = true ↔ ∃ a, t.thing? i = some a := by
  simp [occupied, Option.isSome_iff_exists]

theorem get?_eq (t : Slots α) (h : Handle) :
    t.get? h = if t.generation h.slot = h.generation then t.thing? h.slot else none := by
  unfold get? generation thing?
  cases t.slots[h.slot]? with
  | none => simp
  | some slot => simp

theorem thing?_of_get? (here : t.get? h = some a) :
    t.generation h.slot = h.generation ∧ t.thing? h.slot = some a := by
  rw [get?_eq] at here
  split at here
  · rename_i same
    exact ⟨same, here⟩
  · cases here

theorem get?_eq_none_of_thing? (vacant : t.thing? h.slot = none) : t.get? h = none := by
  rw [get?_eq, vacant, ite_self]

/-- The handle of a position names that position as long as indices are exact. -/
theorem slot_handleOf {i : Nat} (small : i < maxSlots) : (t.handleOf i).slot = i :=
  UInt32.toNat_ofNat_of_lt' small

theorem Wf.head_vacant (wf : t.Wf) {i : Nat} {rest : List Nat} (free : t.free = i :: rest) :
    i < t.slots.length ∧ t.thing? i = none :=
  (wf.mem_free i).mp (by rw [free]; exact List.mem_cons_self)

/-! ## Inserting -/

theorem insert_fst (t : Slots α) (a : α) : (t.insert a).1 = t.handleOf t.next := by
  unfold insert next
  cases t.free with
  | cons i rest => rfl
  | nil => simp [handleOf, generation]

/-- The next thing does not go where there is one. -/
theorem Wf.thing?_next (wf : t.Wf) : t.thing? t.next = none := by
  unfold next
  split
  · rename_i i rest free
    exact (wf.head_vacant free).2
  · exact thing?_of_le (Nat.le_refl _)

theorem Wf.length_insert (wf : t.Wf) (a : α) :
    (t.insert a).2.slots.length = max t.slots.length (t.next + 1) := by
  unfold insert next
  cases free : t.free with
  | cons i rest =>
    have inside := (wf.head_vacant free).1
    simp only [List.length_modify]
    omega
  | nil => simp

/-- As long as there are few slots, the next position is one that handles can tell. -/
theorem Wf.next_lt (wf : t.Wf) (few : (t.insert a).2.slots.length ≤ maxSlots) :
    t.next < maxSlots := by
  rw [wf.length_insert] at few
  omega

/-- A slot is added only when none is vacant. -/
theorem Wf.occupied_of_length_lt (wf : t.Wf) (grown : t.slots.length < (t.insert a).2.slots.length)
    {i : Nat} (inside : i < t.slots.length) : t.occupied i = true := by
  have full : t.free = [] := by
    rw [wf.length_insert] at grown
    unfold next at grown
    split at grown
    · rename_i j rest free
      have inside := (wf.head_vacant free).1
      omega
    · assumption
  apply Bool.of_not_eq_false
  intro vacant
  have listed := (wf.mem_free i).mpr ⟨inside, occupied_eq_false_iff.mp vacant⟩
  rw [full] at listed
  cases listed

theorem thing?_insert (wf : t.Wf) (a : α) (j : Nat) :
    (t.insert a).2.thing? j = if j = t.next then some a else t.thing? j := by
  unfold insert next thing?
  cases free : t.free with
  | cons i rest =>
    have inside := (wf.head_vacant free).1
    simp only [List.getElem?_modify]
    by_cases here : j = i
    · subst here
      simp [List.getElem?_eq_getElem inside]
    · simp [here, Ne.symm here]
  | nil =>
    rcases Nat.lt_trichotomy j t.slots.length with inside | here | beyond
    · simp [List.getElem?_append_left inside, Nat.ne_of_lt inside]
    · simp [here]
    · have outside : (t.slots ++ [Slot.mk 0 (some a)]).length ≤ j := by
        rw [List.length_append]
        exact beyond
      show (t.slots ++ [Slot.mk 0 (some a)])[j]?.bind Slot.entry =
        if j = t.slots.length then some a else t.slots[j]?.bind Slot.entry
      rw [List.getElem?_eq_none outside, List.getElem?_eq_none (Nat.le_of_lt beyond),
        if_neg (Nat.ne_of_gt beyond)]

theorem generation_insert (t : Slots α) (a : α) (j : Nat) :
    (t.insert a).2.generation j = t.generation j := by
  unfold insert generation
  cases free : t.free with
  | cons i rest =>
    simp only [List.getElem?_modify]
    cases t.slots[j]? with
    | none => simp
    | some slot => by_cases here : i = j <;> simp [here]
  | nil =>
    rcases Nat.lt_trichotomy j t.slots.length with inside | here | beyond
    · simp [List.getElem?_append_left inside]
    · simp [here]
    · have outside : (t.slots ++ [Slot.mk 0 (some a)]).length ≤ j := by
        rw [List.length_append]
        exact beyond
      simp only [List.getElem?_eq_none outside, List.getElem?_eq_none (Nat.le_of_lt beyond)]

theorem things_insert (wf : t.Wf) (a : α) : (t.insert a).2.things.Perm (a :: t.things) := by
  have vacant := wf.thing?_next
  unfold insert next things thing? at *
  cases free : t.free with
  | cons i rest =>
    simp only [free] at vacant ⊢
    have inside := (wf.head_vacant free).1
    -- the slot that is filled contributed nothing to the contents before
    obtain ⟨before, slot, after, split, rfl, modified⟩ :=
      List.exists_of_modify (fun slot : Slot α => { slot with entry := some a }) inside
    rw [modified]
    rw [split] at vacant ⊢
    have empty : slot.entry = none := by simpa using vacant
    simp [empty]
  | nil =>
    simp only [List.filterMap_append]
    exact List.perm_append_singleton a _

/-- Inserting keeps the books. -/
theorem Wf.insert (wf : t.Wf) (a : α) : (t.insert a).2.Wf := by
  have length := wf.length_insert a
  have entry := thing?_insert wf a
  -- counting occupied slots is counting things, of which there is one more
  have contents := (things_insert wf a).length_eq
  simp only [things, List.length_cons, List.length_filterMap_eq_countP] at contents
  have live := wf.live_eq
  have total := wf.live_add_free
  unfold Slots.insert next at *
  cases free : t.free with
  | cons i rest =>
    simp only [free] at length entry contents total ⊢
    have inside := (wf.head_vacant free).1
    have nodup := wf.nodup
    rw [free, List.nodup_cons] at nodup
    refine ⟨nodup.2, fun j => ?_, by simp only; omega, ?_⟩
    · have listed := wf.mem_free j
      simp only [free, List.mem_cons] at listed
      rw [entry j]
      by_cases here : j = i
      · subst here
        simp [nodup.1]
      · simpa [here] using listed
    · simp only [List.length_cons, List.length_modify] at total ⊢
      omega
  | nil =>
    simp only [free] at length entry contents total ⊢
    refine ⟨List.nodup_nil, fun j => ?_, by simp only; omega, ?_⟩
    · have listed := wf.mem_free j
      simp only [free] at listed
      rw [entry j]
      by_cases here : j = t.slots.length
      · simp [here]
      · simp only [List.length_append, List.length_singleton, here, if_false]
        constructor
        · intro nothing
          cases nothing
        · intro ⟨inside, vacant⟩
          exact listed.mpr ⟨by omega, vacant⟩
    · simp only [List.length_nil, List.length_append, List.length_singleton] at total ⊢
      omega

/-- A new handle reaches what was inserted, and the others what they did before. -/
theorem get?_insert (wf : t.Wf) (a : α) (few : (t.insert a).2.slots.length ≤ maxSlots)
    (h : Handle) : (t.insert a).2.get? h = if h = (t.insert a).1 then some a else t.get? h := by
  have small := wf.next_lt few
  rw [insert_fst, get?_eq, thing?_insert wf, generation_insert, get?_eq t]
  by_cases here : h.slot = t.next
  · -- an older handle of the position reached nothing before, as the position was vacant
    have same : t.generation t.next = h.generation ↔ h = t.handleOf t.next := by
      constructor
      · intro current
        apply Handle.eq_of_slot
        · rw [slot_handleOf small, here]
        · exact current.symm
      · intro equal
        rw [equal]
        rfl
    simp only [here, same, if_true, wf.thing?_next, ite_self]
  · have other : h ≠ t.handleOf t.next := by
      intro equal
      rw [equal, slot_handleOf small] at here
      exact here rfl
    simp only [here, other, if_false]

/-- A new handle reached nothing before. -/
theorem get?_insert_fst (wf : t.Wf) (few : (t.insert a).2.slots.length ≤ maxSlots) :
    t.get? (t.insert a).1 = none := by
  have small := wf.next_lt few
  apply get?_eq_none_of_thing?
  rw [insert_fst, slot_handleOf small]
  exact wf.thing?_next

/-- What is reached stays within reach: it is not in the slot that is filled. -/
theorem get?_insert_of_get? (wf : t.Wf) {b : α} (here : t.get? h = some a) :
    (t.insert b).2.get? h = some a := by
  obtain ⟨current, held⟩ := thing?_of_get? here
  have other : h.slot ≠ t.next := by
    intro same
    rw [same, wf.thing?_next] at held
    cases held
  rw [get?_eq, generation_insert, thing?_insert wf, if_pos current, if_neg other]
  exact held

/-! ## Changing -/

theorem thing?_update (t : Slots α) (h : Handle) (f : α → α) (j : Nat) :
    (t.update h f).thing? j =
      if j = h.slot ∧ t.contains h then (t.thing? j).map f else t.thing? j := by
  unfold update thing?
  by_cases here : t.contains h
  · simp only [here, if_true, List.getElem?_modify, and_true]
    by_cases same : j = h.slot
    · subst same
      cases t.slots[h.slot]? <;> simp
    · simp [same, Ne.symm same]
  · simp [here]

theorem generation_update (t : Slots α) (h : Handle) (f : α → α) (j : Nat) :
    (t.update h f).generation j = t.generation j := by
  unfold update
  split
  · unfold generation
    simp only [List.getElem?_modify]
    cases t.slots[j]? with
    | none => simp
    | some slot => by_cases here : h.slot = j <;> simp [here]
  · rfl

theorem length_update (t : Slots α) (h : Handle) (f : α → α) :
    (t.update h f).slots.length = t.slots.length := by
  unfold update
  split <;> simp

theorem free_update (t : Slots α) (h : Handle) (f : α → α) : (t.update h f).free = t.free := by
  unfold update
  split <;> rfl

theorem live_update (t : Slots α) (h : Handle) (f : α → α) : (t.update h f).live = t.live := by
  unfold update
  split <;> rfl

/-- A change that a view of the things does not show leaves the view as it was. -/
theorem things_update {β : Type} (t : Slots α) (h : Handle) {f : α → α} (view : α → β)
    (hidden : ∀ a, view (f a) = view a) :
    (t.update h f).things.map view = t.things.map view := by
  unfold update
  split
  · rename_i here
    obtain ⟨a, here⟩ := Option.isSome_iff_exists.mp here
    have inside := lt_length_of_thing? (thing?_of_get? here).2
    obtain ⟨before, slot, after, split, -, modified⟩ :=
      List.exists_of_modify (fun slot : Slot α => { slot with entry := slot.entry.map f }) inside
    unfold things
    simp only [modified]
    rw [split]
    cases held : slot.entry with
    | none => simp [held]
    | some b => simp [held, hidden]
  · rfl

/-- Changing a thing keeps the books. -/
theorem Wf.update (wf : t.Wf) (h : Handle) (f : α → α) : (t.update h f).Wf := by
  -- the view that forgets the things shows their number
  have contents : ((t.update h f).things.map fun _ => ()).length = (t.things.map fun _ => ()).length :=
    congrArg List.length (things_update t h (fun _ => ()) fun _ => rfl)
  simp only [things, List.length_map, List.length_filterMap_eq_countP] at contents
  refine ⟨?_, fun j => ?_, ?_, ?_⟩
  · rw [free_update]
    exact wf.nodup
  · rw [free_update, length_update, thing?_update, wf.mem_free j]
    split <;> simp
  · rw [live_update, contents]
    exact wf.live_eq
  · rw [free_update, length_update, live_update]
    exact wf.live_add_free

theorem get?_update (t : Slots α) (h k : Handle) (f : α → α) :
    (t.update h f).get? k = if k = h then (t.get? k).map f else t.get? k := by
  rw [get?_eq, thing?_update, generation_update, get?_eq t k]
  by_cases current : t.generation k.slot = k.generation
  · by_cases equal : k = h
    · subst equal
      simp only [current, if_true, true_and]
      split
      · rfl
      · rename_i absent
        simp only [contains, get?_eq, current, if_true, Bool.not_eq_true, Option.isSome_eq_false_iff,
          Option.isNone_iff_eq_none] at absent
        rw [absent]
        rfl
    · -- two current handles of one position are the same
      have apart : ¬(k.slot = h.slot ∧ t.contains h = true) := by
        intro ⟨slot, here⟩
        obtain ⟨a, here⟩ := Option.isSome_iff_exists.mp here
        apply equal
        apply Handle.eq_of_slot slot
        rw [← current, slot, (thing?_of_get? here).1]
      simp only [current, equal, apart, if_true, if_false]
  · simp [current]

/-! ## Removing -/

theorem remove_eq (here : t.get? h = some a) :
    t.remove h = some (a,
      ⟨t.slots.modify h.slot fun slot => ⟨slot.generation + 1, none⟩, h.slot :: t.free,
        t.live - 1⟩) := by
  unfold remove
  rw [here]

/-- What a removal says and does. -/
theorem remove_spec (removed : t.remove h = some (a, left)) :
    t.get? h = some a ∧
      left = ⟨t.slots.modify h.slot fun slot => ⟨slot.generation + 1, none⟩, h.slot :: t.free,
        t.live - 1⟩ := by
  unfold remove at removed
  split at removed
  · cases removed
  · rename_i b here
    cases removed
    exact ⟨here, rfl⟩

theorem length_remove (removed : t.remove h = some (a, left)) :
    left.slots.length = t.slots.length := by
  rw [(remove_spec removed).2]
  exact List.length_modify ..

theorem thing?_remove (removed : t.remove h = some (a, left)) (j : Nat) :
    left.thing? j = if j = h.slot then none else t.thing? j := by
  rw [(remove_spec removed).2]
  unfold thing?
  simp only [List.getElem?_modify]
  by_cases here : j = h.slot
  · subst here
    cases t.slots[h.slot]? <;> simp
  · simp [here, Ne.symm here]

theorem generation_remove (removed : t.remove h = some (a, left)) (j : Nat) :
    left.generation j = if j = h.slot then t.generation j + 1 else t.generation j := by
  have inside := lt_length_of_thing? (thing?_of_get? (remove_spec removed).1).2
  rw [(remove_spec removed).2]
  unfold generation
  simp only [List.getElem?_modify]
  by_cases here : j = h.slot
  · subst here
    simp [List.getElem?_eq_getElem inside]
  · simp [here, Ne.symm here]

theorem things_remove (removed : t.remove h = some (a, left)) :
    t.things.Perm (a :: left.things) := by
  obtain ⟨here, rfl⟩ := remove_spec removed
  have entry := (thing?_of_get? here).2
  obtain ⟨before, slot, after, split, length, modified⟩ :=
    List.exists_of_modify (fun slot : Slot α => ⟨slot.generation + 1, none⟩)
      (lt_length_of_thing? entry)
  unfold things
  simp only [modified]
  rw [split]
  have holds : slot.entry = some a := by
    unfold thing? at entry
    rw [split, ← length] at entry
    simpa using entry
  simp [holds]

/-- Removing finds something in use, so the count does not run below zero. -/
theorem Wf.live_remove (wf : t.Wf) (removed : t.remove h = some (a, left)) :
    left.live + 1 = t.live := by
  have contents := (things_remove removed).length_eq
  rw [← wf.live_eq_length, List.length_cons] at contents
  rw [(remove_spec removed).2]
  simp only
  omega

/-- Removing keeps the books. -/
theorem Wf.remove (wf : t.Wf) (removed : t.remove h = some (a, left)) : left.Wf := by
  have here := (thing?_of_get? (remove_spec removed).1).2
  have contents := (things_remove removed).length_eq
  simp only [things, List.length_cons, List.length_filterMap_eq_countP] at contents
  have live := wf.live_eq
  have total := wf.live_add_free
  have free : left.free = h.slot :: t.free := by rw [(remove_spec removed).2]
  have counted := wf.live_remove removed
  refine ⟨?_, fun j => ?_, by omega, ?_⟩
  · rw [free, List.nodup_cons]
    refine ⟨?_, wf.nodup⟩
    intro listed
    rw [((wf.mem_free _).mp listed).2] at here
    cases here
  · rw [free, List.mem_cons, wf.mem_free j, length_remove removed, thing?_remove removed]
    by_cases same : j = h.slot
    · simp [same, lt_length_of_thing? here]
    · simp [same]
  · rw [free, List.length_cons, length_remove removed]
    omega

/-- The removed handle reaches nothing any more, and the others what they did before. -/
theorem get?_remove (removed : t.remove h = some (a, left)) (k : Handle) :
    left.get? k = if k = h then none else t.get? k := by
  have current := (thing?_of_get? (remove_spec removed).1).1
  by_cases equal : k = h
  · rw [equal, get?_remove_self removed, if_pos rfl]
  · rw [if_neg equal, get?_eq, thing?_remove removed, generation_remove removed, get?_eq t]
    by_cases slot : k.slot = h.slot
    · -- the position has one current generation, and that is the removed handle's
      have stale : ¬t.generation k.slot = k.generation := by
        intro same
        apply equal
        apply Handle.eq_of_slot slot
        rw [← same, slot, current]
      rw [if_neg stale]
      simp only [slot, if_true, ite_self]
    · simp only [slot, if_false]

theorem get?_of_remove (removed : t.remove h = some (a, left)) {b : α}
    (here : left.get? k = some b) : t.get? k = some b := by
  rw [get?_remove removed] at here
  split at here
  · cases here
  · exact here

end Slots

end StreamBroker
