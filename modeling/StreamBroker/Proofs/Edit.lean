import StreamBroker.Proofs.Slots

/-!
# Edits of slots

What one operation can do to a table of slots: nothing, one `insert`, one `update`, or
a removal of several handles one after the other (`removeEach`), which passes over
those that reach nothing at their turn. Main statements:

* **contents** — the removed things and those that are left are the things there were
  (`things_removeEach`); removing all `handles` takes the things in their order and
  leaves none (`removeEach_handles`), as long as indices are exact;
* **edits** — every edit keeps the table well-formed and drops no slot (`Edit.wf`,
  `Edit.length_le`); it adds one only when all are occupied (`Edit.occupied_of_lt`);
* **generations** — an edit moves a generation on exactly when it vacates the position
  (`Edit.generation`): within one edit nothing is put in again.
-/

namespace StreamBroker.Slots

variable {α : Type} {t left : Slots α} {h k : Handle} {a : α}

/-- Takes out what several handles reach, one after the other. -/
def removeEach (t : Slots α) : List Handle → List α × Slots α
  | [] => ([], t)
  | h :: rest =>
    match t.remove h with
    | none => t.removeEach rest
    | some (a, left) =>
      let others := left.removeEach rest
      (a :: others.1, others.2)

theorem removeEach_cons_none (absent : t.remove h = none) (rest : List Handle) :
    t.removeEach (h :: rest) = t.removeEach rest := by
  simp only [removeEach, absent]

theorem removeEach_cons_some (removed : t.remove h = some (a, left)) (rest : List Handle) :
    t.removeEach (h :: rest) = (a :: (left.removeEach rest).1, (left.removeEach rest).2) := by
  simp only [removeEach, removed]

/-- What one removal keeps, several keep. -/
theorem removeEach_preserves {P : Slots α → Prop}
    (step : ∀ {t left : Slots α} {h : Handle} {a : α}, t.remove h = some (a, left) → P t → P left)
    (hs : List Handle) (start : P t) : P (t.removeEach hs).2 := by
  induction hs generalizing t with
  | nil => exact start
  | cons h rest ih =>
    cases removed : t.remove h with
    | none =>
      rw [removeEach_cons_none removed]
      exact ih start
    | some found =>
      obtain ⟨a, left⟩ := found
      rw [removeEach_cons_some removed]
      exact ih (step removed start)

/-- Removing several things keeps the books. -/
theorem Wf.removeEach (wf : t.Wf) (hs : List Handle) : (t.removeEach hs).2.Wf :=
  removeEach_preserves (fun removed wf => wf.remove removed) hs wf

theorem length_removeEach (t : Slots α) (hs : List Handle) :
    (t.removeEach hs).2.slots.length = t.slots.length :=
  removeEach_preserves (P := fun other => other.slots.length = t.slots.length)
    (fun removed same => (length_remove removed).trans same) hs rfl

theorem things_removeEach (t : Slots α) (hs : List Handle) :
    t.things.Perm ((t.removeEach hs).1 ++ (t.removeEach hs).2.things) := by
  induction hs generalizing t with
  | nil => exact List.Perm.refl _
  | cons h rest ih =>
    cases removed : t.remove h with
    | none =>
      rw [removeEach_cons_none removed]
      exact ih t
    | some found =>
      obtain ⟨a, left⟩ := found
      rw [removeEach_cons_some removed]
      exact (things_remove removed).trans ((ih left).cons a)

/-- What can be reached afterwards could be reached before. -/
theorem get?_of_removeEach (hs : List Handle) (here : (t.removeEach hs).2.get? k = some a) :
    t.get? k = some a := by
  have back : ∀ b, (t.removeEach hs).2.get? k = some b → t.get? k = some b :=
    removeEach_preserves (P := fun other => ∀ b, other.get? k = some b → t.get? k = some b)
      (fun removed back b here => back b (get?_of_remove removed here)) hs fun _ here => here
  exact back a here

theorem thing?_removeEach_of_none (hs : List Handle) {i : Nat} (vacant : t.thing? i = none) :
    (t.removeEach hs).2.thing? i = none :=
  removeEach_preserves (P := fun other => other.thing? i = none)
    (fun removed vacant => by rw [thing?_remove removed, vacant, ite_self]) hs vacant

/-- A position's generation moves on exactly when the position is vacated. -/
theorem generation_removeEach (t : Slots α) (hs : List Handle) (i : Nat) :
    (t.removeEach hs).2.generation i =
      if t.occupied i ∧ (t.removeEach hs).2.occupied i = false then t.generation i + 1
      else t.generation i := by
  induction hs generalizing t with
  | nil => simp [removeEach]
  | cons h rest ih =>
    cases removed : t.remove h with
    | none =>
      rw [removeEach_cons_none removed]
      exact ih t
    | some found =>
      obtain ⟨a, left⟩ := found
      rw [removeEach_cons_some removed, ih left, generation_remove removed]
      by_cases here : i = h.slot
      · -- vacated by the first removal, and never occupied again on the way
        have before : t.occupied i = true := by
          rw [here]
          exact occupied_eq_true_iff.mpr ⟨a, (thing?_of_get? (remove_spec removed).1).2⟩
        have vacant : left.thing? i = none := by rw [thing?_remove removed, if_pos here]
        have after : (left.removeEach rest).2.occupied i = false :=
          occupied_eq_false_iff.mpr (thing?_removeEach_of_none rest vacant)
        have meanwhile : left.occupied i = false := occupied_eq_false_iff.mpr vacant
        rw [if_pos here, before, meanwhile, after]
        simp
      · have same : left.occupied i = t.occupied i := by
          unfold occupied
          rw [thing?_remove removed, if_neg here]
        simp only [here, same, if_false]

/-! ## Everything -/

theorem modify_length_append {β : Type} (f : β → β) (front : List β) (b : β) (back : List β) :
    (front ++ b :: back).modify front.length f = front ++ f b :: back :=
  List.modifyTailIdx_add (List.modifyHead f) 0 front (b :: back)

/-- The handles of a stretch of slots that starts at a position. -/
def handlesFrom (i : Nat) (slots : List (Slot α)) : List Handle :=
  (slots.zipIdx i).filterMap fun (slot, i) =>
    slot.entry.map fun _ => ⟨UInt32.ofNat i, slot.generation⟩

theorem handlesFrom_cons_none {slot : Slot α} (vacant : slot.entry = none) (i : Nat)
    (slots : List (Slot α)) : handlesFrom i (slot :: slots) = handlesFrom (i + 1) slots := by
  unfold handlesFrom
  simp [vacant]

theorem handlesFrom_cons_some {slot : Slot α} (held : slot.entry = some a) (i : Nat)
    (slots : List (Slot α)) :
    handlesFrom i (slot :: slots) =
      ⟨UInt32.ofNat i, slot.generation⟩ :: handlesFrom (i + 1) slots := by
  unfold handlesFrom
  simp [held]

/-- Removing all handles of the slots behind a cleared front leaves them clear too. -/
theorem removeEach_handlesFrom (front back : List (Slot α)) {i : Nat} (start : front.length = i)
    (shape : t.slots = front ++ back) (clear : front.filterMap Slot.entry = [])
    (few : t.slots.length ≤ maxSlots) :
    (t.removeEach (handlesFrom i back)).1 = back.filterMap Slot.entry ∧
      (t.removeEach (handlesFrom i back)).2.things = [] := by
  -- the slots still to come shrink; those passed are clear and stay in front
  induction back generalizing front i t with
  | nil =>
    have nothing : t.things = [] := by
      unfold things
      rw [shape, List.append_nil, clear]
    exact ⟨rfl, nothing⟩
  | cons slot back ih =>
    cases held : slot.entry with
    | none =>
      have rest := ih (t := t) (i := i + 1) (front ++ [slot]) (by simp [start])
        (by rw [shape, List.append_assoc]; rfl) (by simp [clear, held]) few
      rw [handlesFrom_cons_none held, List.filterMap_cons_none held]
      exact rest
    | some a =>
      have small : i < maxSlots := by
        rw [shape, List.length_append, List.length_cons] at few
        omega
      have position : Handle.slot ⟨UInt32.ofNat i, slot.generation⟩ = front.length := by
        rw [start]
        exact UInt32.toNat_ofNat_of_lt' small
      have here : t.get? ⟨UInt32.ofNat i, slot.generation⟩ = some a := by
        rw [get?_eq_some_iff]
        exact ⟨slot, by rw [position, shape]; simp, rfl, held⟩
      obtain ⟨left, removed, cleared⟩ : ∃ left,
          t.remove ⟨UInt32.ofNat i, slot.generation⟩ = some (a, left) ∧
            left.slots = (front ++ [⟨slot.generation + 1, none⟩]) ++ back := by
        refine ⟨_, remove_eq here, ?_⟩
        rw [position, shape, modify_length_append, List.append_assoc]
        rfl
      have rest := ih (i := i + 1) (front ++ [⟨slot.generation + 1, none⟩]) (by simp [start])
        cleared (by simp [clear]) (by rw [length_remove removed]; exact few)
      rw [handlesFrom_cons_some held, removeEach_cons_some removed, List.filterMap_cons_some held]
      exact ⟨congrArg (a :: ·) rest.1, rest.2⟩

/-- Removing all handles takes all things, in their order, and leaves none. -/
theorem removeEach_handles (few : t.slots.length ≤ maxSlots) :
    (t.removeEach t.handles).1 = t.things ∧ (t.removeEach t.handles).2.things = [] :=
  removeEach_handlesFrom [] t.slots rfl rfl rfl few

theorem thing?_of_things_eq_nil (nothing : t.things = []) (i : Nat) : t.thing? i = none := by
  unfold things at nothing
  rw [List.filterMap_eq_nil_iff] at nothing
  unfold thing?
  cases slot : t.slots[i]? with
  | none => rfl
  | some s => exact nothing s (List.mem_of_getElem? slot)

theorem get?_of_things_eq_nil (nothing : t.things = []) (h : Handle) : t.get? h = none :=
  get?_eq_none_of_thing? (thing?_of_things_eq_nil nothing h.slot)

/-! ## Edits -/

/-- What one operation can do to a table. -/
inductive Edit (t : Slots α) : Slots α → Prop
  | same : Edit t t
  | inserted (a : α) : Edit t (t.insert a).2
  | changed (h : Handle) (f : α → α) : Edit t (t.update h f)
  | removed (hs : List Handle) : Edit t (t.removeEach hs).2

namespace Edit

variable {t' : Slots α}

/-- A single removal is an edit. -/
theorem of_remove (removed : t.remove h = some (a, left)) : Edit t left := by
  have edit := Edit.removed (t := t) [h]
  rw [removeEach_cons_some removed] at edit
  exact edit

/-- Every edit keeps the books. -/
theorem wf (wf : t.Wf) (edit : Edit t t') : t'.Wf := by
  cases edit with
  | same => exact wf
  | inserted a => exact wf.insert a
  | changed h f => exact wf.update h f
  | removed hs => exact wf.removeEach hs

/-- No edit drops a slot. -/
theorem length_le (wf : t.Wf) (edit : Edit t t') : t.slots.length ≤ t'.slots.length := by
  cases edit with
  | same => exact Nat.le_refl _
  | inserted a =>
    rw [wf.length_insert]
    exact Nat.le_max_left ..
  | changed h f => exact Nat.le_of_eq (length_update t h f).symm
  | removed hs => exact Nat.le_of_eq (length_removeEach t hs).symm

/-- An edit adds a slot only when every slot is occupied. -/
theorem occupied_of_lt (wf : t.Wf) (edit : Edit t t')
    (grown : t.slots.length < t'.slots.length) {i : Nat} (inside : i < t.slots.length) :
    t.occupied i = true := by
  cases edit with
  | same => exact absurd grown (Nat.lt_irrefl _)
  | inserted a => exact wf.occupied_of_length_lt grown inside
  | changed h f =>
    rw [length_update] at grown
    exact absurd grown (Nat.lt_irrefl _)
  | removed hs =>
    rw [length_removeEach] at grown
    exact absurd grown (Nat.lt_irrefl _)

/-- An edit moves a position's generation on exactly when it vacates the position. -/
theorem generation (wf : t.Wf) (edit : Edit t t') (i : Nat) :
    t'.generation i =
      if t.occupied i ∧ t'.occupied i = false then t.generation i + 1 else t.generation i := by
  cases edit with
  | same => simp
  | inserted a =>
    have stays : t.occupied i = true → (t.insert a).2.occupied i = true := by
      unfold occupied
      rw [thing?_insert wf]
      split <;> simp
    rw [generation_insert, if_neg]
    rintro ⟨before, after⟩
    rw [stays before] at after
    cases after
  | changed h f =>
    have same : (t.update h f).occupied i = t.occupied i := by
      unfold occupied
      rw [thing?_update]
      split <;> simp
    rw [generation_update, same]
    simp
  | removed hs => exact generation_removeEach t hs i

end Edit

end StreamBroker.Slots
