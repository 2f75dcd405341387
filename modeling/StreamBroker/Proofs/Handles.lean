import StreamBroker.Proofs.Ledger

/-!
# Handles over a run

A handle is given out once, and from then on stands for what the ledger says. Main
statements:

* **generations** — the generation of a position is the number of times that it was
  vacated, as far as a generation can count (`Spent.generation`);
* **freshness** — while no position was vacated so often that its generation came round,
  no handle is given out twice (`run_issued`);
* **refinement** — `handles_refine_ledger`: at every point of a run the registry answers
  every handle, also one that was never given out, as the ledger of the history does.
-/

namespace StreamBroker

/-- The handle that an answer gives out. -/
def Answer.handle? : Answer → Option Handle
  | .opened o => some o.handle
  | _ => none

theorem Answer.handle?_eq_some_iff {answer : Answer} {h : Handle} :
    answer.handle? = some h ↔ ∃ o, answer = .opened o ∧ o.handle = h := by
  cases answer <;> simp [handle?]

theorem Answer.handle?_eq_none {answer : Answer} (other : ∀ o, answer ≠ .opened o) :
    answer.handle? = none := by
  cases answer with
  | opened o => exact absurd rfl (other o)
  | nothing | fault | written | verdict | count | accepted | got | ended => rfl

/-- The handles that were given out, in order. -/
def issued (answers : List Answer) : List Handle := answers.filterMap Answer.handle?

theorem issued_cons (answer : Answer) (answers : List Answer) :
    issued (answer :: answers) = answer.handle?.toList ++ issued answers := by
  unfold issued
  cases handle : answer.handle? with
  | none => rw [List.filterMap_cons_none handle]; rfl
  | some h => rw [List.filterMap_cons_some handle]; rfl

/-- How often a position is vacated between two tables that one edit leads over. -/
def Slots.vacated {α : Type} (t t' : Slots α) (i : Nat) : Nat :=
  if t.occupied i ∧ t'.occupied i = false then 1 else 0

/-- How often a position is vacated in a run. -/
def Broker.frees (b : Broker) (i : Nat) : List Operation → Nat
  | [] => 0
  | op :: rest =>
    let after := (b.step op).state
    b.registry.slots.vacated after.registry.slots i + after.frees i rest

/-! ## Spent handles -/

/-- With `count i` times that position `i` was vacated, the generations count as far as
they can, and the handles given out are either behind the count or still held. -/
structure Spent (t : Slots Lease) (count : Nat → Nat) (given : List Handle) : Prop where
  generation : ∀ i, t.generation i = UInt32.ofNat (count i)
  behind : ∀ h ∈ given, h.generation.toNat < count h.slot ∨
    (h.generation.toNat = count h.slot ∧ t.occupied h.slot = true)
  nodup : given.Nodup

namespace Spent

variable {t t' : Slots Lease} {count : Nat → Nat} {given : List Handle}

theorem generation_toNat (spent : Spent t count given) {i : Nat} (small : count i < UInt32.size) :
    (t.generation i).toNat = count i := by
  rw [spent.generation]
  exact UInt32.toNat_ofNat_of_lt' small

/-- The handle of the position that the next lease goes to was not given out yet. -/
theorem handleOf_next_notMem (spent : Spent t count given) (wf : t.Wf)
    (small : count t.next < UInt32.size) (few : t.next < Slots.maxSlots) :
    t.handleOf t.next ∉ given := by
  -- the handle carries the count of its position, and the position is vacant
  intro old
  have slot := t.slot_handleOf few
  have current : (t.handleOf t.next).generation.toNat = count t.next :=
    spent.generation_toNat small
  rcases spent.behind _ old with passed | ⟨-, held⟩
  · rw [slot, current] at passed
    exact Nat.lt_irrefl _ passed
  · rw [slot, Slots.occupied_eq_false_iff.mpr wf.thing?_next] at held
    cases held

/-- One edit moves the generations and the counts on alike. -/
theorem edit (spent : Spent t count given) (wf : t.Wf) (edit : Slots.Edit t t') :
    Spent t' (fun i => count i + t.vacated t' i) given := by
  refine ⟨fun i => ?_, fun h old => ?_, spent.nodup⟩
  · rw [edit.generation wf i, spent.generation]
    unfold Slots.vacated
    split
    · rw [UInt32.ofNat_add]
      rfl
    · rfl
  · have before := spent.behind h old
    unfold Slots.vacated
    cases after : t'.occupied h.slot with
    | false =>
      cases held : t.occupied h.slot with
      | false =>
        rw [held] at before
        simpa using before
      | true =>
        simp only [and_self, if_true]
        omega
    | true =>
      simp only [Bool.true_eq_false, and_false, if_false, and_true]
      omega

/-- What is given out by an insertion was not given out before. -/
theorem insert (spent : Spent t count given) (wf : t.Wf) (lease : Lease)
    (small : count t.next < UInt32.size) (few : t.next < Slots.maxSlots) :
    Spent (t.insert lease).2 (fun i => count i + t.vacated (t.insert lease).2 i)
      (given ++ [(t.insert lease).1]) := by
  have later := spent.edit wf (.inserted lease)
  refine ⟨later.generation, fun h here => ?_, ?_⟩
  · rcases List.mem_append.mp here with old | new
    · exact later.behind h old
    · have occupied : (t.insert lease).2.occupied t.next = true :=
        Slots.occupied_eq_true_iff.mpr ⟨lease, by rw [Slots.thing?_insert wf, if_pos rfl]⟩
      have same : t.vacated (t.insert lease).2 t.next = 0 := by
        unfold Slots.vacated
        rw [occupied]
        simp
      rw [List.mem_singleton.mp new, Slots.insert_fst, t.slot_handleOf few]
      refine Or.inr ⟨?_, occupied⟩
      rw [same]
      exact spent.generation_toNat small
  · rw [Slots.insert_fst]
    refine List.nodup_append.mpr ⟨spent.nodup, by simp, fun h old h' new equal => ?_⟩
    rw [equal, List.mem_singleton.mp new] at old
    exact spent.handleOf_next_notMem wf small few old

end Spent

namespace Registry

variable {r : Registry}

theorem close_answer (r : Registry) (h : Handle) : (r.close h).answer = (r.get? h).isSome := by
  cases here : r.get? h with
  | none => rw [close_none here]; rfl
  | some lease => rw [close_some (Slots.remove_eq here)]; rfl

theorem release_answer (r : Registry) (h : Handle) : (r.release h).answer = (r.get? h).isSome := by
  cases here : r.get? h with
  | none => rw [release_none here]; rfl
  | some lease =>
    unfold release
    rw [Slots.remove_eq here]
    cases key : lease.key <;> simp [key]

end Registry

namespace Broker

/-- One step gives out at most one handle, and none twice. -/
theorem step_spent {b : Broker} {count : Nat → Nat} {given : List Handle}
    (sound : b.registry.books.Sound) (spent : Spent b.registry.slots count given) (op : Operation)
    (small : ∀ i, count i < UInt32.size)
    (few : (b.step op).state.registry.slots.slots.length ≤ Slots.maxSlots) :
    Spent (b.step op).state.registry.slots
      (fun i => count i + b.registry.slots.vacated (b.step op).state.registry.slots i)
      (given ++ (b.step op).answer.handle?.toList) := by
  have wf : b.registry.slots.Wf := sound.slots
  have move := step_move sound op
  have quiet := spent.edit wf move.edit
  cases answer : (b.step op).answer with
  | opened o =>
    obtain ⟨lease, -, handle, after⟩ := move.inserted answer
    have after : (b.step op).state.registry.slots = (b.registry.slots.insert lease).2 := after
    have inside : b.registry.slots.next < Slots.maxSlots := wf.next_lt (after ▸ few)
    rw [after]
    show Spent _ _ (given ++ [o.handle])
    rw [handle]
    exact spent.insert wf lease (small _) inside
  | nothing | fault | written | verdict | count | accepted | got | ended =>
    show Spent _ _ (given ++ [])
    rw [List.append_nil]
    exact quiet

/-- A run gives out no handle twice, nor one that was given out before. -/
theorem run_issued {b : Broker} {count : Nat → Nat} {given : List Handle}
    (sound : b.registry.books.Sound) (spent : Spent b.registry.slots count given)
    (ops : List Operation) (once : ∀ i, count i + b.frees i ops < UInt32.size)
    (few : (b.run ops).state.registry.slots.slots.length ≤ Slots.maxSlots) :
    (given ++ issued (b.run ops).answer).Nodup := by
  -- what is spent is carried along the run; the bound on all frees bounds each count
  induction ops generalizing b count given with
  | nil =>
    show (given ++ []).Nodup
    rw [List.append_nil]
    exact spent.nodup
  | cons op rest ih =>
    have later : (b.step op).state.registry.books.Sound := (step_move sound op).sound sound
    have next := step_spent sound spent op (fun i => by have bound := once i; omega)
      (Nat.le_trans (length_le_run later rest) few)
    have others := ih later next (fun i => by
      have bound := once i
      simp only [frees] at bound
      omega) few
    show (given ++ issued ((b.step op).answer :: ((b.step op).state.run rest).answer)).Nodup
    rw [issued_cons, ← List.append_assoc]
    exact others

theorem frees_le_length (b : Broker) (i : Nat) (ops : List Operation) :
    b.frees i ops ≤ ops.length := by
  induction ops generalizing b with
  | nil => exact Nat.le_refl _
  | cons op rest ih =>
    have others := ih (b.step op).state
    have first : b.registry.slots.vacated (b.step op).state.registry.slots i ≤ 1 := by
      unfold Slots.vacated
      split <;> omega
    simp only [frees, List.length_cons]
    omega

/-! ## Refinement -/

/-- At every point of a run of a new broker, as long as there are few slots and none is
vacated so often that its generation comes round: every handle, whether or not it was ever
given out, stands for what the ledger of the history says, and closing, releasing and
guarding succeed for the handles of the ledger alone. No handle is given out twice. -/
theorem handles_refine_ledger (config : Config) (files : FileSystem) (sink : Sink) (disk : Disk)
    (before after : List Operation)
    (few : ((Broker.ofConfig config files sink (.ofDisk disk)).run
      (before ++ after)).state.registry.slots.slots.length ≤ Slots.maxSlots)
    (once : ∀ i, (Broker.ofConfig config files sink (.ofDisk disk)).frees i (before ++ after) <
      UInt32.size) :
    let start := Broker.ofConfig config files sink (.ofDisk disk)
    let r := (start.run before).state.registry
    let ledger := Ledger.ofHistory config.idleLimit (start.history before)
    (∀ h, r.get? h = ledger.held h ∧ r.slots.contains h = (ledger.held h).isSome ∧
      (∀ (α : Type) (call : World → StreamId → Outcome World α), (r.reach h call).answer =
        (ledger.held h).map fun lease => (call r.world lease.stream).answer) ∧
      (r.close h).answer = (ledger.held h).isSome ∧
      (r.release h).answer = (ledger.held h).isSome ∧
      ∀ guarded, (r.setGuarded h guarded).answer = (ledger.held h).isSome) ∧
    (issued (start.run (before ++ after)).answer).Nodup := by
  intro start r ledger
  have past := run_reached config files sink disk before
  have shorter : r.slots.slots.length ≤ Slots.maxSlots := by
    refine Nat.le_trans ?_ few
    rw [run_append]
    exact length_le_run past.sound after
  have agrees := past.agrees shorter
  constructor
  · intro h
    have here : r.get? h = ledger.held h := agrees.held h
    rw [← here]
    refine ⟨rfl, rfl, fun α call => ?_, ?_, ?_, fun guarded => rfl⟩
    · cases found : r.get? h with
      | none => rw [Registry.reach_none found, Option.map_none]
      | some lease => rw [Registry.reach_some found, Option.map_some]
    · exact Registry.close_answer r h
    · exact Registry.release_answer r h
  · have new : Spent start.registry.slots (fun _ => 0) [] := ⟨fun i => rfl, nofun, List.nodup_nil⟩
    have sound : start.registry.books.Sound := (run_reached config files sink disk []).sound
    refine run_issued sound new (before ++ after) (fun i => ?_) few
    rw [Nat.zero_add]
    exact once i

/-- One slot for three leases, the last one of a stream that was held before. -/
def reopening : List Operation :=
  let source := Stream.Source.ready (.memory .empty)
  [.openStream source {}, .closeHandle ⟨0, 0⟩, .openPersistent "db" source, .closeHandle ⟨0, 0⟩,
    .setGuarded ⟨0, 1⟩ true, .releaseHandle ⟨0, 1⟩, .openPersistent "db" source]

theorem handles_refine_ledger_reopening :
    let start := Broker.ofConfig {} .disk .log (.ofDisk .empty)
    let r := (start.run reopening).state.registry
    r.get? ⟨0, 1⟩ = none ∧ r.get? ⟨0, 2⟩ = some ⟨1, some "db", false⟩ ∧
      (r.close ⟨0, 0⟩).answer = false ∧
      (issued (start.run (reopening ++ [.closeAll])).answer).Nodup := by
  obtain ⟨refined, fresh⟩ := handles_refine_ledger {} .disk .log .empty reopening [.closeAll]
    (by decide) fun i => Nat.lt_of_le_of_lt (frees_le_length _ i _) (by decide)
  have stale := (refined ⟨0, 1⟩).1
  have held := (refined ⟨0, 2⟩).1
  have refused := (refined ⟨0, 0⟩).2.2.2.1
  exact ⟨stale.trans (by decide +kernel), held.trans (by decide +kernel),
    refused.trans (by decide +kernel), fresh⟩

end Broker

end StreamBroker
