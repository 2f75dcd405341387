import StreamBroker.Proofs.Handles

/-!
# Idle operations

Operations that have no effect at their turn: those that fail, those that ask for nothing,
and queries of the disk. They can be put into a run or left out of it at will. Main
statements:

* **steps** — an idle operation leaves the broker as it is and calls nobody; whoever
  listens hears at most a diagnostic, a note, or the query itself (`step_idle`);
* **runs** — with idle operations put in anywhere, every other operation has the outcome
  that it has without them (`run_unmarked`);
* **end queries** — a stream in memory or over a file does not change when it is asked
  for its end (`step_atEnd_still`).

`idle_operations_inert` states the three together.
-/

namespace StreamBroker

/-- An operation that has no effect on a broker. A write without an answer fails when the
same write with an answer does. -/
def Operation.Idle (b : Broker) : Operation → Prop
  | .write stream data | .discard stream data =>
    (b.write stream data).answer.toOption = none ∨
      stream.handle?.isSome ∧ data.bytes? = some []
  | .atEnd stream => stream.handle?.bind b.registry.get? = none
  | .close stream => (b.close stream).answer = false
  | .closeHandle h => (b.registry.close h).answer = false
  | .releaseHandle h => (b.registry.release h).answer = false
  | .setGuarded h guarded => (b.registry.setGuarded h guarded).answer = false
  | .fileExists _ => True
  | _ => False

instance Operation.decidableIdle (b : Broker) : DecidablePred (Operation.Idle b)
  | .write .. | .discard .. => inferInstanceAs (Decidable (_ ∨ _))
  | .atEnd _ | .close _ | .closeHandle _ | .releaseHandle _ | .setGuarded .. =>
    inferInstanceAs (Decidable (_ = _))
  | .fileExists _ => .isTrue trivial
  | .openStream .. | .openPersistent .. | .writeTo .. | .readFrom .. | .atEndOf _ | .closeAll
  | .setSink _ | .setFiles _ | .change _ => .isFalse id

/-- An event that only those who listen notice; of an existence query, the query itself. -/
inductive Event.Aside : Operation → Event → Prop
  | note {op} (n : Note) : Aside op (.note n)
  | recorded {op} (d : Diagnostic) : Aside op (.recorded d)
  | query (path : Bytes) : Aside (.fileExists (.string path)) (.query path)

/-- The state is the same, and only those who listen notice anything. -/
def Outcome.Still {α : Type} (b : Broker) (op : Operation) (o : Outcome Broker α) : Prop :=
  o.state = b ∧ ∀ e ∈ o.events, Event.Aside op e

theorem callsIn_eq_nil_of_aside {op : Operation} {events : List Event}
    (aside : ∀ e ∈ events, Event.Aside op e) : callsIn events = [] := by
  unfold callsIn
  rw [List.filterMap_eq_nil_iff]
  intro e here
  cases aside e here <;> rfl

/-! ## Steps -/

theorem Slots.update_of_absent {α : Type} {t : Slots α} {h : Handle} (f : α → α)
    (absent : t.contains h = false) : t.update h f = t := by
  unfold update
  rw [absent]
  exact if_neg Bool.false_ne_true

namespace Registry

variable {r : Registry} {h : Handle}

theorem close_refused (refused : (r.close h).answer = false) : r.close h = ⟨false, r, []⟩ := by
  rw [close_answer, Option.isSome_eq_false_iff, Option.isNone_iff_eq_none] at refused
  exact close_none refused

theorem release_refused (refused : (r.release h).answer = false) :
    r.release h = ⟨false, r, []⟩ := by
  rw [release_answer, Option.isSome_eq_false_iff, Option.isNone_iff_eq_none] at refused
  exact release_none refused

theorem setGuarded_refused {guarded : Bool} (refused : (r.setGuarded h guarded).answer = false) :
    r.setGuarded h guarded = ⟨false, r, []⟩ := by
  have absent : r.slots.contains h = false := refused
  unfold setGuarded
  rw [absent, Slots.update_of_absent _ absent]

end Registry

namespace Broker

variable {b : Broker} {op : Operation} {h : Handle}

theorem report_still {α : Type} (answer : α) (operation : String) (refusal : Refusal) :
    Outcome.Still b op ⟨answer, b, b.report operation refusal⟩ := by
  refine ⟨rfl, fun e here => ?_⟩
  obtain rfl : e = _ := List.mem_singleton.mp here
  cases b.sink with
  | log => exact .note _
  | recording => exact .recorded _

theorem silent_still {α : Type} (answer : α) : Outcome.Still b op ⟨answer, b, []⟩ :=
  ⟨rfl, nofun⟩

theorem note_still {α : Type} (answer : α) (n : Note) :
    Outcome.Still b op ⟨answer, b, [.note n]⟩ := by
  refine ⟨rfl, fun e here => ?_⟩
  rw [List.mem_singleton.mp here]
  exact .note n

/-- A delivery fails only when its handle reaches nothing, and then does nothing. -/
theorem deliver_still {bytes : Bytes} (refused : (b.deliver h bytes).answer.toOption = none) :
    Outcome.Still b op (b.deliver h bytes) := by
  cases here : b.registry.get? h with
  | none =>
    have nothing : b.deliver h bytes =
        ⟨.error (.notLive h), b, [.note (.writeNotLive h)]⟩ := by
      unfold deliver Registry.write
      rw [Registry.reach_none here]
    rw [nothing]
    exact note_still ..
  | some lease =>
    rw [(deliver_spec b h bytes).1, Registry.write, Registry.reach_some here] at refused
    cases refused

theorem write_still {stream data : Value}
    (idle : (b.write stream data).answer.toOption = none ∨
      stream.handle?.isSome ∧ data.bytes? = some []) :
    Outcome.Still b op (b.write stream data) ∧ Outcome.Still b op (b.discard stream data) := by
  unfold write at idle ⊢
  unfold discard
  cases arguments : writeArguments stream data with
  | error refusal =>
    refine ⟨report_still .., ?_⟩
    simp only
    split
    · exact report_still ..
    · exact silent_still ()
  | ok pair =>
    obtain ⟨h, bytes⟩ := pair
    obtain ⟨rfl, rfl⟩ := writeArguments_eq_ok_iff.mp arguments
    by_cases something : bytes = []
    · simp only [something, if_true]
      exact ⟨silent_still _, silent_still _⟩
    · simp only [arguments, something, if_false] at idle ⊢
      rcases idle with refused | ⟨-, empty⟩
      · exact ⟨deliver_still refused, deliver_still refused⟩
      · exact absurd (Option.some.inj empty) something

theorem atEnd_still {stream : Value} (absent : stream.handle?.bind b.registry.get? = none) :
    Outcome.Still b op (b.atEnd stream) := by
  unfold atEnd
  cases handle : expectHandle atEndName "stream" stream with
  | error refusal => exact report_still ..
  | ok h =>
    cases expectHandle_eq_ok_iff.mp handle
    have nothing : b.registry.get? h = none := absent
    unfold Registry.atEnd
    simp only [Registry.reach_none nothing]
    exact note_still ..

theorem close_still {stream : Value} (refused : (b.close stream).answer = false) :
    Outcome.Still b op (b.close stream) := by
  cases handle : expectHandle closeName "stream" stream with
  | error refusal =>
    unfold close
    rw [handle]
    exact report_still ..
  | ok h =>
    cases expectHandle_eq_ok_iff.mp handle
    cases here : b.registry.get? h with
    | none =>
      unfold close
      simp only [handle, here]
      exact report_still ..
    | some lease =>
      cases guarded : lease.guarded with
      | true =>
        unfold close
        simp only [handle, here, guarded, if_true]
        exact report_still ..
      | false =>
        -- an unguarded stream is given back, so the close is answered with yes
        rw [close_eq_release here guarded, Registry.release_answer, here] at refused
        cases refused

/-- What the registry refuses is over with its answer. -/
theorem refused_still {o : Outcome Registry Bool} (refused : o = ⟨false, b.registry, []⟩) :
    Outcome.Still b op (b.ofRegistry o .verdict) := by
  rw [refused]
  exact silent_still _

theorem fileExists_still (path : Value) :
    Outcome.Still b (.fileExists path) (b.fileExists path) := by
  cases path with
  | string bytes =>
    refine ⟨rfl, fun e here => ?_⟩
    rw [List.mem_singleton.mp here]
    exact .query bytes
  | null | bool | int | float | resource => exact silent_still false

/-- An idle operation leaves the broker as it is and calls nobody. -/
theorem step_idle (idle : op.Idle b) : Outcome.Still b op (b.step op) := by
  cases op with
  | write stream data => exact (write_still idle).1
  | discard stream data => exact (write_still idle).2
  | atEnd stream => exact atEnd_still idle
  | close stream => exact close_still idle
  | closeHandle h => exact refused_still (Registry.close_refused idle)
  | releaseHandle h => exact refused_still (Registry.release_refused idle)
  | setGuarded h guarded => exact refused_still (Registry.setGuarded_refused idle)
  | fileExists path => exact fileExists_still path
  | _ => cases idle

/-! ## Runs -/

/-- The outcomes of the steps of a run, in order. -/
def trace (b : Broker) : List Operation → List (Outcome Broker Answer)
  | [] => []
  | op :: rest => b.step op :: (b.step op).state.trace rest

/-- In a run of operations, some of them marked as extra, each extra one is idle at its
turn. -/
def ExtrasIdle (b : Broker) : List (Operation × Bool) → Prop
  | [] => True
  | (op, extra) :: rest => (extra = true → op.Idle b) ∧ (b.step op).state.ExtrasIdle rest

instance decidableExtrasIdle :
    (b : Broker) → (marked : List (Operation × Bool)) → Decidable (b.ExtrasIdle marked)
  | _, [] => .isTrue trivial
  | b, (op, _) :: rest =>
    have := decidableExtrasIdle (b.step op).state rest
    inferInstanceAs (Decidable (_ ∧ _))

end Broker

/-- The entries that are not marked as extra. -/
def unmarked {α : Type} (entries : List (α × Bool)) : List α :=
  (entries.filter fun e => !e.2).map Prod.fst

@[simp]
theorem unmarked_cons_true {α : Type} (a : α) (rest : List (α × Bool)) :
    unmarked ((a, true) :: rest) = unmarked rest := rfl

@[simp]
theorem unmarked_cons_false {α : Type} (a : α) (rest : List (α × Bool)) :
    unmarked ((a, false) :: rest) = a :: unmarked rest := rfl

namespace Broker

variable {b : Broker}

/-- Idle operations in a run make no difference to the state, the calls, and the outcomes
of the other operations. -/
theorem run_unmarked {marked : List (Operation × Bool)} (idle : b.ExtrasIdle marked) :
    (b.run (marked.map Prod.fst)).state = (b.run (unmarked marked)).state ∧
      callsIn (b.run (marked.map Prod.fst)).events = callsIn (b.run (unmarked marked)).events ∧
      unmarked ((b.trace (marked.map Prod.fst)).zip (marked.map Prod.snd)) =
        b.trace (unmarked marked) := by
  induction marked generalizing b with
  | nil => exact ⟨rfl, rfl, rfl⟩
  | cons entry rest ih =>
    obtain ⟨op, extra⟩ := entry
    obtain ⟨first, later⟩ := idle
    obtain ⟨state, calls, outcomes⟩ := ih later
    simp only [List.map_cons, run, trace, List.zip_cons_cons, callsIn_append]
    cases extra with
    | true =>
      obtain ⟨same, aside⟩ := step_idle (first rfl)
      rw [same] at state calls outcomes ⊢
      rw [unmarked_cons_true, unmarked_cons_true, callsIn_eq_nil_of_aside aside, List.nil_append]
      exact ⟨state, calls, outcomes⟩
    | false =>
      simp only [unmarked_cons_false, run, trace, callsIn_append]
      exact ⟨state, congrArg _ calls, congrArg _ outcomes⟩

end Broker

/-! ## End queries -/

theorem Stream.File.atEnd_still (f : File) (d : Disk) :
    (f.atEnd d).stream = f ∧ (f.atEnd d).disk = d := by
  unfold atEnd
  split
  · exact ⟨rfl, rfl⟩
  · split <;> exact ⟨rfl, rfl⟩

/-- A stream in memory or over a file is left as it is by an end query, and so is the disk. -/
theorem Stream.atEnd_still {stream : Stream} (unscripted : ∀ s, stream ≠ .script s) (d : Disk) :
    (stream.atEnd d).stream = stream ∧ (stream.atEnd d).disk = d := by
  cases stream with
  | memory m => exact ⟨rfl, rfl⟩
  | file f => exact ⟨congrArg _ (f.atEnd_still d).1, (f.atEnd_still d).2⟩
  | script s => exact absurd rfl (unscripted s)

theorem World.atEnd_still {w : World} {s : StreamId} {stream : Stream}
    (there : w.stream? s = some stream) (unscripted : ∀ script, stream ≠ .script script) :
    (w.atEnd s).state = w := by
  obtain ⟨kept, disk⟩ := Stream.atEnd_still unscripted w.disk
  obtain ⟨known, here⟩ := List.getElem?_eq_some_iff.mp there
  unfold World.atEnd ask
  rw [there]
  simp only [kept, disk]
  rw [← here, List.set_getElem_self]

namespace Broker

variable {b : Broker} {h : Handle}

/-- To ask a stream in memory or over a file for its end changes nothing. -/
theorem step_atEnd_still {lease : Lease} {stream : Stream} (here : b.registry.get? h = some lease)
    (there : b.registry.world.stream? lease.stream = some stream)
    (unscripted : ∀ s, stream ≠ .script s) :
    (b.step (.atEnd (.resource h))).state = b := by
  show (b.atEnd (.resource h)).state = b
  unfold atEnd Registry.atEnd
  rw [expectHandle_eq_ok_iff.mpr rfl]
  simp only [Registry.reach_some here, World.atEnd_still there unscripted]

/-- An operation that fails, asks for nothing, or queries the disk has no effect: the broker
is the same as before, books, streams and disk included, no stream is called, and only
those who listen notice anything. So such operations, put into a run or left out of it
wherever they are, make no difference to its last state, to the calls that streams
receive, and to what any other operation answers, leaves behind and lets others notice.
And an end query leaves a stream in memory or over a file, its position and its file as
they are, so that asked again it answers the same. -/
theorem idle_operations_inert (b : Broker) :
    (∀ op : Operation, op.Idle b →
      (b.step op).state = b ∧ callsIn (b.step op).events = [] ∧
        ∀ e ∈ (b.step op).events, Event.Aside op e) ∧
    (∀ marked, b.ExtrasIdle marked →
      let all := marked.map Prod.fst
      let others := unmarked marked
      (b.run all).state = (b.run others).state ∧
        callsIn (b.run all).events = callsIn (b.run others).events ∧
        unmarked ((b.trace all).zip (marked.map Prod.snd)) = b.trace others) ∧
    ∀ h lease stream, b.registry.get? h = some lease →
      b.registry.world.stream? lease.stream = some stream → (∀ s, stream ≠ .script s) →
      let o := b.step (.atEnd (.resource h))
      o.state = b ∧ (o.state.step (.atEnd (.resource h))).answer = o.answer := by
  refine ⟨fun op idle => ?_, fun marked idle => run_unmarked idle, ?_⟩
  · obtain ⟨state, aside⟩ := step_idle idle
    exact ⟨state, callsIn_eq_nil_of_aside aside, aside⟩
  · intro h lease stream here there unscripted o
    have same : o.state = b := step_atEnd_still here there unscripted
    rw [same]
    exact ⟨rfl, rfl⟩

/-- A run with idle operations of every kind among the others, marked as extra. -/
def interspersed : List (Operation × Bool) :=
  [(.fileExists (.string [97]), true),
    (.openPersistent "db" (.ready (.memory .empty)), false),
    (.write (.resource ⟨0, 0⟩) (.string []), true), (.discard .null (.string [1]), true),
    (.write (.resource ⟨0, 0⟩) (.string [1, 2]), false), (.closeHandle ⟨7, 0⟩, true),
    (.setGuarded ⟨0, 0⟩ true, false), (.close (.resource ⟨0, 0⟩), true),
    (.setGuarded ⟨0, 0⟩ false, false), (.close (.resource ⟨0, 0⟩), false),
    (.close (.resource ⟨0, 0⟩), true), (.releaseHandle ⟨0, 0⟩, true),
    (.setGuarded ⟨0, 0⟩ true, true), (.atEnd (.resource ⟨0, 0⟩), true),
    (.openPersistent "db" (.ready (.memory .empty)), false)]

theorem idle_operations_inert_interspersed :
    let b := Broker.ofConfig {} .disk .recording (.ofDisk .empty)
    (b.run (interspersed.map Prod.fst)).state = (b.run (unmarked interspersed)).state ∧
      (b.run (unmarked interspersed)).state.registry.get? ⟨0, 1⟩ = some ⟨0, some "db", false⟩ ∧
      let last := (b.run (unmarked interspersed)).state
      (last.step (.atEnd (.resource ⟨0, 1⟩))).state = last := by
  intro b
  have idle : b.ExtrasIdle interspersed := by decide +kernel
  have held : (b.run (unmarked interspersed)).state.registry.get? ⟨0, 1⟩ =
      some ⟨0, some "db", false⟩ := by decide +kernel
  obtain ⟨-, inert, -⟩ := idle_operations_inert b
  obtain ⟨-, -, asked⟩ := idle_operations_inert (b.run (unmarked interspersed)).state
  exact ⟨(inert interspersed idle).1, held,
    (asked ⟨0, 1⟩ _ (.memory ⟨[1, 2], 2, none, false⟩) held (by decide +kernel) nofun).1⟩

end Broker

end StreamBroker
