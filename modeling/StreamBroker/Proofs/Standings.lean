import StreamBroker.Proofs.Handles
import StreamBroker.Proofs.Reports

/-!
# Standings

The slots as someone knows them who never sees a stream: of each lease the key and the
guard. This is enough to give out handles, to accept or refuse, and to report; so none of it
depends on the streams, on what is idle, or on how many idle streams are kept. Main
statements:

* **views of slots** — the operations of slots commute with a view of the things in them
  (`Slots.insert_map`, `Slots.remove_map` and their like);
* **steps** — the standings after an operation, and what is decided, can be told from the
  standings before it (`Move.standings`, `step_decision`);
* **runs** — `decisions_independent`: two runs that differ in the sources of streams and in
  the limit of idle streams decide and report the same.
-/

namespace StreamBroker

/-! ## Slots seen through a view -/

/-- The slot with a view of the thing in its place. -/
def Slot.map {α β : Type} (f : α → β) (slot : Slot α) : Slot β :=
  ⟨slot.generation, slot.entry.map f⟩

namespace Slots

variable {α β : Type} {f : α → β} {t : Slots α} {h : Handle}

/-- The slots with a view of each thing in its place. -/
def map (f : α → β) (t : Slots α) : Slots β := ⟨t.slots.map (Slot.map f), t.free, t.live⟩

theorem get?_map (f : α → β) (t : Slots α) (h : Handle) : (t.map f).get? h = (t.get? h).map f := by
  unfold get? map
  rw [List.getElem?_map]
  cases t.slots[h.slot]? with
  | none => rfl
  | some slot => by_cases same : slot.generation = h.generation <;> simp [Slot.map, same]

theorem contains_map (f : α → β) (t : Slots α) (h : Handle) :
    (t.map f).contains h = t.contains h := by
  unfold contains
  rw [get?_map, Option.isSome_map]

theorem generation_map (f : α → β) (t : Slots α) (i : Nat) :
    (t.map f).generation i = t.generation i := by
  unfold generation map
  rw [List.getElem?_map]
  cases t.slots[i]? <;> rfl

/-- A change of one slot that the view follows. -/
theorem modify_map (g : Slot α → Slot α) (g' : Slot β → Slot β)
    (follows : ∀ slot, (g slot).map f = g' (slot.map f)) (slots : List (Slot α)) (i : Nat) :
    (slots.map (Slot.map f)).modify i g' = (slots.modify i g).map (Slot.map f) := by
  apply List.ext_getElem?
  intro j
  simp only [List.getElem?_modify, List.getElem?_map]
  cases slots[j]? with
  | none => rfl
  | some slot => by_cases here : i = j <;> simp [here, follows]

theorem insert_map (f : α → β) (t : Slots α) (a : α) :
    (t.map f).insert (f a) = ((t.insert a).1, (t.insert a).2.map f) := by
  have handle : ∀ i, (t.map f).handleOf i = t.handleOf i := by
    intro i
    unfold handleOf
    rw [generation_map]
  have modified := modify_map (f := f) (fun slot => { slot with entry := some a })
    (fun slot => { slot with entry := some (f a) }) (fun slot => rfl) t.slots
  have free : (t.map f).free = t.free := rfl
  unfold insert
  rw [free]
  cases t.free with
  | cons i rest =>
    refine Prod.ext (handle i) ?_
    simp only [map, ← modified]
  | nil => simp [map, Slot.map]

theorem update_map {g : α → α} {g' : β → β} (follows : ∀ a, f (g a) = g' (f a)) :
    (t.map f).update h g' = (t.update h g).map f := by
  have modified := modify_map (f := f) (fun slot => { slot with entry := slot.entry.map g })
    (fun slot => { slot with entry := slot.entry.map g' })
    (fun slot => by simp [Slot.map, Function.comp_def, follows]) t.slots h.slot
  unfold update
  rw [contains_map]
  split
  · simp only [map, modified]
  · rfl

theorem remove_map (f : α → β) (t : Slots α) (h : Handle) :
    (t.map f).remove h = (t.remove h).map fun found => (f found.1, found.2.map f) := by
  have modified := modify_map (f := f) (fun slot => ⟨slot.generation + 1, none⟩)
    (fun slot => ⟨slot.generation + 1, none⟩) (fun slot => rfl) t.slots h.slot
  cases here : t.get? h with
  | none =>
    have absent : (t.map f).get? h = none := by rw [get?_map, here, Option.map_none]
    rw [remove_eq_none_iff.mpr here, remove_eq_none_iff.mpr absent, Option.map_none]
  | some a =>
    have there : (t.map f).get? h = some (f a) := by rw [get?_map, here, Option.map_some]
    rw [remove_eq here, remove_eq there]
    simp only [map, Option.map_some, ← modified]

theorem removeEach_map (f : α → β) (t : Slots α) (hs : List Handle) :
    ((t.map f).removeEach hs).2 = (t.removeEach hs).2.map f := by
  induction hs generalizing t with
  | nil => rfl
  | cons h rest ih =>
    have found := remove_map f t h
    cases removed : t.remove h with
    | none =>
      rw [removed, Option.map_none] at found
      rw [removeEach_cons_none found, removeEach_cons_none removed]
      exact ih t
    | some gone =>
      rw [removed, Option.map_some] at found
      rw [removeEach_cons_some found, removeEach_cons_some removed]
      exact ih gone.2

theorem handles_map (f : α → β) (t : Slots α) : (t.map f).handles = t.handles := by
  unfold handles map
  rw [List.zipIdx_map, List.filterMap_map]
  congr 1
  funext ⟨slot, i⟩
  show (slot.entry.map f).map _ = slot.entry.map _
  rw [Option.map_map]
  rfl

end Slots

/-! ## Standings -/

/-- What a lease says but for its stream. -/
structure Standing where
  key : Option Key
  guarded : Bool
deriving DecidableEq

def Lease.standing (lease : Lease) : Standing := ⟨lease.key, lease.guarded⟩

abbrev Standings := Slots Standing

def Books.standings (b : Books) : Standings := b.slots.map Lease.standing

/-- Whether the file of an opening could not be opened. -/
def Answer.failed : Answer → Bool
  | .fault _ => true
  | _ => false

/-- What is decided about an operation. -/
inductive Decision
  | issued (h : Handle)
  | accepted
  | refused (refusal : Refusal)
  | verdict (b : Bool)
deriving DecidableEq

/-- The decision that the answer to an operation tells: the handle of an opening, whether and
why a write is refused, and the verdict on giving back and on guarding. -/
def Operation.decision? : Operation → Answer → Option Decision
  | .openStream .., .opened o | .openPersistent .., .opened o => some (.issued o.handle)
  | .write .., .written (.ok _) => some .accepted
  | .write .., .written (.error refusal) => some (.refused refusal)
  | .close _, .verdict b | .closeHandle _, .verdict b | .releaseHandle _, .verdict b
  | .setGuarded .., .verdict b => some (.verdict b)
  | _, _ => none

/-- An operation with nothing said about streams: neither about what is supplied, nor about
what others do to the disk. -/
def Operation.outline : Operation → Operation
  | .openStream _ terms => .openStream (.ready (.memory .empty)) terms
  | .openPersistent key _ => .openPersistent key (.ready (.memory .empty))
  | .change _ => .change []
  | op => op

namespace Standings

/-- The handles that an operation takes back. -/
def returned (t : Standings) : Operation → List Handle
  | .close (.resource h) =>
    match t.get? h with
    | none => []
    | some standing => if standing.guarded then [] else [h]
  | .closeHandle h | .releaseHandle h => if t.contains h then [h] else []
  | .closeAll => t.handles
  | _ => []

/-- The standings after an operation; `failed` tells of an opening that found no file. -/
def after (t : Standings) (op : Operation) (failed : Bool) : Standings :=
  match op with
  | .openStream _ terms => if failed then t else (t.insert ⟨terms.key, terms.guarded⟩).2
  | .openPersistent key _ => if failed then t else (t.insert ⟨some key, false⟩).2
  | .setGuarded h guarded => t.update h fun standing => { standing with guarded := guarded }
  | op => (t.removeEach (t.returned op)).2

/-- What is decided about an operation. -/
def decision? (t : Standings) (op : Operation) (failed : Bool) : Option Decision :=
  match op with
  | .openStream .. | .openPersistent .. =>
    if failed then none else some (.issued (t.handleOf t.next))
  | .write stream data =>
    match Broker.writeArguments stream data with
    | .error refusal => some (.refused refusal)
    | .ok (h, bytes) =>
      some (if bytes = [] ∨ t.contains h then .accepted else .refused (.notLive h))
  | .close _ | .closeHandle _ | .releaseHandle _ => some (.verdict !(t.returned op).isEmpty)
  | .setGuarded h _ => some (.verdict (t.contains h))
  | _ => none

theorem after_outline (t : Standings) (op : Operation) (failed : Bool) :
    t.after op.outline failed = t.after op failed := by
  cases op <;> rfl

theorem decision?_outline (t : Standings) (op : Operation) (failed : Bool) :
    t.decision? op.outline failed = t.decision? op failed := by
  cases op <;> rfl

end Standings

namespace Books

variable {b : Books} {h : Handle}

theorem standings_get? (b : Books) (h : Handle) :
    b.standings.get? h = (b.slots.get? h).map Lease.standing :=
  Slots.get?_map ..

theorem standings_contains (b : Books) (h : Handle) :
    b.standings.contains h = b.slots.contains h :=
  Slots.contains_map ..

theorem standings_absent (absent : ∀ lease, b.slots.get? h ≠ some lease) :
    b.standings.contains h = false := by
  rw [standings_contains, Slots.contains, Option.isSome_eq_false_iff, Option.isNone_iff_eq_none]
  exact Option.eq_none_iff_forall_ne_some.mpr absent

/-- A handle that an operation removes is one that it takes back. -/
theorem returned_of_removes {op : Operation} {lease : Lease} (removes : op.Removes h lease)
    (here : b.slots.get? h = some lease) : b.standings.returned op = [h] := by
  have there : b.standings.contains h = true := by
    rw [standings_contains, Slots.contains, here]
    rfl
  cases removes with
  | close unguarded =>
    unfold Standings.returned
    simp only [standings_get?, here, Option.map_some, Lease.standing, unguarded,
      Bool.false_eq_true, if_false]
  | closeHandle | releaseHandle => exact if_pos there

/-- An operation that removes nothing takes nothing back. -/
theorem returned_of_kept {op : Operation}
    (kept : ∀ h lease, op.Removes h lease → b.slots.get? h ≠ some lease)
    (one : op ≠ .closeAll) : b.standings.returned op = [] := by
  unfold Standings.returned
  split
  · rename_i h
    rw [standings_get?]
    cases here : b.slots.get? h with
    | none => rfl
    | some lease =>
      cases guarded : lease.guarded with
      | true => simp [Lease.standing, guarded]
      | false => exact absurd here (kept h lease (.close guarded))
  · rename_i h
    rw [standings_absent fun lease => kept h lease .closeHandle]
    rfl
  · rename_i h
    rw [standings_absent fun lease => kept h lease .releaseHandle]
    rfl
  · exact absurd rfl one
  · rfl

theorem standings_insert (b : Books) (lease : Lease) :
    (b.slots.insert lease).2.map Lease.standing = (b.standings.insert lease.standing).2 :=
  (congrArg Prod.snd (Slots.insert_map Lease.standing b.slots lease)).symm

theorem standings_remove {op : Operation} {lease : Lease} {left : Slots Lease}
    (removes : op.Removes h lease) (removed : b.slots.remove h = some (lease, left)) :
    left.map Lease.standing = b.standings.after op false := by
  have taken := returned_of_removes removes (Slots.remove_spec removed).1
  have gone : (b.standings.removeEach [h]).2 = left.map Lease.standing := by
    rw [standings, Slots.removeEach_map, Slots.removeEach_cons_some removed]
    rfl
  rw [← gone, ← taken]
  cases removes <;> rfl

end Books

namespace Move

variable {b b' : Books} {op : Operation} {answer : Answer} {calls : List (StreamId × Call)}

/-! ## Steps -/

/-- The standings after a move can be told from those before it. -/
theorem standings (move : Move b op answer b' calls) :
    b'.standings = b.standings.after op answer.failed := by
  cases move with
  | rest rests absent kept =>
    cases op with
    | openStream =>
      obtain ⟨fault, rfl⟩ := rests
      rfl
    | openPersistent =>
      obtain ⟨-, fault, rfl⟩ := rests
      rfl
    | setGuarded | closeAll => cases rests
    | close | closeHandle | releaseHandle =>
      show _ = (b.standings.removeEach (b.standings.returned _)).2
      rw [Books.returned_of_kept kept nofun]
      rfl
    | write | discard | atEnd | fileExists | writeTo | readFrom | atEndOf | setSink | setFiles
    | change => rfl
  | asked asks => cases asks <;> rfl
  | held supplies => cases supplies <;> exact Books.standings_insert ..
  | reused => exact Books.standings_insert ..
  | guarded h guarded =>
    exact (Slots.update_map (f := Lease.standing) (t := b.slots) (h := h)
      (g := fun lease => { lease with guarded := guarded }) fun _ => rfl).symm
  | closed removes transient removed | parked removes persistent removed
  | overflowed removes persistent removed => exact Books.standings_remove removes removed
  | emptied removed =>
    have gone := Slots.removeEach_map Lease.standing b.slots b.slots.handles
    have handles : b.standings.handles = b.slots.handles := Slots.handles_map ..
    rw [removed, ← handles] at gone
    exact gone.symm

/-- Apart from writes, what is decided can be told from the standings. -/
theorem decision (move : Move b op answer b' calls)
    (other : ∀ stream data, op ≠ .write stream data) :
    op.decision? answer = b.standings.decision? op answer.failed := by
  have issued : ∀ lease, (b.slots.insert lease).1 = b.standings.handleOf b.standings.next := by
    intro lease
    rw [← Slots.insert_fst b.standings lease.standing, Books.standings, Slots.insert_map]
  cases move with
  | rest rests absent kept =>
    cases op with
    | openStream =>
      obtain ⟨fault, rfl⟩ := rests
      rfl
    | openPersistent =>
      obtain ⟨-, fault, rfl⟩ := rests
      rfl
    | write stream data => exact absurd rfl (other stream data)
    | setGuarded | closeAll => cases rests
    | close | closeHandle | releaseHandle =>
      obtain rfl : answer = .verdict false := rests
      show _ = some (Decision.verdict !(b.standings.returned _).isEmpty)
      rw [Books.returned_of_kept kept nofun]
      rfl
    | discard | atEnd | fileExists | writeTo | readFrom | atEndOf | setSink | setFiles | change =>
      rfl
  | asked asks =>
    cases asks with
    | write => exact absurd rfl (other _ _)
    | discard | atEnd | writeTo | readFrom | atEndOf => rfl
  | held supplies =>
    cases supplies <;> exact congrArg (some ∘ Decision.issued) (issued _)
  | reused => exact congrArg (some ∘ Decision.issued) (issued _)
  | guarded h guarded =>
    exact congrArg (some ∘ Decision.verdict) (b.standings_contains h).symm
  | closed removes transient removed | parked removes persistent removed
  | overflowed removes persistent removed =>
    have taken := Books.returned_of_removes removes (Slots.remove_spec removed).1
    cases removes with
    | close | closeHandle | releaseHandle =>
      show _ = some (Decision.verdict !(b.standings.returned _).isEmpty)
      rw [taken]
      rfl
  | emptied => rfl

end Move

namespace Broker

variable {b b' : Broker} {op op' : Operation}

theorem write_decision (b : Broker) (stream data : Value) :
    (Operation.write stream data).decision? (.written (b.write stream data).answer) =
      b.registry.books.standings.decision? (.write stream data) false := by
  show _ = (match writeArguments stream data with
    | .error refusal => some (Decision.refused refusal)
    | .ok (h, bytes) =>
      some (if bytes = [] ∨ b.registry.books.standings.contains h then .accepted
        else .refused (.notLive h)))
  unfold write
  cases arguments : writeArguments stream data with
  | error refusal => rfl
  | ok pair =>
    obtain ⟨h, bytes⟩ := pair
    by_cases empty : bytes = []
    · simp only [empty, if_true, true_or]
      rfl
    · simp only [empty, if_false, false_or, Books.standings_contains]
      unfold deliver Registry.write
      cases here : b.registry.get? h with
      | none =>
        have absent : b.registry.books.slots.contains h = false := by
          rw [Slots.contains, show b.registry.books.slots.get? h = none from here]
          rfl
        rw [Registry.reach_none here, absent]
        rfl
      | some lease =>
        have held : b.registry.books.slots.contains h = true := by
          rw [Slots.contains, show b.registry.books.slots.get? h = some lease from here]
          rfl
        rw [Registry.reach_some here, held]
        rfl

/-- What is decided can be told from the standings. -/
theorem step_decision (sound : b.registry.books.Sound) (op : Operation) :
    op.decision? (b.step op).answer =
      b.registry.books.standings.decision? op (b.step op).answer.failed := by
  by_cases isWrite : ∃ stream data, op = .write stream data
  · obtain ⟨stream, data, rfl⟩ := isWrite
    exact write_decision b stream data
  · exact (step_move sound op).decision fun stream data same => isWrite ⟨stream, data, same⟩

/-! ## Runs -/

/-- Two brokers that differ in nothing that decisions and reports need. -/
structure Alike (b b' : Broker) : Prop where
  standings : b'.registry.books.standings = b.registry.books.standings
  sink : b'.sink = b.sink
  warnOnDiscard : b'.config.warnOnDiscard = b.config.warnOnDiscard

theorem sinkAfter_outline (sink : Sink) (op : Operation) :
    sinkAfter sink op.outline = sinkAfter sink op := by
  cases op <;> rfl

theorem emitted_outline (b : Broker) (op : Operation) : b.emitted op.outline = b.emitted op := by
  cases op <;> rfl

namespace Alike

theorem complaint? (alike : Alike b b') (op : Operation) : b'.complaint? op = b.complaint? op := by
  unfold Broker.complaint?
  rw [alike.warnOnDiscard]
  split
  · rfl
  · rfl
  · rfl
  · rename_i h
    -- of the lease only the guard matters
    have standing : (b'.registry.get? h).map Lease.standing =
        (b.registry.get? h).map Lease.standing := by
      have same := congrArg (fun t : Standings => t.get? h) alike.standings
      simp only [Books.standings_get?] at same
      exact same
    cases here : b.registry.get? h with
    | none =>
      rw [here, Option.map_none, Option.map_eq_none_iff] at standing
      simp only [standing]
    | some lease =>
      rw [here, Option.map_some, Option.map_eq_some_iff] at standing
      obtain ⟨lease', here', same⟩ := standing
      have guarded : lease'.guarded = lease.guarded := congrArg Standing.guarded same
      simp only [here', guarded]
  · rfl
  · rfl

theorem emitted (alike : Alike b b') (same : op'.outline = op.outline) :
    b'.emitted op' = b.emitted op := by
  rw [← emitted_outline b' op', ← emitted_outline b op, same]
  unfold Broker.emitted
  rw [alike.complaint?, alike.sink]

/-- Operations with one outline are decided and reported alike, as long as their openings
find a file or fail alike, and what they leave is alike. -/
theorem step (alike : Alike b b') (sound : b.registry.books.Sound)
    (sound' : b'.registry.books.Sound) (same : op'.outline = op.outline)
    (failed : (b'.step op').answer.failed = (b.step op).answer.failed) :
    Alike (b.step op).state (b'.step op').state ∧
      op'.decision? (b'.step op').answer = op.decision? (b.step op).answer ∧
      reportsIn (b'.step op').events = reportsIn (b.step op).events := by
  refine ⟨⟨?_, ?_, ?_⟩, ?_, ?_⟩
  · rw [(step_move sound op).standings, (step_move sound' op').standings, alike.standings, failed,
      ← Standings.after_outline _ op', same, Standings.after_outline]
  · rw [step_sink_eq, step_sink_eq, alike.sink, ← sinkAfter_outline _ op', same, sinkAfter_outline]
  · rw [step_config, step_config, alike.warnOnDiscard]
  · rw [step_decision sound, step_decision sound', alike.standings, failed,
      ← Standings.decision?_outline _ op', same, Standings.decision?_outline]
  · rw [step_reports, step_reports, alike.emitted same]

end Alike

/-- What is decided in the course of a run. -/
def decisions (b : Broker) (ops : List Operation) : List (Option Decision) :=
  (b.history ops).map fun e => e.1.decision? e.2

/-- The openings of a run that found no file, in their places. -/
def failures (b : Broker) (ops : List Operation) : List Bool :=
  (b.run ops).answer.map Answer.failed

theorem failures_take (b : Broker) (ops : List Operation) (n : Nat) :
    b.failures (ops.take n) = (b.failures ops).take n := by
  induction ops generalizing b n with
  | nil => cases n <;> rfl
  | cons op rest ih =>
    cases n with
    | zero => rfl
    | succ n => exact congrArg (List.cons _) (ih (b.step op).state n)

/-- Runs of operations with the same outlines stay alike, decide and report the same. -/
theorem run_alike (alike : Alike b b') (sound : b.registry.books.Sound)
    (sound' : b'.registry.books.Sound) {ops ops' : List Operation}
    (same : ops'.map Operation.outline = ops.map Operation.outline)
    (supplied : b'.failures ops' = b.failures ops) :
    Alike (b.run ops).state (b'.run ops').state ∧ b'.decisions ops' = b.decisions ops ∧
      reportsIn (b'.run ops').events = reportsIn (b.run ops).events := by
  induction ops generalizing b b' ops' with
  | nil =>
    rw [List.map_nil, List.map_eq_nil_iff] at same
    subst same
    exact ⟨alike, rfl, rfl⟩
  | cons op rest ih =>
    obtain ⟨op', rest', rfl, first, others⟩ := List.map_eq_cons_iff.mp same
    obtain ⟨failed, later⟩ := List.cons.inj supplied
    obtain ⟨next, decision, reports⟩ := alike.step sound sound' first failed
    obtain ⟨last, decisions, reported⟩ := ih next ((step_move sound op).sound sound)
      ((step_move sound' op').sound sound') others later
    refine ⟨last, congrArg₂ List.cons decision decisions, ?_⟩
    show reportsIn (_ ++ _) = reportsIn (_ ++ _)
    rw [reportsIn_append, reportsIn_append, reports, reported]

/-- Let two runs differ only in the sources of streams, in the disk, and in the limit of idle
streams, and let the same openings fail for want of a file. Then they give out the same
handles, accept and refuse the same writes with the same refusals, come to the same verdicts
on giving back and on guarding, and report the same. And however far they went, the same
handles stand for a lease in both. -/
theorem decisions_independent (warnOnDiscard : Bool) (limit limit' : Nat) (files : FileSystem)
    (sink : Sink) (disk disk' : Disk) (ops ops' : List Operation)
    (same : ops'.map Operation.outline = ops.map Operation.outline)
    (supplied :
      (ofConfig ⟨warnOnDiscard, limit'⟩ files sink (.ofDisk disk')).failures ops' =
        (ofConfig ⟨warnOnDiscard, limit⟩ files sink (.ofDisk disk)).failures ops) :
    let start := ofConfig ⟨warnOnDiscard, limit⟩ files sink (.ofDisk disk)
    let start' := ofConfig ⟨warnOnDiscard, limit'⟩ files sink (.ofDisk disk')
    start'.decisions ops' = start.decisions ops ∧
      reportsIn (start'.run ops').events = reportsIn (start.run ops).events ∧
      ∀ n,
        let r := (start.run (ops.take n)).state.registry
        let r' := (start'.run (ops'.take n)).state.registry
        r'.liveCount = r.liveCount ∧ ∀ h, r'.slots.contains h = r.slots.contains h := by
  intro start start'
  have alike : Alike start start' := ⟨rfl, rfl, rfl⟩
  have sound : start.registry.books.Sound := (run_reached _ files sink disk []).sound
  have sound' : start'.registry.books.Sound := (run_reached _ files sink disk' []).sound
  obtain ⟨-, decisions, reports⟩ := run_alike alike sound sound' same supplied
  refine ⟨decisions, reports, fun n => ?_⟩
  have part : (ops'.take n).map Operation.outline = (ops.take n).map Operation.outline := by
    rw [List.map_take, List.map_take, same]
  have failed : start'.failures (ops'.take n) = start.failures (ops.take n) := by
    rw [failures_take, failures_take]
    exact congrArg (List.take n) supplied
  obtain ⟨now, -, -⟩ := run_alike alike sound sound' part failed
  refine ⟨congrArg (fun t : Standings => t.live) now.standings, fun h => ?_⟩
  have contains := congrArg (fun t : Standings => t.contains h) now.standings
  simp only [Books.standings_contains] at contains
  exact contains

/-- What is asked of two streams of one key, with the streams left open. -/
def errands (first second : Stream) : List Operation :=
  [.openPersistent "db" (.ready first), .setGuarded ⟨0, 0⟩ true,
    .write (.resource ⟨0, 0⟩) (.string [1, 2, 3]), .close (.resource ⟨0, 0⟩),
    .setGuarded ⟨0, 0⟩ false, .close (.resource ⟨0, 0⟩), .openPersistent "db" (.ready second),
    .atEnd (.resource ⟨0, 1⟩), .write (.resource ⟨0, 0⟩) (.string [4]), .discard .null .null,
    .closeAll]

/-- Streams that are parked and held again in one run, and torn down in the other. -/
theorem decisions_independent_errands :
    let small := ofConfig ⟨true, 0⟩ .disk .recording (.ofDisk .empty)
    let large := ofConfig ⟨true, 16⟩ .disk .recording (.ofDisk .empty)
    let plain := errands (.memory .empty) (.memory .empty)
    let scripted := errands (.script { returns := [7], ends := [true] })
      (.script { returns := [0], ends := [] })
    large.decisions scripted = small.decisions plain ∧
      reportsIn (large.run scripted).events = reportsIn (small.run plain).events ∧
      (large.run (scripted.take 7)).state.registry.get? ⟨0, 1⟩ = some ⟨0, some "db", false⟩ ∧
      (small.run (plain.take 7)).state.registry.get? ⟨0, 1⟩ = some ⟨1, some "db", false⟩ := by
  intro small large plain scripted
  obtain ⟨decisions, reports, -⟩ := decisions_independent true 0 16 .disk .recording .empty .empty
    plain scripted rfl (by decide +kernel)
  exact ⟨decisions, reports, by decide +kernel, by decide +kernel⟩

end Broker

end StreamBroker
