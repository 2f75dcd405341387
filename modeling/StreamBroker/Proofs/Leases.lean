import StreamBroker.Proofs.Lifecycle
import StreamBroker.Proofs.Passage
import StreamBroker.Proofs.Routing

/-!
# Leases of streams in memory

What a stream in memory gives during one lease is what it accepted during that lease: nothing
that an earlier holder left behind comes through. Main statements:

* **queues** — as long as it is not released, a stream in memory gives what was unread and
  what it accepts, in order (`Stream.Serves.conserved`);
* **idle streams** — a stream in memory that is idle has nothing left to read
  (`run_rested`), since it was released last;
* **leases** — a held stream is not released (`Move.held_unreleased`), so
  `leases_isolated`: what is read in a lease is a prefix of what was accepted in it, after
  the initial bytes if the stream is a new one.
-/

namespace StreamBroker

/-- The bytes that a call took out of its stream. -/
def Call.got : Call → Bytes
  | .read _ got => got
  | _ => []

/-- The bytes that a call brought into its stream. -/
def Call.accepted : Call → Bytes
  | .write data n => data.take n
  | _ => []

def bytesRead (calls : List Call) : Bytes := calls.flatMap Call.got

def bytesAccepted (calls : List Call) : Bytes := calls.flatMap Call.accepted

namespace Stream

namespace Memory

/-- The bytes that are still to be read. -/
def unread (m : Memory) : Bytes := m.contents.drop m.cursor

theorem length_unread (m : Memory) : m.unread.length = m.remaining := List.length_drop

theorem unread_eq_nil {m : Memory} : m.unread = [] ↔ m.remaining = 0 := by
  rw [← length_unread, List.length_eq_zero_iff]

/-- Nothing was read that is not there. -/
def Within (m : Memory) : Prop := m.cursor ≤ m.contents.length

theorem Within.write {m : Memory} (within : m.Within) (data : Bytes) :
    (m.write data).2.Within ∧
      (m.write data).2.unread = m.unread ++ data.take (m.write data).1 := by
  have cursor : (m.write data).2.cursor = m.cursor := by
    unfold Memory.write
    split <;> rfl
  constructor
  · show (m.write data).2.cursor ≤ (m.write data).2.contents.length
    rw [cursor, write_contents, List.length_append]
    exact Nat.le_trans within (Nat.le_add_right ..)
  · show (m.write data).2.contents.drop (m.write data).2.cursor = _
    rw [cursor, write_contents]
    exact List.drop_append_of_le_length within

theorem Within.read {m : Memory} (within : m.Within) (size : Nat) :
    (m.read size).2.Within ∧ (m.read size).1 ++ (m.read size).2.unread = m.unread := by
  unfold Memory.read
  split
  · exact ⟨within, rfl⟩
  · have got : (m.contents.drop m.cursor).take size <+: m.contents.drop m.cursor :=
      List.take_prefix ..
    have length := got.length_le
    rw [List.length_drop] at length
    constructor
    · show m.cursor + _ ≤ m.contents.length
      have start : m.cursor ≤ m.contents.length := within
      omega
    · show _ ++ m.contents.drop (m.cursor + _) = _
      rw [← List.drop_drop]
      exact List.prefix_iff_eq_append.mp got

end Memory

/-- A call that is no release moves bytes through a stream in memory, and loses none. -/
theorem Answers.conserved {m : Memory} {d d' : Disk} {c : Call} {next : Stream}
    (within : m.Within) (answers : Answers (.memory m) d c next d') (kept : c ≠ .release) :
    ∃ m', next = .memory m' ∧ m'.Within ∧ c.got ++ m'.unread = m.unread ++ c.accepted := by
  cases answers with
  | write data =>
    obtain ⟨still, unread⟩ := within.write data
    exact ⟨_, rfl, still, unread⟩
  | read size =>
    obtain ⟨still, unread⟩ := within.read size
    exact ⟨_, rfl, still, unread.trans (List.append_nil _).symm⟩
  | atEnd => exact ⟨m, rfl, within, (List.append_nil _).symm⟩
  | close => exact ⟨m.close, rfl, within, (List.append_nil _).symm⟩
  | release => exact absurd rfl kept

/-- As long as it is not released, a stream in memory gives what was unread before and what
it accepts, in order. -/
theorem Serves.conserved {m : Memory} {calls : List Call} {last : Stream} (within : m.Within)
    (serves : Serves (.memory m) calls last) (kept : .release ∉ calls) :
    ∃ m', last = .memory m' ∧ m'.Within ∧
      bytesRead calls ++ m'.unread = m.unread ++ bytesAccepted calls := by
  induction calls generalizing m with
  | nil =>
    cases serves
    exact ⟨m, rfl, within, (List.append_nil _).symm⟩
  | cons c rest ih =>
    cases serves with
    | cons answers later =>
      obtain ⟨first, others⟩ := not_or.mp fun here => kept (List.mem_cons.mpr here)
      obtain ⟨m₁, rfl, within₁, moved⟩ := answers.conserved within (Ne.symm first)
      obtain ⟨m', rfl, within', more⟩ := ih within₁ later others
      refine ⟨m', rfl, within', ?_⟩
      calc bytesRead (c :: rest) ++ m'.unread
          = c.got ++ (bytesRead rest ++ m'.unread) := List.append_assoc ..
        _ = (c.got ++ m₁.unread) ++ bytesAccepted rest := by rw [more, List.append_assoc]
        _ = m.unread ++ bytesAccepted (c :: rest) := by rw [moved, List.append_assoc]; rfl

/-- Only a source that has a stream in memory ready gives one. -/
theorem Source.ready_of_memory {source : Source} {m : Memory} {d d' : Disk}
    (taken : source.take d = .ok (.memory m, d')) : source = .ready (.memory m) := by
  cases source with
  | ready stream =>
    cases taken
    rfl
  | file mode path =>
    simp only [take] at taken
    split at taken <;> cases taken

/-- A stream whose last call was a release is in memory only if it was before, and then it
has nothing left to read. -/
theorem Serves.rested {stream : Stream} {m : Memory}
    (serves : stream.Serves [.release] (.memory m)) : m.cursor = m.contents.length := by
  cases serves with
  | cons answers later =>
    cases later
    cases stream with
    | memory m₀ =>
      cases answers
      rfl
    | file | script => cases answers

end Stream

/-! ## Held streams -/

/-- A stream that a handle was removed from is held no more. -/
theorem Books.Sound.removed_notMem {b : Books} (sound : b.Sound) {h : Handle} {lease : Lease}
    {left : Slots Lease} (removed : b.slots.remove h = some (lease, left)) :
    lease.stream ∉ left.things.map Lease.stream := by
  have once := (List.nodup_append.mp sound.once).1
  exact (List.nodup_cons.mp ((held_remove removed).nodup_iff.mp once)).1

/-- A stream that is still held after a move was not released by it. -/
theorem Move.held_unreleased {b b' : Books} {op : Operation} {answer : Answer}
    {calls : List (StreamId × Call)} (sound : b.Sound) (move : Move b op answer b' calls)
    {s : StreamId} (held : s ∈ b'.held) : (s, .release) ∉ calls := by
  intro made
  cases move with
  | rest | held | reused | guarded => cases made
  | asked asks =>
    obtain ⟨-, rfl⟩ := Prod.mk.inj (List.mem_singleton.mp made)
    exact asks.call_ne.2 rfl
  | closed => cases List.mem_singleton.mp made
  | parked removes persistent removed =>
    obtain ⟨rfl, -⟩ := Prod.mk.inj (List.mem_singleton.mp made)
    exact sound.removed_notMem removed held
  | overflowed removes persistent removed =>
    rcases List.mem_cons.mp made with first | second
    · obtain ⟨rfl, -⟩ := Prod.mk.inj first
      exact sound.removed_notMem removed held
    · cases List.mem_singleton.mp second
  | emptied =>
    obtain ⟨_, -, closes⟩ := List.mem_map.mp made
    cases closes

/-- A new stream under a key was asked for, as nothing was idle there. -/
theorem Registry.openPersistent_fresh {r : Registry} {key : Key} {source : Stream.Source}
    {o : Opened} (opens : (r.openPersistent key source).answer = .ok o) (fresh : o.fresh = true) :
    r.openPersistent key source = r.supply source (some key) false := by
  cases popped : r.pool.idle.pop? key with
  | none => exact openPersistent_missed (Shelf.pop?_eq_none_iff.mp popped) source
  | some found =>
    rw [openPersistent_taken popped] at opens
    cases opens
    cases fresh

namespace Broker

variable {b : Broker}

theorem run_held_unreleased (sound : b.registry.books.Sound) {s : StreamId}
    (ops : List Operation)
    (held : ∀ part, part <+: ops → s ∈ (b.run part).state.registry.books.held) :
    .release ∉ callsTo s (callsIn (b.run ops).events) := by
  rw [mem_callsTo]
  induction ops generalizing b with
  | nil => exact List.not_mem_nil
  | cons op rest ih =>
    have move := step_move sound op
    have first : (s, .release) ∉ callsIn (b.step op).events :=
      move.held_unreleased sound (held [op] (List.cons_prefix_cons.mpr ⟨rfl, List.nil_prefix⟩))
    have others := ih (move.sound sound) fun part short =>
      held (op :: part) (List.cons_prefix_cons.mpr ⟨rfl, short⟩)
    show (s, Call.release) ∉ callsIn (_ ++ _)
    rw [callsIn_append, List.mem_append]
    exact not_or.mpr ⟨first, others⟩

/-! ## Idle streams -/

/-- The streams in memory that are idle have nothing left to read. -/
def Rested (b : Broker) : Prop :=
  ∀ s ∈ b.registry.books.idle, ∀ m, b.registry.world.stream? s = some (.memory m) →
    m.cursor = m.contents.length

/-- A step leaves an idle stream alone, or has just released it. -/
theorem step_rested (sound : b.registry.books.Sound) (rested : b.Rested) (op : Operation) :
    (b.step op).state.Rested := by
  intro s idle m there'
  have move := step_move sound op
  have answered : ∀ {calls}, callsTo s (callsIn (b.step op).events) = calls →
      s ∈ b.registry.books.owned → ∃ stream, b.registry.world.stream? s = some stream ∧
        stream.Serves calls (.memory m) := by
    rintro _ rfl owned
    have there : b.registry.world.stream? s = some _ :=
      List.getElem?_eq_getElem (sound.known s owned)
    obtain ⟨last, reached, serves⟩ := step_serves there op
    cases reached.symm.trans there'
    exact ⟨_, there, serves⟩
  rcases move.idle_after sound idle with ⟨before, silent⟩ | released
  · obtain ⟨stream, there, serves⟩ := answered silent (List.mem_append_right _ before)
    cases serves
    exact rested s before m there
  · have made : (s, .release) ∈ callsIn (b.step op).events := by
      rw [← mem_callsTo, released]
      exact List.mem_singleton_self _
    obtain ⟨stream, -, serves⟩ := answered released (move.calls_owned made)
    exact serves.rested

theorem run_rested (sound : b.registry.books.Sound) (rested : b.Rested) (ops : List Operation) :
    (b.run ops).state.Rested := by
  induction ops generalizing b with
  | nil => exact rested
  | cons op rest ih => exact ih ((step_move sound op).sound sound) (step_rested sound rested op)

theorem run_rested_new (config : Config) (files : FileSystem) (sink : Sink) (disk : Disk)
    (ops : List Operation) :
    ((ofConfig config files sink (.ofDisk disk)).run ops).state.Rested :=
  run_rested (run_reached config files sink disk []).sound nofun ops

/-! ## Leases -/

/-- An opening that asked no source holds a stream that was idle, and calls nobody. -/
theorem step_reused (sound : b.registry.books.Sound) {op : Operation} {o : Opened}
    (opens : (b.step op).answer = .opened o) (reused : o.fresh = false) :
    o.stream ∈ b.registry.books.idle ∧ callsIn (b.step op).events = [] := by
  have move := step_move sound op
  rw [opens] at move
  generalize callsIn (b.step op).events = calls at move
  generalize (b.step op).state.registry.books = b' at move
  cases move with
  | rest rests => exact absurd rfl (rests.ne_opened o)
  | asked asks => exact absurd rfl (asks.ne_opened o)
  | held => cases reused
  | reused taken => exact ⟨(Shelf.toList_pop? taken).mem_iff.mpr List.mem_cons_self, rfl⟩

/-- A stream in memory that is held again has nothing left to read. -/
theorem step_reused_rested (sound : b.registry.books.Sound) (rested : b.Rested) {op : Operation}
    {o : Opened} (opens : (b.step op).answer = .opened o) {m : Stream.Memory}
    (there : (b.step op).state.registry.world.stream? o.stream = some (.memory m))
    (reused : o.fresh = false) : m.cursor = m.contents.length := by
  obtain ⟨idle, silent⟩ := step_reused sound opens reused
  have known := sound.known _ (List.mem_append_right _ idle)
  obtain ⟨stream, before⟩ : ∃ stream, b.registry.world.stream? o.stream = some stream :=
    ⟨_, List.getElem?_eq_getElem known⟩
  obtain ⟨last, reached, serves⟩ := step_serves before op
  rw [silent] at serves
  cases serves
  cases reached.symm.trans there
  exact rested o.stream idle m before

/-- A new stream is the one that its source gave. -/
theorem step_fresh {op : Operation} {o : Opened} (opens : (b.step op).answer = .opened o)
    (fresh : o.fresh = true) :
    ∃ source stream d, op.source? = some source ∧
      source.take b.registry.world.disk = .ok (stream, d) ∧
      (b.step op).state.registry.world.stream? o.stream = some stream := by
  cases op with
  | openStream source terms =>
    obtain ⟨-, -, stream, d, taken, there⟩ :=
      Registry.supply_opened (Answer.ofOpening_eq_opened opens)
    exact ⟨source, stream, d, rfl, taken, there⟩
  | openPersistent key source =>
    have answer := Answer.ofOpening_eq_opened opens
    have asked := Registry.openPersistent_fresh answer fresh
    rw [asked] at answer
    obtain ⟨-, -, stream, d, taken, there⟩ := Registry.supply_opened answer
    rw [← asked] at there
    exact ⟨source, stream, d, rfl, taken, there⟩
  | _ => cases opens

/-- Let an opening in a run of a new broker hold a stream in memory, in which no more was
read than is there if it is a new one, and let it stay held. Then what is read from it in
this lease is a prefix of what it accepts in this lease, after its initial bytes if it is a
new one: these are what is left to read in the stream that was supplied. A stream that is
held again has nothing left to read, whatever its earlier holders left behind; and as long
as nothing is accepted, this stays so, and an end query through any handle that reaches it
is answered with yes. -/
theorem leases_isolated (config : Config) (files : FileSystem) (sink : Sink) (disk : Disk)
    (before : List Operation) (op : Operation) (during : List Operation) (o : Opened)
    (m : Stream.Memory) :
    let b := ((ofConfig config files sink (.ofDisk disk)).run before).state
    let first := (b.step op).state
    let last := (first.run during).state
    let calls := callsTo o.stream (callsIn (first.run during).events)
    (b.step op).answer = .opened o →
    first.registry.world.stream? o.stream = some (.memory m) →
    (o.fresh = true → m.Within) →
    (∀ part, part <+: during → o.stream ∈ (first.run part).state.registry.books.held) →
    bytesRead calls <+: (if o.fresh then m.unread else []) ++ bytesAccepted calls ∧
    (o.fresh = true → op.source? = some (.ready (.memory m))) ∧
    (o.fresh = false → m.remaining = 0 ∧ (bytesAccepted calls = [] →
      (∃ m', last.registry.world.stream? o.stream = some (.memory m') ∧ m'.remaining = 0) ∧
      ∀ h lease, last.registry.get? h = some lease → lease.stream = o.stream →
        (last.step (.atEnd (.resource h))).answer = .verdict true)) := by
  intro b first last calls opens there within held
  have sound : b.registry.books.Sound := (run_reached config files sink disk before).sound
  have later : first.registry.books.Sound := (step_move sound op).sound sound
  have unreleased : .release ∉ calls := run_held_unreleased later during held
  have nothing : o.fresh = false → m.cursor = m.contents.length :=
    step_reused_rested sound (run_rested_new config files sink disk before) opens there
  -- what is idle was released last, and that skipped all that was left
  have empty : o.fresh = false → m.unread = [] := fun reused =>
    List.drop_eq_nil_of_le (Nat.le_of_eq (nothing reused).symm)
  have sane : m.Within := by
    cases fresh : o.fresh with
    | true => exact within fresh
    | false => exact Nat.le_of_eq (nothing fresh)
  obtain ⟨_, reached, serves⟩ := run_serves there during
  obtain ⟨m', rfl, -, moved⟩ := serves.conserved sane unreleased
  refine ⟨?_, fun fresh => ?_, fun reused => ?_⟩
  · cases fresh : o.fresh with
    | true => exact ⟨m'.unread, moved⟩
    | false =>
      rw [empty fresh] at moved
      exact ⟨m'.unread, moved⟩
  · obtain ⟨source, stream, d, supplies, taken, supplied⟩ := step_fresh opens fresh
    cases supplied.symm.trans there
    rw [supplies, Stream.Source.ready_of_memory taken]
  · refine ⟨Stream.Memory.unread_eq_nil.mp (empty reused), fun untouched => ?_⟩
    rw [empty reused, untouched] at moved
    have left : m'.remaining = 0 :=
      Stream.Memory.unread_eq_nil.mp (List.append_eq_nil_iff.mp moved).2
    refine ⟨⟨m', reached, left⟩, fun h lease here same => ?_⟩
    rw [← same] at reached
    rw [(atEnd_answered here reached).1]
    exact congrArg Answer.verdict (Stream.Memory.atEnd_iff_remaining.mpr left)

/-- A stream with bytes of its own and a limit, of which an earlier holder leaves much unread. -/
def leftovers : List Operation :=
  [.openPersistent "db" (.ready (.memory ⟨[1, 2, 3], 0, some 6, false⟩)), .readFrom ⟨0, 0⟩ 1,
    .write (.resource ⟨0, 0⟩) (.string [4]), .close (.resource ⟨0, 0⟩)]

/-- What the next holder does. -/
def newcomer : List Operation :=
  [.atEnd (.resource ⟨0, 1⟩), .readFrom ⟨0, 1⟩ 9, .write (.resource ⟨0, 1⟩) (.string [7, 8, 9]),
    .readFrom ⟨0, 1⟩ 1]

theorem leases_isolated_newcomer :
    let b := ((ofConfig {} .disk .log (.ofDisk .empty)).run leftovers).state
    let first := (b.step (.openPersistent "db" (.ready (.memory .empty)))).state
    let calls := callsTo 0 (callsIn (first.run newcomer).events)
    b.registry.books.idle = [0] ∧ bytesRead calls = [7] ∧ bytesAccepted calls = [7, 8] ∧
      bytesRead calls <+: bytesAccepted calls ∧
      (first.step (.atEnd (.resource ⟨0, 1⟩))).answer = .verdict true := by
  intro b first calls
  have opens : (b.step (.openPersistent "db" (.ready (.memory .empty)))).answer =
      .opened ⟨⟨0, 1⟩, 0, false⟩ := by rfl
  have there : first.registry.world.stream? 0 =
      some (.memory ⟨[1, 2, 3, 4], 4, some 6, false⟩) := by decide +kernel
  have held : ∀ part, part <+: newcomer → 0 ∈ (first.run part).state.registry.books.held := by
    have parts : ∀ n ≤ newcomer.length,
        0 ∈ (first.run (newcomer.take n)).state.registry.books.held := by decide +kernel
    intro part short
    rw [List.prefix_iff_eq_take.mp short]
    exact parts part.length short.length_le
  have still : ∀ part, part <+: [] → 0 ∈ (first.run part).state.registry.books.held := by
    intro part short
    rw [List.prefix_nil.mp short]
    decide +kernel
  obtain ⟨read, -, -⟩ := leases_isolated {} .disk .log .empty leftovers
    (.openPersistent "db" (.ready (.memory .empty))) newcomer ⟨⟨0, 1⟩, 0, false⟩
    ⟨[1, 2, 3, 4], 4, some 6, false⟩ opens there nofun held
  simp only [Bool.false_eq_true, if_false, List.nil_append] at read
  obtain ⟨-, -, reused⟩ := leases_isolated {} .disk .log .empty leftovers
    (.openPersistent "db" (.ready (.memory .empty))) [] ⟨⟨0, 1⟩, 0, false⟩
    ⟨[1, 2, 3, 4], 4, some 6, false⟩ opens there nofun still
  obtain ⟨-, quiet⟩ := reused rfl
  obtain ⟨-, atEnd⟩ := quiet rfl
  exact ⟨by decide +kernel, by decide +kernel, by decide +kernel, read,
    atEnd ⟨0, 1⟩ ⟨0, some "db", false⟩ (by decide +kernel) rfl⟩

end Broker

end StreamBroker
