import Mathlib.Data.Bool.Basic
import StreamBroker.Proofs.Skeleton
import StreamBroker.Proofs.Stacks

/-!
# More room

What a larger limit of idle streams makes of the same requests or operations. Main statements:

* **errands** — what is asked of a pool, without the stream, decides how many streams are
  idle under each key afterwards (`Served.idleCount`);
* **two pools** — the pool with the larger limit has at least as many idle streams under
  each key, and ahead by no more than the limits are apart; so it grants what the other one
  grants (`Roomier.grants`, `Roomier.served`);
* **operations** — what an operation asks of the pool can be told from the standings
  (`Move.errand`), so the same operations ask the same of both;
* **runs** — `larger_limit_grants_more`: nothing is lost by a larger limit, neither in runs
  of a pool nor in runs of a broker, where the same openings have to fail. They do as long as
  those under a key have a stream at hand.
-/

namespace StreamBroker

namespace Pool

/-! ## Errands -/

/-- A request with nothing said about the stream. -/
inductive Errand
  | park (key : Key)
  | take (key : Key)
  | drain
deriving DecidableEq

def Request.errand : Request → Errand
  | .park key _ => .park key
  | .take key => .take key
  | .drain => .drain

def Errand.parks : Errand → Bool
  | .park _ => true
  | _ => false

def Errand.takes : Errand → Bool
  | .take _ => true
  | _ => false

/-- Whether a request was granted: a stream was kept, or one was found. -/
def Reply.granted : Reply → Bool
  | .parked kept => kept
  | .taken s => s.isSome
  | .drained _ => true

/-- Whether a pool keeps what is parked, or finds what is to be taken. -/
def grants (p : Pool) : Errand → Bool
  | .park key => decide (p.idleCount key < p.limit)
  | .take key => decide (0 < p.idleCount key)
  | .drain => true

/-- The number of idle streams of a key once a pool has run an errand. -/
def idleAfter (p : Pool) (errand : Errand) (other : Key) : Nat :=
  match errand with
  | .park key => if other = key ∧ p.grants errand then p.idleCount other + 1 else p.idleCount other
  | .take key => if other = key then p.idleCount other - 1 else p.idleCount other
  | .drain => 0

variable {p p' q q' : Pool} {request request' : Request} {reply reply' : Reply} {room : Nat}

theorem grants_of_room {key : Key} (room : p.idleCount key < p.limit) :
    p.grants (.park key) = true :=
  decide_eq_true room

theorem declines_of_full {key : Key} (full : p.limit ≤ p.idleCount key) :
    p.grants (.park key) = false :=
  decide_eq_false (Nat.not_lt.mpr full)

theorem idleCount_pos_of_pop? {key : Key} {s : StreamId} {left : Shelf StreamId}
    (wf : p.idle.Wf) (popped : p.idle.pop? key = some (s, left)) : 0 < p.idleCount key := by
  unfold idleCount Shelf.count
  rw [Shelf.stack_pop? wf popped, if_pos rfl]
  exact Nat.succ_pos _

theorem idleCount_eq_zero {key : Key} (nothing : p.idle.stack key = []) : p.idleCount key = 0 := by
  unfold idleCount Shelf.count
  rw [nothing]
  rfl

namespace Served

theorem granted (wf : p.idle.Wf) (served : Served p request reply p') :
    reply.granted = p.grants request.errand := by
  cases served with
  | parked room => exact (grants_of_room room).symm
  | overflowed full => exact (declines_of_full full).symm
  | taken popped => exact (decide_eq_true (idleCount_pos_of_pop? wf popped)).symm
  | missed nothing =>
    show false = decide (0 < _)
    rw [idleCount_eq_zero nothing]
    rfl
  | drained => rfl

theorem idleCount (wf : p.idle.Wf) (served : Served p request reply p') (other : Key) :
    p'.idleCount other = p.idleAfter request.errand other := by
  have stack : p'.idleCount other = (note p.idle.stack (request, reply) other).length := by
    rw [Pool.idleCount, Shelf.count, served.stack wf]
  rw [stack]
  cases served with
  | @parked key s room =>
    rw [note_parked]
    show _ = if other = key ∧ p.grants (.park key) then _ else _
    rw [grants_of_room room]
    by_cases same : other = key
    · rw [if_pos same, if_pos ⟨same, rfl⟩, same]
      rfl
    · rw [if_neg same, if_neg fun both => same both.1]
      rfl
  | @overflowed key s full =>
    show _ = if other = key ∧ p.grants (.park key) then _ else _
    rw [declines_of_full full]
    exact (if_neg fun both => Bool.false_ne_true both.2).symm
  | @taken key s left popped =>
    rw [note_taken]
    show _ = if other = key then _ else _
    by_cases same : other = key
    · rw [if_pos same, if_pos same, same]
      exact List.length_tail
    · rw [if_neg same, if_neg same]
      rfl
  | @missed key nothing =>
    show p.idleCount other = if other = key then p.idleCount other - 1 else p.idleCount other
    split
    · rename_i same
      rw [same, idleCount_eq_zero nothing]
    · rfl
  | drained => rfl

/-- A park is counted as one that was granted, or as one that was not. -/
theorem counters (served : Served p request reply p') :
    p'.parked = p.parked + (request.errand.parks && p.grants request.errand).toNat ∧
      p'.overflow = p.overflow + (request.errand.parks && !p.grants request.errand).toNat := by
  cases served with
  | @parked key s room =>
    show _ = p.parked + (p.grants (.park key)).toNat ∧
      _ = p.overflow + (!p.grants (.park key)).toNat
    rw [grants_of_room room]
    exact ⟨rfl, rfl⟩
  | @overflowed key s full =>
    show _ = p.parked + (p.grants (.park key)).toNat ∧
      _ = p.overflow + (!p.grants (.park key)).toNat
    rw [declines_of_full full]
    exact ⟨rfl, rfl⟩
  | taken | missed | drained => exact ⟨rfl, rfl⟩

/-- A stream is kept exactly if a park is granted. -/
theorem parked_iff (served : Served p request reply p') :
    p'.parked = p.parked + 1 ↔ (request.errand.parks && p.grants request.errand) = true := by
  rw [served.counters.1, ← Bool.toNat_eq_one]
  omega

end Served

/-! ## Two pools -/

/-- A pool with a limit that is larger by `room`, and what it has ahead of the other. -/
structure Roomier (room : Nat) (p q : Pool) : Prop where
  limit : q.limit = p.limit + room
  idle : ∀ key, p.idleCount key ≤ q.idleCount key
  gap : ∀ key, q.idleCount key ≤ p.idleCount key + room
  parked : p.parked ≤ q.parked
  overflow : q.overflow ≤ p.overflow

namespace Roomier

theorem new (limit room : Nat) : Roomier room (ofLimit limit) (ofLimit (limit + room)) :=
  ⟨rfl, fun _ => Nat.le_refl _, fun _ => Nat.zero_le _, Nat.le_refl _, Nat.le_refl _⟩

/-- The pool with more room grants what the other one grants. A park needs that it is not
ahead by more than the room, a take that it is not behind. -/
theorem grants (roomier : Roomier room p q) {errand : Errand} (granted : p.grants errand = true) :
    q.grants errand = true := by
  have limit := roomier.limit
  cases errand with
  | park key =>
    have gap := roomier.gap key
    simp only [Pool.grants, decide_eq_true_eq] at granted ⊢
    omega
  | take key =>
    have idle := roomier.idle key
    simp only [Pool.grants, decide_eq_true_eq] at granted ⊢
    omega
  | drain => rfl

theorem idleAfter (roomier : Roomier room p q) (errand : Errand) (other : Key) :
    p.idleAfter errand other ≤ q.idleAfter errand other ∧
      q.idleAfter errand other ≤ p.idleAfter errand other + room := by
  have limit := roomier.limit
  have idle := roomier.idle other
  have gap := roomier.gap other
  cases errand with
  | park key =>
    simp only [Pool.idleAfter, Pool.grants, decide_eq_true_eq]
    by_cases same : other = key
    · subst same
      simp only [true_and]
      -- both keep the stream, both are full, or only the one with more room keeps it
      split <;> split <;> omega
    · simp only [same, false_and, if_false]
      exact ⟨idle, gap⟩
  | take key =>
    simp only [Pool.idleAfter]
    split <;> omega
  | drain => exact ⟨Nat.le_refl _, Nat.zero_le _⟩

/-- One errand, run by both. -/
theorem served (roomier : Roomier room p q) (wf : p.idle.Wf) (wf' : q.idle.Wf)
    (served : Served p request reply p') (served' : Served q request' reply' q')
    (same : request'.errand = request.errand) : Roomier room p' q' := by
  have grants : p.grants request.errand = true → q.grants request.errand = true := roomier.grants
  have parked := roomier.parked
  have overflow := roomier.overflow
  refine ⟨?_, fun key => ?_, fun key => ?_, ?_, ?_⟩
  · rw [served.limit, served'.limit, roomier.limit]
  · rw [served.idleCount wf, served'.idleCount wf', same]
    exact (roomier.idleAfter request.errand key).1
  · rw [served.idleCount wf, served'.idleCount wf', same]
    exact (roomier.idleAfter request.errand key).2
  · have more : (request.errand.parks && p.grants request.errand).toNat ≤
        (request.errand.parks && q.grants request.errand).toNat := by
      refine Bool.toNat_le_toNat fun kept => ?_
      obtain ⟨parks, granted⟩ := Bool.and_eq_true_iff.mp kept
      exact Bool.and_eq_true_iff.mpr ⟨parks, grants granted⟩
    rw [served.counters.1, served'.counters.1, same]
    exact Nat.add_le_add parked more
  · have fewer : (request.errand.parks && !q.grants request.errand).toNat ≤
        (request.errand.parks && !p.grants request.errand).toNat := by
      refine Bool.toNat_le_toNat fun declined => ?_
      obtain ⟨parks, full⟩ := Bool.and_eq_true_iff.mp declined
      refine Bool.and_eq_true_iff.mpr ⟨parks, ?_⟩
      cases granted : p.grants request.errand with
      | false => rfl
      | true =>
        rw [grants granted] at full
        cases full
    rw [served.counters.2, served'.counters.2, same]
    exact Nat.add_le_add overflow fewer

end Roomier

/-- The same errands, run by both, whichever streams they are about. -/
theorem run_roomier (roomier : Roomier room p q) (wf : p.idle.Wf) (wf' : q.idle.Wf)
    (w w' : World) {requests requests' : List Request}
    (same : requests'.map Request.errand = requests.map Request.errand) :
    Roomier room (p.run w requests).state.1 (q.run w' requests').state.1 ∧
      (p.run w requests).state.1.idle.Wf ∧ (q.run w' requests').state.1.idle.Wf := by
  induction requests generalizing p q w w' requests' with
  | nil =>
    rw [List.map_nil, List.map_eq_nil_iff] at same
    subst same
    exact ⟨roomier, wf, wf'⟩
  | cons request rest ih =>
    obtain ⟨request', rest', rfl, first, others⟩ := List.map_eq_cons_iff.mp same
    have served := serve_served p w request
    have served' := serve_served q w' request'
    exact ih (roomier.served wf wf' served served' first) (served.wf wf) (served'.wf wf') _ _ others

end Pool

/-! ## Operations -/

/-- Whether an opening holds an idle stream again. -/
def Answer.reuses : Answer → Bool
  | .opened o => !o.fresh
  | _ => false

namespace Operation

/-- Whether an operation opens a stream of a key. -/
def keyed : Operation → Bool
  | .openPersistent .. => true
  | _ => false

/-- Whether an opening under a key held no idle stream again, and so had to ask its source. -/
def makes (op : Operation) (answer : Answer) : Bool := op.keyed && !answer.reuses

end Operation

/-- What an operation asks of the pool. A stream is parked under the key of the lease that
is taken back. -/
def Standings.errand? (t : Standings) : Operation → Option Pool.Errand
  | .openPersistent key _ => some (.take key)
  | .closeHandle _ => none
  | .closeAll => some .drain
  | op =>
    (t.returned op).head?.bind fun h => (t.get? h).bind fun standing => standing.key.map .park

namespace Move

variable {b b' : Books} {op : Operation} {answer : Answer} {calls : List (StreamId × Call)}

theorem errand?_of_removes {h : Handle} {lease : Lease} (removes : op.Removes h lease)
    (here : b.slots.get? h = some lease) :
    b.standings.errand? op = (op.returnKey lease).map .park := by
  have taken := Books.returned_of_removes removes here
  cases removes with
  | closeHandle => rfl
  | close | releaseHandle =>
    show (b.standings.returned _).head?.bind _ = _
    rw [taken, List.head?_cons, Option.bind_some, Books.standings_get?, here]
    rfl

theorem errand?_of_kept (kept : ∀ h lease, op.Removes h lease → b.slots.get? h ≠ some lease)
    (rests : op.Rests b.pool answer) (other : op.keyed = false) :
    b.standings.errand? op = none := by
  cases op with
  | openPersistent => cases other
  | closeAll => cases rests
  | close | releaseHandle =>
    show (b.standings.returned _).head?.bind _ = none
    rw [Books.returned_of_kept kept nofun]
    rfl
  | _ => rfl

/-- A key without an idle stream grants nothing. -/
theorem errand_missed {key : Key} (nothing : b.pool.idle.stack key = []) :
    false = (Pool.Errand.takes (.take key) && b.pool.grants (.take key)) ∧
      ∃ request reply, request.errand = .take key ∧ Pool.Served b.pool request reply b.pool := by
  refine ⟨?_, .take key, .taken none, rfl, .missed nothing⟩
  show false = (true && decide (0 < b.pool.idleCount key))
  rw [Pool.idleCount_eq_zero nothing]
  rfl

/-- What a move asks of the pool can be told from the standings, and whether it holds a
stream again is up to what the pool grants. -/
theorem errand (sound : b.Sound) (move : Move b op answer b' calls) :
    match b.standings.errand? op with
    | none => b'.pool = b.pool ∧ answer.reuses = false
    | some errand => answer.reuses = (errand.takes && b.pool.grants errand) ∧
        ∃ request reply, request.errand = errand ∧ Pool.Served b.pool request reply b'.pool := by
  cases move with
  | rest rests absent kept =>
    cases keyed : op.keyed with
    | true =>
      -- it failed, so its source was asked, so nothing was idle
      cases op <;> cases keyed
      obtain ⟨nothing, fault, rfl⟩ := rests
      exact errand_missed nothing
    | false =>
      rw [errand?_of_kept kept rests keyed]
      exact ⟨rfl, by cases answer <;> first | rfl | exact absurd rfl (rests.ne_opened _)⟩
  | asked asks => cases asks <;> exact ⟨rfl, rfl⟩
  | held supplies =>
    cases supplies with
    | openStream => exact ⟨rfl, rfl⟩
    | openPersistent nothing => exact errand_missed nothing
  | @reused key source s idle taken =>
    refine ⟨?_, .take key, .taken (some s), rfl, .taken taken⟩
    exact (decide_eq_true (Pool.idleCount_pos_of_pop? sound.shelf taken)).symm
  | guarded => exact ⟨rfl, rfl⟩
  | @closed _ h lease left removes transient removed =>
    rw [errand?_of_removes removes (Slots.remove_spec removed).1, transient]
    exact ⟨rfl, rfl⟩
  | @parked _ h lease left key removes persistent removed room =>
    rw [errand?_of_removes removes (Slots.remove_spec removed).1, persistent]
    exact ⟨rfl, .park key lease.stream, .parked true, rfl, .parked room⟩
  | @overflowed _ h lease left key removes persistent removed full =>
    rw [errand?_of_removes removes (Slots.remove_spec removed).1, persistent]
    exact ⟨rfl, .park key lease.stream, .parked false, rfl, .overflowed full⟩
  | emptied removed => exact ⟨rfl, .drain, .drained _, rfl, .drained⟩

end Move

/-! ## Runs -/

namespace Broker

variable {b b' : Broker} {room : Nat}

/-- A broker with more room for idle streams, and otherwise none that handles could tell from
the other one. -/
structure Roomier (room : Nat) (b b' : Broker) : Prop where
  alike : Alike b b'
  pools : Pool.Roomier room b.registry.pool b'.registry.pool

namespace Roomier

/-- One operation asks the same of both pools, whatever comes of it otherwise. -/
theorem step_pools (roomier : Roomier room b b') (sound : b.registry.books.Sound)
    (sound' : b'.registry.books.Sound) (op : Operation) :
    Pool.Roomier room (b.step op).state.registry.pool (b'.step op).state.registry.pool ∧
      ((b.step op).state.registry.pool.parked = b.registry.pool.parked + 1 →
        (b'.step op).state.registry.pool.parked = b'.registry.pool.parked + 1) ∧
      ((b.step op).answer.reuses = true → (b'.step op).answer.reuses = true) := by
  have errand := (step_move sound op).errand sound
  have errand' := (step_move sound' op).errand sound'
  rw [roomier.alike.standings] at errand'
  -- a pool goes by its counts alone, so it does not matter that the streams differ
  cases asked : b.registry.books.standings.errand? op with
  | none =>
    rw [asked] at errand errand'
    obtain ⟨same, holds⟩ := errand
    obtain ⟨same', -⟩ := errand'
    refine ⟨?_, fun more => ?_, fun more => ?_⟩
    · show Pool.Roomier room (b.step op).state.registry.books.pool
        (b'.step op).state.registry.books.pool
      rw [same, same']
      exact roomier.pools
    · have still : (b.step op).state.registry.pool.parked = b.registry.pool.parked :=
        congrArg Pool.parked same
      omega
    · rw [holds] at more
      cases more
  | some asks =>
    rw [asked] at errand errand'
    obtain ⟨holds, request, reply, rfl, served⟩ := errand
    obtain ⟨holds', request', reply', errands, served'⟩ := errand'
    have pools := roomier.pools.served sound.shelf sound'.shelf served served' errands
    have grants : b.registry.pool.grants request.errand = true →
        b'.registry.pool.grants request.errand = true := roomier.pools.grants
    refine ⟨pools, fun more => ?_, fun more => ?_⟩
    · obtain ⟨parks, granted⟩ := Bool.and_eq_true_iff.mp (served.parked_iff.mp more)
      refine served'.parked_iff.mpr ?_
      rw [errands]
      exact Bool.and_eq_true_iff.mpr ⟨parks, grants granted⟩
    · rw [holds] at more
      obtain ⟨takes, granted⟩ := Bool.and_eq_true_iff.mp more
      rw [holds']
      exact Bool.and_eq_true_iff.mpr ⟨takes, grants granted⟩

/-- An operation that fails for both, or for neither, leaves one with more room. -/
theorem step (roomier : Roomier room b b') (sound : b.registry.books.Sound)
    (sound' : b'.registry.books.Sound) {op : Operation}
    (failed : (b'.step op).answer.failed = (b.step op).answer.failed) :
    Roomier room (b.step op).state (b'.step op).state :=
  ⟨(roomier.alike.step sound sound' rfl failed).1, (roomier.step_pools sound sound' op).1⟩

/-- With more room a source is asked in a step only if it is asked with less. -/
theorem makes (roomier : Roomier room b b') (sound : b.registry.books.Sound)
    (sound' : b'.registry.books.Sound) (op : Operation) :
    (op.makes (b'.step op).answer).toNat ≤ (op.makes (b.step op).answer).toNat := by
  obtain ⟨-, -, reuses⟩ := roomier.step_pools sound sound' op
  refine Bool.toNat_le_toNat fun made => ?_
  obtain ⟨opens, asked⟩ := Bool.and_eq_true_iff.mp made
  refine Bool.and_eq_true_iff.mpr ⟨opens, ?_⟩
  cases holds : (b.step op).answer.reuses with
  | false => rfl
  | true =>
    rw [reuses holds] at asked
    cases asked

end Roomier

/-- How often a source had to be asked for a stream of a key in a run. -/
def made (b : Broker) (ops : List Operation) : Nat :=
  (b.history ops).countP fun e => e.1.makes e.2

theorem made_cons (b : Broker) (op : Operation) (rest : List Operation) :
    b.made (op :: rest) =
      (b.step op).state.made rest + (op.makes (b.step op).answer).toNat := by
  show ((op, (b.step op).answer) :: (b.step op).state.history rest).countP _ = _
  rw [List.countP_cons]
  cases op.makes (b.step op).answer <;> rfl

theorem run_roomier (roomier : Roomier room b b') (sound : b.registry.books.Sound)
    (sound' : b'.registry.books.Sound) {ops : List Operation}
    (failures : b'.failures ops = b.failures ops) :
    Roomier room (b.run ops).state (b'.run ops).state ∧ b'.made ops ≤ b.made ops := by
  induction ops generalizing b b' with
  | nil => exact ⟨roomier, Nat.le_refl _⟩
  | cons op rest ih =>
    obtain ⟨failed, later⟩ := List.cons.inj failures
    obtain ⟨last, fewer⟩ := ih (roomier.step sound sound' failed)
      ((step_move sound op).sound sound) ((step_move sound' op).sound sound') later
    have first := roomier.makes sound sound' op
    rw [made_cons, made_cons]
    exact ⟨last, Nat.add_le_add fewer first⟩

/-- A larger limit of idle streams never hurts. Let two new pools serve the same requests,
whichever streams these are about, or let two new brokers do the same operations, of which
the same ones fail for want of a file. Then the pool with the larger limit has at least as
many idle streams under each key, ahead by no more than the limits are apart, has parked at
least as many and closed at most as many for lack of room. Whatever comes next, it keeps the
stream that the other one keeps, and holds an idle stream where the other one does; so a
source is asked at most as often. The same operations fail if the openings under keys have
their streams at hand, whatever files the others need. -/
theorem larger_limit_grants_more (small large : Nat) (fits : small ≤ large) :
    (∀ (world world' : World) (requests requests' : List Pool.Request),
      requests'.map Pool.Request.errand = requests.map Pool.Request.errand →
      let o := (Pool.ofLimit small).run world requests
      let o' := (Pool.ofLimit large).run world' requests'
      Pool.Roomier (large - small) o.state.1 o'.state.1 ∧
      ∀ request request' : Pool.Request, request'.errand = request.errand →
        (o.state.1.serve o.state.2 request).answer.granted = true →
        (o'.state.1.serve o'.state.2 request').answer.granted = true) ∧
    ∀ (warnOnDiscard : Bool) (files : FileSystem) (sink : Sink) (disk : Disk)
      (ops : List Operation),
      let start := ofConfig ⟨warnOnDiscard, small⟩ files sink (.ofDisk disk)
      let start' := ofConfig ⟨warnOnDiscard, large⟩ files sink (.ofDisk disk)
      let b := (start.run ops).state
      let b' := (start'.run ops).state
      ((∀ op ∈ ops, op.handy = true) → start'.failures ops = start.failures ops) ∧
      (start'.failures ops = start.failures ops →
        Pool.Roomier (large - small) b.registry.pool b'.registry.pool ∧
        start'.made ops ≤ start.made ops ∧
        ∀ op,
          ((b.step op).state.registry.pool.parked = b.registry.pool.parked + 1 →
            (b'.step op).state.registry.pool.parked = b'.registry.pool.parked + 1) ∧
          ((b.step op).answer.reuses = true → (b'.step op).answer.reuses = true)) := by
  have new : Pool.Roomier (large - small) (.ofLimit small) (.ofLimit large) := by
    have roomier := Pool.Roomier.new small (large - small)
    rw [Nat.add_sub_cancel' fits] at roomier
    exact roomier
  constructor
  · intro world world' requests requests' same o o'
    obtain ⟨roomier, wf, wf'⟩ :=
      Pool.run_roomier new Shelf.Wf.nil Shelf.Wf.nil world world' same
    refine ⟨roomier, fun request request' errand granted => ?_⟩
    rw [(Pool.serve_served _ _ request).granted wf] at granted
    rw [(Pool.serve_served _ _ request').granted wf', errand]
    exact roomier.grants granted
  · intro warnOnDiscard files sink disk ops start start' b b'
    have disks : start'.registry.world.disk.skeleton = start.registry.world.disk.skeleton := rfl
    refine ⟨failures_of_skeleton disks, fun failures => ?_⟩
    have sound : start.registry.books.Sound := (run_reached _ files sink disk []).sound
    have sound' : start'.registry.books.Sound := (run_reached _ files sink disk []).sound
    have roomier : Roomier (large - small) start start' := ⟨⟨rfl, rfl, rfl⟩, new⟩
    obtain ⟨last, fewer⟩ := run_roomier roomier sound sound' failures
    have past : b.registry.books.Sound := (run_reached _ files sink disk ops).sound
    have past' : b'.registry.books.Sound := (run_reached _ files sink disk ops).sound
    exact ⟨last.pools, fewer, fun op => (last.step_pools past past' op).2⟩

/-- Two streams of a key that are given back at once, and one that is wanted after that. -/
def rush : List Operation :=
  let source := Stream.Source.ready (.memory .empty)
  [.openPersistent "db" source, .openPersistent "db" source, .releaseHandle ⟨0, 0⟩,
    .close (.resource ⟨1, 0⟩), .openPersistent "db" source]

theorem larger_limit_grants_more_rush :
    let start := ofConfig ⟨true, 1⟩ .disk .log (.ofDisk .empty)
    let start' := ofConfig ⟨true, 2⟩ .disk .log (.ofDisk .empty)
    let next : Operation := .openPersistent "db" (.ready (.memory .empty))
    let small := (start.run rush).state
    let large := (start'.run rush).state
    small.registry.pool.idleCount "db" = 0 ∧ large.registry.pool.idleCount "db" = 1 ∧
      Pool.Roomier 1 small.registry.pool large.registry.pool ∧
      (small.step next).answer.reuses = false ∧ (large.step next).answer.reuses = true ∧
      start'.made (rush ++ [next]) ≤ start.made (rush ++ [next]) ∧
      start.made (rush ++ [next]) = 3 := by
  obtain ⟨-, runs⟩ := larger_limit_grants_more 1 2 (by decide)
  obtain ⟨same, before⟩ := runs true .disk .log .empty rush
  obtain ⟨roomier, -, -⟩ := before (same (by decide))
  obtain ⟨same, after⟩ := runs true .disk .log .empty
    (rush ++ [.openPersistent "db" (.ready (.memory .empty))])
  obtain ⟨-, fewer, -⟩ := after (same (by decide))
  exact ⟨by decide +kernel, by decide +kernel, roomier, by decide +kernel, by decide +kernel, fewer,
    by decide +kernel⟩

end Broker

end StreamBroker
