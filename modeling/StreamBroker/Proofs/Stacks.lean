import StreamBroker.Pool
import StreamBroker.Proofs.Calls
import StreamBroker.Proofs.Shelf

/-!
# The pool as stacks

A pool by itself, under any sequence of requests. What waits under each key can be told
from the requests and the replies alone, without a look at the shelf (`stacked`). Main
statements:

* **inversion** — `Served` lists what a request can do to a pool, and every request does
  one of these things (`serve_served`);
* **accounts** — a run keeps pool and history in agreement: stacks, counters, the limit
  (`Accounts.served`, `run_accounts`), and it keeps idle streams apart (`run_apart`);
* **refinement** — `pool_refines_stacks`: after every run the pool is a family of stacks,
  one for each key, none higher than the limit.
-/

namespace StreamBroker.Pool

/-- What a pool is asked. -/
inductive Request
  | park (key : Key) (s : StreamId)
  | take (key : Key)
  | drain
deriving DecidableEq

/-- What a pool answers. -/
inductive Reply
  | parked (kept : Bool)
  | taken (s : Option StreamId)
  | drained (closed : Nat)
deriving DecidableEq

/-- Serves one request. -/
def serve (p : Pool) (w : World) : Request → Outcome (Pool × World) Reply
  | .park key s =>
    let o := p.park w key s
    ⟨.parked o.answer, o.state, o.events⟩
  | .take key =>
    match p.take? key with
    | none => ⟨.taken none, (p, w), []⟩
    | some (s, left) => ⟨.taken (some s), (left, w), []⟩
  | .drain =>
    let o := p.drain w
    ⟨.drained o.answer, o.state, o.events⟩

def run (p : Pool) (w : World) : List Request → Outcome (Pool × World) (List Reply)
  | [] => ⟨[], (p, w), []⟩
  | request :: rest =>
    let first := p.serve w request
    let others := first.state.1.run first.state.2 rest
    ⟨first.answer :: others.answer, others.state, first.events ++ others.events⟩

/-- Whether a stream was taken. -/
def Reply.took : Reply → Bool
  | .taken (some _) => true
  | _ => false

/-- The number of streams that a reply says were drained. -/
def Reply.closed : Reply → Nat
  | .drained n => n
  | _ => 0

/-- The number of streams that were drained, by all replies. -/
def drained : List Reply → Nat
  | [] => 0
  | reply :: rest => reply.closed + drained rest

theorem drained_append (before after : List Reply) :
    drained (before ++ after) = drained before + drained after := by
  induction before with
  | nil => exact (Nat.zero_add _).symm
  | cons reply rest ih => simp only [List.cons_append, drained, ih, Nat.add_assoc]

/-! ## Stacks -/

/-- Notes a request and its reply in what waits under each key. -/
def note (waiting : Key → List StreamId) : Request × Reply → Key → List StreamId
  | (.park key s, .parked true), other =>
    if other = key then s :: waiting key else waiting other
  | (.take key, .taken (some _)), other =>
    if other = key then (waiting key).tail else waiting other
  | (.drain, _), _ => []
  | _, other => waiting other

theorem note_parked (waiting : Key → List StreamId) (key other : Key) (s : StreamId) :
    note waiting (.park key s, .parked true) other =
      if other = key then s :: waiting key else waiting other := rfl

theorem note_taken (waiting : Key → List StreamId) (key other : Key) (s : StreamId) :
    note waiting (.take key, .taken (some s)) other =
      if other = key then (waiting key).tail else waiting other := rfl

/-- What waits under each key after a history: what was parked there and neither taken nor
drained since, with the one parked last first. -/
def stacked (history : List (Request × Reply)) : Key → List StreamId :=
  history.foldl note fun _ => []

theorem stacked_append (history : List (Request × Reply)) (e : Request × Reply) :
    stacked (history ++ [e]) = note (stacked history) e := by
  unfold stacked
  rw [List.foldl_append]
  rfl

/-! ## What a request does -/

/-- How a request takes a pool to a pool, with the reply. -/
inductive Served (p : Pool) : Request → Reply → Pool → Prop
  | parked {key s} (room : p.idleCount key < p.limit) :
      Served p (.park key s) (.parked true)
        { p with idle := p.idle.push key s, parked := p.parked + 1 }
  | overflowed {key s} (full : p.limit ≤ p.idleCount key) :
      Served p (.park key s) (.parked false) { p with overflow := p.overflow + 1 }
  | taken {key s left} (popped : p.idle.pop? key = some (s, left)) :
      Served p (.take key) (.taken (some s)) { p with idle := left }
  | missed {key} (nothing : p.idle.stack key = []) : Served p (.take key) (.taken none) p
  | drained : Served p .drain (.drained p.totalIdle) { p with idle := [] }

variable {p p' : Pool} {w : World} {request : Request} {reply : Reply}

theorem park_room {key : Key} (room : p.idleCount key < p.limit) (w : World) (s : StreamId) :
    p.serve w (.park key s) =
      ⟨.parked true, ({ p with idle := p.idle.push key s, parked := p.parked + 1 }, w),
        [.note (.parked key (p.idleCount key + 1))]⟩ := by
  simp only [serve, park, if_neg (Nat.not_le_of_lt room)]

theorem park_full {key : Key} (full : p.limit ≤ p.idleCount key) (w : World) (s : StreamId) :
    p.serve w (.park key s) =
      ⟨.parked false, ({ p with overflow := p.overflow + 1 }, (w.close s).state),
        (w.close s).events ++ [.note (.keyFull key)]⟩ := by
  simp only [serve, park, if_pos full]

/-- Every request does one of these things. -/
theorem serve_served (p : Pool) (w : World) (request : Request) :
    Served p request (p.serve w request).answer (p.serve w request).state.1 := by
  cases request with
  | park key s =>
    by_cases room : p.idleCount key < p.limit
    · rw [park_room room]
      exact .parked room
    · rw [park_full (Nat.le_of_not_lt room)]
      exact .overflowed (Nat.le_of_not_lt room)
  | take key =>
    cases popped : p.idle.pop? key with
    | none =>
      simp only [serve, take?, popped, Option.map_none]
      exact .missed (Shelf.pop?_eq_none_iff.mp popped)
    | some found =>
      simp only [serve, take?, popped, Option.map_some]
      exact .taken popped
  | drain => exact .drained

theorem callsIn_drain (known : ∀ s ∈ p.idle.toList, s < w.streams.length) :
    callsIn (p.serve w .drain).events = p.idle.toList.map fun s => (s, .close) :=
  World.callsIn_closeEach w p.idle.toList known

/-- Only a park that finds its key full, and draining, touch the world. -/
theorem serve_length (p : Pool) (w : World) (request : Request) :
    (p.serve w request).state.2.streams.length = w.streams.length := by
  cases request with
  | park key s =>
    simp only [serve, park]
    split
    · exact World.close_length w s
    · rfl
  | take key =>
    simp only [serve]
    split <;> rfl
  | drain => exact World.closeEach_length w p.idle.toList

namespace Served

theorem limit (served : Served p request reply p') : p'.limit = p.limit := by
  cases served <;> rfl

theorem wf (wf : p.idle.Wf) (served : Served p request reply p') : p'.idle.Wf := by
  cases served with
  | parked => exact wf.push _ _
  | overflowed | missed => exact wf
  | taken popped => exact wf.pop? popped
  | drained => exact Shelf.Wf.nil

theorem stocked (stocked : p.idle.Stocked) (served : Served p request reply p') :
    p'.idle.Stocked := by
  cases served with
  | parked => exact stocked.push _ _
  | overflowed | missed => exact stocked
  | taken popped => exact stocked.pop? popped
  | drained => exact Shelf.Stocked.nil

/-- The stacks afterwards are those that the reply tells. -/
theorem stack (wf : p.idle.Wf) (served : Served p request reply p') (key : Key) :
    p'.idle.stack key = note p.idle.stack (request, reply) key := by
  cases served with
  | @parked key' s room => exact Shelf.stack_push p.idle key' key s
  | overflowed | missed => rfl
  | @taken key' s left popped =>
    have stack := Shelf.stack_pop? wf popped
    rw [note_taken, stack key', if_pos rfl]
    by_cases same : key = key'
    · rw [if_pos same, same]
      rfl
    · rw [if_neg same, stack key, if_neg same]
  | drained => rfl

/-- No stack outgrows the limit. -/
theorem bounded (wf : p.idle.Wf) (served : Served p request reply p')
    (bounded : ∀ key, p.idleCount key ≤ p.limit) (key : Key) : p'.idleCount key ≤ p'.limit := by
  rw [served.limit, idleCount, Shelf.count, served.stack wf]
  cases served with
  | @parked key' s room =>
    rw [note_parked]
    split
    · exact room
    · exact bounded key
  | overflowed | missed => exact bounded key
  | @taken key' s left popped =>
    rw [note_taken]
    split
    · rw [List.length_tail]
      exact Nat.le_trans (Nat.sub_le ..) (bounded key')
    · exact bounded key
  | drained => exact Nat.zero_le _

/-- A stream that was parked is idle until it is taken or drained. -/
theorem total (served : Served p request reply p') :
    p'.totalIdle + reply.took.toNat + reply.closed + p.parked = p.totalIdle + p'.parked := by
  cases served with
  | @parked key s room =>
    have total : (p.idle.push key s).total = p.totalIdle + 1 := Shelf.total_push ..
    show (p.idle.push key s).total + p.parked = p.totalIdle + (p.parked + 1)
    omega
  | overflowed | missed => rfl
  | @taken key s left popped =>
    have total : left.total + 1 = p.totalIdle := (Shelf.total_pop? popped).symm
    show left.total + 1 + p.parked = p.totalIdle + p.parked
    rw [total]
  | drained => exact congrArg (· + p.parked) (Nat.zero_add _)

end Served

/-! ## Accounts -/

/-- What a pool and the history that led to it have to do with each other. -/
structure Accounts (limit : Nat) (history : List (Request × Reply)) (p : Pool) : Prop where
  limit : p.limit = limit
  wf : p.idle.Wf
  stocked : p.idle.Stocked
  waiting : p.idle.stack = stacked history
  bounded : ∀ key, p.idleCount key ≤ p.limit
  parked : p.parked = (history.map Prod.snd).count (.parked true)
  overflow : p.overflow = (history.map Prod.snd).count (.parked false)
  idle : p.totalIdle + (history.map Prod.snd).countP Reply.took + drained (history.map Prod.snd) =
    p.parked

namespace Accounts

variable {limit : Nat} {history : List (Request × Reply)}

theorem new (limit : Nat) : Accounts limit [] (ofLimit limit) where
  limit := rfl
  wf := Shelf.Wf.nil
  stocked := Shelf.Stocked.nil
  waiting := rfl
  bounded _ := Nat.zero_le _
  parked := rfl
  overflow := rfl
  idle := rfl

/-- One more request is one more entry of the history. -/
theorem served (accounts : Accounts limit history p) (served : Served p request reply p') :
    Accounts limit (history ++ [(request, reply)]) p' := by
  have waiting : p'.idle.stack = stacked (history ++ [(request, reply)]) := by
    funext key
    rw [served.stack accounts.wf, stacked_append, accounts.waiting]
  have parked := accounts.parked
  have overflow := accounts.overflow
  have idle := accounts.idle
  refine ⟨served.limit.trans accounts.limit, served.wf accounts.wf,
    served.stocked accounts.stocked, waiting, served.bounded accounts.wf accounts.bounded,
    ?_, ?_, ?_⟩
  · cases served <;> simp [parked]
  · cases served <;> simp [overflow]
  · have took : [reply].countP Reply.took = reply.took.toNat := by
      rw [List.countP_singleton]
      cases reply.took <;> rfl
    have closed : drained [reply] = reply.closed := Nat.add_zero _
    have total := served.total
    rw [List.map_append, List.countP_append, drained_append]
    show _ + (_ + [reply].countP Reply.took) + (_ + drained [reply]) = _
    rw [took, closed]
    omega

end Accounts

/-- A run goes on with the accounts that it starts from. -/
theorem run_accounts {limit : Nat} {history : List (Request × Reply)}
    (accounts : Accounts limit history p) (requests : List Request) :
    Accounts limit (history ++ requests.zip (p.run w requests).answer)
      (p.run w requests).state.1 := by
  induction requests generalizing p w history with
  | nil => simpa [run] using accounts
  | cons request rest ih =>
    have later := ih (w := (p.serve w request).state.2)
      (accounts.served (serve_served p w request))
    rw [List.append_assoc] at later
    exact later

/-! ## Streams that are parked -/

/-- A request parks a stream only if it is one that is not idle already. -/
def Request.Owned (p : Pool) (w : World) : Request → Prop
  | .park _ s => s < w.streams.length ∧ s ∉ p.idle.toList
  | _ => True

instance Request.decidableOwned (p : Pool) (w : World) : DecidablePred (Request.Owned p w)
  | .park .. => inferInstanceAs (Decidable (_ ∧ _))
  | .take _ | .drain => .isTrue trivial

/-- Every request of a run parks, at its turn, only what is not idle already. -/
def Owned (p : Pool) (w : World) : List Request → Prop
  | [] => True
  | request :: rest =>
    request.Owned p w ∧ (p.serve w request).state.1.Owned (p.serve w request).state.2 rest

instance decidableOwned :
    (p : Pool) → (w : World) → (requests : List Request) → Decidable (p.Owned w requests)
  | _, _, [] => .isTrue trivial
  | p, w, request :: rest =>
    have := decidableOwned (p.serve w request).state.1 (p.serve w request).state.2 rest
    inferInstanceAs (Decidable (_ ∧ _))

/-- Idle streams are streams of the world, and each is idle once. -/
structure Apart (p : Pool) (w : World) : Prop where
  once : p.idle.toList.Nodup
  known : ∀ s ∈ p.idle.toList, s < w.streams.length

theorem Apart.serve (apart : Apart p w) (owned : request.Owned p w) :
    Apart (p.serve w request).state.1 (p.serve w request).state.2 := by
  have length := serve_length p w request
  have served := serve_served p w request
  generalize (p.serve w request).state.1 = p' at *
  generalize (p.serve w request).answer = reply at served
  refine ⟨?_, fun s here => ?_⟩
  · cases served with
    | @parked key s room =>
      rw [(Shelf.toList_push p.idle key s).nodup_iff]
      exact List.nodup_cons.mpr ⟨owned.2, apart.once⟩
    | overflowed | missed => exact apart.once
    | taken popped =>
      exact (List.nodup_cons.mp ((Shelf.toList_pop? popped).nodup_iff.mp apart.once)).2
    | drained => exact List.nodup_nil
  · rw [length]
    cases served with
    | @parked key s' room =>
      rcases List.mem_cons.mp ((Shelf.toList_push p.idle key s').mem_iff.mp here) with rfl | old
      · exact owned.1
      · exact apart.known s old
    | overflowed | missed => exact apart.known s here
    | taken popped =>
      exact apart.known s ((Shelf.toList_pop? popped).mem_iff.mpr (List.mem_cons_of_mem _ here))
    | drained => cases here

theorem run_apart (apart : Apart p w) {requests : List Request} (owned : p.Owned w requests) :
    Apart (p.run w requests).state.1 (p.run w requests).state.2 := by
  induction requests generalizing p w with
  | nil => exact apart
  | cons request rest ih => exact ih (apart.serve owned.1) owned.2

/-! ## Refinement -/

theorem length_run (p : Pool) (w : World) (requests : List Request) :
    (p.run w requests).answer.length = requests.length := by
  induction requests generalizing p w with
  | nil => rfl
  | cons request rest ih => exact congrArg (· + 1) (ih _ _)

/-- Draining closes every idle stream once, and no other. -/
theorem callsTo_drain (apart : Apart p w) (s : StreamId) :
    callsTo s (callsIn (p.serve w .drain).events) =
      if s ∈ p.idle.toList then [.close] else [] := by
  rw [callsIn_drain apart.known, callsTo_map, apart.once.count]
  split <;> rfl

/-- The reply to a take is the top of the key's stack. -/
theorem take_answer (wf : p.idle.Wf) (w : World) (key : Key) :
    (p.serve w (.take key)).answer = .taken (p.idle.stack key).head? := by
  cases popped : p.idle.pop? key with
  | none =>
    rw [Shelf.pop?_eq_none_iff.mp popped]
    simp only [serve, take?, popped, Option.map_none, List.head?_nil]
  | some found =>
    rw [Shelf.stack_pop? wf popped, if_pos rfl]
    simp only [serve, take?, popped, Option.map_some, List.head?_cons]

/-- A take removes the top of the key's stack. -/
theorem take_stack (wf : p.idle.Wf) (w : World) (key other : Key) :
    (p.serve w (.take key)).state.1.idle.stack other =
      if other = key then (p.idle.stack key).tail else p.idle.stack other := by
  have served := serve_served p w (.take key)
  rw [served.stack wf, take_answer wf]
  cases top : p.idle.stack key with
  | nil =>
    show p.idle.stack other = _
    split
    · rename_i same
      rw [same, top]
      rfl
    · rfl
  | cons s below => rw [List.head?_cons, note_taken, top]

/-- A take makes no difference outside the pool. -/
theorem take_silent (p : Pool) (w : World) (key : Key) :
    (p.serve w (.take key)).events = [] ∧ (p.serve w (.take key)).state.2 = w := by
  unfold serve
  simp only
  split <;> exact ⟨rfl, rfl⟩

/-- Let a new pool with a limit serve any requests that park only what is not idle already,
and let the stacks be those of the history. Then the pool keeps those stacks, none of them
higher than the limit, and has an entry for exactly the keys whose stack is not empty; with
the limit zero it has none. The next take is answered with the top of the key's stack and
removes it. The next park puts the stream on top if there is room; if not, it closes the
stream once, calls no other, and only counts an overflow. Neither changes the stack of
another key. Draining closes every idle stream once, counts them, and leaves none. The pool
counts the parks that were answered with yes and with no, and the streams that it keeps are
those parked less those taken and drained. -/
theorem pool_refines_stacks (limit : Nat) (world : World) (requests : List Request)
    (owned : (ofLimit limit).Owned world requests) :
    let o := (ofLimit limit).run world requests
    let p := o.state.1
    let w := o.state.2
    let waiting := stacked (requests.zip o.answer)
    let emptied := p.serve w .drain
    (∀ key, p.idle.stack key = waiting key ∧ p.idleCount key = (waiting key).length ∧
      p.idleCount key ≤ limit ∧ (key ∈ p.idle.map Prod.fst ↔ p.idleCount key ≠ 0)) ∧
    (limit = 0 → p.idle = []) ∧
    (∀ key,
      let next := p.serve w (.take key)
      next.answer = .taken (waiting key).head? ∧ next.events = [] ∧ next.state.2 = w ∧
      ∀ other, next.state.1.idle.stack other =
        if other = key then (waiting key).tail else waiting other) ∧
    (∀ key s, s < w.streams.length →
      let next := p.serve w (.park key s)
      if (waiting key).length < limit then
        next.answer = .parked true ∧ callsIn next.events = [] ∧ next.state.2 = w ∧
        ∀ other, next.state.1.idle.stack other =
          if other = key then s :: waiting key else waiting other
      else
        next.answer = .parked false ∧ callsIn next.events = [(s, .close)] ∧
        next.state = ({ p with overflow := p.overflow + 1 }, (w.close s).state)) ∧
    (emptied.answer = .drained p.totalIdle ∧ emptied.state.1 = { p with idle := [] } ∧
      (callsIn emptied.events).length = p.totalIdle ∧
      (∀ key, ∀ s ∈ waiting key, callsTo s (callsIn emptied.events) = [.close]) ∧
      ∀ s, (∀ key, s ∉ waiting key) → callsTo s (callsIn emptied.events) = []) ∧
    p.parked = o.answer.count (.parked true) ∧ p.overflow = o.answer.count (.parked false) ∧
    p.totalIdle + o.answer.countP Reply.took + drained o.answer = p.parked := by
  intro o p w waiting emptied
  have accounts : Accounts limit (requests.zip o.answer) p :=
    run_accounts (.new limit) requests
  have new : Apart (ofLimit limit) world := ⟨List.nodup_nil, fun s here => nomatch here⟩
  have apart : Apart p w := run_apart new owned
  have replies : (requests.zip o.answer).map Prod.snd = o.answer :=
    List.map_snd_zip (Nat.le_of_eq (length_run ..))
  have stack : ∀ key, p.idle.stack key = waiting key := congrFun accounts.waiting
  have idle : ∀ s, s ∈ p.idle.toList ↔ ∃ key, s ∈ waiting key := by
    intro s
    rw [Shelf.mem_toList_iff accounts.wf, accounts.waiting]
  have count : ∀ key, p.idleCount key = (waiting key).length := by
    intro key
    rw [idleCount, Shelf.count, stack]
  have entries : ∀ key, key ∈ p.idle.map Prod.fst ↔ p.idleCount key ≠ 0 := by
    intro key
    rw [accounts.stocked.mem_keys_iff, count, stack, Ne, Ne, List.length_eq_zero_iff]
  have bounded : ∀ key, p.idleCount key ≤ limit := by
    intro key
    rw [← accounts.limit]
    exact accounts.bounded key
  refine ⟨fun key => ⟨stack key, count key, bounded key, entries key⟩, fun zero => ?_,
    fun key => ⟨?_, (take_silent p w key).1, (take_silent p w key).2, fun other => ?_⟩,
    fun key s known => ?_, ⟨rfl, rfl, ?_, fun key s here => ?_, fun s absent => ?_⟩, ?_, ?_, ?_⟩
  · -- an entry would be one of a key with something idle
    rw [List.eq_nil_iff_forall_not_mem]
    intro e here
    have some := (entries e.1).mp (List.mem_map_of_mem here)
    have none := bounded e.1
    omega
  · rw [take_answer accounts.wf, stack]
  · rw [take_stack accounts.wf, stack, stack]
  · rw [← count, ← accounts.limit]
    split
    · rename_i room
      rw [park_room room]
      refine ⟨rfl, rfl, rfl, fun other => ?_⟩
      rw [Shelf.stack_push, stack, stack]
    · rename_i full
      rw [park_full (Nat.le_of_not_lt full)]
      -- the stream is one of the world, so closing it is a call
      refine ⟨rfl, ?_, rfl⟩
      rw [callsIn_append, World.callsIn_close known]
      rfl
  · rw [callsIn_drain apart.known, List.length_map]
    exact (Shelf.total_eq_length_toList p.idle).symm
  · rw [callsTo_drain apart, if_pos ((idle s).mpr ⟨key, here⟩)]
  · rw [callsTo_drain apart, if_neg]
    intro here
    obtain ⟨key, here⟩ := (idle s).mp here
    exact absent key here
  · rw [accounts.parked, replies]
  · rw [accounts.overflow, replies]
  · have kept := accounts.idle
    rw [replies] at kept
    exact kept

/-- Parks with and without room, of a stream that was taken too, and a drain between. -/
def crowding : List Request :=
  [.park "a" 0, .park "a" 1, .take "a", .take "a", .park "b" 0, .park "a" 2, .drain, .take "b",
    .park "a" 3, .park "a" 4]

theorem pool_refines_stacks_crowding :
    let world : World := ⟨.empty, List.replicate 5 (.memory .empty)⟩
    let o := (ofLimit 1).run world crowding
    (ofLimit 1).Owned world crowding ∧ o.state.1.idle.stack "a" = [3] ∧
      (o.state.1.serve o.state.2 (.take "a")).answer = .taken (some 3) ∧
      o.state.1.overflow = 2 := by
  intro world o
  have owned : (ofLimit 1).Owned world crowding := by decide +kernel
  obtain ⟨kept, -, takes, -, -, -, overflow, -⟩ := pool_refines_stacks 1 world crowding owned
  have waiting : stacked (crowding.zip o.answer) "a" = [3] := by decide +kernel
  refine ⟨owned, (kept "a").1.trans waiting, ?_, overflow.trans (by decide +kernel)⟩
  rw [(takes "a").1, waiting]
  rfl

end StreamBroker.Pool
