import StreamBroker.Proofs.Handles

/-!
# Giving back

What becomes of a stream whose handle is given back, and that the broker's close, which looks
the handle up, heeds the guard and then has the registry look it up again, comes to the same
as the registry's release alone. Main statements:

* **outcome** — the move of an operation that gives a lease back is told by the key that it
  goes back under and the room there (`Move.given_back`);
* **dispatch** — a close answers yes for unguarded streams only (`Broker.close_answer_iff`), and
  is for them the release of their handle, with a note in front (`Broker.close_eq_release`);
* **end to end** — `Broker.close_gives_back`.
-/

namespace StreamBroker

/-! ## Outcome -/

/-- How a stream that is given back under a key, if it has one, leaves the pool, and the calls
that it receives: it is torn down, parked, or torn down after its release for lack of room. -/
inductive Pool.Receives (p : Pool) (s : StreamId) : Option Key → Pool → List Call → Prop
  | closed : Receives p s none p [.close]
  | parked {key} (room : p.idleCount key < p.limit) :
      Receives p s (some key)
        { p with idle := p.idle.push key s, parked := p.parked + 1 } [.release]
  | overflowed {key} (full : p.limit ≤ p.idleCount key) :
      Receives p s (some key) { p with overflow := p.overflow + 1 } [.release, .close]

namespace Pool.Receives

variable {p p' : Pool} {s : StreamId} {key : Key} {made : List Call}

theorem keyless (receives : p.Receives s none p' made) : p' = p ∧ made = [.close] := by
  cases receives
  exact ⟨rfl, rfl⟩

theorem fits (receives : p.Receives s (some key) p' made) (room : p.idleCount key < p.limit) :
    p' = { p with idle := p.idle.push key s, parked := p.parked + 1 } ∧ made = [.release] := by
  cases receives with
  | parked => exact ⟨rfl, rfl⟩
  | overflowed full => exact absurd room (Nat.not_lt_of_le full)

theorem crowded (receives : p.Receives s (some key) p' made) (full : p.limit ≤ p.idleCount key) :
    p' = { p with overflow := p.overflow + 1 } ∧ made = [.release, .close] := by
  cases receives with
  | parked room => exact absurd room (Nat.not_lt_of_le full)
  | overflowed => exact ⟨rfl, rfl⟩

end Pool.Receives

/-- An operation that gives a lease back removes it, and hands its stream to the pool. -/
theorem Move.given_back {b b' : Books} {op : Operation} {answer : Answer}
    {calls : List (StreamId × Call)} {h : Handle} {lease : Lease}
    (move : Move b op answer b' calls) (removes : op.Removes h lease)
    (here : b.slots.get? h = some lease) :
    answer = .verdict true ∧ b.slots.remove h = some (lease, b'.slots) ∧
      ∃ made, calls = made.map (lease.stream, ·) ∧
        b.pool.Receives lease.stream (op.returnKey lease) b'.pool made := by
  -- an operation names one handle, and the handle reaches one lease
  have same : ∀ {h' lease' left}, op.Removes h' lease' →
      b.slots.remove h' = some (lease', left) → h' = h ∧ lease' = lease := by
    intro h' lease' left removes' removed
    have handle : h' = h := Option.some.inj (removes'.handle.symm.trans removes.handle)
    rw [handle] at removed
    exact ⟨handle, Option.some.inj ((Slots.remove_spec removed).1.symm.trans here)⟩
  cases move with
  | rest rests absent kept => exact absurd here (kept h lease removes)
  | asked asks => cases asks <;> cases removes
  | held supplies => cases supplies <;> cases removes
  | reused | guarded | emptied => cases removes
  | closed removes' transient removed =>
    obtain ⟨rfl, rfl⟩ := same removes' removed
    rw [transient]
    exact ⟨rfl, removed, _, rfl, .closed⟩
  | parked removes' persistent removed room =>
    obtain ⟨rfl, rfl⟩ := same removes' removed
    rw [persistent]
    exact ⟨rfl, removed, _, rfl, .parked room⟩
  | overflowed removes' persistent removed full =>
    obtain ⟨rfl, rfl⟩ := same removes' removed
    rw [persistent]
    exact ⟨rfl, removed, _, rfl, .overflowed full⟩

/-! ## Dispatch -/

namespace Broker

variable {b : Broker} {h : Handle} {lease : Lease}

/-- A close answers yes for the unguarded streams that are held, and for nothing else. -/
theorem close_answer_iff {v : Value} :
    (b.close v).answer = true ↔
      ∃ h lease, v = .resource h ∧ b.registry.get? h = some lease ∧ lease.guarded = false := by
  constructor
  · intro yes
    by_cases gives : ∃ h lease, v = .resource h ∧ b.registry.get? h = some lease ∧
        lease.guarded = false
    · exact gives
    · have kept : ∀ h lease, v = .resource h → b.registry.get? h = some lease →
          lease.guarded = true := fun h lease isResource here =>
        Bool.of_not_eq_false fun unguarded => gives ⟨h, lease, isResource, here, unguarded⟩
      rw [(close_rest kept).1] at yes
      cases yes
  · rintro ⟨h, lease, rfl, here, unguarded⟩
    rw [close_eq_release here unguarded, Registry.release_answer, here]
    rfl

/-- After any run of a new broker, a close answers yes exactly for a handle that reaches an
unguarded stream. The handle then reaches nothing, one stream less is held, and other handles
reach what they did. A stream without a key receives a close, and the pool is as it was; one
with a key receives a release and is on top of the key's stack, if there was room, or else it
receives a release and a close, and no stack changes. The registry finds the lease that the
broker saw, and under its key when it is told to release it; answer, state and calls are those
of the registry's release alone. -/
theorem close_gives_back (config : Config) (files : FileSystem) (sink : Sink) (disk : Disk)
    (ops : List Operation) :
    let b := ((Broker.ofConfig config files sink (.ofDisk disk)).run ops).state
    let r := b.registry
    (∀ v, (b.close v).answer = true ↔
      ∃ h lease, v = .resource h ∧ r.get? h = some lease ∧ lease.guarded = false) ∧
    ∀ h lease, r.get? h = some lease → lease.guarded = false →
      let o := b.close (.resource h)
      let r' := o.state.registry
      let s := lease.stream
      (r'.get? h = none ∧ r'.liveCount + 1 = r.liveCount ∧ ∀ k, k ≠ h → r'.get? k = r.get? k) ∧
      (lease.key = none → callsIn o.events = [(s, .close)] ∧ r'.pool = r.pool) ∧
      (∀ key, lease.key = some key → r.pool.idleCount key < r.pool.limit →
        callsIn o.events = [(s, .release)] ∧
        (∀ other, r'.pool.idle.stack other =
          if other = key then s :: r.pool.idle.stack key else r.pool.idle.stack other) ∧
        r'.pool.parked = r.pool.parked + 1 ∧ r'.pool.overflow = r.pool.overflow) ∧
      (∀ key, lease.key = some key → r.pool.limit ≤ r.pool.idleCount key →
        callsIn o.events = [(s, .release), (s, .close)] ∧
        r'.pool = { r.pool with overflow := r.pool.overflow + 1 }) ∧
      ((r.close h).answer = true ∧ (r.release h).answer = true ∧
        (∃ left, r.slots.remove h = some (lease, left)) ∧
        (o.events.head? = some (.note (.releasing h)) ↔ ∃ key, lease.key = some key)) ∧
      o.answer = (r.release h).answer ∧ o.state = { b with registry := (r.release h).state } ∧
        o.events.tail = (r.release h).events ∧
        callsIn o.events = callsIn (r.release h).events := by
  intro b r
  have sound : r.books.Sound := (run_reached config files sink disk ops).sound
  refine ⟨fun v => close_answer_iff, fun h lease here unguarded => ?_⟩
  intro o r' s
  have released : o = _ := close_eq_release here unguarded
  obtain ⟨-, removed, made, calls, receives⟩ :=
    (close_move sound (.resource h)).given_back (.close unguarded) here
  have removed : r.slots.remove h = some (lease, r'.slots) := removed
  have calls : callsIn o.events = made.map (s, ·) := calls
  have receives : r.pool.Receives s lease.key r'.pool made := receives
  have found : (r.close h).answer = true ∧ (r.release h).answer = true := by
    rw [Registry.close_answer, Registry.release_answer, here]
    exact ⟨rfl, rfl⟩
  refine ⟨⟨?_, ?_, fun k other => ?_⟩, ?_, ?_, ?_, ⟨found.1, found.2, ⟨_, removed⟩, ?_⟩, ?_⟩
  · exact Slots.get?_remove_self removed
  · exact sound.slots.live_remove removed
  · exact (Slots.get?_remove removed k).trans (if_neg other)
  · intro transient
    rw [transient] at receives
    obtain ⟨pool, rfl⟩ := receives.keyless
    exact ⟨calls, pool⟩
  · intro key persistent room
    rw [persistent] at receives
    obtain ⟨pool, rfl⟩ := receives.fits room
    rw [pool]
    exact ⟨calls, fun other => Shelf.stack_push .., rfl, rfl⟩
  · intro key persistent full
    rw [persistent] at receives
    obtain ⟨pool, rfl⟩ := receives.crowded full
    exact ⟨calls, pool⟩
  · rw [released]
    cases lease.key <;> simp
  · rw [released]
    exact ⟨rfl, rfl, rfl, rfl⟩

/-- Two streams are held, one of them without a key, and an idle one fills the key of the
other. -/
def returning : List Operation :=
  let source := Stream.Source.ready (.memory .empty)
  [.openStream source {}, .openPersistent "k" source, .openPersistent "k" source,
    .close (.resource ⟨1, 0⟩)]

theorem close_gives_back_returning :
    let b := ((Broker.ofConfig { idleLimit := 1 } .disk .log (.ofDisk .empty)).run returning).state
    callsIn (b.close (.resource ⟨0, 0⟩)).events = [(0, .close)] ∧
      callsIn (b.close (.resource ⟨2, 0⟩)).events = [(2, .release), (2, .close)] ∧
      (b.close (.resource ⟨1, 0⟩)).answer = false := by
  intro b
  obtain ⟨answer, gives⟩ := close_gives_back { idleLimit := 1 } .disk .log .empty returning
  have transient := gives ⟨0, 0⟩ ⟨0, none, false⟩ (by decide +kernel) rfl
  have persistent := gives ⟨2, 0⟩ ⟨2, some "k", false⟩ (by decide +kernel) rfl
  have absent : b.registry.get? ⟨1, 0⟩ = none := by decide +kernel
  refine ⟨(transient.2.1 rfl).1, (persistent.2.2.2.1 "k" rfl (by decide +kernel)).1, ?_⟩
  apply Bool.of_not_eq_true
  intro yes
  obtain ⟨h, lease, same, here, -⟩ := (answer _).mp yes
  cases same
  cases absent.symm.trans here

end Broker

end StreamBroker
