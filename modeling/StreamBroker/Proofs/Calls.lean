import StreamBroker.World

/-!
# Calls

The calls among the events of a run, in order, each with the stream that received
it (`callsIn`), and the part of one stream (`callsTo`). A call of the world is told
by exactly one event, and the number of streams stays the same; with this the
registry's steps can be judged without a look at what a stream does.
-/

namespace StreamBroker

/-- The call that an event tells of. -/
def Event.call? : Event → Option (StreamId × Call)
  | .call s c => some (s, c)
  | .query _ | .note _ | .recorded _ => none

/-- The calls among events, in order. -/
def callsIn (events : List Event) : List (StreamId × Call) := events.filterMap Event.call?

/-- The calls that one stream received, in order. -/
def callsTo (s : StreamId) (calls : List (StreamId × Call)) : List Call :=
  (calls.filter fun c => c.1 = s).map Prod.snd

/-- The streams that a kind of call was made of, in order. -/
def madeOf (c : Call) (calls : List (StreamId × Call)) : List StreamId :=
  (calls.filter fun made => made.2 = c).map Prod.fst

@[simp]
theorem callsIn_nil : callsIn [] = [] := rfl

@[simp]
theorem callsIn_append (before after : List Event) :
    callsIn (before ++ after) = callsIn before ++ callsIn after :=
  List.filterMap_append

@[simp]
theorem callsIn_note_cons (n : Note) (events : List Event) :
    callsIn (.note n :: events) = callsIn events := rfl

@[simp]
theorem callsIn_query_cons (path : Bytes) (events : List Event) :
    callsIn (.query path :: events) = callsIn events := rfl

@[simp]
theorem callsIn_call_cons (s : StreamId) (c : Call) (events : List Event) :
    callsIn (.call s c :: events) = (s, c) :: callsIn events := rfl

@[simp]
theorem callsIn_notes (notes : List Note) : callsIn (notes.map .note) = [] := by
  unfold callsIn
  rw [List.filterMap_map, List.filterMap_eq_nil_iff]
  intro n _
  rfl

theorem callsTo_cons_self (s : StreamId) (c : Call) (calls : List (StreamId × Call)) :
    callsTo s ((s, c) :: calls) = c :: callsTo s calls := by
  simp [callsTo]

theorem callsTo_cons_of_ne {s s' : StreamId} (other : s' ≠ s) (c : Call)
    (calls : List (StreamId × Call)) : callsTo s ((s', c) :: calls) = callsTo s calls := by
  simp [callsTo, other]

theorem mem_callsTo {s : StreamId} {c : Call} {calls : List (StreamId × Call)} :
    c ∈ callsTo s calls ↔ (s, c) ∈ calls := by
  simp [callsTo]

theorem callsTo_append (s : StreamId) (before after : List (StreamId × Call)) :
    callsTo s (before ++ after) = callsTo s before ++ callsTo s after := by
  unfold callsTo
  rw [List.filter_append, List.map_append]

theorem callsTo_eq_nil {s : StreamId} {calls : List (StreamId × Call)}
    (other : ∀ c, (s, c) ∉ calls) : callsTo s calls = [] :=
  List.eq_nil_iff_forall_not_mem.mpr fun c here => other c (mem_callsTo.mp here)

/-- One call of every stream of a list, as a single stream sees it. -/
theorem callsTo_map (s : StreamId) (c : Call) (streams : List StreamId) :
    callsTo s (streams.map fun s => (s, c)) = List.replicate (streams.count s) c := by
  unfold callsTo
  induction streams with
  | nil => rfl
  | cons s' rest ih =>
    by_cases same : s' = s
    · simp [same, List.replicate_succ, ih]
    · simp [same, ih]

theorem madeOf_append (c : Call) (before after : List (StreamId × Call)) :
    madeOf c (before ++ after) = madeOf c before ++ madeOf c after := by
  unfold madeOf
  rw [List.filter_append, List.map_append]

theorem mem_madeOf {c : Call} {calls : List (StreamId × Call)} {s : StreamId} :
    s ∈ madeOf c calls ↔ (s, c) ∈ calls := by
  unfold madeOf
  constructor
  · intro here
    obtain ⟨⟨s', c'⟩, made, rfl⟩ := List.mem_map.mp here
    obtain ⟨made, same⟩ := List.mem_filter.mp made
    have equal : c' = c := by simpa using same
    rw [equal] at made
    exact made
  · intro made
    exact List.mem_map.mpr ⟨(s, c), List.mem_filter.mpr ⟨made, by simp⟩, rfl⟩

/-- One call of every stream of a list. -/
theorem madeOf_map (c : Call) (streams : List StreamId) :
    madeOf c (streams.map fun s => (s, c)) = streams := by
  unfold madeOf
  induction streams with
  | nil => rfl
  | cons s rest ih => simpa using ih

theorem madeOf_map_of_ne {c other : Call} (apart : c ≠ other) (streams : List StreamId) :
    madeOf other (streams.map fun s => (s, c)) = [] := by
  unfold madeOf
  rw [List.map_eq_nil_iff, List.filter_eq_nil_iff]
  intro made here
  obtain ⟨s, -, rfl⟩ := List.mem_map.mp here
  simpa using apart

namespace World

variable {w : World} {s : StreamId}

theorem ask_length {α : Type} (w : World) (s : StreamId) (fallback : α)
    (call : Stream → Disk → Stream.Reaction Stream α) (describe : α → Call) :
    (w.ask s fallback call describe).state.streams.length = w.streams.length := by
  unfold ask
  split
  · rfl
  · exact List.length_set

/-- A call of a known stream answers and changes as the stream says. -/
theorem ask_known {α : Type} {stream : Stream} (there : w.stream? s = some stream) (fallback : α)
    (call : Stream → Disk → Stream.Reaction Stream α) (describe : α → Call) :
    w.ask s fallback call describe =
      let r := call stream w.disk
      ⟨r.answer, ⟨r.disk, w.streams.set s r.stream⟩,
        r.notes.map .note ++ [.call s (describe r.answer)]⟩ := by
  unfold ask
  rw [there]

theorem callsIn_ask {α : Type} (fallback : α) (call : Stream → Disk → Stream.Reaction Stream α)
    (describe : α → Call) (known : s < w.streams.length) :
    callsIn (w.ask s fallback call describe).events =
      [(s, describe (w.ask s fallback call describe).answer)] := by
  unfold ask stream?
  rw [List.getElem?_eq_getElem known]
  simp

theorem callsIn_close (known : s < w.streams.length) : callsIn (w.close s).events = [(s, .close)] :=
  callsIn_ask () _ _ known

theorem callsIn_release (known : s < w.streams.length) :
    callsIn (w.release s).events = [(s, .release)] :=
  callsIn_ask () _ _ known

theorem close_length (w : World) (s : StreamId) :
    (w.close s).state.streams.length = w.streams.length :=
  ask_length ..

theorem release_length (w : World) (s : StreamId) :
    (w.release s).state.streams.length = w.streams.length :=
  ask_length ..

theorem closeEach_length (w : World) (streams : List StreamId) :
    (w.closeEach streams).state.streams.length = w.streams.length := by
  induction streams generalizing w with
  | nil => rfl
  | cons s rest ih => exact (ih _).trans (close_length w s)

theorem callsIn_closeEach (w : World) (streams : List StreamId)
    (known : ∀ s ∈ streams, s < w.streams.length) :
    callsIn (w.closeEach streams).events = streams.map fun s => (s, .close) := by
  induction streams generalizing w with
  | nil => rfl
  | cons s rest ih =>
    have first := callsIn_close (known s List.mem_cons_self)
    have others := ih (w.close s).state fun s' here => by
      rw [close_length]
      exact known s' (List.mem_cons_of_mem _ here)
    simp only [closeEach, callsIn_append, first, others, List.map_cons]
    rfl

end World

end StreamBroker
