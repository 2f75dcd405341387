import StreamBroker.Proofs.Calls

/-!
# What one stream reads and changes

A call of a stream looks at the stream and at most at one node of the disk, and changes
nothing else. Main statements:

* **amendments** — what a call does to the disk is one node put in its place, or nothing
  (`Disk.Amendment`); two of them at different nodes can change places (`Disk.amend_comm`);
* **calls** — a call is local if disks that agree at the stream's own node get the same answer
  and the same amendment (`Stream.Local`). Every call of the broker is (`Stream.write_local`
  and its like), a file's for what its descriptor looks at;
* **worlds** — so worlds that agree on a stream and its node answer alike and change alike,
  however much they differ elsewhere (`World.ask_local`).
-/

namespace StreamBroker

/-! ## Amendments -/

namespace Disk

/-- A node and what is put in its place, if anything is. -/
abbrev Amendment := Option (NodeId × Node)

def amend (d : Disk) : Amendment → Disk
  | none => d
  | some (i, n) => d.put i n

/-- The amendment is none, or at the given place. -/
def Amendment.At (a : Amendment) (place : Option NodeId) : Prop :=
  ∀ i n, a = some (i, n) → place = some i

theorem Amendment.At.nowhere {place : Option NodeId} : Amendment.At none place := nofun

theorem Amendment.At.here {i : NodeId} {n : Node} : Amendment.At (some (i, n)) (some i) := by
  rintro _ _ ⟨⟩
  rfl

theorem node?_amend {a : Amendment} {place : Option NodeId} (placed : a.At place) {i : NodeId}
    (elsewhere : place ≠ some i) (d : Disk) : (d.amend a).node? i = d.node? i := by
  cases a with
  | none => rfl
  | some e =>
    obtain ⟨j, n⟩ := e
    apply node?_put_of_ne
    rintro rfl
    exact elsewhere (placed j n rfl)

/-- Amendments of different nodes can change places. -/
theorem amend_comm {a c : Amendment} {place other : Option NodeId} (first : a.At place)
    (second : c.At other) (apart : ∀ i, place = some i → other ≠ some i) (d : Disk) :
    (d.amend a).amend c = (d.amend c).amend a := by
  cases a with
  | none => rfl
  | some e =>
    cases c with
    | none => rfl
    | some e' =>
      obtain ⟨i, n⟩ := e
      obtain ⟨j, m⟩ := e'
      have differ : i ≠ j := by
        rintro rfl
        exact apart i (first i n rfl) (second i m rfl)
      exact congrArg Disk.mk (List.set_comm n m differ)

/-! ## Descriptors -/

/-- Whether a write fails, and else what it puts in the place of the descriptor's node, is
known from that node. -/
theorem write_local (d : Disk) (h : Descriptor) (data : Bytes) :
    (∃ fault, ∀ d' : Disk, d'.node? h.node = d.node? h.node →
      d'.write h data = .error fault) ∨
    ∃ n moved, ∃ a : Amendment, a.At (some h.node) ∧
      ∀ d' : Disk, d'.node? h.node = d.node? h.node →
        d'.write h data = .ok (n, moved, d'.amend a) := by
  unfold write
  by_cases reads : h.mode = .read
  · simp only [if_pos reads]
    exact .inl ⟨.badDescriptor, fun _ _ => rfl⟩
  simp only [if_neg reads]
  cases d.node? h.node with
  | none => exact .inl ⟨.badDescriptor, fun d' same => by rw [same]⟩
  | some n =>
    cases n with
    | folder | link => exact .inl ⟨.badDescriptor, fun d' same => by rw [same]⟩
    | fifo queue openers =>
      exact .inr ⟨_, _, some (h.node, _), .here, fun d' same => by rw [same]; rfl⟩
    | file content =>
      by_cases nothing : data = []
      · exact .inr ⟨0, h, none, .nowhere, fun d' same => by rw [same]; exact if_pos nothing⟩
      · exact .inr ⟨_, _, some (h.node, _), .here, fun d' same => by
          rw [same]; exact if_neg nothing⟩

theorem atEnd_congr {d d' : Disk} {h : Descriptor} (same : d'.node? h.node = d.node? h.node) :
    d'.atEnd h = d.atEnd h := by
  unfold atEnd
  rw [same]

/-- Only a queue takes notice of a descriptor that is given up. -/
theorem close_local (d : Disk) (h : Descriptor) :
    ∃ a : Amendment, a.At (some h.node) ∧ ∀ d' : Disk, d'.node? h.node = d.node? h.node →
      d'.close h = d'.amend a := by
  unfold close
  cases d.node? h.node with
  | none => exact ⟨none, .nowhere, fun d' same => by rw [same]; rfl⟩
  | some n =>
    cases n with
    | file | folder | link => exact ⟨none, .nowhere, fun d' same => by rw [same]; rfl⟩
    | fifo queue openers => exact ⟨some (h.node, _), .here, fun d' same => by rw [same]; rfl⟩

end Disk

/-! ## Calls -/

namespace Stream

/-- The node of the disk that a stream is open on. -/
def node? : Stream → Option Disk.NodeId
  | .file f => f.descriptor.map Disk.Descriptor.node
  | _ => none

/-- The disks have the same at the stream's node. -/
def Sees (s : Stream) (d d' : Disk) : Prop := ∀ i, s.node? = some i → d'.node? i = d.node? i

theorem Sees.refl (s : Stream) (d : Disk) : s.Sees d d := fun _ _ => rfl

theorem Sees.amend {s : Stream} {d d' : Disk} (sees : s.Sees d d') {a : Disk.Amendment}
    {place : Option Disk.NodeId} (placed : a.At place) (apart : ∀ i, place = some i → s.node? ≠ some i) :
    s.Sees d (d'.amend a) := by
  intro i own
  have elsewhere : place ≠ some i := fun there => apart i there own
  rw [Disk.node?_amend placed elsewhere, sees i own]

/-- A call that looks at the stream's own node of the disk at most, and changes no other. -/
def Local {α : Type} (call : Stream → Disk → Reaction Stream α) : Prop :=
  ∀ s d, ∃ a : Disk.Amendment, a.At s.node? ∧ ∀ d', s.Sees d d' →
    call s d' = { call s d with disk := d'.amend a }

theorem write_local (data : Bytes) : Local fun s d => s.write d data := by
  intro s d
  cases s with
  | memory | script => exact ⟨none, .nowhere, fun d' sees => rfl⟩
  | file f =>
    obtain ⟨path, descriptor⟩ := f
    cases descriptor with
    | none => exact ⟨none, .nowhere, fun d' sees => rfl⟩
    | some h =>
      rcases d.write_local h data with ⟨fault, fails⟩ | ⟨n, moved, a, placed, writes⟩
      · refine ⟨none, .nowhere, fun d' sees => ?_⟩
        show (File.write ⟨path, some h⟩ d' data).embed Stream.file =
          { (File.write ⟨path, some h⟩ d data).embed Stream.file with disk := d' }
        unfold File.write
        simp only [fails d rfl, fails d' (sees h.node rfl)]
        rfl
      · refine ⟨a, placed, fun d' sees => ?_⟩
        show (File.write ⟨path, some h⟩ d' data).embed Stream.file =
          { (File.write ⟨path, some h⟩ d data).embed Stream.file with disk := d'.amend a }
        unfold File.write
        simp only [writes d rfl, writes d' (sees h.node rfl)]
        rfl

theorem atEnd_local : Local atEnd := by
  intro s d
  refine ⟨none, .nowhere, fun d' sees => ?_⟩
  cases s with
  | memory | script => rfl
  | file f =>
    obtain ⟨path, descriptor⟩ := f
    cases descriptor with
    | none => rfl
    | some h =>
      have same : d'.atEnd h = d.atEnd h := Disk.atEnd_congr (sees h.node rfl)
      show (File.atEnd ⟨path, some h⟩ d').embed Stream.file =
        { (File.atEnd ⟨path, some h⟩ d).embed Stream.file with disk := d' }
      unfold File.atEnd
      simp only [same]
      cases d.atEnd h <;> rfl

theorem close_local : Local close := by
  intro s d
  cases s with
  | memory | script => exact ⟨none, .nowhere, fun d' sees => rfl⟩
  | file f =>
    obtain ⟨path, descriptor⟩ := f
    cases descriptor with
    | none => exact ⟨none, .nowhere, fun d' sees => rfl⟩
    | some h =>
      obtain ⟨a, placed, closes⟩ := d.close_local h
      refine ⟨a, placed, fun d' sees => ?_⟩
      show (⟨(), _, d'.close h, []⟩ : Reaction Stream Unit) = _
      rw [closes d' (sees h.node rfl)]
      rfl

theorem release_local : Local release := fun s _ =>
  ⟨none, .nowhere, fun _ _ => by cases s <;> rfl⟩

/-- Two calls, the first of which says that the stream goes back to a pool. -/
def retire (s : Stream) (d : Disk) : Reaction Stream Unit := (s.release d).stream.close d

theorem retire_local : Local retire := by
  intro s d
  -- a release leaves a stream open on the node that it was open on
  have own : (s.release d).stream.node? = s.node? := by cases s <;> rfl
  obtain ⟨a, placed, closes⟩ := close_local (s.release d).stream d
  rw [own] at placed
  refine ⟨a, placed, fun d' sees => ?_⟩
  have same : (s.release d').stream = (s.release d).stream := by cases s <;> rfl
  unfold retire
  rw [same]
  apply closes
  unfold Sees
  rw [own]
  exact sees

end Stream

/-! ## Worlds -/

/-- All calls among the events are of one stream. -/
def Concerns (s : StreamId) (events : List Event) : Prop := ∀ made ∈ callsIn events, made.1 = s

theorem Concerns.append {s : StreamId} {before after : List Event} (first : Concerns s before)
    (second : Concerns s after) : Concerns s (before ++ after) := by
  intro made here
  rw [callsIn_append] at here
  exact (List.mem_append.mp here).elim (first made) (second made)

theorem Concerns.others {s : StreamId} {events : List Event} (concerns : Concerns s events)
    {other : StreamId} (apart : other ≠ s) : callsTo other (callsIn events) = [] :=
  callsTo_eq_nil fun c made => apart (concerns (other, c) made)

namespace World

variable {α : Type} {call : Stream → Disk → Stream.Reaction Stream α} {w : World} {s : StreamId}
  {stream : Stream}

/-- The node of the disk that a numbered stream is open on. -/
def node? (w : World) (s : StreamId) : Option Disk.NodeId := (w.stream? s).bind Stream.node?

/-- A world in which a stream has become another, and the disk is amended. -/
def turned (w : World) (s : StreamId) (next : Stream) (a : Disk.Amendment) : World :=
  ⟨w.disk.amend a, w.streams.set s next⟩

theorem turned_self (there : w.stream? s = some stream) : w.turned s stream none = w := by
  obtain ⟨known, rfl⟩ := List.getElem?_eq_some_iff.mp there
  exact congrArg (World.mk w.disk) (List.set_getElem_self known)

theorem concerns_ask (there : w.stream? s = some stream) (fallback : α) (describe : α → Call) :
    Concerns s (w.ask s fallback call describe).events := by
  intro made here
  rw [callsIn_ask fallback call describe (List.getElem?_eq_some_iff.mp there).1] at here
  cases List.mem_singleton.mp here
  rfl

/-- Worlds that agree on a stream and its node answer a local call of it alike, and change
alike. -/
theorem ask_local (isLocal : Stream.Local call) (there : w.stream? s = some stream)
    (fallback : α) (describe : α → Call) :
    ∃ next, ∃ a : Disk.Amendment, a.At stream.node? ∧
      ∀ w' : World, w'.stream? s = some stream → stream.Sees w.disk w'.disk →
        w'.ask s fallback call describe =
          { w.ask s fallback call describe with state := w'.turned s next a } := by
  obtain ⟨a, placed, calls⟩ := isLocal stream w.disk
  refine ⟨(call stream w.disk).stream, a, placed, fun w' there' sees => ?_⟩
  rw [ask_known there, ask_known there', calls w'.disk sees]
  rfl

/-- A stream that is released and then closed is retired. -/
theorem close_release (there : w.stream? s = some stream) :
    (w.release s).state.close s = w.ask s () Stream.retire fun _ => .close := by
  have known := (List.getElem?_eq_some_iff.mp there).1
  have idle : (stream.release w.disk).disk = w.disk := by cases stream <;> rfl
  have released : (w.release s).state = ⟨w.disk, w.streams.set s (stream.release w.disk).stream⟩ := by
    unfold release
    rw [ask_known there]
    simp only [idle]
  have there' : (w.release s).state.stream? s = some (stream.release w.disk).stream := by
    rw [released]
    exact List.getElem?_set_self known
  unfold close
  rw [ask_known there', ask_known there, released]
  simp only [List.set_set]
  rfl

end World

end StreamBroker
