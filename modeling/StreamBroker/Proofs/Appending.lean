import StreamBroker.Proofs.Declining
import StreamBroker.Proofs.Locality
import StreamBroker.Proofs.RoundTrip

/-!
# Files that are shared

Several streams are open on one file, some for appending and some for reading. Main statements:

* **files** — a use adds what it offers to the end of its file if its stream appends, and
  nothing otherwise (`Stream.Standing.holds`); opening adds nothing (`Disk.Opens.holds`);
* **history** — what a file was given can be told from the calls alone, and a call adds to the
  end of it at most (`appended_snoc`);
* **streams** — what has become of each stream that was opened, and which bytes it gave
  (`Stream.Standing`).

Every visit keeps this (`World.Shared.visit`), and `appends_kept` reads it off any run.
-/

namespace StreamBroker

/-! ## Files -/

namespace Disk

variable {d d' : Disk} {mode : Mode} {path content : Bytes} {i j : NodeId} {h : Descriptor}

theorem Mode.eq_read (kept : mode ≠ .create) (unappending : mode ≠ .append) : mode = .read := by
  cases mode with
  | create => exact absurd rfl kept
  | read => rfl
  | append => exact absurd rfl unappending

/-- What a file holds; one that is still to be made holds nothing. -/
inductive Holds (d : Disk) (i : NodeId) : Bytes → Prop
  | missing (absent : d.node? i = none) : Holds d i []
  | file {content : Bytes} (there : d.node? i = some (.file content)) : Holds d i content

theorem Holds.node_eq {node : Node} (holds : d.Holds i content) (there : d.node? i = some node) :
    node = .file content := by
  cases holds with
  | missing absent => cases absent.symm.trans there
  | file here => exact Option.some.inj (there.symm.trans here)

theorem Holds.there (holds : d.Holds i content) (isFile : d.IsFile i) :
    d.node? i = some (.file content) := by
  obtain ⟨held, there⟩ := isFile
  rw [there, holds.node_eq there]

theorem Holds.congr (holds : d.Holds i content) (same : d'.node? i = d.node? i) :
    d'.Holds i content := by
  cases holds with
  | missing absent => exact .missing (same.trans absent)
  | file here => exact .file (same.trans here)

/-- Something else than a file is replaced. -/
theorem Holds.put_other {old node : Node} (holds : d.Holds i content)
    (there : d.node? j = some old) (noFile : ∀ held, old ≠ .file held) :
    (d.put j node).Holds i content := by
  have apart : j ≠ i := by
    rintro rfl
    exact noFile _ (holds.node_eq there)
  exact holds.congr (node?_put_of_ne apart)

/-- Opening a file for reading or appending changes no content. -/
theorem Opens.holds (opens : d.Opens mode path j d') (kept : mode ≠ .create)
    (holds : d.Holds i content) : d'.Holds i content := by
  cases opens with
  | @made folder parent entries name leads there absent =>
    have apart : i ≠ folder := by
      rintro rfl
      cases holds.node_eq there
    by_cases new : i = d.nodes.length
    · subst new
      have made := node?_made there name d.nodes.length
      rw [if_neg apart, if_pos rfl] at made
      cases holds with
      | missing unused => exact .file made
      | file here => cases (List.getElem?_eq_none (Nat.le_refl _)).symm.trans here
    · have same := node?_made there name i
      rw [if_neg apart, if_neg new] at same
      exact holds.congr same
  | file leads there =>
    rw [if_neg kept]
    exact holds
  | fifo leads there => exact holds.put_other there nofun
  | folder leads there reads => exact holds

/-- What was opened is there. -/
theorem Opens.isFile (opens : d.Opens mode path i d') (holds : d'.Holds i content) :
    d'.IsFile i := by
  cases opens with
  | made leads there absent =>
    have apart := Nat.ne_of_gt (List.getElem?_eq_some_iff.mp there).1
    exact ⟨[], by rw [node?_made there, if_neg apart, if_pos rfl]⟩
  | file leads there =>
    split
    · exact ⟨[], node?_put_self (List.getElem?_eq_some_iff.mp there).1⟩
    · exact ⟨_, there⟩
  | fifo leads there =>
    cases holds.node_eq (node?_put_self (List.getElem?_eq_some_iff.mp there).1)
  | folder leads there reads => cases holds.node_eq there

/-- A write that appends adds its data, and is at the end if there was something to add. -/
theorem Holds.append (holds : d.Holds h.node content) (isFile : d.IsFile h.node)
    (appends : h.mode = .append) (data : Bytes) :
    ∃ moved d', d.write h data = .ok (data.length, moved, d') ∧
      d'.Holds h.node (content ++ data) ∧ (data ≠ [] → d'.atEnd moved = .ok true) := by
  have there := holds.there isFile
  have writes : h.mode ≠ .read := by
    rw [appends]
    nofun
  by_cases nothing : data = []
  · subst nothing
    rw [List.append_nil]
    exact ⟨h, d, write_nothing there writes, holds, absurd rfl⟩
  · let moved : Descriptor := { h with position := content.length + data.length }
    have after : (d.put h.node (.file (content ++ data))).node? moved.node = _ :=
      node?_put_self (List.getElem?_eq_some_iff.mp there).1
    refine ⟨moved, _, write_atEnd there writes (.inl appends) nothing, .file after, fun _ => ?_⟩
    rw [atEnd_file after, List.length_append, decide_eq_true (Nat.le_refl _)]

theorem read_elsewhere {size : Nat} {got : Bytes} {moved : Descriptor}
    (gave : d.read h size = .ok (got, moved, d')) (other : h.node ≠ i) :
    d'.node? i = d.node? i := by
  unfold Disk.read at gave
  split at gave <;> cases gave
  · rfl
  · exact node?_put_of_ne other

end Disk

/-! ## History -/

/-- The bytes that a call offers. -/
def Call.offered : Call → Bytes
  | .write data _ => data
  | _ => []

/-- The bytes of all writes, in order, to the streams that append. A stream that was closed
appends no more. -/
def appended (appends : StreamId → Bool) : List (StreamId × Call) → Bytes
  | [] => []
  | (s, .close) :: rest => appended (fun t => appends t && t != s) rest
  | (s, c) :: rest => (if appends s then c.offered else []) ++ appended appends rest

theorem appended_congr {appends appends' : StreamId → Bool} {calls : List (StreamId × Call)}
    (same : ∀ c ∈ calls, appends c.1 = appends' c.1) :
    appended appends calls = appended appends' calls := by
  induction calls generalizing appends appends' with
  | nil => rfl
  | cons c rest ih =>
    obtain ⟨first, others⟩ := List.forall_mem_cons.mp same
    obtain ⟨s, c⟩ := c
    cases c with
    | close =>
      refine ih fun c later => ?_
      rw [others c later]
    | _ =>
      rw [appended, appended, show appends s = appends' s from first, ih others]
      all_goals nofun

/-- A call adds what it offers if its stream appends and was not closed. -/
theorem appended_snoc (appends : StreamId → Bool) (calls : List (StreamId × Call)) (s : StreamId)
    (c : Call) :
    appended appends (calls ++ [(s, c)]) = appended appends calls ++
      if appends s = true ∧ .close ∉ callsTo s calls then c.offered else [] := by
  -- A call that closes a stream changes which streams append, so these are generalized.
  induction calls generalizing appends with
  | nil => cases c <;> simp [appended, callsTo, Call.offered]
  | cons first rest ih =>
    obtain ⟨t, c'⟩ := first
    cases c' with
    | close =>
      by_cases same : t = s
      · subst same
        simp [appended, ih, callsTo_cons_self]
      · simp [appended, ih, callsTo_cons_of_ne same, Ne.symm same]
    | _ =>
      by_cases same : t = s
      · subst same
        simp [appended, ih, callsTo_cons_self]
      · simp [appended, ih, callsTo_cons_of_ne same]

theorem bytesRead_snoc (mine : List Call) (c : Call) :
    bytesRead (mine ++ [c]) = bytesRead mine ++ c.got := by
  rw [bytesRead, List.flatMap_append, List.flatMap_singleton]
  rfl

/-! ## Streams -/

namespace Stream

variable {d d' : Disk} {i : Disk.NodeId} {path content : Bytes} {h : Disk.Descriptor}
  {mine : List Call} {now : Stream} {use : Use}

theorem Use.eq_write (use : Use) (writes : use.writes = true) : ∃ data, use = .write data := by
  cases use with
  | write data => exact ⟨data, rfl⟩
  | _ => cases writes

theorem Use.offered_nil (use : Use) (noWrite : use.writes = false) : use.offered = [] := by
  cases use with
  | write data => cases noWrite
  | _ => rfl

theorem serve_ne_close (s : Stream) (d : Disk) (unclosed : use ≠ .close) :
    (s.serve d use).answer ≠ .close := by
  cases use with
  | close => exact absurd rfl unclosed
  | _ => nofun

theorem serve_offered (s : Stream) (d : Disk) (use : Use) :
    (s.serve d use).answer.offered = use.offered := by
  cases use <;> rfl

/-- A call changes at most the node that its stream is open on. -/
theorem Local.elsewhere {α : Type} {call : Stream → Disk → Reaction Stream α}
    (isLocal : Local call) {s : Stream} (other : s.node? ≠ some i) (d : Disk) :
    (call s d).disk.node? i = d.node? i := by
  obtain ⟨a, placed, amends⟩ := isLocal s d
  rw [amends d (.refl s d)]
  exact Disk.node?_amend placed other d

theorem serve_elsewhere (path : Bytes) (other : h.node ≠ i) (d : Disk) (use : Use) :
    ((Stream.file ⟨path, some h⟩).serve d use).disk.node? i = d.node? i := by
  have apart : (Stream.file ⟨path, some h⟩).node? ≠ some i := fun same =>
    other (Option.some.inj same)
  cases use with
  | write data => exact (write_local data).elsewhere apart d
  | read size =>
    cases gave : d.read h size with
    | error fault => rw [serve_declined (.read rfl gave)]
    | ok r =>
      rw [serve_read gave]
      exact Disk.read_elsewhere gave other
  | atEnd => exact atEnd_local.elsewhere apart d
  | close => exact close_local.elsewhere apart d
  | release => exact release_local.elsewhere apart d

/-- Only a write changes a file. -/
theorem serve_unwritten (path : Bytes) (there : d.node? h.node = some (.file content))
    (noWrite : use.writes = false) : ((Stream.file ⟨path, some h⟩).serve d use).disk = d := by
  cases use with
  | write data => cases noWrite
  | read size => rw [serve_read (Disk.read_file there size)]
  | atEnd => rw [serve_atEnd (Disk.atEnd_file there)]
  | close => exact Disk.close_file there
  | release => rfl

/-- A stream that reads a file moves by what it gives. -/
theorem serve_reading {position moved : Nat} (reads : h.mode = .read)
    (there : d.node? h.node = some (.file content)) (unclosed : use ≠ .close)
    (stream : ((Stream.file ⟨path, some ⟨h.node, h.mode, position⟩⟩).serve d use).stream =
      .file ⟨path, some ⟨h.node, h.mode, moved⟩⟩) :
    let got := ((Stream.file ⟨path, some ⟨h.node, h.mode, position⟩⟩).serve d use).answer.got
    got = (content.drop position).take use.asked ∧ moved = position + got.length := by
  intro got
  obtain ⟨answer, after, -⟩ := serve_reader path there position unclosed
  have now : reader path h.node position = .file ⟨path, some ⟨h.node, h.mode, position⟩⟩ := by
    rw [reads]
    rfl
  rw [now] at answer after
  have got_eq : got = (content.drop position).take use.asked := by
    rw [← Use.got_given, ← answer]
  rw [stream, ← got_eq] at after
  exact ⟨got_eq, by simpa [reader, reads] using after⟩

/-- Whether a stream appends to a file. -/
def appendsTo (i : Disk.NodeId) : Stream → Bool
  | .file ⟨_, some h⟩ => decide (h.mode = .append ∧ h.node = i)
  | _ => false

/-- What has become of a stream that was opened, by the calls that it received: closed, or open
on its file. If it reads the file `i`, its position tells how many bytes it gave. -/
inductive Standing (i : Disk.NodeId) (mine : List Call) (path : Bytes) (h : Disk.Descriptor) :
    Stream → Prop
  | closed (closed : .close ∈ mine) : Standing i mine path h (.file ⟨path, none⟩)
  | opened {position : Nat} (unclosed : .close ∉ mine)
      (gave : h.mode = .read → h.node = i → position = (bytesRead mine).length) :
      Standing i mine path h (.file ⟨path, some ⟨h.node, h.mode, position⟩⟩)

theorem Standing.elsewhere (standing : Standing i mine path h now) (other : h.node ≠ i)
    (d : Disk) (use : Use) : (now.serve d use).disk.node? i = d.node? i := by
  cases standing with
  | closed closed => rw [serve_closed rfl]
  | @opened position => exact serve_elsewhere (h := ⟨h.node, h.mode, position⟩) path other d use

theorem Standing.unwritten (standing : Standing i mine path h now)
    (there : d.node? h.node = some (.file content)) (noWrite : use.writes = false) :
    (now.serve d use).disk = d := by
  cases standing with
  | closed closed => rw [serve_closed rfl]
  | @opened position =>
    exact serve_unwritten (h := ⟨h.node, h.mode, position⟩) path there noWrite

/-- A write to a stream that reads, or that was closed, comes to nothing. -/
theorem Standing.decline (standing : Standing i mine path h now)
    (unwritable : h.mode = .read ∨ .close ∈ mine) (d : Disk) (data : Bytes) :
    ∃ notes, now.serve d (.write data) = ⟨.write data 0, now, d, notes⟩ := by
  cases standing with
  | closed closed => exact ⟨[], serve_closed rfl d _⟩
  | opened unclosed =>
    refine serve_unwritable ?_ d data
    rintro _ ⟨⟩
    exact unwritable.resolve_right unclosed

/-- A write to a stream that appends lands in full, and after it the stream is at the end. -/
theorem Standing.append (standing : Standing i mine path h now) (holds : d.Holds i content)
    (own : h.node = i) (isFile : d.IsFile i) (appends : h.mode = .append)
    (unclosed : .close ∉ mine) (data : Bytes) :
    ∃ moved d', now.serve d (.write data) =
        ⟨.write data data.length, .file ⟨path, some moved⟩, d', []⟩ ∧
      d'.Holds i (content ++ data) ∧ (data ≠ [] → d'.atEnd moved = .ok true) := by
  subst own
  cases standing with
  | closed closed => exact absurd closed unclosed
  | @opened position =>
    obtain ⟨moved, d', wrote, after, ends⟩ :=
      Disk.Holds.append (h := ⟨h.node, h.mode, position⟩) holds isFile appends data
    exact ⟨moved, d', serve_write wrote, after, ends⟩

/-- A use adds what it offers to the end of its file if its stream appends and is open. -/
theorem Standing.holds (standing : Standing i mine path h now) (kept : h.mode ≠ .create)
    (isFile : h.node = i → d.IsFile i) (holds : d.Holds i content) (use : Use) :
    (now.serve d use).disk.Holds i (content ++
      if (h.mode = .append ∧ h.node = i) ∧ .close ∉ mine then use.offered else []) := by
  -- Only the stream's own node is touched, and of that only a write changes the content.
  by_cases own : h.node = i
  case neg =>
    rw [if_neg fun appends => own appends.1.2, List.append_nil]
    exact holds.congr (standing.elsewhere own d use)
  have isFile := isFile own
  cases writes : use.writes with
  | false =>
    rw [Use.offered_nil use writes, ite_self, List.append_nil,
      standing.unwritten (by rw [own]; exact holds.there isFile) writes]
    exact holds
  | true =>
    obtain ⟨data, rfl⟩ := Use.eq_write use writes
    by_cases both : h.mode = .append ∧ .close ∉ mine
    · obtain ⟨appends, unclosed⟩ := both
      obtain ⟨moved, d', wrote, after, -⟩ := standing.append holds own isFile appends unclosed data
      rw [if_pos ⟨⟨appends, own⟩, unclosed⟩, wrote]
      exact after
    · have unwritable : h.mode = .read ∨ .close ∈ mine := by
        by_cases closed : .close ∈ mine
        · exact .inr closed
        · exact .inl (Disk.Mode.eq_read kept fun appends => both ⟨appends, closed⟩)
      obtain ⟨notes, idle⟩ := standing.decline unwritable d data
      rw [if_neg fun all => both ⟨all.1.1, all.2⟩, idle, List.append_nil]
      exact holds

/-- What a stream answered to each write: all was taken if it appends and was not closed yet,
and nothing if it reads or was closed. -/
def WritesTold (mode : Disk.Mode) (mine : List Call) : Prop :=
  ∀ before data n after, mine = before ++ .write data n :: after →
    (mode = .append → .close ∉ before → n = data.length) ∧
      (mode = .read ∨ .close ∈ before → n = 0)

theorem WritesTold.snoc {mode : Disk.Mode} {c : Call} (told : WritesTold mode mine)
    (last : ∀ data n, c = .write data n → (mode = .append → .close ∉ mine → n = data.length) ∧
      (mode = .read ∨ .close ∈ mine → n = 0)) : WritesTold mode (mine ++ [c]) := by
  intro before data n after split
  rcases List.eq_nil_or_concat after with rfl | ⟨later, c', rfl⟩
  · obtain ⟨rfl, same⟩ := List.append_inj' split rfl
    exact last data n (List.singleton_inj.mp same)
  · rw [List.concat_eq_append, ← List.cons_append, ← List.append_assoc] at split
    exact told before data n later (List.append_inj' split rfl).1

theorem Standing.writesTold (standing : Standing i mine path h now) (holds : d.Holds i content)
    (own : h.node = i) (isFile : d.IsFile i) (told : WritesTold h.mode mine) (use : Use) :
    WritesTold h.mode (mine ++ [(now.serve d use).answer]) := by
  refine told.snoc fun data n answer => ?_
  obtain rfl : use = .write data := by
    cases use <;> cases answer
    rfl
  constructor
  · intro appends unclosed
    obtain ⟨_, _, wrote, -⟩ := standing.append holds own isFile appends unclosed data
    rw [wrote] at answer
    cases answer
    rfl
  · intro unwritable
    obtain ⟨_, idle⟩ := standing.decline unwritable d data
    rw [idle] at answer
    cases answer
    rfl

/-- Whatever it is asked, a stream stands as its calls tell, and what it gave of a file are the
first bytes of it. -/
theorem Standing.serve (standing : Standing i mine path h now) (holds : d.Holds i content)
    (isFile : h.node = i → d.IsFile i)
    (given : h.mode = .read → h.node = i → bytesRead mine <+: content) (use : Use) :
    let r := now.serve d use
    Standing i (mine ++ [r.answer]) path h r.stream ∧
      (h.mode = .read → h.node = i → bytesRead (mine ++ [r.answer]) <+: content) := by
  intro r
  have idle (nothing : r.answer.got = []) : bytesRead (mine ++ [r.answer]) = bytesRead mine := by
    rw [bytesRead_snoc, nothing, List.append_nil]
  cases standing with
  | closed closed =>
    have vain : r = _ := serve_closed rfl d use
    have nothing : r.answer.got = [] := by
      rw [vain]
      cases use <;> rfl
    rw [idle nothing, vain]
    exact ⟨.closed (List.mem_append_left _ closed), given⟩
  | @opened position unclosed gave =>
    by_cases closes : use = .close
    · subst closes
      rw [idle rfl]
      exact ⟨.closed (List.mem_append_right _ (List.mem_singleton_self _)), given⟩
    obtain ⟨⟨node, mode, moved⟩, stream, same⟩ := serve_open path ⟨h.node, h.mode, position⟩ d closes
    obtain ⟨rfl, rfl⟩ : node = h.node ∧ mode = h.mode := same
    have still : .close ∉ mine ++ [r.answer] := by
      intro here
      rcases List.mem_append.mp here with before | now
      · exact unclosed before
      · exact serve_ne_close _ d closes (List.mem_singleton.mp now).symm
    have next (reads : h.mode = .read) (own : h.node = i) :
        r.answer.got = (content.drop position).take use.asked ∧
          moved = position + r.answer.got.length := by
      subst own
      exact serve_reading reads (holds.there (isFile rfl)) closes stream
    constructor
    · show Standing _ _ _ _ r.stream
      rw [stream]
      refine .opened still fun reads own => ?_
      rw [bytesRead_snoc, List.length_append, ← gave reads own]
      exact (next reads own).2
    · intro reads own
      have before : bytesRead mine = content.take position := by
        rw [gave reads own]
        exact List.prefix_iff_eq_take.mp (given reads own)
      rw [bytesRead_snoc, (next reads own).1, before, ← List.take_add]
      exact List.take_prefix _ _

end Stream

/-! ## Worlds -/

namespace World

variable {w w' : World} {i : Disk.NodeId} {start content content' path : Bytes} {s : StreamId}
  {h : Disk.Descriptor} {mine : List Call} {opened : List Stream}
  {calls : List (StreamId × Call)}

/-- A stream that was opened for reading or appending, as it stands after its calls; its path
leads to what it was opened on. -/
structure Opened (i : Disk.NodeId) (content : Bytes) (w : World) (mine : List Call) (s : StreamId)
    (path : Bytes) (h : Disk.Descriptor) : Prop where
  kept : h.mode ≠ .create
  leads : w.disk.resolve false path = .ok (.node h.node)
  isFile : h.node = i → w.disk.IsFile i
  standing : ∃ now, w.stream? s = some now ∧ Stream.Standing i mine path h now
  told : h.node = i → Stream.WritesTold h.mode mine
  given : h.mode = .read → h.node = i → bytesRead mine <+: content

/-- A stream that was opened now received no calls yet. -/
theorem opened_now {mode : Disk.Mode} (opens : w.disk.Opens mode path h.node w'.disk)
    (begins : h = ⟨h.node, mode, 0⟩) (kept : mode ≠ .create) (holds : w'.disk.Holds i content)
    (now : w'.stream? s = some (.file ⟨path, some h⟩)) : Opened i content w' [] s path h where
  kept := by
    rw [begins]
    exact kept
  leads := opens.resolve
  isFile own := by
    subst own
    exact opens.isFile holds
  standing := by
    refine ⟨_, now, ?_⟩
    rw [begins]
    exact .opened List.not_mem_nil fun _ _ => rfl
  told _ before data n after split := by cases before <;> cases split
  given _ _ := List.nil_prefix

/-- A visit that uses another stream, or none, adds to the file at most. -/
theorem Opened.visit (stream : Opened i content w mine s path h) {v : Visit}
    (other : ∀ use, v ≠ .use s use) (grows : w.disk.Grows (w.visit v).state.disk)
    (more : content <+: content') : Opened i content' (w.visit v).state mine s path h where
  kept := stream.kept
  leads := grows.resolve stream.leads (.node h.node)
  isFile own := visit_keepsFiles w v _ (stream.isFile own)
  standing := by
    obtain ⟨now, there, standing⟩ := stream.standing
    rcases visit_stream there v with ⟨use, used, -⟩ | still
    · exact absurd used (other use)
    · exact ⟨now, still, standing⟩
  told := stream.told
  given reads own := (stream.given reads own).trans more

/-- A stream that is used stands as it is now told to. -/
theorem Opened.use (stream : Opened i content w mine s path h) {now : Stream}
    (there : w.stream? s = some now) (holds : w.disk.Holds i content) (use : Stream.Use)
    (more : content <+: content') :
    Opened i content' (w.visit (.use s use)).state (mine ++ [(now.serve w.disk use).answer]) s
      path h := by
  obtain ⟨_, there', standing⟩ := stream.standing
  cases there.symm.trans there'
  obtain ⟨after, given⟩ := standing.serve holds stream.isFile stream.given use
  have grows : w.disk.Grows (w.visit (.use s use)).state.disk :=
    .of_skeleton (visit_use_skeleton w s use)
  have served : (w.visit (.use s use)).state.stream? s = some (now.serve w.disk use).stream := by
    rw [visit_use there]
    exact List.getElem?_set_self (List.getElem?_eq_some_iff.mp there).1
  exact {
    kept := stream.kept
    leads := grows.resolve stream.leads (.node h.node)
    isFile := fun own => visit_keepsFiles w _ _ (stream.isFile own)
    standing := ⟨_, served, after⟩
    told := fun own =>
      standing.writesTold holds own (stream.isFile own) (stream.told own) use
    given := fun reads own => (given reads own).trans more }

/-- Whether a stream was opened for appending to a file. -/
def appending (opened : List Stream) (i : Disk.NodeId) (s : StreamId) : Bool :=
  (opened[s]?).any (Stream.appendsTo i)

/-- The file held something at the start. Now some streams have been opened and used, and it
holds what was appended as well. -/
structure Shared (i : Disk.NodeId) (start : Bytes) (w : World) (opened : List Stream)
    (calls : List (StreamId × Call)) : Prop where
  count : opened.length = w.streams.length
  known : ∀ c ∈ calls, c.1 < opened.length
  holds : w.disk.Holds i (start ++ appended (appending opened i) calls)
  streams : ∀ s stream, opened[s]? = some stream → ∃ path h, stream = .file ⟨path, some h⟩ ∧
    Opened i (start ++ appended (appending opened i) calls) w (callsTo s calls) s path h

/-- A visit that neither empties a file nor changes the disk from outside. -/
def Visit.sharing : Visit → Bool
  | .openFile mode _ => mode ≠ .create
  | .use _ _ => true
  | .change _ => false

theorem Shared.openFile (shared : Shared i start w opened calls) {mode : Disk.Mode}
    (kept : mode ≠ .create) (path : Bytes) :
    let o := w.visit (.openFile mode path)
    Shared i start o.state (opened ++ o.answer.filterMap Except.toOption)
      (calls ++ callsIn o.events) := by
  cases opens : w.disk.openFile mode path with
  | error fault =>
    have nothing : [(.error fault : Except Disk.Fault Stream)].filterMap Except.toOption = [] := rfl
    rw [visit_openFile_error opens]
    simpa [nothing] using shared
  | ok found =>
    obtain ⟨h, d⟩ := found
    have visit := visit_openFile_ok opens
    obtain ⟨begins, opens⟩ := Disk.openFile_opens opens
    let file : Stream := .file ⟨path, some h⟩
    let w' : World := ⟨d, w.streams ++ [file]⟩
    have same : appended (appending (opened ++ [file]) i) calls =
        appended (appending opened i) calls :=
      appended_congr fun c here => by
        unfold appending
        rw [List.getElem?_append_left (shared.known c here)]
    have holds : w'.disk.Holds i _ := opens.holds kept shared.holds
    rw [visit]
    show Shared i start w' (opened ++ [file]) (calls ++ [])
    rw [List.append_nil]
    refine ⟨by simp [w', shared.count], fun c here => ?_, by rwa [same], fun t stream there => ?_⟩
    · have known := shared.known c here
      rw [List.length_append]
      exact Nat.lt_add_right 1 known
    rw [same]
    by_cases old : t < opened.length
    · rw [List.getElem?_append_left old] at there
      obtain ⟨path', h', rfl, before⟩ := shared.streams t _ there
      have grows : w.disk.Grows (w.visit (.openFile mode path)).state.disk := by
        rw [visit]
        exact opens.grows
      have still := before.visit (v := .openFile mode path) nofun grows (List.prefix_refl _)
      rw [visit] at still
      exact ⟨path', h', rfl, still⟩
    · have last : t = opened.length := by
        have bound := (List.getElem?_eq_some_iff.mp there).1
        rw [List.length_append] at bound
        exact Nat.le_antisymm (Nat.le_of_lt_succ bound) (Nat.le_of_not_lt old)
      subst last
      rw [List.getElem?_concat_length] at there
      cases there
      have unused : callsTo opened.length calls = [] :=
        callsTo_eq_nil fun c here => Nat.lt_irrefl _ (shared.known (_, c) here)
      have now : w'.stream? opened.length = some file := by
        rw [shared.count]
        exact List.getElem?_concat_length
      rw [unused]
      exact ⟨path, h, rfl, opened_now opens begins kept holds now⟩

theorem Shared.use (shared : Shared i start w opened calls) (s : StreamId) (use : Stream.Use) :
    let o := w.visit (.use s use)
    Shared i start o.state opened (calls ++ callsIn o.events) := by
  cases there : w.stream? s with
  | none =>
    rw [visit_absent there]
    simpa using shared
  | some now =>
    let r := now.serve w.disk use
    have known : s < opened.length := by
      rw [shared.count]
      exact (List.getElem?_eq_some_iff.mp there).1
    have first := List.getElem?_eq_getElem known
    obtain ⟨path, h, origin, stream⟩ := shared.streams s _ first
    rw [origin] at first
    obtain ⟨_, there', standing⟩ := stream.standing
    cases there.symm.trans there'
    have appends : appending opened i s = true ↔ h.mode = .append ∧ h.node = i := by
      unfold appending
      rw [first]
      simp [Stream.appendsTo]
    have grown := appended_snoc (appending opened i) calls s r.answer
    rw [Stream.serve_offered] at grown
    simp only [appends] at grown
    have more : start ++ appended (appending opened i) calls <+:
        start ++ appended (appending opened i) (calls ++ [(s, r.answer)]) := by
      rw [grown, ← List.append_assoc]
      exact List.prefix_append _ _
    have grows : w.disk.Grows (w.visit (.use s use)).state.disk :=
      .of_skeleton (visit_use_skeleton w s use)
    show Shared i start (w.visit (.use s use)).state opened (calls ++ callsIn _)
    rw [callsIn_visit_use there]
    refine ⟨?_, fun c here => ?_, ?_, fun t stream' opened' => ?_⟩
    · rw [visit_use there]
      exact shared.count.trans List.length_set.symm
    · rcases List.mem_append.mp here with before | now
      · exact shared.known c before
      · cases List.mem_singleton.mp now
        exact known
    · have holds := standing.holds stream.kept stream.isFile shared.holds use
      rw [List.append_assoc, ← grown] at holds
      rw [visit_use there]
      exact holds
    -- The calls of the stream that is used grow by one, and those of the others stay.
    rw [callsTo_append]
    by_cases own : t = s
    · subst own
      cases first.symm.trans opened'
      rw [callsTo_cons_self]
      exact ⟨path, h, rfl, stream.use there shared.holds use more⟩
    · obtain ⟨path', h', rfl, other⟩ := shared.streams t _ opened'
      have idle : callsTo t calls ++ callsTo t [] = callsTo t calls := List.append_nil _
      have elsewhere (use' : Stream.Use) : Visit.use s use ≠ .use t use' := by
        rintro ⟨⟩
        exact own rfl
      rw [callsTo_cons_of_ne (Ne.symm own), idle]
      exact ⟨path', h', rfl, other.visit elsewhere grows more⟩

theorem Shared.visit (shared : Shared i start w opened calls) {v : Visit}
    (sharing : v.sharing = true) :
    let o := w.visit v
    Shared i start o.state (opened ++ o.answer.filterMap Except.toOption)
      (calls ++ callsIn o.events) := by
  cases v with
  | openFile mode path => exact shared.openFile (of_decide_eq_true sharing) path
  | use s use =>
    have silent : (w.visit (.use s use)).answer = [] := by cases use <;> rfl
    simpa [silent] using shared.use s use
  | change changes => cases sharing

theorem Shared.visitAll (shared : Shared i start w opened calls) {vs : List Visit}
    (sharing : ∀ v ∈ vs, v.sharing = true) :
    let o := w.visitAll vs
    Shared i start o.state (opened ++ o.answer.filterMap Except.toOption)
      (calls ++ callsIn o.events) := by
  induction vs generalizing w opened calls with
  | nil => simpa [World.visitAll] using shared
  | cons v rest ih =>
    obtain ⟨first, others⟩ := List.forall_mem_cons.mp sharing
    have later := ih (shared.visit first) others
    simpa [World.visitAll, List.filterMap_append, List.append_assoc] using later

/-- A world without streams. -/
theorem Shared.ofDisk {d : Disk} (holds : d.Holds i start) :
    Shared i start (World.ofDisk d) [] [] := by
  refine ⟨rfl, nofun, ?_, nofun⟩
  show d.Holds i (start ++ [])
  rwa [List.append_nil]

/-! ## Every run -/

/-- Right after a write, a stream that appends is at the end. -/
theorem Opened.append (stream : Opened i content w mine s path h) (holds : w.disk.Holds i content)
    (own : h.node = i) (appends : h.mode = .append) (unclosed : .close ∉ mine) {data : Bytes}
    (something : data ≠ []) :
    callsIn (w.visitAll [.use s (.write data), .use s .atEnd]).events =
      [(s, .write data data.length), (s, .atEnd true)] := by
  obtain ⟨now, there, standing⟩ := stream.standing
  obtain ⟨moved, d, wrote, -, ends⟩ :=
    standing.append holds own (stream.isFile own) appends unclosed data
  let after : Stream := .file ⟨path, some moved⟩
  have first : w.visit (.use s (.write data)) =
      ⟨[], ⟨d, w.streams.set s after⟩, [.call s (.write data data.length)]⟩ := by
    rw [visit_use there, wrote]
    rfl
  have there' : (⟨d, w.streams.set s after⟩ : World).stream? s = some after :=
    List.getElem?_set_self (List.getElem?_eq_some_iff.mp there).1
  have second : after.serve d .atEnd = ⟨.atEnd true, after, d, []⟩ :=
    Stream.serve_atEnd (ends something)
  simp only [World.visitAll, first, callsIn_append, callsIn_visit_use there', second]
  rfl

theorem Opened.decline (stream : Opened i content w mine s path h)
    (unwritable : h.mode = .read ∨ .close ∈ mine) (data : Bytes) :
    (w.visit (.use s (.write data))).state = w := by
  obtain ⟨now, there, standing⟩ := stream.standing
  obtain ⟨notes, idle⟩ := standing.decline unwritable w.disk data
  rw [visit_use_same there idle]

/-- **Nothing that is appended gets lost.** Take anything that a file can hold at the start, or a
file that is still to be made, and open any number of streams for reading or appending, on this
file and on others, and use them in any order. The file holds what it held, and then all that
was written to the streams that append to it and were not closed yet, in the order of the
writes. Every path that it was opened by leads to it. Each write to a stream that appends was
taken in full; right after a write of something that stream is at its end. Each write to a
stream that reads, or that was closed, was answered with zero, and changes nothing. What a
stream for reading gave so far are the first bytes of the file. -/
theorem appends_kept {d : Disk} (holds : d.Holds i start) {vs : List Visit}
    (sharing : ∀ v ∈ vs, v.sharing = true) :
    let o := (World.ofDisk d).visitAll vs
    let w := o.state
    let calls := callsIn o.events
    let opened := o.answer.filterMap Except.toOption
    let content := start ++ appended (appending opened i) calls
    w.disk.Holds i content ∧
      ∀ s path h, opened[s]? = some (.file ⟨path, some h⟩) → h.node = i →
        let mine := callsTo s calls
        w.disk.contents path = .ok content ∧
        Stream.WritesTold h.mode mine ∧
        (h.mode = .append → .close ∉ mine → ∀ data ≠ [],
          callsIn (w.visitAll [.use s (.write data), .use s .atEnd]).events =
            [(s, .write data data.length), (s, .atEnd true)]) ∧
        (h.mode = .read ∨ .close ∈ mine → ∀ data,
          (w.visit (.use s (.write data))).state = w) ∧
        (h.mode = .read → bytesRead mine <+: content) := by
  intro o w calls opened content
  have shared : Shared i start w opened calls := (Shared.ofDisk holds).visitAll sharing
  refine ⟨shared.holds, fun s path h there own => ?_⟩
  obtain ⟨_, _, ⟨⟩, stream⟩ := shared.streams s _ there
  have file : w.disk.node? h.node = some (.file content) := by
    subst own
    exact shared.holds.there (stream.isFile rfl)
  refine ⟨Disk.contents_eq stream.leads file, stream.told own, ?_, stream.decline,
    fun reads => stream.given reads own⟩
  intro appends unclosed data something
  exact stream.append shared.holds own appends unclosed something

/-- Two streams append to a file that a third one reads, and one of them is closed; a fourth
one makes another file. -/
def crowding : List Visit :=
  [.openFile .append [0x61], .openFile .read [0x61], .use 0 (.write [1]), .use 1 (.read 2),
    .openFile .append [0x61], .use 2 (.write [2]), .use 0 (.write [3]), .use 0 .close,
    .use 0 (.write [9]), .use 1 (.write [8]), .use 1 (.read 2), .openFile .append [0x62],
    .use 3 (.write [7])]

theorem appends_kept_crowding :
    let o := (World.ofDisk Stream.lettered).visitAll crowding
    (∀ v ∈ crowding, v.sharing = true) ∧
      Stream.lettered.Holds 2 [0x6f, 0x6c] ∧ o.state.disk.Holds 2 [0x6f, 0x6c, 1, 2, 3] ∧
      Stream.lettered.Holds 3 [] ∧ o.state.disk.Holds 3 [7] ∧
      callsIn (o.state.visitAll [.use 2 (.write [4]), .use 2 .atEnd]).events =
        [(2, .write [4] 1), (2, .atEnd true)] ∧
      (o.state.visit (.use 0 (.write [5]))).state = o.state ∧
      bytesRead (callsTo 1 (callsIn o.events)) <+: [0x6f, 0x6c, 1, 2, 3] := by
  intro o
  have sharing : ∀ v ∈ crowding, v.sharing = true := by decide
  have old : Stream.lettered.Holds 2 [0x6f, 0x6c] := .file (by decide +kernel)
  have new : Stream.lettered.Holds 3 [] := .missing (by decide +kernel)
  obtain ⟨first, streams⟩ := appends_kept old sharing
  obtain ⟨second, -⟩ := appends_kept new sharing
  let opened := o.answer.filterMap Except.toOption
  have content : [0x6f, 0x6c] ++ appended (appending opened 2) (callsIn o.events) =
      [0x6f, 0x6c, 1, 2, 3] := by decide +kernel
  have made : [] ++ appended (appending opened 3) (callsIn o.events) = [7] := by decide +kernel
  have stream (s : StreamId) (h : Disk.Descriptor) := streams s [0x61] h
  obtain ⟨-, -, -, idle, -⟩ := stream 0 ⟨2, .append, 0⟩ (by decide +kernel) rfl
  obtain ⟨-, -, -, -, given⟩ := stream 1 ⟨2, .read, 0⟩ (by decide +kernel) rfl
  obtain ⟨-, -, next, -⟩ := stream 2 ⟨2, .append, 0⟩ (by decide +kernel) rfl
  refine ⟨sharing, old, content ▸ first, new, made ▸ second,
    next rfl (by decide +kernel) [4] (by decide), idle (.inr (by decide +kernel)) [5],
    content ▸ given rfl⟩

end World

end StreamBroker
