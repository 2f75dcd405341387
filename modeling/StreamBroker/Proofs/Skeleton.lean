import StreamBroker.Proofs.Passage
import StreamBroker.Proofs.Standings

/-!
# Skeletons of disks

A disk with nothing in its files and queues. Where a path leads to, and so whether a file
can be opened, is a question to the skeleton alone. Main statements:

* **walks** — a walk goes the same way on the skeleton (`resolve_skeleton`);
* **changes** — opening a file and changing the disk from outside go with the skeleton
  (`openFile_skeleton`, `change_skeleton`), and the calls of streams leave it as it is
  (`World.Passes.skeleton`);
* **runs** — brokers whose disks have one skeleton miss the same files for the same
  operations, as long as no opening under a key needs a file (`failures_of_skeleton`). Such
  an opening asks its source or not, and that is up to the pool.
-/

namespace StreamBroker

namespace Disk

/-- A node with nothing in its file or queue. -/
def Node.skeleton : Node → Node
  | .file _ => .file []
  | .fifo _ _ => .fifo [] 0
  | .folder parent entries => .folder parent entries
  | .link target => .link target

def skeleton (d : Disk) : Disk := ⟨d.nodes.map Node.skeleton⟩

variable {d d' : Disk} {h : Descriptor} {i : NodeId}

theorem node?_skeleton (d : Disk) (i : NodeId) :
    d.skeleton.node? i = (d.node? i).map Node.skeleton :=
  List.getElem?_map ..

theorem put_skeleton (d : Disk) (i : NodeId) (node : Node) :
    d.skeleton.put i node.skeleton = (d.put i node).skeleton :=
  congrArg Disk.mk List.map_set.symm

theorem skeleton_skeleton (d : Disk) : d.skeleton.skeleton = d.skeleton := by
  unfold skeleton
  rw [List.map_map]
  refine congrArg Disk.mk (List.map_congr_left fun node _ => ?_)
  cases node <;> rfl

/-- Another content of the same file, or of the same queue, makes no difference. -/
theorem skeleton_put {old node : Node} (here : d.node? i = some old)
    (same : node.skeleton = old.skeleton) : (d.put i node).skeleton = d.skeleton := by
  have there : d.skeleton.nodes[i]? = some old.skeleton := by
    show d.skeleton.node? i = _
    rw [node?_skeleton, here, Option.map_some]
  obtain ⟨known, there⟩ := List.getElem?_eq_some_iff.mp there
  rw [← put_skeleton, same, ← there]
  exact congrArg Disk.mk (List.set_getElem_self known)

theorem add_skeleton (d : Disk) (node : Node) :
    d.skeleton.add node.skeleton = ((d.add node).1, (d.add node).2.skeleton) := by
  simp [add, skeleton]

theorem child?_skeleton (d : Disk) (folder : NodeId) (name : Name) :
    d.skeleton.child? folder name = d.child? folder name := by
  unfold child?
  rw [node?_skeleton]
  rcases d.node? folder with _ | (_ | _ | _ | _) <;> rfl

theorem isFolder_skeleton (d : Disk) (i : NodeId) : d.skeleton.isFolder i = d.isFolder i := by
  unfold isFolder
  rw [node?_skeleton]
  rcases d.node? i with _ | (_ | _ | _ | _) <;> rfl

theorem attach_skeleton (d : Disk) (folder : NodeId) (name : Name) (i : NodeId) :
    d.skeleton.attach folder name i = (d.attach folder name i).skeleton := by
  unfold attach
  rw [node?_skeleton]
  rcases d.node? folder with _ | (_ | ⟨parent, entries⟩ | _ | _)
  · rfl
  · rfl
  · exact put_skeleton d folder (.folder parent ((name, i) :: entries))
  · rfl
  · rfl

theorem detach_skeleton (d : Disk) (folder : NodeId) (name : Name) :
    d.skeleton.detach folder name = (d.detach folder name).skeleton := by
  unfold detach
  rw [node?_skeleton]
  rcases d.node? folder with _ | (_ | ⟨parent, entries⟩ | _ | _)
  · rfl
  · rfl
  · exact put_skeleton d folder (.folder parent (entries.filter fun e => e.1 ≠ name))
  · rfl
  · rfl

/-! ## Walks -/

theorem leg_skeleton (d : Disk) (creating folderOnly : Bool) (here : NodeId) (names : List Name) :
    leg d.skeleton creating folderOnly here names = leg d creating folderOnly here names := by
  induction names generalizing here with
  | nil => rfl
  | cons name rest ih =>
    simp only [leg, node?_skeleton, child?_skeleton, ih]
    rcases d.node? here with _ | (_ | ⟨parent, entries⟩ | _ | _)
    case some.folder =>
      show (if name = dot then _ else _) = (if name = dot then _ else _)
      -- past the tests of the name, only the kind of the next node matters
      cases d.child? here name with
      | none => rfl
      | some next =>
        rcases next' : d.node? next with _ | (_ | _ | _ | _) <;> simp [Node.skeleton, next']
    all_goals rfl

theorem follow_skeleton (d : Disk) (creating : Bool) (budget : Nat) (folderOnly : Bool)
    (here : NodeId) (names : List Name) :
    follow d.skeleton creating budget folderOnly here names =
      follow d creating budget folderOnly here names := by
  induction budget generalizing folderOnly here names with
  | zero =>
    unfold follow
    simp only [leg_skeleton, isFolder_skeleton]
  | succ budget ih =>
    unfold follow
    simp only [leg_skeleton, isFolder_skeleton, ih]

theorem resolve_skeleton (d : Disk) (creating : Bool) (path : Bytes) :
    d.skeleton.resolve creating path = d.resolve creating path := by
  simp only [resolve, follow_skeleton]

theorem spot?_skeleton (d : Disk) (path : Bytes) : d.skeleton.spot? path = d.spot? path := by
  simp only [spot?, follow_skeleton]

/-! ## Opening and changing -/

/-- A file is opened, or not, as its skeleton says. -/
theorem openFile_skeleton (d : Disk) (mode : Mode) (path : Bytes) :
    (d.skeleton.openFile mode path).map (fun opened => (opened.1, opened.2.skeleton)) =
      (d.openFile mode path).map fun opened => (opened.1, opened.2.skeleton) := by
  unfold openFile
  rw [resolve_skeleton]
  cases d.resolve mode.creates path with
  | error fault => rfl
  | ok place =>
    cases place with
    | vacant folder name =>
      have added := d.add_skeleton (.file [])
      simp only [show Node.skeleton (.file []) = .file [] from rfl] at added
      simp only [added, attach_skeleton, Except.map, skeleton_skeleton]
    | node i =>
      simp only
      have there := d.node?_skeleton i
      rcases here : d.node? i with _ | (content | _ | _ | ⟨queue, openers⟩) <;> rw [here] at there
      · rw [there]
        rfl
      · have emptied := d.put_skeleton i (.file [])
        simp only [there, Option.map_some, Node.skeleton, Except.map] at emptied ⊢
        split <;> simp only [emptied, skeleton_skeleton]
      · rw [there]
        simp only [Option.map_some, Node.skeleton]
        split
        · rfl
        · simp only [Except.map, skeleton_skeleton]
      · rw [there]
        rfl
      · have counted : (d.put i (.fifo queue (openers + 1))).skeleton = d.skeleton :=
          skeleton_put here rfl
        have counted' : (d.skeleton.put i (.fifo [] 1)).skeleton = d.skeleton.skeleton :=
          skeleton_put there rfl
        -- the number of openers is not part of the skeleton
        simp only [there, Option.map_some, Node.skeleton, Except.map, Nat.zero_add]
        rw [counted, counted', skeleton_skeleton]

/-- A write changes a content at most. -/
theorem write_skeleton {data : Bytes} {n : Nat} {moved : Descriptor}
    (wrote : d.write h data = .ok (n, moved, d')) : d'.skeleton = d.skeleton := by
  unfold write at wrote
  split at wrote
  · cases wrote
  · split at wrote
    · rename_i content here
      split at wrote <;> cases wrote
      · rfl
      · exact skeleton_put here rfl
    · rename_i queue openers here
      cases wrote
      exact skeleton_put here rfl
    · cases wrote

theorem read_skeleton {size : Nat} {got : Bytes} {moved : Descriptor}
    (gave : d.read h size = .ok (got, moved, d')) : d'.skeleton = d.skeleton := by
  unfold read at gave
  split at gave
  · cases gave
    rfl
  · rename_i queue openers here
    cases gave
    exact skeleton_put here rfl
  · cases gave
  · cases gave

theorem close_skeleton (d : Disk) (h : Descriptor) : (d.close h).skeleton = d.skeleton := by
  unfold close
  split
  · rename_i queue openers here
    exact skeleton_put here rfl
  · rfl

/-- What is written leaves no trace in the skeleton. -/
theorem writeFile_skeleton (d : Disk) (path content : Bytes) :
    (d.writeFile path content).skeleton =
      (((d.openFile .create path).map fun opened =>
        (opened.1, opened.2.skeleton)).toOption.map Prod.snd).getD d.skeleton := by
  unfold writeFile
  cases d.openFile .create path with
  | error fault => rfl
  | ok opened =>
    simp only [Except.map, Except.toOption, Option.map_some, Option.getD_some]
    split
    · exact close_skeleton ..
    · rename_i n h written wrote
      rw [close_skeleton, write_skeleton wrote]

theorem make_skeleton {node : NodeId → Node} (bare : ∀ folder, (node folder).skeleton = node folder)
    (d : Disk) (path : Bytes) : d.skeleton.make path node = (d.make path node).skeleton := by
  unfold make
  rw [spot?_skeleton]
  cases d.spot? path with
  | none => rfl
  | some spot =>
    have added := d.add_skeleton (node spot.1)
    rw [bare] at added
    simp only [child?_skeleton, added, attach_skeleton]
    split <;> rfl

theorem remove_skeleton (d : Disk) (path : Bytes) :
    d.skeleton.remove path = (d.remove path).skeleton := by
  unfold remove
  rw [spot?_skeleton]
  cases d.spot? path with
  | none => rfl
  | some spot =>
    simp only [child?_skeleton]
    cases d.child? spot.1 spot.2 with
    | none => rfl
    | some i =>
      simp only [isFolder_skeleton, detach_skeleton]
      split <;> rfl

theorem makeLink_skeleton (d : Disk) (path target : Bytes) :
    d.skeleton.makeLink path target = (d.makeLink path target).skeleton := by
  unfold makeLink
  rw [make_skeleton fun _ => rfl]
  split
  · rfl
  · split <;> rfl

/-- A change goes with the skeleton. -/
theorem change_skeleton (d : Disk) (c : Change) :
    (d.skeleton.change c).skeleton = (d.change c).skeleton := by
  cases c with
  | file path content =>
    show (d.skeleton.writeFile path content).skeleton = (d.writeFile path content).skeleton
    rw [writeFile_skeleton, writeFile_skeleton, openFile_skeleton, skeleton_skeleton]
  | folder path =>
    show (d.skeleton.make path _).skeleton = (d.make path _).skeleton
    rw [make_skeleton fun _ => rfl, skeleton_skeleton]
  | link path target =>
    show (d.skeleton.makeLink path target).skeleton = (d.makeLink path target).skeleton
    rw [makeLink_skeleton, skeleton_skeleton]
  | fifo path =>
    simp only [change]
    rw [make_skeleton fun _ => rfl]
    split <;> exact skeleton_skeleton _
  | remove path =>
    simp only [change]
    rw [remove_skeleton]
    split <;> exact skeleton_skeleton _

theorem changeAll_skeleton (same : d'.skeleton = d.skeleton) (changes : List Change) :
    (d'.changeAll changes).skeleton = (d.changeAll changes).skeleton := by
  unfold changeAll
  induction changes generalizing d d' with
  | nil => exact same
  | cons c rest ih =>
    refine ih ?_
    rw [← change_skeleton d', same, change_skeleton]

end Disk

/-! ## Streams and worlds -/

namespace Stream

/-- A stream changes contents at most. -/
theorem Answers.skeleton {stream stream' : Stream} {d d' : Disk} {c : Call}
    (answers : stream.Answers d c stream' d') : d'.skeleton = d.skeleton := by
  cases stream with
  | memory m => cases answers <;> rfl
  | script s => cases answers <;> rfl
  | file f =>
    cases answers with
    | write data =>
      show (f.write d data).disk.skeleton = d.skeleton
      unfold File.write
      repeat' split
      · rfl
      · rename_i wrote
        exact Disk.write_skeleton wrote
      · rfl
    | read size =>
      show (f.read d size).disk.skeleton = d.skeleton
      unfold File.read
      repeat' split
      · rfl
      · rename_i gave
        exact Disk.read_skeleton gave
      · rfl
    | atEnd =>
      show (f.atEnd d).disk.skeleton = d.skeleton
      unfold File.atEnd
      repeat' split
      all_goals rfl
    | close =>
      show (f.close d).disk.skeleton = d.skeleton
      unfold File.close
      split
      · rfl
      · exact Disk.close_skeleton ..
    | release => rfl

/-- Whether a source gives a stream, and what that leaves of the disk, is a question to the
skeleton. -/
theorem Source.take_skeleton (source : Source) (d : Disk) :
    (source.take d.skeleton).map (fun taken => taken.2.skeleton) =
      (source.take d).map fun taken => taken.2.skeleton := by
  cases source with
  | ready stream => exact congrArg Except.ok d.skeleton_skeleton
  | file mode path =>
    have opens : ∀ d : Disk, ((Source.file mode path).take d).map (fun taken => taken.2.skeleton) =
        ((d.openFile mode path).map fun opened => (opened.1, opened.2.skeleton)).map Prod.snd := by
      intro d
      simp only [take, File.openPath]
      cases d.openFile mode path <;> rfl
    rw [opens, opens, Disk.openFile_skeleton]

theorem Source.take_alike {d d' : Disk} (same : d'.skeleton = d.skeleton) (source : Source) :
    (source.take d').map (fun taken => taken.2.skeleton) =
      (source.take d).map fun taken => taken.2.skeleton := by
  rw [← source.take_skeleton d', same, source.take_skeleton]

theorem Source.gives_alike {d d' : Disk} (same : d'.skeleton = d.skeleton) (source : Source) :
    (source.take d').toBool = (source.take d).toBool := by
  have takes := congrArg Except.toBool (source.take_alike same)
  cases here : source.take d <;> cases there : source.take d' <;> rw [here, there] at takes
  all_goals first | rfl | cases takes

theorem Source.opened_alike {d d' : Disk} (same : d'.skeleton = d.skeleton) (source : Source) :
    (source.opened d').skeleton = (source.opened d).skeleton := by
  have takes := source.take_alike same
  unfold opened
  cases here : source.take d <;> cases there : source.take d' <;> rw [here, there] at takes
  · exact same
  · cases takes
  · cases takes
  · exact Except.ok.inj takes

end Stream

theorem World.Passes.skeleton {w w' : World} {calls : List (StreamId × Call)}
    (passes : w.Passes w' calls) : w'.disk.skeleton = w.disk.skeleton := by
  induction passes with
  | still => rfl
  | called there answers later ih => exact ih.trans answers.skeleton
  | joined stream later ih => exact ih

/-! ## Runs -/

namespace Operation

/-- Whether an operation can do without a file for a stream of a key. -/
def handy : Operation → Bool
  | .openPersistent _ (.file ..) => false
  | _ => true

/-- Whether an operation needs a file and cannot open it. -/
def misses (op : Operation) (d : Disk) : Bool :=
  match op with
  | .openStream source _ => !(source.take d).toBool
  | _ => false

variable {d d' : Disk} {op : Operation}

theorem misses_alike (same : d'.skeleton = d.skeleton) (op : Operation) :
    op.misses d' = op.misses d := by
  cases op with
  | openStream source terms => exact congrArg not (source.gives_alike same)
  | _ => rfl

theorem entry_alike (same : d'.skeleton = d.skeleton) (handy : op.handy = true)
    (pool pool' : Pool) :
    (op.entry pool' d').skeleton = (op.entry pool d).skeleton := by
  cases op with
  | openStream source terms => exact source.opened_alike same
  | openPersistent key source =>
    cases source with
    | ready stream =>
      -- a stream at hand leaves the disk alone, whether it is needed or not
      show (if _ then d' else d').skeleton = (if _ then d else d).skeleton
      rw [ite_self, ite_self]
      exact same
    | file => cases handy
  | change changes => exact Disk.changeAll_skeleton same changes
  | _ => exact same

end Operation

namespace Broker

variable {b b' : Broker}

theorem supply_failed (r : Registry) (source : Stream.Source) (key : Option Key) (guarded : Bool) :
    (Answer.ofOpening (r.supply source key guarded).answer).failed =
      !(source.take r.world.disk).toBool := by
  cases takes : source.take r.world.disk with
  | error fault =>
    rw [Registry.supply_error takes]
    rfl
  | ok found =>
    rw [Registry.supply_ok takes]
    rfl

/-- An opening fails exactly if it needs a file that cannot be opened. -/
theorem step_failed {op : Operation} (handy : op.handy = true) (b : Broker) :
    (b.step op).answer.failed = op.misses b.registry.world.disk := by
  cases op with
  | openStream source terms => exact supply_failed ..
  | openPersistent key source =>
    show (Answer.ofOpening (b.registry.openPersistent key _).answer).failed = false
    cases popped : b.registry.pool.idle.pop? key with
    | none =>
      rw [Registry.openPersistent_missed (Shelf.pop?_eq_none_iff.mp popped), supply_failed]
      cases source with
      | ready stream => rfl
      | file => cases handy
    | some found =>
      rw [Registry.openPersistent_taken popped]
      rfl
  | _ => rfl

/-- Brokers whose disks have one skeleton miss the same files for the same operations,
whatever their books and their streams are. -/
theorem failures_of_skeleton
    (same : b'.registry.world.disk.skeleton = b.registry.world.disk.skeleton)
    {ops : List Operation} (handy : ∀ op ∈ ops, op.handy = true) :
    b'.failures ops = b.failures ops := by
  induction ops generalizing b b' with
  | nil => rfl
  | cons op rest ih =>
    obtain ⟨first, others⟩ := List.forall_mem_cons.mp handy
    have failed : (b'.step op).answer.failed = (b.step op).answer.failed := by
      rw [step_failed first, step_failed first, op.misses_alike same]
    have next : (b'.step op).state.registry.world.disk.skeleton =
        (b.step op).state.registry.world.disk.skeleton := by
      rw [(step_passes b op).skeleton, (step_passes b' op).skeleton]
      exact Operation.entry_alike same first _ _
    exact congrArg₂ List.cons failed (ih next others)

end Broker

end StreamBroker
