import StreamBroker.Proofs.Growth

/-!
# Disks without loose ends

On a disk as it can come about, whatever is named is there. Main statements:

* **loose ends** — the root and the directory of relative paths are directories, so is what is
  above a directory, and every entry of a directory stands for a node (`Disk.Wf`);
* **kept** — opening a file, changing the disk from outside and every operation of a broker leave
  no loose ends (`Opens.wf`, `Wf.changeAll`, `Broker.run_wf`);
* **walks** — a path that leads anywhere leads to something, and never to a link
  (`Wf.resolve_lands`).
-/

namespace StreamBroker

namespace Disk

variable {d d' : Disk} {mode : Mode} {path : Bytes} {i : NodeId}

/-- A disk without loose ends. -/
structure Wf (d : Disk) : Prop where
  root : d.isFolder Disk.root = true
  home : d.isFolder Disk.home = true
  parents : ∀ i parent entries, d.node? i = some (.folder parent entries) →
    d.isFolder parent = true
  entries : ∀ i parent entries, d.node? i = some (.folder parent entries) →
    ∀ e ∈ entries, e.2 < d.nodes.length

theorem isFolder_iff :
    d.isFolder i = true ↔ ∃ parent entries, d.node? i = some (.folder parent entries) := by
  unfold isFolder
  constructor
  · intro here
    split at here
    · rename_i parent entries there
      exact ⟨parent, entries, there⟩
    · cases here
  · rintro ⟨parent, entries, there⟩
    rw [there]

theorem isFolder_of_node? {parent : NodeId} {entries : List (Name × NodeId)}
    (there : d.node? i = some (.folder parent entries)) : d.isFolder i = true :=
  isFolder_iff.mpr ⟨parent, entries, there⟩

theorem lt_length_of_isFolder (here : d.isFolder i = true) : i < d.nodes.length := by
  obtain ⟨parent, entries, there⟩ := isFolder_iff.mp here
  exact (List.getElem?_eq_some_iff.mp there).1

/-! ## Changes that leave none -/

theorem wf_empty : Disk.empty.Wf := by
  have folders : ∀ i node, Disk.empty.node? i = some node → node = .folder Disk.root [] := by
    intro i node there
    have among : node ∈ Disk.empty.nodes := List.mem_of_getElem? there
    simpa [Disk.empty] using among
  refine ⟨rfl, rfl, ?_, ?_⟩
  · intro i parent entries there
    cases folders i _ there
    rfl
  · intro i parent entries there
    cases folders i _ there
    exact nofun

/-- Contents cannot be loose ends. -/
theorem Wf.of_skeleton (wf : d.Wf) (same : d'.skeleton = d.skeleton) : d'.Wf := by
  have folders : ∀ i, d'.isFolder i = d.isFolder i := by
    intro i
    rw [← isFolder_skeleton, same, isFolder_skeleton]
  have length_eq : d'.nodes.length = d.nodes.length := by
    have lengths := congrArg (fun d : Disk => d.nodes.length) same
    simpa [skeleton] using lengths
  have before : ∀ i parent entries, d'.node? i = some (.folder parent entries) →
      d.node? i = some (.folder parent entries) := by
    intro i parent entries there
    rwa [← skeleton_folder, ← same, skeleton_folder]
  refine ⟨(folders _).trans wf.root, (folders _).trans wf.home, ?_, ?_⟩
  · intro i parent entries there
    rw [folders]
    exact wf.parents i parent entries (before i parent entries there)
  · intro i parent entries there
    rw [length_eq]
    exact wf.entries i parent entries (before i parent entries there)

theorem isFolder_add (here : d.isFolder i = true) (node : Node) :
    (d.add node).2.isFolder i = true := by
  obtain ⟨parent, entries, there⟩ := isFolder_iff.mp here
  have kept : (d.add node).2.node? i = some (.folder parent entries) := by
    rw [node?_add, if_neg (Nat.ne_of_lt (lt_length_of_isFolder here)), there]
  exact isFolder_of_node? kept

/-- A new node is no loose end, and has none if nothing is in it and a directory is above it. -/
theorem Wf.add (wf : d.Wf) {node : Node}
    (sound : ∀ parent entries, node = .folder parent entries →
      d.isFolder parent = true ∧ entries = []) : (d.add node).2.Wf := by
  have length_eq : (d.add node).2.nodes.length = d.nodes.length + 1 := by simp [Disk.add]
  refine ⟨isFolder_add wf.root node, isFolder_add wf.home node, ?_, ?_⟩
  · intro i parent entries there
    rw [node?_add] at there
    split at there
    · cases there
      exact isFolder_add (sound parent entries rfl).1 _
    · exact isFolder_add (wf.parents i parent entries there) node
  · intro i parent entries there e entry
    rw [node?_add] at there
    split at there
    · cases there
      rw [(sound parent entries rfl).2] at entry
      cases entry
    · rw [length_eq]
      exact Nat.lt_succ_of_lt (wf.entries i parent entries there e entry)

/-- Other entries of a directory, if they stand for nodes. -/
theorem Wf.put_folder (wf : d.Wf) {folder parent : NodeId}
    {entries entries' : List (Name × NodeId)}
    (there : d.node? folder = some (.folder parent entries))
    (known : ∀ e ∈ entries', e.2 < d.nodes.length) :
    (d.put folder (.folder parent entries')).Wf := by
  have length_eq : (d.put folder (.folder parent entries')).nodes.length = d.nodes.length := by
    simp [put]
  have replaced := node?_put_self (n := .folder parent entries')
    (List.getElem?_eq_some_iff.mp there).1
  have folders : ∀ i, d.isFolder i = true →
      (d.put folder (.folder parent entries')).isFolder i = true := by
    intro i here
    by_cases same : folder = i
    · subst same
      exact isFolder_of_node? replaced
    · obtain ⟨parent, entries, there⟩ := isFolder_iff.mp here
      exact isFolder_of_node? ((node?_put_of_ne same).trans there)
  refine ⟨folders _ wf.root, folders _ wf.home, ?_, ?_⟩
  · intro i parent' others here
    by_cases same : folder = i
    · subst same
      cases replaced.symm.trans here
      exact folders _ (wf.parents _ _ _ there)
    · rw [node?_put_of_ne same] at here
      exact folders _ (wf.parents _ _ _ here)
  · intro i parent' others here
    rw [length_eq]
    by_cases same : folder = i
    · subst same
      cases replaced.symm.trans here
      exact known
    · rw [node?_put_of_ne same] at here
      exact wf.entries _ _ _ here

theorem Wf.attach (wf : d.Wf) (known : i < d.nodes.length) (folder : NodeId) (name : Name) :
    (d.attach folder name i).Wf := by
  unfold Disk.attach
  split
  · rename_i parent entries there
    refine wf.put_folder there ?_
    intro e entry
    rcases List.mem_cons.mp entry with rfl | older
    · exact known
    · exact wf.entries _ _ _ there e older
  · exact wf

theorem Wf.detach (wf : d.Wf) (folder : NodeId) (name : Name) : (d.detach folder name).Wf := by
  unfold Disk.detach
  split
  · rename_i parent entries there
    refine wf.put_folder there ?_
    intro e entry
    exact wf.entries _ _ _ there e (List.mem_filter.mp entry).1
  · exact wf

/-- A new node with a name. -/
theorem Wf.made (wf : d.Wf) {node : Node}
    (sound : ∀ parent entries, node = .folder parent entries →
      d.isFolder parent = true ∧ entries = []) (folder : NodeId) (name : Name) :
    ((d.add node).2.attach folder name (d.add node).1).Wf := by
  refine (wf.add sound).attach ?_ folder name
  simp [Disk.add]

/-! ## Opening and changing -/

theorem Opens.wf (opens : d.Opens mode path i d') (wf : d.Wf) : d'.Wf := by
  cases opens with
  | made leads there absent => exact wf.made (by nofun) _ _
  | file leads there =>
    refine wf.of_skeleton ?_
    split
    · exact skeleton_put there rfl
    · rfl
  | fifo leads there => exact wf.of_skeleton (skeleton_put there rfl)
  | folder leads there reads => exact wf

theorem Wf.openFile (wf : d.Wf) {h : Descriptor} (opened : d.openFile mode path = .ok (h, d')) :
    d'.Wf :=
  (openFile_opens opened).2.wf wf

/-- A walk that has to end at a directory does. -/
theorem isFolder_of_follow {creating : Bool} {budget : Nat} {here : NodeId} {names : List Name}
    (ends : follow d creating budget true here names = .ok (.node i)) : d.isFolder i = true := by
  -- On the links that may still be followed: only the last leg arrives, and it is the one that has
  -- to fit.
  induction budget generalizing here names with
  | zero =>
    rcases follow_eq_ok.mp ends with ⟨-, fits⟩ | ⟨_, _, _, _, none, -⟩
    · exact fits i rfl rfl
    · cases none
  | succ budget ih =>
    rcases follow_eq_ok.mp ends with ⟨-, fits⟩ | ⟨_, _, _, _, some, -, later⟩
    · exact fits i rfl rfl
    · cases some
      exact ih later

theorem isFolder_of_spot? {folder : NodeId} {name : Name}
    (spot : d.spot? path = some (folder, name)) : d.isFolder folder = true := by
  unfold spot? at spot
  repeat' split at spot
  all_goals cases spot
  rename_i ends _ _
  exact isFolder_of_follow ends

theorem Wf.writeFile (wf : d.Wf) (path content : Bytes) : (d.writeFile path content).Wf := by
  unfold Disk.writeFile
  split
  · exact wf
  · rename_i h opened here
    have opens := wf.openFile here
    split
    · exact opens.of_skeleton (close_skeleton ..)
    · rename_i n moved written wrote
      exact (opens.of_skeleton (write_skeleton wrote)).of_skeleton (close_skeleton ..)

theorem Wf.make (wf : d.Wf) (path : Bytes) {node : NodeId → Node}
    (sound : ∀ folder parent entries, node folder = .folder parent entries →
      parent = folder ∧ entries = []) : (d.make path node).Wf := by
  unfold Disk.make
  split
  · exact wf
  · rename_i folder name spot
    split
    · exact wf
    · refine wf.made ?_ folder name
      intro parent entries made
      obtain ⟨rfl, bare⟩ := sound folder parent entries made
      exact ⟨isFolder_of_spot? spot, bare⟩

/-- No change from outside leaves loose ends. -/
theorem Wf.change (wf : d.Wf) (c : Change) : (d.change c).Wf := by
  cases c with
  | file path content => exact wf.writeFile path content
  | folder path =>
    refine wf.make path ?_
    rintro folder _ _ ⟨⟩
    exact ⟨rfl, rfl⟩
  | link path target =>
    show (d.makeLink path target).Wf
    unfold makeLink
    repeat' split
    · exact wf
    · exact wf
    · refine wf.make path ?_
      rintro _ _ _ ⟨⟩
  | fifo path =>
    simp only [Disk.change]
    split
    · exact wf
    · refine wf.make path ?_
      rintro _ _ _ ⟨⟩
  | remove path =>
    simp only [Disk.change, Disk.remove]
    repeat' split
    · exact wf
    · exact wf
    · exact wf
    · exact wf
    · exact wf.detach _ _

theorem Wf.changeAll (wf : d.Wf) (changes : List Change) : (d.changeAll changes).Wf := by
  unfold Disk.changeAll
  induction changes generalizing d with
  | nil => exact wf
  | cons c rest ih => exact ih (wf.change c)

/-! ## Walks -/

/-- What a path can lead to: anything but a link. -/
def Lands (d : Disk) (i : NodeId) : Prop :=
  ∃ node, d.node? i = some node ∧ ∀ target, node ≠ .link target

theorem lands_of_isFolder (here : d.isFolder i = true) : d.Lands i := by
  obtain ⟨parent, entries, there⟩ := isFolder_iff.mp here
  exact ⟨_, there, nofun⟩

/-- Without creating anything a walk arrives at something, and never at a link. -/
theorem Wf.goes_lands (wf : d.Wf) {folderOnly : Bool} {here : NodeId} {names : List Name}
    {l : Leg} {place : Place} (goes : d.Goes false folderOnly here names l)
    (arrives : l = .arrived place) (start : d.Lands here) : ∃ i, place = .node i ∧ d.Lands i := by
  induction goes with
  | done here =>
    cases arrives
    exact ⟨here, rfl, start⟩
  | stay there later ih => exact ih arrives start
  | up there later ih => exact ih arrives (lands_of_isFolder (wf.parents _ _ _ there))
  | vacant there plain creates anyKind absent => cases creates
  | link there plain lookedUp entry link => cases arrives
  | @enter here parent next entries name rest l there plain lookedUp entry noLink later ih =>
    -- The entry stands for a node because nothing is loose; it is no link because the walk went on.
    have named : (name, next) ∈ entries := by
      obtain ⟨before, after, parts, -⟩ := List.lookup_eq_some_iff.mp entry
      rw [parts]
      exact List.mem_append_cons_self
    have known : next < d.nodes.length := wf.entries _ _ _ there _ named
    refine ih arrives ⟨_, List.getElem?_eq_getElem known, ?_⟩
    intro target link
    exact noLink target ((List.getElem?_eq_getElem known).trans (congrArg some link))

theorem Goes.link_folder {creating folderOnly : Bool} {here folder : NodeId}
    {names rest : List Name} {target : Bytes} {l : Leg}
    (goes : d.Goes creating folderOnly here names l) (stops : l = .link folder target rest) :
    d.isFolder folder = true := by
  induction goes with
  | done here => cases stops
  | stay there later ih => exact ih stops
  | up there later ih => exact ih stops
  | vacant there plain creates anyKind absent => cases stops
  | link there plain lookedUp entry link =>
    cases stops
    exact isFolder_of_node? there
  | enter there plain lookedUp entry noLink later ih => exact ih stops

theorem Wf.origin_lands (wf : d.Wf) (p : Path) {here : NodeId} (folder : d.isFolder here = true) :
    d.Lands (p.origin here) := by
  unfold Path.origin
  split
  · exact lands_of_isFolder wf.root
  · exact lands_of_isFolder folder

theorem Wf.follow_lands (wf : d.Wf) {budget : Nat} {folderOnly : Bool} {here : NodeId}
    {names : List Name} {place : Place} (start : d.Lands here)
    (ends : follow d false budget folderOnly here names = .ok place) :
    ∃ i, place = .node i ∧ d.Lands i := by
  induction budget generalizing folderOnly here names with
  | zero =>
    rcases follow_eq_ok.mp ends with ⟨goes, -⟩ | ⟨_, _, _, _, none, -⟩
    · exact wf.goes_lands goes rfl start
    · cases none
  | succ budget ih =>
    rcases follow_eq_ok.mp ends with ⟨goes, -⟩ | ⟨_, folder, target, _, some, goes, later⟩
    · exact wf.goes_lands goes rfl start
    · cases some
      exact ih (wf.origin_lands _ (goes.link_folder rfl)) later

/-- A path that leads anywhere leads to something, and never to a link. -/
theorem Wf.resolve_lands (wf : d.Wf) {place : Place} (leads : d.resolve false path = .ok place) :
    ∃ i, place = .node i ∧ d.Lands i := by
  unfold Disk.resolve at leads
  split at leads
  · cases leads
  · exact wf.follow_lands (wf.origin_lands _ wf.home) leads

end Disk

/-! ## Runs -/

theorem Stream.Source.take_wf {source : Source} {d d' : Disk} {stream : Stream} (wf : d.Wf)
    (taken : source.take d = .ok (stream, d')) : d'.Wf := by
  cases source with
  | ready other =>
    cases taken
    exact wf
  | file mode path =>
    simp only [take] at taken
    split at taken <;> cases taken
    rename_i opened
    obtain ⟨h, -, openedFile⟩ := File.openPath_spec opened
    exact wf.openFile openedFile

theorem Stream.Source.opened_wf {d : Disk} (wf : d.Wf) (source : Source) :
    (source.opened d).Wf := by
  cases takes : source.take d with
  | error fault =>
    rw [opened_of_error takes]
    exact wf
  | ok found =>
    rw [opened_of_ok takes]
    exact take_wf wf takes

theorem Operation.entry_wf {d : Disk} (wf : d.Wf) (pool : Pool) (op : Operation) :
    (op.entry pool d).Wf := by
  cases op with
  | openStream source terms => exact source.opened_wf wf
  | openPersistent key source =>
    show Disk.Wf (if _ then _ else _)
    split
    · exact source.opened_wf wf
    · exact wf
  | change changes => exact wf.changeAll changes
  | _ => exact wf

namespace Broker

variable {b : Broker}

theorem step_wf (wf : b.registry.world.disk.Wf) (op : Operation) :
    (b.step op).state.registry.world.disk.Wf :=
  (op.entry_wf wf _).of_skeleton (step_passes b op).skeleton

/-- No operation of a run leaves loose ends. -/
theorem run_wf (wf : b.registry.world.disk.Wf) (ops : List Operation) :
    (b.run ops).state.registry.world.disk.Wf := by
  induction ops generalizing b with
  | nil => exact wf
  | cons op rest ih => exact ih (step_wf wf op)

end Broker

end StreamBroker
