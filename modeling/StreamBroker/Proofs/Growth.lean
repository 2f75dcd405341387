import StreamBroker.Proofs.Skeleton
import StreamBroker.Proofs.Walks

/-!
# Disks that grow

Opening a file adds one name at most. Main statements:

* **growth** — a disk has grown into another if all that was entered or linked on it still is
  (`Disk.Grows`), as is so after everything that leaves the skeleton alone
  (`Grows.of_skeleton`);
* **walks** — on a grown disk a path leads to the node that it led to before, and to what was
  put in the vacant place that it led to (`Grows.resolve`);
* **opening** — one rule for each kind of node that is opened (`Disk.Opens`). It is growth
  (`Opens.grows`), and the path leads to what was opened by it (`Opens.resolve`);
* **files** — whatever happens to a disk, a file stays a file (`Disk.KeepsFiles`,
  `keepsFiles_changeAll`).
-/

namespace StreamBroker.Disk

variable {d d' d'' : Disk} {mode : Mode} {path : Bytes} {i : NodeId}

/-! ## Growth -/

/-- What was entered and linked on the first disk still is on the second; links are the same. -/
structure Grows (d d' : Disk) : Prop where
  links : ∀ i target, d'.node? i = some (.link target) ↔ d.node? i = some (.link target)
  folders : ∀ i parent entries, d.node? i = some (.folder parent entries) →
    ∃ entries', d'.node? i = some (.folder parent entries') ∧
      ∀ name j, entries.lookup name = some j → entries'.lookup name = some j

theorem Grows.refl (d : Disk) : d.Grows d :=
  ⟨fun _ _ => .rfl, fun _ _ entries there => ⟨entries, there, fun _ _ => id⟩⟩

theorem skeleton_link {target : Bytes} :
    d.skeleton.node? i = some (.link target) ↔ d.node? i = some (.link target) := by
  rw [node?_skeleton]
  rcases d.node? i with _ | (_ | _ | _ | _) <;> simp [Node.skeleton]

theorem skeleton_folder {parent : NodeId} {entries : List (Name × NodeId)} :
    d.skeleton.node? i = some (.folder parent entries) ↔
      d.node? i = some (.folder parent entries) := by
  rw [node?_skeleton]
  rcases d.node? i with _ | (_ | _ | _ | _) <;> simp [Node.skeleton]

/-- Contents are no part of growth. -/
theorem Grows.of_skeleton (same : d'.skeleton = d.skeleton) : d.Grows d' := by
  constructor
  · intro i target
    rw [← skeleton_link, same, skeleton_link]
  · intro i parent entries there
    refine ⟨entries, ?_, fun _ _ => id⟩
    rwa [← skeleton_folder, same, skeleton_folder]

theorem Grows.isFolder (grows : d.Grows d') (here : d.isFolder i = true) :
    d'.isFolder i = true := by
  unfold Disk.isFolder at here ⊢
  split at here
  · rename_i parent entries there
    obtain ⟨entries', there', -⟩ := grows.folders i parent entries there
    rw [there']
  · cases here

/-! ## Walks -/

/-- Where a walk gets to on a disk that has grown: as far as before, but from a vacant place on
to what stands there now. -/
inductive Leg.Renewed (d' : Disk) : Leg → Leg → Prop
  | node (i : NodeId) : Renewed d' (.arrived (.node i)) (.arrived (.node i))
  | filled {folder parent i : NodeId} {entries : List (Name × NodeId)} {name : Name}
      (there : d'.node? folder = some (.folder parent entries))
      (entry : entries.lookup name = some i)
      (noLink : ∀ target, d'.node? i ≠ some (.link target)) :
      Renewed d' (.arrived (.vacant folder name)) (.arrived (.node i))
  | link (folder : NodeId) (target : Bytes) (rest : List Name) :
      Renewed d' (.link folder target rest) (.link folder target rest)

theorem Goes.grown (grows : d.Grows d') {creating folderOnly : Bool} {here : NodeId}
    {names : List Name} {l l' : Leg} (goes : d.Goes creating folderOnly here names l)
    (renewed : l.Renewed d' l') : d'.Goes false folderOnly here names l' := by
  induction goes with
  | done here =>
    cases renewed
    exact .done here
  | stay there later ih =>
    obtain ⟨entries', there', -⟩ := grows.folders _ _ _ there
    exact .stay there' (ih renewed)
  | up there later ih =>
    obtain ⟨entries', there', -⟩ := grows.folders _ _ _ there
    exact .up there' (ih renewed)
  | vacant there plain creates anyKind absent =>
    cases renewed with
    -- what was vacant has been filled, so the walk goes one name further
    | filled there' entry noLink => exact .enter there' plain rfl entry noLink (.done _)
  | link there plain lookedUp entry link =>
    cases renewed
    obtain ⟨entries', there', kept⟩ := grows.folders _ _ _ there
    exact .link there' plain rfl (kept _ _ entry) ((grows.links _ _).mpr link)
  | enter there plain lookedUp entry noLink later ih =>
    obtain ⟨entries', there', kept⟩ := grows.folders _ _ _ there
    have noLink' : ∀ target, d'.node? _ ≠ some (.link target) :=
      fun target link => noLink target ((grows.links _ target).mp link)
    exact .enter there' plain rfl (kept _ _ entry) noLink' (ih renewed)

/-- A walk that arrives without a link arrives on a grown disk too, and at what was asked for. -/
theorem Goes.follow_grown (grows : d.Grows d') {creating : Bool} {budget : Nat}
    {folderOnly : Bool} {here : NodeId} {names : List Name} {place : Place}
    (goes : d.Goes creating folderOnly here names (.arrived place))
    (fits : ∀ i, place = .node i → folderOnly = true → d.isFolder i = true)
    (renewed : (Leg.arrived place).Renewed d' (.arrived (.node i))) :
    follow d' false budget folderOnly here names = .ok (.node i) := by
  refine follow_eq_ok.mpr (.inl ⟨goes.grown grows renewed, ?_⟩)
  rintro _ ⟨⟩ asked
  cases renewed with
  | node => exact grows.isFolder (fits i rfl asked)
  | filled =>
    rw [(goes.vacant_spec rfl).1] at asked
    cases asked

theorem Grows.follow (grows : d.Grows d') {creating : Bool} {budget : Nat} {folderOnly : Bool}
    {here : NodeId} {names : List Name} {place : Place}
    (ends : Disk.follow d creating budget folderOnly here names = .ok place)
    (renewed : (Leg.arrived place).Renewed d' (.arrived (.node i))) :
    Disk.follow d' false budget folderOnly here names = .ok (.node i) := by
  induction budget generalizing folderOnly here names with
  | zero =>
    rcases follow_eq_ok.mp ends with ⟨goes, fits⟩ | ⟨_, _, _, _, none, -⟩
    · exact goes.follow_grown grows fits renewed
    · cases none
  | succ budget ih =>
    rcases follow_eq_ok.mp ends with ⟨goes, fits⟩ | ⟨left, folder, target, rest, some, goes, later⟩
    · exact goes.follow_grown grows fits renewed
    · cases some
      have goes' := goes.grown grows (.link folder target rest)
      exact follow_eq_ok.mpr (.inr ⟨budget, folder, target, rest, rfl, goes', ih later⟩)

/-- On a disk that has grown a path leads to the node that it led to, and to what stands now at
the vacant place that it led to. -/
theorem Grows.resolve (grows : d.Grows d') {creating : Bool} {place : Place}
    (leads : d.resolve creating path = .ok place)
    (renewed : (Leg.arrived place).Renewed d' (.arrived (.node i))) :
    d'.resolve false path = .ok (.node i) := by
  unfold Disk.resolve at leads ⊢
  split at leads
  · cases leads
  · exact grows.follow leads renewed

/-! ## Opening -/

theorem node?_add (d : Disk) (n : Node) (i : NodeId) :
    (d.add n).2.node? i = if i = d.nodes.length then some n else d.node? i := by
  show (d.nodes ++ [n])[i]? = _
  by_cases last : i = d.nodes.length
  · subst last
    rw [if_pos rfl]
    exact List.getElem?_concat_length
  · rw [if_neg last]
    rcases Nat.lt_or_ge i d.nodes.length with known | beyond
    · exact List.getElem?_append_left known
    · have past : (d.nodes ++ [n]).length ≤ i := by
        rw [List.length_append]
        exact Nat.lt_of_le_of_ne beyond (Ne.symm last)
      rw [List.getElem?_eq_none past]
      exact (List.getElem?_eq_none beyond).symm

theorem node?_attach {folder parent i : NodeId} {entries : List (Name × NodeId)}
    (there : d.node? folder = some (.folder parent entries)) (name : Name) (j : NodeId) :
    (d.attach folder name i).node? j =
      if j = folder then some (.folder parent ((name, i) :: entries)) else d.node? j := by
  unfold attach
  rw [there]
  by_cases same : j = folder
  · subst same
    rw [if_pos rfl]
    exact node?_put_self (List.getElem?_eq_some_iff.mp there).1
  · rw [if_neg same]
    exact node?_put_of_ne (Ne.symm same)

/-- A new file with a name in a directory. -/
theorem node?_made {folder parent : NodeId} {entries : List (Name × NodeId)}
    (there : d.node? folder = some (.folder parent entries)) (name : Name) (j : NodeId) :
    ((d.add (.file [])).2.attach folder name d.nodes.length).node? j =
      if j = folder then some (.folder parent ((name, d.nodes.length) :: entries))
      else if j = d.nodes.length then some (.file [])
      else d.node? j := by
  have there' : (d.add (.file [])).2.node? folder = some (.folder parent entries) := by
    have known := (List.getElem?_eq_some_iff.mp there).1
    rw [node?_add, if_neg (Nat.ne_of_lt known), there]
  rw [node?_attach there', node?_add]

/-- How a file is opened: the node that it is open on, and the disk afterwards. -/
inductive Opens (d : Disk) (mode : Mode) (path : Bytes) : NodeId → Disk → Prop
  | made {folder parent : NodeId} {entries : List (Name × NodeId)} {name : Name}
      (leads : d.resolve mode.creates path = .ok (.vacant folder name))
      (there : d.node? folder = some (.folder parent entries))
      (absent : entries.lookup name = none) :
      Opens d mode path d.nodes.length
        ((d.add (.file [])).2.attach folder name d.nodes.length)
  | file {i : NodeId} {content : Bytes} (leads : d.resolve mode.creates path = .ok (.node i))
      (there : d.node? i = some (.file content)) :
      Opens d mode path i (if mode = .create then d.put i (.file []) else d)
  | fifo {i : NodeId} {queue : Bytes} {openers : Nat}
      (leads : d.resolve mode.creates path = .ok (.node i))
      (there : d.node? i = some (.fifo queue openers)) :
      Opens d mode path i (d.put i (.fifo queue (openers + 1)))
  | folder {i parent : NodeId} {entries : List (Name × NodeId)}
      (leads : d.resolve mode.creates path = .ok (.node i))
      (there : d.node? i = some (.folder parent entries)) (reads : mode = .read) :
      Opens d mode path i d

theorem openFile_opens {h : Descriptor} (opened : d.openFile mode path = .ok (h, d')) :
    h = ⟨h.node, mode, 0⟩ ∧ d.Opens mode path h.node d' := by
  unfold openFile at opened
  split at opened
  · cases opened
  · rename_i folder name leads
    cases opened
    obtain ⟨parent, entries, there, absent⟩ := resolve_vacant leads
    exact ⟨rfl, .made leads there absent⟩
  · rename_i i leads
    split at opened
    · rename_i content there
      cases opened
      exact ⟨rfl, .file leads there⟩
    · rename_i queue openers there
      cases opened
      exact ⟨rfl, .fifo leads there⟩
    · rename_i parent entries there
      split at opened
      · cases opened
      · rename_i notCreates
        cases opened
        refine ⟨rfl, .folder leads there ?_⟩
        cases mode <;> simp_all [Mode.creates]
    · cases opened

theorem Opens.grows (opens : d.Opens mode path i d') : d.Grows d' := by
  cases opens with
  | @made folder parent entries name leads there absent =>
    constructor
    · intro j target
      rw [node?_made there]
      by_cases same : j = folder
      · rw [if_pos same, same, there]
        simp
      · rw [if_neg same]
        by_cases new : j = d.nodes.length
        · have unused : d.node? j = none := List.getElem?_eq_none (Nat.le_of_eq new.symm)
          rw [if_pos new, unused]
          simp
        · rw [if_neg new]
    · intro j parent' entries' here
      rw [node?_made there]
      by_cases same : j = folder
      · subst same
        cases there.symm.trans here
        refine ⟨_, if_pos rfl, fun name' k entry => ?_⟩
        have other : name' ≠ name := by
          rintro rfl
          cases absent.symm.trans entry
        rw [List.lookup_cons, beq_false_of_ne other]
        exact entry
      · have known := (List.getElem?_eq_some_iff.mp here).1
        rw [if_neg same, if_neg (Nat.ne_of_lt known)]
        exact ⟨entries', here, fun _ _ => id⟩
  | file leads there =>
    refine .of_skeleton ?_
    split
    · exact skeleton_put there rfl
    · rfl
  | fifo leads there => exact .of_skeleton (skeleton_put there rfl)
  | folder leads there reads => exact .refl d

/-- The path that a file was opened by leads to it. -/
theorem Opens.resolve (opens : d.Opens mode path i d') :
    d'.resolve false path = .ok (.node i) := by
  have grows := opens.grows
  cases opens with
  | @made folder parent entries name leads there absent =>
    have apart : d.nodes.length ≠ folder :=
      Nat.ne_of_gt (List.getElem?_eq_some_iff.mp there).1
    have named := (node?_made there name folder).trans (if_pos rfl)
    have made : ((d.add (.file [])).2.attach folder name d.nodes.length).node? d.nodes.length =
        some (.file []) := by
      rw [node?_made there, if_neg apart, if_pos rfl]
    exact grows.resolve leads (.filled named List.lookup_cons_self (by rw [made]; nofun))
  | file leads there => exact grows.resolve leads (.node i)
  | fifo leads there => exact grows.resolve leads (.node i)
  | folder leads there reads => exact grows.resolve leads (.node i)

/-- A file that a path leads to can be read by that path. -/
theorem openFile_read {content : Bytes} (leads : d.resolve false path = .ok (.node i))
    (there : d.node? i = some (.file content)) :
    d.openFile .read path = .ok (⟨i, .read, 0⟩, d) := by
  unfold openFile
  rw [show Mode.read.creates = false from rfl, leads]
  simp only [there]
  rfl

theorem contents_eq {content : Bytes} (leads : d.resolve false path = .ok (.node i))
    (there : d.node? i = some (.file content)) : d.contents path = .ok content := by
  unfold contents
  rw [leads]
  simp only [there]

/-! ## Files stay files -/

def IsFile (d : Disk) (i : NodeId) : Prop := ∃ content, d.node? i = some (.file content)

/-- Every file of the first disk is a file of the second, whatever it holds there. -/
def KeepsFiles (d d' : Disk) : Prop := ∀ i, d.IsFile i → d'.IsFile i

theorem KeepsFiles.refl (d : Disk) : d.KeepsFiles d := fun _ => id

theorem KeepsFiles.trans (first : d.KeepsFiles d') (second : d'.KeepsFiles d'') :
    d.KeepsFiles d'' := fun i here => second i (first i here)

theorem skeleton_file : d.skeleton.node? i = some (.file []) ↔ d.IsFile i := by
  unfold IsFile
  rw [node?_skeleton]
  rcases d.node? i with _ | (_ | _ | _ | _) <;> simp [Node.skeleton]

theorem KeepsFiles.of_skeleton (same : d'.skeleton = d.skeleton) : d.KeepsFiles d' := by
  intro i here
  rwa [← skeleton_file, same, skeleton_file]

/-- Something else than a file is replaced. -/
theorem keepsFiles_put {node : Node} (noFile : ¬ d.IsFile i) : d.KeepsFiles (d.put i node) := by
  intro j here
  have apart : i ≠ j := by
    rintro rfl
    exact noFile here
  unfold IsFile
  rw [node?_put_of_ne apart]
  exact here

theorem keepsFiles_add (d : Disk) (node : Node) : d.KeepsFiles (d.add node).2 := by
  rintro j ⟨content, there⟩
  have known := (List.getElem?_eq_some_iff.mp there).1
  exact ⟨content, by rw [node?_add, if_neg (Nat.ne_of_lt known), there]⟩

theorem keepsFiles_attach (d : Disk) (folder : NodeId) (name : Name) (i : NodeId) :
    d.KeepsFiles (d.attach folder name i) := by
  unfold attach
  split
  · rename_i there
    refine keepsFiles_put ?_
    rintro ⟨content, here⟩
    cases there.symm.trans here
  · exact .refl d

theorem keepsFiles_detach (d : Disk) (folder : NodeId) (name : Name) :
    d.KeepsFiles (d.detach folder name) := by
  unfold detach
  split
  · rename_i there
    refine keepsFiles_put ?_
    rintro ⟨content, here⟩
    cases there.symm.trans here
  · exact .refl d

theorem Opens.keepsFiles (opens : d.Opens mode path i d') : d.KeepsFiles d' := by
  cases opens with
  | made leads there absent => exact (keepsFiles_add d _).trans (keepsFiles_attach _ _ _ _)
  | file leads there =>
    refine .of_skeleton ?_
    split
    · exact skeleton_put there rfl
    · rfl
  | fifo leads there => exact .of_skeleton (skeleton_put there rfl)
  | folder leads there reads => exact .refl d

theorem keepsFiles_writeFile (d : Disk) (path content : Bytes) :
    d.KeepsFiles (d.writeFile path content) := by
  unfold writeFile
  split
  · exact .refl d
  · rename_i h opened here
    have opens := (openFile_opens here).2.keepsFiles
    split
    · exact opens.trans (.of_skeleton (close_skeleton ..))
    · rename_i n moved written wrote
      have writes := KeepsFiles.of_skeleton (write_skeleton wrote)
      exact opens.trans (writes.trans (.of_skeleton (close_skeleton ..)))

theorem keepsFiles_make (d : Disk) (path : Bytes) (node : NodeId → Node) :
    d.KeepsFiles (d.make path node) := by
  unfold make
  split
  · exact .refl d
  · split
    · exact .refl d
    · exact (keepsFiles_add d _).trans (keepsFiles_attach _ _ _ _)

theorem keepsFiles_change (d : Disk) (c : Change) : d.KeepsFiles (d.change c) := by
  cases c with
  | file path content => exact keepsFiles_writeFile _ _ _
  | folder path => exact keepsFiles_make _ _ _
  | link path target =>
    show d.KeepsFiles (d.makeLink path target)
    unfold makeLink
    repeat' split
    · exact .refl d
    · exact .refl d
    · exact keepsFiles_make _ _ _
  | fifo path =>
    simp only [change]
    split
    · exact .refl d
    · exact keepsFiles_make _ _ _
  | remove path =>
    simp only [change, remove]
    repeat' split
    · exact .refl d
    · exact .refl d
    · exact .refl d
    · exact .refl d
    · exact keepsFiles_detach _ _ _

theorem keepsFiles_changeAll (d : Disk) (changes : List Change) :
    d.KeepsFiles (d.changeAll changes) := by
  unfold changeAll
  induction changes generalizing d with
  | nil => exact .refl d
  | cons c rest ih => exact (keepsFiles_change d c).trans (ih _)

end StreamBroker.Disk
