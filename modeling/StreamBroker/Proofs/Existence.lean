import StreamBroker.Proofs.Integrity

/-!
# What exists can be opened

Asking whether a path exists, and opening it for reading, are two ways to find out. Main
statements:

* **missing** — a path is missing exactly if it is empty, or if its walk comes, through the links
  on its way, to a directory that lacks the next name (`Disk.Astray`, `resolve_notFound`);
* **agreement** — on a disk without loose ends the answer to a query and an attempt to open for
  reading tell the same (`Existence.Tallies`, `Wf.tallies`);
* **making** — a path that was opened exists, also if a link led to where the file was made
  (`Opens.existence`).

`existence_matches_opening` puts them together for the broker, at any time of a run.
-/

namespace StreamBroker

namespace Disk

variable {d d' : Disk} {mode : Mode} {path : Bytes} {i : NodeId}

/-! ## Walks that find nothing -/

/-- A directory without an entry for a name that it is asked for. -/
structure Lacks (d : Disk) (folder : NodeId) (name : Name) : Prop where
  plain : Plain name
  absent : ∃ parent entries, d.node? folder = some (.folder parent entries) ∧
    entries.lookup name = none

/-- A walk comes, through as many links as it may follow, to a directory that lacks the name that
is next, be it the last name or one on the way. -/
inductive Astray (d : Disk) : Nat → NodeId → List Name → Prop
  | lacks {budget : Nat} {here folder : NodeId} {before after : List Name} {name : Name}
      (goes : d.Goes false false here before (.arrived (.node folder)))
      (lacks : d.Lacks folder name) : Astray d budget here (before ++ name :: after)
  | link {budget : Nat} {here folder : NodeId} {names rest : List Name} {target : Bytes}
      (goes : d.Goes false false here names (.link folder target rest))
      (later : let p := Path.parse target
        Astray d budget (p.origin folder) (p.names ++ rest)) :
      Astray d (budget + 1) here names

/-- A path can be read, and its walk finds nothing. -/
def LeadsAstray (d : Disk) (path : Bytes) : Prop :=
  ∃ p, Path.read? path = .ok p ∧ d.Astray linkBudget (p.origin home) p.names

/-- A walk that creates nothing goes the same way whether it has to end at a directory or not. -/
theorem leg_anyKind (d : Disk) (folderOnly : Bool) (here : NodeId) (names : List Name) :
    leg d false folderOnly here names = leg d false false here names := by
  induction names generalizing here with
  | nil => rfl
  | cons name rest ih => simp only [leg, Bool.false_and, ih]

/-- A walk goes on from where its first part arrives. -/
theorem leg_append {here folder : NodeId} {before : List Name} {l : Leg}
    (goes : d.Goes false false here before l) (arrives : l = .arrived (.node folder))
    (more : List Name) :
    leg d false false here (before ++ more) = leg d false false folder more := by
  induction goes with
  | done here =>
    cases arrives
    rfl
  | stay there later ih =>
    rw [List.cons_append, leg, there]
    exact ih arrives
  | up there later ih =>
    rw [List.cons_append, leg, there]
    exact ih arrives
  | vacant there plain creates anyKind absent => cases creates
  | link there plain lookedUp entry link => cases arrives
  | enter there plain lookedUp entry noLink later ih =>
    simp only [List.cons_append, leg, there, child?_eq there, if_neg plain.ne_dot,
      if_neg plain.ne_dotDot, Bool.false_and, entry, if_neg (Nat.not_lt_of_le plain.length_le),
      Bool.false_eq_true, if_false]
    exact ih arrives

theorem leg_lacks {folder : NodeId} {name : Name} (lacks : d.Lacks folder name)
    (after : List Name) : leg d false false folder (name :: after) = .error .notFound := by
  obtain ⟨plain, parent, entries, there, absent⟩ := lacks
  simp [leg, there, child?_eq there, plain.ne_dot, plain.ne_dotDot, absent,
    Nat.not_lt_of_le plain.length_le]

/-- Up to the first link, a walk finds nothing only in a directory that lacks the next name. -/
theorem lacks_of_leg {here : NodeId} {names : List Name}
    (fails : leg d false false here names = .error .notFound) :
    ∃ before name after folder, names = before ++ name :: after ∧
      d.Goes false false here before (.arrived (.node folder)) ∧ d.Lacks folder name := by
  induction names generalizing here with
  | nil => cases fails
  | cons name rest ih =>
    rw [leg] at fails
    split at fails
    case h_2 => cases fails
    rename_i parent entries there
    by_cases isDot : name = dot
    · subst isDot
      rw [if_pos rfl] at fails
      obtain ⟨before, next, after, folder, rfl, goes, lacks⟩ := ih fails
      exact ⟨dot :: before, next, after, folder, rfl, .stay there goes, lacks⟩
    by_cases isDotDot : name = dotDot
    · subst isDotDot
      rw [if_neg isDot, if_pos rfl] at fails
      obtain ⟨before, next, after, folder, rfl, goes, lacks⟩ := ih fails
      exact ⟨dotDot :: before, next, after, folder, rfl, .up there goes, lacks⟩
    rw [if_neg isDot, if_neg isDotDot, child?_eq there] at fails
    simp only [Bool.false_and, Bool.false_eq_true, if_false] at fails
    split at fails
    · cases fails
    -- What is left is a name that is looked up, and only its absence is told as a lack.
    rename_i short
    have plain : Plain name := ⟨isDot, isDotDot, Nat.le_of_not_lt short⟩
    split at fails
    · rename_i absent
      exact ⟨[], name, rest, here, rfl, .done here, plain, parent, entries, there, absent⟩
    · rename_i next entry
      split at fails
      · cases fails
      · rename_i noLink
        obtain ⟨before, other, after, folder, rfl, goes, lacks⟩ := ih fails
        exact ⟨name :: before, other, after, folder, rfl,
          .enter there plain rfl entry noLink goes, lacks⟩

theorem astray_of_follow {budget : Nat} {folderOnly : Bool} {here : NodeId} {names : List Name}
    (fails : follow d false budget folderOnly here names = .error .notFound) :
    d.Astray budget here names := by
  induction budget generalizing folderOnly here names with
  | zero =>
    rw [follow, leg_anyKind] at fails
    split at fails
    · rename_i gets
      cases fails
      obtain ⟨before, name, after, folder, rfl, goes, lacks⟩ := lacks_of_leg gets
      exact .lacks goes lacks
    · split at fails <;> cases fails
    · cases fails
    · cases fails
  | succ budget ih =>
    rw [follow, leg_anyKind] at fails
    split at fails
    · rename_i gets
      cases fails
      obtain ⟨before, name, after, folder, rfl, goes, lacks⟩ := lacks_of_leg gets
      exact .lacks goes lacks
    · split at fails <;> cases fails
    · cases fails
    · rename_i gets
      exact .link (goes_of_leg gets) (ih fails)

theorem follow_of_astray {budget : Nat} {here : NodeId} {names : List Name}
    (astray : d.Astray budget here names) (folderOnly : Bool) :
    follow d false budget folderOnly here names = .error .notFound := by
  induction astray generalizing folderOnly with
  | lacks goes lacks => rw [follow, leg_anyKind, leg_append goes rfl, leg_lacks lacks]
  | link goes later ih =>
    rw [follow, leg_anyKind, leg_of_goes goes]
    exact ih _

/-- Nothing is found exactly for the empty path and for paths that lead astray. -/
theorem resolve_notFound :
    d.resolve false path = .error .notFound ↔ path = [] ∨ d.LeadsAstray path := by
  unfold resolve
  constructor
  · intro fails
    split at fails
    · rename_i refused
      cases fails
      unfold Path.read? at refused
      repeat' split at refused
      all_goals cases refused
      rename_i nothing
      exact .inl nothing
    · rename_i p known
      exact .inr ⟨p, known, astray_of_follow fails⟩
  · rintro (rfl | ⟨p, known, astray⟩)
    · rfl
    · rw [known]
      exact follow_of_astray astray _

/-! ## Answers -/

theorem resolve_nul (d : Disk) (creating : Bool) (nul : 0 ∈ path) :
    d.resolve creating path = .error .nulInPath := by
  simp only [resolve, Path.read?, if_pos nul]

/-- A query is answered as the walk goes; only a zero byte is told in words of its own. -/
theorem existence_eq (d : Disk) (path : Bytes) :
    d.existence path =
      match d.resolve false path with
      | .ok _ => .exists
      | .error .notFound => .missing
      | .error fault => .failed (if 0 ∈ path then .nulInPath else .disk fault) := by
  by_cases nothing : path = []
  · subst nothing
    rfl
  by_cases nul : 0 ∈ path
  · rw [d.resolve_nul false nul, existence, if_neg nothing, if_pos nul]
    simp only [if_pos nul]
  · rw [existence, if_neg nothing, if_neg nul]
    cases d.resolve false path with
    | ok => rfl
    | error fault => cases fault <;> simp only [if_neg nul]

theorem existence_exists_iff :
    d.existence path = .exists ↔ ∃ place, d.resolve false path = .ok place := by
  rw [existence_eq]
  split <;> simp_all

theorem existence_missing_iff :
    d.existence path = .missing ↔ d.resolve false path = .error .notFound := by
  rw [existence_eq]
  split <;> simp_all

theorem existence_failed {fault : Fault} (fails : d.resolve false path = .error fault)
    (other : fault ≠ .notFound) :
    d.existence path = .failed (if 0 ∈ path then .nulInPath else .disk fault) := by
  rw [existence_eq, fails]
  split <;> simp_all

/-- A path that was opened exists, also if its last name was a link to nothing before. -/
theorem Opens.existence (opens : d.Opens mode path i d') : d'.existence path = .exists :=
  existence_exists_iff.mpr ⟨_, opens.resolve⟩

/-! ## Agreement -/

/-- Whether a path leads to a queue. -/
def leadsToFifo (d : Disk) (path : Bytes) : Bool :=
  match d.resolve false path with
  | .ok (.node i) =>
    match d.node? i with
    | some (.fifo ..) => true
    | _ => false
  | _ => false

theorem openFile_fault {fault : Fault} (fails : d.resolve mode.creates path = .error fault) :
    d.openFile mode path = .error fault := by
  rw [openFile, fails]

/-- Whatever a path leads to, but for a queue, can be opened for reading. -/
theorem Wf.openFile_found (wf : d.Wf) {place : Place} (leads : d.resolve false path = .ok place)
    (noFifo : d.leadsToFifo path = false) : ∃ h, d.openFile .read path = .ok (h, d) := by
  obtain ⟨i, rfl, node, there, noLink⟩ := wf.resolve_lands leads
  rw [Disk.openFile, show Mode.read.creates = false from rfl, leads]
  cases node with
  | file content => exact ⟨⟨i, .read, 0⟩, by simp only [there]; rfl⟩
  | folder parent entries => exact ⟨⟨i, .read, 0⟩, by simp only [there]; rfl⟩
  | link target => exact absurd rfl (noLink target)
  | fifo queue openers =>
    simp only [leadsToFifo, leads, there] at noFifo
    cases noFifo

end Disk

/-- The answer to a query, and what came of an attempt to open, that tell the same of a path. -/
inductive Existence.Tallies (path : Bytes) :
    Existence → Except Disk.Fault (Stream.File × Disk) → Prop
  | opened (f : Stream.File) (d : Disk) : Tallies path .exists (.ok (f, d))
  | missing : Tallies path .missing (.error .notFound)
  | failed {fault : Disk.Fault} (other : fault ≠ .notFound) (noNul : 0 ∉ path) :
      Tallies path (.failed (.disk fault)) (.error fault)
  | nul (nul : 0 ∈ path) : Tallies path (.failed .nulInPath) (.error .nulInPath)

namespace Disk

variable {d d' : Disk} {path : Bytes}

/-- A query and an attempt to open for reading tell the same. -/
theorem Wf.tallies (wf : d.Wf) (noFifo : d.leadsToFifo path = false) :
    (d.existence path).Tallies path (Stream.File.openPath d .read path) := by
  rw [Stream.File.openPath]
  cases walk : d.resolve false path with
  | ok place =>
    obtain ⟨h, opened⟩ := wf.openFile_found walk noFifo
    rw [existence_exists_iff.mpr ⟨place, walk⟩, opened]
    exact .opened _ d
  | error fault =>
    have fails : d.resolve Mode.read.creates path = .error fault := walk
    rw [openFile_fault fails]
    by_cases notFound : fault = .notFound
    · subst notFound
      rw [existence_missing_iff.mpr walk]
      exact .missing
    rw [existence_failed walk notFound]
    by_cases nul : 0 ∈ path
    · cases walk.symm.trans (d.resolve_nul false nul)
      rw [if_pos nul]
      exact .nul nul
    · rw [if_neg nul]
      exact .failed notFound nul

theorem existence_nul (d : Disk) (nul : 0 ∈ path) : d.existence path = .failed .nulInPath := by
  rw [existence_failed (d.resolve_nul false nul) nofun, if_pos nul]

theorem openPath_nul (d : Disk) (mode : Mode) (nul : 0 ∈ path) :
    Stream.File.openPath d mode path = .error .nulInPath := by
  rw [Stream.File.openPath, openFile_fault (d.resolve_nul mode.creates nul)]

end Disk

/-! ## Queries of the broker -/

namespace Broker

variable {b : Broker}

/-- Only strings are asked about, with all their bytes. -/
theorem fileExists_events (b : Broker) (v : Value) :
    (b.fileExists v).events =
      match v with
      | .string path => [.query path]
      | _ => [] := by
  cases v <;> rfl

theorem fileExists_iff (asks : b.files = .disk) {v : Value} :
    (b.fileExists v).answer = true ↔
      ∃ path, v = .string path ∧ b.registry.world.disk.existence path = .exists := by
  have holds_iff : ∀ e : Existence, e.holds = true ↔ e = .exists := by
    intro e
    cases e <;> simp [Existence.holds]
  cases v with
  | string path =>
    show (b.files.existence b.registry.world.disk path).holds = true ↔ _
    rw [asks, holds_iff]
    simp [FileSystem.existence]
  | null | bool | int | float | resource => simp [fileExists, expectBytes]

/-- **What exists can be opened.** At any time of a run on a disk without loose ends, a query
about a path that leads to no queue tells what opening it for reading comes to: it exists if it
can be opened, it is missing if opening finds nothing, and in all other cases the query fails, in
the words of the fault that opening fails with. Only the empty path and paths that lead astray
are missing. A path with a zero byte is neither: both fail, each in words of its own. The broker
says yes exactly to a string whose bytes, all of them, are a path that exists, and asks about
nothing but strings. Once a file was opened to be made or to be appended to, its path exists. -/
theorem existence_matches_opening (wf : b.registry.world.disk.Wf) (ops : List Operation) :
    let now := (b.run ops).state
    let disk := now.registry.world.disk
    (∀ path, disk.leadsToFifo path = false →
      let found := disk.existence path
      let opening := Stream.File.openPath disk .read path
      (found = .exists ↔ ∃ f opened, opening = .ok (f, opened)) ∧
      (found = .missing ↔ opening = .error .notFound) ∧
      ((∃ reason, found = .failed reason) ↔ ∃ fault, fault ≠ .notFound ∧ opening = .error fault) ∧
      ∀ reason fault, found = .failed reason → opening = .error fault →
        reason.message = if 0 ∈ path then "path contains a NUL byte" else fault.message) ∧
    (∀ path, disk.existence path = .missing ↔ path = [] ∨ disk.LeadsAstray path) ∧
    (∀ path, 0 ∈ path → disk.existence path = .failed .nulInPath ∧
      Stream.File.openPath disk .read path = .error .nulInPath) ∧
    (now.files = .disk → ∀ v,
      ((now.fileExists v).answer = true ↔
        ∃ path, v = .string path ∧ disk.existence path = .exists) ∧
      (now.fileExists v).events =
        match v with
        | .string path => [.query path]
        | _ => []) ∧
    ∀ mode path f opened, mode.creates = true →
      Stream.File.openPath disk mode path = .ok (f, opened) →
      ∀ after : Broker, after.files = .disk → after.registry.world.disk = opened →
        (after.fileExists (.string path)).answer = true := by
  intro now disk
  have wf : disk.Wf := run_wf wf ops
  refine ⟨fun path noFifo => ?_, fun path => ?_, fun path nul => ?_, fun asks v => ?_, ?_⟩
  -- Each way to tally settles all that is said of the query and the attempt to open.
  · have tallies := wf.tallies noFifo
    revert tallies
    generalize disk.existence path = found
    generalize Stream.File.openPath disk .read path = opening
    rintro (⟨f, opened⟩ | _ | ⟨other, noNul⟩ | nul)
    · simp
    · simp
    · refine ⟨by simp, by simpa using other, ?_, ?_⟩
      · exact ⟨fun _ => ⟨_, other, rfl⟩, fun _ => ⟨_, rfl⟩⟩
      · rintro _ fault ⟨⟩ ⟨⟩
        rw [if_neg noNul]
        rfl
    · refine ⟨by simp, by simp, ?_, ?_⟩
      · exact ⟨fun _ => ⟨.nulInPath, nofun, rfl⟩, fun _ => ⟨_, rfl⟩⟩
      · rintro _ fault ⟨⟩ ⟨⟩
        rw [if_pos nul]
        rfl
  · exact Disk.existence_missing_iff.trans Disk.resolve_notFound
  · exact ⟨disk.existence_nul nul, disk.openPath_nul .read nul⟩
  · exact ⟨fileExists_iff asks, now.fileExists_events v⟩
  · intro mode path f opened creates openedPath after asks same
    obtain ⟨h, rfl, openedFile⟩ := Stream.File.openPath_spec openedPath
    have opens := (Disk.openFile_opens openedFile).2
    rw [fileExists_iff asks, same]
    exact ⟨path, rfl, opens.existence⟩

/-- A file is appended to through a link whose target the directory did not have; beside it there
are another file, a link to itself and a queue. -/
def tangling : List Operation :=
  [.change [.file [0x61] [1], .folder [0x64], .link [0x6c] [0x64, 0x2f, 0x6e], .link [0x6f] [0x6f],
    .fifo [0x71]],
    .openStream (.file .append [0x6c]) {}]

/-- The disk that it leaves. -/
def tangled : Disk where
  nodes := [.folder 0 [],
    .folder 0 [([0x71], 6), ([0x6f], 5), ([0x6c], 4), ([0x64], 3), ([0x61], 2)], .file [1],
    .folder 1 [([0x6e], 7)], .link [0x64, 0x2f, 0x6e], .link [0x6f], .fifo [] 0, .file []]

theorem existence_matches_opening_tangled :
    let start := Broker.ofConfig {} .disk .recording (.ofDisk .empty)
    start.registry.world.disk.Wf ∧ (start.run tangling).state.registry.world.disk = tangled ∧
      ((start.run tangling).state.fileExists (.string [0x6c])).answer = true ∧
      ((start.run tangling).state.fileExists (.string [0x6c, 0])).answer ≠ true ∧
      tangled.existence [0x6e, 0x2f, 0x61] = .missing ∧ tangled.LeadsAstray [0x6e, 0x2f, 0x61] ∧
      (∃ reason, tangled.existence [0x6f] = .failed reason ∧
        reason.message = "Too many levels of symbolic links (os error 40)") ∧
      ∀ after : Broker, after.files = .disk →
        after.registry.world.disk = tangled.put 2 (.file []) →
        (after.fileExists (.string [0x61])).answer = true := by
  intro start
  have wf : start.registry.world.disk.Wf := Disk.wf_empty
  have known : (start.run tangling).state.registry.world.disk = tangled := by decide +kernel
  have asks : (start.run tangling).state.files = .disk := rfl
  obtain ⟨agree, missing, nul, ask, making⟩ := existence_matches_opening wf tangling
  rw [known] at agree missing nul ask making
  obtain ⟨exists_iff, -⟩ := agree [0x6c] rfl
  obtain ⟨-, missing_iff, -⟩ := agree [0x6e, 0x2f, 0x61] rfl
  obtain ⟨-, -, failed_iff, words⟩ := agree [0x6f] rfl
  have absent := missing_iff.mpr rfl
  have loop : Stream.File.openPath tangled .read [0x6f] = .error .tooManyLinks := rfl
  obtain ⟨reason, failed⟩ := failed_iff.mpr ⟨.tooManyLinks, by decide, loop⟩
  refine ⟨wf, known, ?_, ?_, absent, ?_, ⟨reason, failed, words _ _ failed loop⟩, ?_⟩
  · exact ((ask asks _).1).mpr ⟨_, rfl, exists_iff.mpr ⟨_, _, rfl⟩⟩
  · intro yes
    obtain ⟨_, ⟨⟩, found⟩ := ((ask asks _).1).mp yes
    cases found.symm.trans (nul [0x6c, 0] (by decide)).1
  · exact ((missing _).mp absent).resolve_left (List.cons_ne_nil _ _)
  · exact making .create [0x61] _ _ rfl rfl

end Broker

end StreamBroker
