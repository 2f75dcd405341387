import StreamBroker.Disk.Descriptor

/-!
# How walks go

The walk along a path as rules, beside the functions that compute it. Main statements:

* **names** — `Disk.Goes` has one rule for each kind of name, and a walk between two links goes
  by them (`goes_of_leg`, `leg_of_goes`);
* **links** — a walk gets to a place without a link, or through one link more
  (`follow_eq_ok`);
* **vacant places** — a walk ends at one only in a directory that lacks the name
  (`resolve_vacant`).
-/

namespace StreamBroker.Disk

variable {d : Disk} {path : Bytes}

/-! ## Names -/

theorem child?_eq {folder parent : NodeId} {entries : List (Name × NodeId)}
    (there : d.node? folder = some (.folder parent entries)) (name : Name) :
    d.child? folder name = entries.lookup name := by
  unfold child?
  rw [there]

/-- A name that is looked up in its directory. -/
structure Plain (name : Name) : Prop where
  ne_dot : name ≠ dot
  ne_dotDot : name ≠ dotDot
  length_le : name.length ≤ maxNameLength

/-- How a walk goes from name to name, one rule for each kind of name. -/
inductive Goes (d : Disk) (creating folderOnly : Bool) : NodeId → List Name → Leg → Prop
  | done (here : NodeId) : Goes d creating folderOnly here [] (.arrived (.node here))
  | stay {here parent : NodeId} {entries : List (Name × NodeId)} {rest : List Name} {l : Leg}
      (there : d.node? here = some (.folder parent entries))
      (later : Goes d creating folderOnly here rest l) :
      Goes d creating folderOnly here (dot :: rest) l
  | up {here parent : NodeId} {entries : List (Name × NodeId)} {rest : List Name} {l : Leg}
      (there : d.node? here = some (.folder parent entries))
      (later : Goes d creating folderOnly parent rest l) :
      Goes d creating folderOnly here (dotDot :: rest) l
  | vacant {here parent : NodeId} {entries : List (Name × NodeId)} {name : Name}
      (there : d.node? here = some (.folder parent entries)) (plain : Plain name)
      (creates : creating = true) (anyKind : folderOnly = false)
      (absent : entries.lookup name = none) :
      Goes d creating folderOnly here [name] (.arrived (.vacant here name))
  | link {here parent next : NodeId} {entries : List (Name × NodeId)} {name : Name}
      {target : Bytes} {rest : List Name} (there : d.node? here = some (.folder parent entries))
      (plain : Plain name) (lookedUp : (creating && folderOnly && rest.isEmpty) = false)
      (entry : entries.lookup name = some next) (link : d.node? next = some (.link target)) :
      Goes d creating folderOnly here (name :: rest) (.link here target rest)
  | enter {here parent next : NodeId} {entries : List (Name × NodeId)} {name : Name}
      {rest : List Name} {l : Leg} (there : d.node? here = some (.folder parent entries))
      (plain : Plain name) (lookedUp : (creating && folderOnly && rest.isEmpty) = false)
      (entry : entries.lookup name = some next)
      (noLink : ∀ target, d.node? next ≠ some (.link target))
      (later : Goes d creating folderOnly next rest l) :
      Goes d creating folderOnly here (name :: rest) l

theorem goes_of_leg {creating folderOnly : Bool} {here : NodeId} {names : List Name} {l : Leg}
    (gets : leg d creating folderOnly here names = .ok l) :
    d.Goes creating folderOnly here names l := by
  induction names generalizing here with
  | nil =>
    cases gets
    exact .done here
  | cons name rest ih =>
    rw [leg] at gets
    split at gets
    case h_2 => cases gets
    rename_i parent entries there
    by_cases isDot : name = dot
    · subst isDot
      rw [if_pos rfl] at gets
      exact .stay there (ih gets)
    by_cases isDotDot : name = dotDot
    · subst isDotDot
      rw [if_neg isDot, if_pos rfl] at gets
      exact .up there (ih gets)
    rw [if_neg isDot, if_neg isDotDot, child?_eq there] at gets
    split at gets
    · cases gets
    rename_i notRefused
    have lookedUp := Bool.eq_false_iff.mpr notRefused
    split at gets
    · cases gets
    rename_i short
    have plain : Plain name := ⟨isDot, isDotDot, Nat.le_of_not_lt short⟩
    split at gets
    · rename_i absent
      split at gets
      · rename_i last
        obtain ⟨creates, nothing⟩ := Bool.and_eq_true_iff.mp last
        cases List.isEmpty_iff.mp nothing
        cases gets
        refine .vacant there plain creates ?_ absent
        rw [creates] at lookedUp
        simpa using lookedUp
      · cases gets
    · rename_i next entry
      split at gets
      · rename_i target link
        cases gets
        exact .link there plain lookedUp entry link
      · rename_i noLink
        exact .enter there plain lookedUp entry noLink (ih gets)

theorem leg_of_goes {creating folderOnly : Bool} {here : NodeId} {names : List Name} {l : Leg}
    (goes : d.Goes creating folderOnly here names l) :
    leg d creating folderOnly here names = .ok l := by
  induction goes with
  | done here => rfl
  | stay there later ih =>
    rw [leg, there]
    exact ih
  | up there later ih =>
    rw [leg, there]
    exact ih
  | vacant there plain creates anyKind absent =>
    simp [leg, there, child?_eq there, plain.ne_dot, plain.ne_dotDot, creates, anyKind, absent,
      Nat.not_lt_of_le plain.length_le]
  | link there plain lookedUp entry link =>
    simp [leg, there, child?_eq there, plain.ne_dot, plain.ne_dotDot, lookedUp, entry, link,
      Nat.not_lt_of_le plain.length_le]
  | enter there plain lookedUp entry noLink later ih =>
    simp only [leg, there, child?_eq there, if_neg plain.ne_dot, if_neg plain.ne_dotDot, lookedUp,
      entry, if_neg (Nat.not_lt_of_le plain.length_le), Bool.false_eq_true, if_false]
    exact ih

/-- A walk ends at a vacant place only if it is not asked for a directory, and only at a name
that its directory does not have. -/
theorem Goes.vacant_spec {creating folderOnly : Bool} {here folder : NodeId} {names : List Name}
    {name : Name} {l : Leg} (goes : d.Goes creating folderOnly here names l)
    (ends : l = .arrived (.vacant folder name)) :
    folderOnly = false ∧ ∃ parent entries,
      d.node? folder = some (.folder parent entries) ∧ entries.lookup name = none := by
  induction goes with
  | done here => cases ends
  | stay there later ih => exact ih ends
  | up there later ih => exact ih ends
  | vacant there plain creates anyKind absent =>
    cases ends
    exact ⟨anyKind, _, _, there, absent⟩
  | link there plain lookedUp entry link => cases ends
  | enter there plain lookedUp entry noLink later ih => exact ih ends

/-! ## Links -/

/-- A walk gets to a place without a link, or through one link more. -/
theorem follow_eq_ok {creating : Bool} {budget : Nat} {folderOnly : Bool} {here : NodeId}
    {names : List Name} {place : Place} :
    follow d creating budget folderOnly here names = .ok place ↔
      (d.Goes creating folderOnly here names (.arrived place) ∧
        ∀ i, place = .node i → folderOnly = true → d.isFolder i = true) ∨
      ∃ left folder target rest, budget = left + 1 ∧
        d.Goes creating folderOnly here names (.link folder target rest) ∧
        let p := Path.parse target
        follow d creating left (folderOnly || (rest.isEmpty && p.folderOnly)) (p.origin folder)
          (p.names ++ rest) = .ok place := by
  constructor
  · intro ends
    rw [follow] at ends
    split at ends
    · cases ends
    · rename_i i gets
      split at ends
      · cases ends
      · rename_i fits
        cases ends
        refine .inl ⟨goes_of_leg gets, ?_⟩
        rintro _ ⟨⟩ asked
        simpa [asked] using fits
    · rename_i place' elsewhere gets
      cases ends
      refine .inl ⟨goes_of_leg gets, ?_⟩
      rintro i rfl
      exact absurd rfl (elsewhere i)
    · rename_i folder target rest gets
      split at ends
      · cases ends
      · rename_i left
        exact .inr ⟨left, folder, target, rest, rfl, goes_of_leg gets, ends⟩
  · rintro (⟨goes, fits⟩ | ⟨left, folder, target, rest, rfl, goes, ends⟩)
    · rw [follow, leg_of_goes goes]
      cases place with
      | vacant => rfl
      | node i =>
        cases asked : folderOnly with
        | false => rfl
        | true => simp only [fits i rfl asked, Bool.not_true, Bool.and_false]; rfl
    · rw [follow, leg_of_goes goes]
      exact ends

theorem follow_vacant {creating : Bool} {budget : Nat} {folderOnly : Bool} {here folder : NodeId}
    {names : List Name} {name : Name}
    (ends : follow d creating budget folderOnly here names = .ok (.vacant folder name)) :
    ∃ parent entries, d.node? folder = some (.folder parent entries) ∧
      entries.lookup name = none := by
  induction budget generalizing folderOnly here names with
  | zero =>
    rcases follow_eq_ok.mp ends with ⟨goes, -⟩ | ⟨_, _, _, _, none, -⟩
    · exact (goes.vacant_spec rfl).2
    · cases none
  | succ budget ih =>
    rcases follow_eq_ok.mp ends with ⟨goes, -⟩ | ⟨_, _, _, _, some, -, later⟩
    · exact (goes.vacant_spec rfl).2
    · cases some
      exact ih later

theorem resolve_vacant {creating : Bool} {folder : NodeId} {name : Name}
    (leads : d.resolve creating path = .ok (.vacant folder name)) :
    ∃ parent entries, d.node? folder = some (.folder parent entries) ∧
      entries.lookup name = none := by
  unfold resolve at leads
  split at leads
  · cases leads
  · exact follow_vacant leads

end StreamBroker.Disk
