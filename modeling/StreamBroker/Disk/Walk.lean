import StreamBroker.Disk.Basic

/-!
# Walking a path

Where a path leads to:

* **names** — `leg` goes from directory to directory, one name after the other,
  until the names are used up or a link is met;
* **links** — `follow` starts anew at a link's target, at most `linkBudget`
  times in one walk, so a loop of links ends in a fault;
* **creating** — a walk that may create its last name ends at the vacant place
  instead of failing, also when a link led there; with a trailing slash such a
  walk fails before the name is looked up.

Both are recursions on what is left: names, then links.
-/

namespace StreamBroker.Disk

/-- How many links one walk follows. -/
def linkBudget : Nat := 40

inductive Place
  | node (i : NodeId)
  /-- At a name that its directory does not have. -/
  | vacant (folder : NodeId) (name : Name)
deriving DecidableEq

/-- How far a walk gets without following a link. -/
inductive Leg
  /-- The names are used up. -/
  | arrived (place : Place)
  /-- A link in `folder`, with the names that come after it. -/
  | link (folder : NodeId) (target : Bytes) (rest : List Name)
deriving DecidableEq

/-- Goes through the names from a node up to the first link. -/
def leg (d : Disk) (creating folderOnly : Bool) : NodeId → List Name → Except Fault Leg
  | here, [] => .ok (.arrived (.node here))
  | here, name :: rest =>
    match d.node? here with
    | some (.folder parent _) =>
      if name = dot then leg d creating folderOnly here rest
      else if name = dotDot then leg d creating folderOnly parent rest
      -- a file cannot be made under a name with a slash after it, be there one or not
      else if creating && folderOnly && rest.isEmpty then .error .isDirectory
      else if maxNameLength < name.length then .error .nameTooLong
      else
        match d.child? here name with
        | none =>
          if creating && rest.isEmpty then .ok (.arrived (.vacant here name)) else .error .notFound
        | some next =>
          match d.node? next with
          | some (.link target) => .ok (.link here target rest)
          | _ => leg d creating folderOnly next rest
    | _ => .error .notDirectory

/-- The node that a path starts from, used in `here`. -/
def Path.origin (p : Path) (here : NodeId) : NodeId := if p.absolute then root else here

/-- Goes through the names from a node, and through the targets of the links on
the way. A trailing slash of a target counts only where the target ends the walk. -/
def follow (d : Disk) (creating : Bool) :
    Nat → Bool → NodeId → List Name → Except Fault Place
  | budget, folderOnly, here, names =>
    match leg d creating folderOnly here names with
    | .error fault => .error fault
    | .ok (.arrived (.node i)) =>
      if folderOnly && !d.isFolder i then .error .notDirectory else .ok (.node i)
    | .ok (.arrived place) => .ok place
    | .ok (.link folder target rest) =>
      -- the budget is looked at when there is a link to follow, not when it is used up
      match budget with
      | 0 => .error .tooManyLinks
      | budget + 1 =>
        let p := Path.parse target
        follow d creating budget (folderOnly || (rest.isEmpty && p.folderOnly)) (p.origin folder)
          (p.names ++ rest)

def resolve (d : Disk) (creating : Bool) (path : Bytes) : Except Fault Place :=
  match Path.read? path with
  | .error fault => .error fault
  | .ok p => follow d creating linkBudget p.folderOnly (p.origin home) p.names

end StreamBroker.Disk
