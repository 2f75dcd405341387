import Mathlib.Data.List.Basic
import StreamBroker.Diagnostic

/-!
# Reading diagnostics back

The text of some diagnostics, read line by line into the diagnostics again. Main statements:

* **lines** — a diagnostic is rendered as a line of its own and one for help, if it has any
  (`Diagnostic.lines`), and the lines of a text can be told apart if no part of it breaks one
  (`splitOn_renderAll`);
* **parts** — a part ends at the first character that closes it, so it is read back if that is
  not among its own (`readPart_part`), as is the whole line (`readHead_headLine`);
* **texts** — reading gives back every list of diagnostics whose parts keep to this
  (`readAll_renderAll`).
-/

namespace StreamBroker

/-- What stands before the first `stop`, and what comes after it. -/
def cut (stop : Char) (text : List Char) : List Char × List Char :=
  (text.takeWhile (· ≠ stop), (text.dropWhile (· ≠ stop)).tail)

theorem cut_append {stop : Char} {before : List Char} (clean : stop ∉ before)
    (after : List Char) : cut stop (before ++ stop :: after) = (before, after) := by
  have others : ∀ c ∈ before, decide (c ≠ stop) = true := by
    intro c here
    rw [decide_eq_true_eq]
    rintro rfl
    exact clean here
  unfold cut
  rw [List.takeWhile_append_of_pos others, List.dropWhile_append_of_pos others]
  simp

/-- What a character closes can be told from what comes after it. -/
theorem cut_inj {stop : Char} {before before' after after' : List Char} (clean : stop ∉ before)
    (clean' : stop ∉ before') (same : before ++ stop :: after = before' ++ stop :: after') :
    before = before' ∧ after = after' := by
  have parts := congrArg (cut stop) same
  rw [cut_append clean, cut_append clean'] at parts
  exact Prod.mk.inj parts

theorem intercalate_append {α : Type} (gap : List α) {before after : List (List α)}
    (any : before ≠ []) (more : after ≠ []) :
    gap.intercalate (before ++ after) =
      gap.intercalate before ++ gap ++ gap.intercalate after := by
  induction before with
  | nil => exact absurd rfl any
  | cons line rest ih =>
    cases rest with
    | nil =>
      rw [List.intercalate_singleton]
      exact List.intercalate_cons_of_ne_nil more
    | cons next rest =>
      have both : next :: rest ++ after ≠ [] := List.cons_ne_nil _ _
      rw [List.cons_append, List.intercalate_cons_of_ne_nil both, ih (List.cons_ne_nil _ _),
        List.intercalate_cons_cons]
      simp only [List.append_assoc]

theorem intercalate_flatMap {α β : Type} (gap : List α) {pieces : β → List (List α)}
    (any : ∀ x, pieces x ≠ []) (xs : List β) :
    gap.intercalate (xs.flatMap pieces) =
      gap.intercalate (xs.map fun x => gap.intercalate (pieces x)) := by
  induction xs with
  | nil => rfl
  | cons x rest ih =>
    cases rest with
    | nil => simp
    | cons next rest =>
      have more : (next :: rest).flatMap pieces ≠ [] := by simp [any next]
      rw [List.flatMap_cons, intercalate_append gap (any x) more, ih]
      exact List.intercalate_cons_cons.symm

/-- A text that does not break the line. -/
def OneLine (text : String) : Prop := '\n' ∉ text.toList

instance (text : String) : Decidable (OneLine text) :=
  inferInstanceAs (Decidable ('\n' ∉ text.toList))

theorem oneLine_append {a b : String} : OneLine (a ++ b) ↔ OneLine a ∧ OneLine b := by
  simp [OneLine, not_or]

namespace Diagnostic

variable {d : Diagnostic} {ds : List Diagnostic}

/-- No part of a diagnostic breaks its line, or holds the character that closes it. -/
structure Plain (d : Diagnostic) : Prop where
  message : OneLine d.message
  code : ∀ code, d.code = some code → ']' ∉ code.toList ∧ OneLine code
  operation : ∀ operation, d.operation = some operation →
    '(' ∉ operation.toList ∧ OneLine operation
  help : ∀ help, d.help = some help → OneLine help

theorem plain_iff : d.Plain ↔ OneLine d.message ∧
    (∀ code ∈ d.code, ']' ∉ code.toList ∧ OneLine code) ∧
    (∀ operation ∈ d.operation, '(' ∉ operation.toList ∧ OneLine operation) ∧
    ∀ help ∈ d.help, OneLine help :=
  ⟨fun plain => ⟨plain.message, plain.code, plain.operation, plain.help⟩,
    fun ⟨message, code, operation, help⟩ => ⟨message, code, operation, help⟩⟩

instance (d : Diagnostic) : Decidable d.Plain := decidable_of_iff _ plain_iff.symm

/-! ## Lines -/

/-- The line of a diagnostic. -/
def headLine (d : Diagnostic) : List Char :=
  (d.severity.label ++ codePart d.code ++ operationPart d.operation ++ ": " ++ d.message).toList

/-- What a line of help begins with. -/
def helpLead : List Char := "  = help: ".toList

/-- All lines of a diagnostic. -/
def lines (d : Diagnostic) : List (List Char) :=
  d.headLine :: (d.help.map fun help => helpLead ++ help.toList).toList

theorem lines_ne_nil (d : Diagnostic) : d.lines ≠ [] := List.cons_ne_nil _ _

theorem toList_render (d : Diagnostic) : d.render.toList = ['\n'].intercalate d.lines := by
  unfold render lines
  rw [String.toList_append]
  cases d.help with
  | none =>
    show _ ++ [] = ['\n'].intercalate [d.headLine]
    rw [List.intercalate_singleton, List.append_nil]
    rfl
  | some help =>
    have whole : helpPart (some help) = "\n" ++ ("  = help: " ++ help) := by
      rw [← String.append_assoc]
      rfl
    have broken : (helpPart (some help)).toList = '\n' :: (helpLead ++ help.toList) := by
      rw [whole, String.toList_append, String.toList_append]
      rfl
    show _ = ['\n'].intercalate [d.headLine, helpLead ++ help.toList]
    rw [broken, List.intercalate_cons_cons, List.intercalate_singleton, List.append_assoc]
    rfl

/-- The text of some diagnostics has the lines of each, in order. -/
theorem toList_renderAll (ds : List Diagnostic) :
    (renderAll ds).toList = ['\n'].intercalate (ds.flatMap lines) := by
  unfold renderAll
  rw [String.toList_intercalate, List.map_map, intercalate_flatMap _ lines_ne_nil]
  exact congrArg _ (List.map_congr_left fun d _ => d.toList_render)

/-- The part of a line between an opening and what closes it, a stop and perhaps more. -/
def part (opening : List Char) (stop : Char) (more : List Char) : Option String → List Char
  | none => []
  | some text => opening ++ text.toList ++ stop :: more

theorem codePart_some (code : String) : codePart (some code) = " [" ++ code ++ "]" := rfl

theorem operationPart_some (operation : String) :
    operationPart (some operation) = " in " ++ operation ++ "()" := rfl

theorem toList_codePart (code : Option String) :
    (codePart code).toList = part " [".toList ']' [] code := by
  cases code with
  | none => rfl
  | some code =>
    rw [codePart_some]
    simp [part]

theorem toList_operationPart (operation : Option String) :
    (operationPart operation).toList = part " in ".toList '(' [')'] operation := by
  cases operation with
  | none => rfl
  | some operation =>
    rw [operationPart_some]
    simp [part]

theorem headLine_eq (d : Diagnostic) :
    d.headLine = d.severity.label.toList ++ (part " [".toList ']' [] d.code ++
      (part " in ".toList '(' [')'] d.operation ++ (": ".toList ++ d.message.toList))) := by
  unfold headLine
  simp only [String.toList_append, toList_codePart, toList_operationPart, List.append_assoc]

theorem oneLine_headLine (plain : d.Plain) : '\n' ∉ d.headLine := by
  have label : OneLine d.severity.label := by cases d.severity <;> decide
  have code : OneLine (codePart d.code) := by
    cases here : d.code with
    | none => decide
    | some code =>
      rw [codePart_some, oneLine_append, oneLine_append]
      exact ⟨⟨by decide, (plain.code code here).2⟩, by decide⟩
  have operation : OneLine (operationPart d.operation) := by
    cases here : d.operation with
    | none => decide
    | some operation =>
      rw [operationPart_some, oneLine_append, oneLine_append]
      exact ⟨⟨by decide, (plain.operation operation here).2⟩, by decide⟩
  show OneLine (_ ++ _ ++ _ ++ _ ++ _)
  simp only [oneLine_append]
  exact ⟨⟨⟨⟨label, code⟩, operation⟩, by decide⟩, plain.message⟩

/-- No line of a plain diagnostic is broken. -/
theorem oneLine_lines (plain : d.Plain) : ∀ line ∈ d.lines, '\n' ∉ line := by
  intro line here
  rcases List.mem_cons.mp here with rfl | helps
  · exact oneLine_headLine plain
  · obtain ⟨help, given, rfl⟩ : ∃ help, d.help = some help ∧ helpLead ++ help.toList = line := by
      simpa using helps
    exact List.not_mem_append (by decide) (plain.help help given)

/-- The lines of a text are those of its diagnostics. -/
theorem splitOn_renderAll (plain : ∀ d ∈ ds, d.Plain) (any : ds ≠ []) :
    (renderAll ds).toList.splitOn '\n' = ds.flatMap lines := by
  rw [toList_renderAll]
  refine List.splitOn_intercalate '\n' ?_ ?_
  · intro line here
    obtain ⟨d, among, here⟩ := List.mem_flatMap.mp here
    exact oneLine_lines (plain d among) line here
  · cases ds with
    | nil => exact absurd rfl any
    | cons d rest => exact List.cons_ne_nil _ _

/-! ## Parts -/

/-- Reads the part between an opening and what closes it, if it is there. -/
def readPart (opening : List Char) (stop : Char) (more : List Char) (line : List Char) :
    Option String × List Char :=
  match line.dropPrefix? opening with
  | none => (none, line)
  | some line =>
    let (text, rest) := cut stop line
    (some (String.ofList text), rest.drop more.length)

/-- A part is read back, and an absent one is if what comes next does not look like one. -/
theorem readPart_part {opening more rest : List Char} {stop : Char} {text : Option String}
    (clean : ∀ t, text = some t → stop ∉ t.toList) (ends : rest.dropPrefix? opening = none) :
    readPart opening stop more (part opening stop more text ++ rest) = (text, rest) := by
  unfold readPart
  cases text with
  | none =>
    rw [part, List.nil_append, ends]
  | some t =>
    have opened : (part opening stop more (some t) ++ rest).dropPrefix? opening =
        some (t.toList ++ stop :: (more ++ rest)) := by
      rw [part, List.append_assoc, List.append_assoc]
      exact List.dropPrefix?_append_of_beq _ (beq_self_eq_true opening)
    rw [opened]
    simp only [cut_append (clean t rfl), String.ofList_toList, List.drop_left]

def readSeverity (line : List Char) : Option (Severity × List Char) :=
  match line.dropPrefix? Severity.error.label.toList with
  | some rest => some (.error, rest)
  | none => (line.dropPrefix? Severity.warning.label.toList).map fun rest => (.warning, rest)

theorem readSeverity_label (severity : Severity) (rest : List Char) :
    readSeverity (severity.label.toList ++ rest) = some (severity, rest) := by
  have found : ∀ lead : List Char, (lead ++ rest).dropPrefix? lead = some rest :=
    fun lead => List.dropPrefix?_append_of_beq rest (beq_self_eq_true lead)
  unfold readSeverity
  cases severity with
  | error => rw [found]
  | warning =>
    have other : (Severity.warning.label.toList ++ rest).dropPrefix? Severity.error.label.toList =
        none := rfl
    rw [other, found]
    rfl

/-- Reads the line of a diagnostic; the help comes on another. -/
def readHead (line : List Char) : Option Diagnostic := do
  let (severity, rest) ← readSeverity line
  let (code, rest) := readPart " [".toList ']' [] rest
  let (operation, rest) := readPart " in ".toList '(' [')'] rest
  let message ← rest.dropPrefix? ": ".toList
  return { severity, message := String.ofList message, code, operation }

theorem readHead_headLine (plain : d.Plain) :
    readHead d.headLine = some { d with help := none } := by
  have told : (": ".toList ++ d.message.toList).dropPrefix? ": ".toList =
      some d.message.toList :=
    List.dropPrefix?_append_of_beq _ (beq_self_eq_true _)
  have noOperation : (": ".toList ++ d.message.toList).dropPrefix? " in ".toList = none := rfl
  have noCode : (part " in ".toList '(' [')'] d.operation ++
      (": ".toList ++ d.message.toList)).dropPrefix? " [".toList = none := by
    cases d.operation <;> rfl
  rw [headLine_eq]
  simp only [readHead, readSeverity_label, Option.bind_eq_bind, Option.bind_some,
    readPart_part (fun t here => (plain.code t here).1) noCode,
    readPart_part (fun t here => (plain.operation t here).1) noOperation, told,
    String.ofList_toList, Option.pure_def]

/-! ## Texts -/

/-- Reads the lines of some diagnostics. A line of help belongs to the one before it. -/
def readLines : List (List Char) → Option (List Diagnostic)
  | [] => some []
  | [line] => (readHead line).map fun d => [d]
  | line :: next :: rest =>
    match next.dropPrefix? helpLead with
    | some help => do
      let d ← readHead line
      let ds ← readLines rest
      return { d with help := some (String.ofList help) } :: ds
    | none => do
      let d ← readHead line
      let ds ← readLines (next :: rest)
      return d :: ds

/-- Reads the text of some diagnostics. -/
def readAll (text : String) : Option (List Diagnostic) :=
  if text = "" then some [] else readLines (text.toList.splitOn '\n')

theorem headLine_noHelp (d : Diagnostic) : d.headLine.dropPrefix? helpLead = none := by
  rw [headLine_eq]
  cases d.severity <;> rfl

theorem readLines_lines (plain : ∀ d ∈ ds, d.Plain) : readLines (ds.flatMap lines) = some ds := by
  induction ds with
  | nil => rfl
  | cons d rest ih =>
    obtain ⟨first, others⟩ := List.forall_mem_cons.mp plain
    have read := readHead_headLine first
    have later := ih others
    rw [List.flatMap_cons]
    cases helps : d.help with
    | some help =>
      have lead : (helpLead ++ help.toList).dropPrefix? helpLead = some help.toList :=
        List.dropPrefix?_append_of_beq _ (beq_self_eq_true _)
      have lines_eq : d.lines = [d.headLine, helpLead ++ help.toList] := by
        rw [lines, helps]
        rfl
      rw [lines_eq]
      show readLines (d.headLine :: (helpLead ++ help.toList) :: rest.flatMap lines) = _
      rw [readLines, lead]
      simp only [read, later, Option.bind_eq_bind, Option.bind_some, String.ofList_toList,
        Option.pure_def, ← helps]
    | none =>
      have lines_eq : d.lines = [d.headLine] := by
        rw [lines, helps]
        rfl
      have same : { d with help := none } = d := by rw [← helps]
      rw [same] at read
      rw [lines_eq]
      cases rest with
      | nil =>
        show (readHead d.headLine).map _ = _
        rw [read]
        rfl
      | cons next more =>
        -- Whether a line has help is seen from the line after it, so that one is set apart here.
        have unled : next.headLine.dropPrefix? helpLead = none := next.headLine_noHelp
        have later : readLines (next.headLine :: (next.lines.tail ++ more.flatMap lines)) =
          some (next :: more) := later
        show readLines (d.headLine :: next.headLine :: (next.lines.tail ++ more.flatMap lines)) = _
        rw [readLines, unled]
        simp only [read, later, Option.bind_eq_bind, Option.bind_some, Option.pure_def]

theorem renderAll_ne_empty {rest : List Diagnostic} (plain : ∀ e ∈ d :: rest, e.Plain) :
    renderAll (d :: rest) ≠ "" := by
  intro nothing
  have all := splitOn_renderAll plain (List.cons_ne_nil d rest)
  rw [nothing] at all
  have bare : [] = d.headLine := (List.cons.inj all).1
  rw [headLine_eq] at bare
  cases severity : d.severity <;> rw [severity] at bare <;> cases bare

/-- The text of some diagnostics tells them all. -/
theorem readAll_renderAll (plain : ∀ d ∈ ds, d.Plain) : readAll (renderAll ds) = some ds := by
  cases ds with
  | nil => rfl
  | cons d rest =>
    unfold readAll
    rw [if_neg (renderAll_ne_empty plain), splitOn_renderAll plain (List.cons_ne_nil d rest),
      readLines_lines plain]

theorem renderAll_inj {ds' : List Diagnostic} (plain : ∀ d ∈ ds, d.Plain)
    (plain' : ∀ d ∈ ds', d.Plain) (same : renderAll ds = renderAll ds') : ds = ds' := by
  have read := congrArg readAll same
  rw [readAll_renderAll plain, readAll_renderAll plain'] at read
  exact Option.some.inj read

/-! ## A single diagnostic -/

theorem renderAll_singleton (d : Diagnostic) : renderAll [d] = d.render := by
  unfold renderAll
  rw [List.map_singleton, String.intercalate_singleton]

theorem splitOn_render (plain : d.Plain) : d.render.toList.splitOn '\n' = d.lines := by
  rw [← renderAll_singleton, splitOn_renderAll (List.forall_mem_singleton.mpr plain)
    (List.cons_ne_nil d []), List.flatMap_singleton]

theorem render_inj {d' : Diagnostic} (plain : d.Plain) (plain' : d'.Plain)
    (same : d.render = d'.render) : d = d' := by
  rw [← renderAll_singleton, ← renderAll_singleton d'] at same
  have both := renderAll_inj (List.forall_mem_singleton.mpr plain)
    (List.forall_mem_singleton.mpr plain') same
  exact List.singleton_inj.mp both

end Diagnostic

end StreamBroker
