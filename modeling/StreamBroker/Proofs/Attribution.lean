import StreamBroker.Proofs.Reading
import StreamBroker.Proofs.Reports

/-!
# Attribution

What the text of a warning tells of the operation that it was given for. Main statements:

* **handed in** — a run hands in the warnings of its complaints, whatever sinks they go to
  (`run_handed`); each belongs to one operation at its turn (`mem_handedIn`);
* **sentences** — refusals of one code with one sentence are alike: the same but for the
  generation of the handle, which no sentence shows (`Refusal.alike_of_message`);
* **warnings** — what a run raises has names that its sentence closes (`complaint_legible`), so
  the warning can be read back from its text (`Operation.warning_plain`).

`rendered_unambiguous` puts them together.
-/

namespace StreamBroker

/-! ## Handed in -/

/-- The diagnostic that an event hands to a sink, if it does. -/
def Event.handed? : Event → Option Diagnostic
  | .recorded d | .note (.diagnostic d) => some d
  | .call .. | .query _ | .note _ => none

/-- The diagnostics handed to any sink, in order. -/
def handedIn (events : List Event) : List Diagnostic := events.filterMap Event.handed?

theorem handedIn_append (before after : List Event) :
    handedIn (before ++ after) = handedIn before ++ handedIn after :=
  List.filterMap_append

theorem handedIn_reportsIn (events : List Event) :
    handedIn (reportsIn events) = handedIn events := by
  have both : ∀ e : Event, (if e.reports then e.handed? else none) = e.handed? := by
    intro e
    cases e with
    | note n => cases n <;> rfl
    | recorded | call | query => rfl
  unfold handedIn reportsIn
  rw [List.filterMap_filter]
  exact List.filterMap_congr fun e _ => both e

namespace Broker

variable {b : Broker}

theorem step_handed (b : Broker) (op : Operation) :
    handedIn (b.step op).events = ((b.complaint? op).map op.warning).toList := by
  rw [← handedIn_reportsIn, step_reports, emitted]
  cases b.complaint? op with
  | none => rfl
  | some refusal =>
    show handedIn [b.sink.emit (op.warning refusal)] = [op.warning refusal]
    cases b.sink <;> rfl

/-- A run hands in the warnings of its complaints, in order, and nothing else. -/
theorem run_handed (ops : List Operation) :
    handedIn (b.run ops).events = b.complaints ops := by
  induction ops generalizing b with
  | nil => rfl
  | cons op rest ih =>
    show handedIn ((b.step op).events ++ _) = _
    rw [handedIn_append, step_handed, ih]
    rfl

/-- An operation of a run is refused at its turn, with a report. -/
def Raises (b : Broker) (ops : List Operation) (op : Operation) (refusal : Refusal) : Prop :=
  ∃ before after, ops = before ++ op :: after ∧
    (b.run before).state.complaint? op = some refusal

theorem mem_handedIn {ops : List Operation} {d : Diagnostic} :
    d ∈ handedIn (b.run ops).events ↔
      ∃ op refusal, b.Raises ops op refusal ∧ d = op.warning refusal := by
  rw [run_handed, mem_complaints]
  constructor
  · rintro ⟨before, op, after, refusal, parts, complaint, rfl⟩
    exact ⟨op, refusal, ⟨before, after, parts, complaint⟩, rfl⟩
  · rintro ⟨op, refusal, ⟨before, after, parts, complaint⟩, rfl⟩
    exact ⟨before, op, after, refusal, parts, complaint, rfl⟩

end Broker

/-! ## Sentences -/

theorem Tag.ofName?_name (t : Tag) : Tag.ofName? t.name = some t := by
  cases t <;> decide

theorem Tag.name_inj {t t' : Tag} (same : t.name = t'.name) : t = t' := by
  have found := congrArg Tag.ofName? same
  rw [ofName?_name, ofName?_name] at found
  exact Option.some.inj found

theorem Tag.oneLine_name (t : Tag) : OneLine t.name := by
  cases t <;> decide

namespace Handle

theorem text_congr {h h' : Handle} (index : h.index = h'.index) : h.text = h'.text := by
  unfold text slot
  rw [index]

theorem text_inj {h h' : Handle} (same : h.text = h'.text) : h.index = h'.index := by
  have digits : Nat.toDigits 10 h.slot = Nat.toDigits 10 h'.slot := by
    rw [← Nat.toList_repr, ← Nat.toList_repr]
    exact congrArg String.toList same
  have slots := congrArg (Nat.ofDigitChars 10 · 0) digits
  simp only [Nat.ofDigitChars_ten_toDigits] at slots
  exact UInt32.toNat_inj.mp slots

theorem oneLine_text (h : Handle) : OneLine h.text := by
  intro broken
  rw [text, Nat.toList_repr] at broken
  have digit := Nat.isDigit_of_mem_toDigits (by decide) (by decide) broken
  exact absurd digit (by decide)

end Handle

namespace Refusal

open Diagnostic

theorem wanted_inj {t t' : Tag} (same : wanted t = wanted t') : t = t' := by
  cases t <;> cases t' <;> first | rfl | exact absurd same (by decide)

/-- What a message asks for holds neither the comma that closes it nor a line break. -/
theorem wanted_clean (t : Tag) : ',' ∉ (wanted t).toList ∧ OneLine (wanted t) := by
  cases t <;> decide

/-- The names in a refusal do not hold what closes them in its sentence, or a line break. -/
def Legible : Refusal → Prop
  | .wrongTag operation parameter .. =>
    ('(' ∉ operation.toList ∧ OneLine operation) ∧ '\'' ∉ parameter.toList ∧ OneLine parameter
  | .notLive _ | .guarded _ => True

/-- Two refusals are the same but for the generation of the handle. -/
inductive Alike : Refusal → Refusal → Prop
  | wrongTag (operation parameter : String) (expected actual : Tag) :
    Alike (.wrongTag operation parameter expected actual)
      (.wrongTag operation parameter expected actual)
  | notLive {h h' : Handle} (index : h.index = h'.index) : Alike (.notLive h) (.notLive h')
  | guarded {h h' : Handle} (index : h.index = h'.index) : Alike (.guarded h) (.guarded h')

theorem Alike.cause_eq {r r' : Refusal} (alike : r.Alike r') : r.cause = r'.cause := by
  cases alike with
  | wrongTag => rfl
  | notLive index => exact congrArg Diagnostic.Cause.notLive (Handle.text_congr index)
  | guarded index => exact congrArg Diagnostic.Cause.notValid (Handle.text_congr index)

theorem Alike.help?_eq {r r' : Refusal} (alike : r.Alike r') : r.help? = r'.help? := by
  cases alike <;> rfl

theorem message_wrongTag (operation parameter : String) (expected actual : Tag) :
    (wrongTag operation parameter expected actual).message =
      "Invalid arguments supplied for " ++ operation ++ "(): '" ++ parameter ++ "' must be "
        ++ wanted expected ++ ", got " ++ actual.name := rfl

theorem message_notLive (h : Handle) :
    (notLive h).message = h.text ++ " is not a live stream resource" := by
  show "" ++ h.text ++ " is not a live stream resource" = _
  rw [String.empty_append]

theorem message_guarded (h : Handle) :
    (guarded h).message = h.text ++ " is not a valid stream resource" := by
  show "" ++ h.text ++ " is not a valid stream resource" = _
  rw [String.empty_append]

/-- The sentence of a wrong argument, with the character that closes each part set apart. -/
theorem toList_message_wrongTag (operation parameter : String) (expected actual : Tag) :
    (wrongTag operation parameter expected actual).message.toList =
      "Invalid arguments supplied for ".toList ++ (operation.toList ++ '(' ::
        ("): '".toList ++ (parameter.toList ++ '\'' ::
          (" must be ".toList ++ ((wanted expected).toList ++ ',' ::
            (" got ".toList ++ actual.name.toList)))))) := by
  rw [message_wrongTag]
  simp

theorem oneLine_message {r : Refusal} (legible : r.Legible) : OneLine r.message := by
  cases r with
  | wrongTag operation parameter expected actual =>
    obtain ⟨⟨_, operation⟩, _, parameter⟩ := legible
    rw [message_wrongTag]
    simp only [oneLine_append]
    exact ⟨⟨⟨⟨⟨⟨⟨by decide, operation⟩, by decide⟩, parameter⟩, by decide⟩,
      (wanted_clean expected).2⟩, by decide⟩, actual.oneLine_name⟩
  | notLive h =>
    rw [message_notLive, oneLine_append]
    exact ⟨h.oneLine_text, by decide⟩
  | guarded h =>
    rw [message_guarded, oneLine_append]
    exact ⟨h.oneLine_text, by decide⟩

/-- The sentence of a wrong argument tells every part of it. -/
theorem wrongTag_of_message {operation operation' parameter parameter' : String}
    {expected expected' actual actual' : Tag}
    (legible : (wrongTag operation parameter expected actual).Legible)
    (legible' : (wrongTag operation' parameter' expected' actual').Legible)
    (same : (wrongTag operation parameter expected actual).message =
      (wrongTag operation' parameter' expected' actual').message) :
    operation = operation' ∧ parameter = parameter' ∧ expected = expected' ∧
      actual = actual' := by
  have texts := congrArg String.toList same
  rw [toList_message_wrongTag, toList_message_wrongTag] at texts
  -- Behind the wording that both begin with, a cut takes the next part off.
  obtain ⟨operations, texts⟩ :=
    cut_inj legible.1.1 legible'.1.1 (List.append_cancel_left texts)
  obtain ⟨parameters, texts⟩ :=
    cut_inj legible.2.1 legible'.2.1 (List.append_cancel_left texts)
  obtain ⟨wants, texts⟩ :=
    cut_inj (wanted_clean expected).1 (wanted_clean expected').1 (List.append_cancel_left texts)
  have names := List.append_cancel_left texts
  exact ⟨String.toList_inj.mp operations, String.toList_inj.mp parameters,
    wanted_inj (String.toList_inj.mp wants), Tag.name_inj (String.toList_inj.mp names)⟩

/-- Refusals of one code with one sentence are alike. -/
theorem alike_of_message {r r' : Refusal} (legible : r.Legible) (legible' : r'.Legible)
    (code : r.cause.code = r'.cause.code) (same : r.message = r'.message) : r.Alike r' := by
  have others : Code.invalidArguments ≠ Code.notLive ∧ Code.invalidArguments ≠ Code.guarded ∧
      Code.notLive ≠ Code.guarded := by decide
  -- The codes tell the kinds of refusals apart, so that two of one kind are left to compare.
  cases r with
  | wrongTag =>
    cases r' with
    | wrongTag =>
      obtain ⟨rfl, rfl, rfl, rfl⟩ := wrongTag_of_message legible legible' same
      exact .wrongTag ..
    | notLive => exact absurd code others.1
    | guarded => exact absurd code others.2.1
  | notLive h =>
    cases r' with
    | notLive h' =>
      rw [message_notLive, message_notLive] at same
      exact .notLive (Handle.text_inj ((String.append_left_inj _).mp same))
    | wrongTag => exact absurd code others.1.symm
    | guarded => exact absurd code others.2.2
  | guarded h =>
    cases r' with
    | guarded h' =>
      rw [message_guarded, message_guarded] at same
      exact .guarded (Handle.text_inj ((String.append_left_inj _).mp same))
    | wrongTag => exact absurd code others.2.1.symm
    | notLive => exact absurd code others.2.2.symm

end Refusal

/-! ## Warnings -/

theorem Diagnostic.Cause.code_clean (cause : Diagnostic.Cause) :
    ']' ∉ cause.code.toList ∧ OneLine cause.code := by
  have each : ∀ code ∈ [Code.invalidArguments, Code.notLive, Code.guarded],
      ']' ∉ code.toList ∧ OneLine code := by decide
  cases cause <;> exact each _ (by simp [code])

theorem Operation.title_clean {op : Operation} {title : String} (titled : op.title? = some title) :
    '(' ∉ title.toList ∧ OneLine title := by
  cases op <;> cases titled <;> decide

/-- The warning of a legible refusal can be read back from its text. -/
theorem Operation.warning_plain {refusal : Refusal} (op : Operation) (legible : refusal.Legible) :
    (op.warning refusal).Plain where
  message := Refusal.oneLine_message legible
  code := by
    rintro code ⟨⟩
    exact refusal.cause.code_clean
  operation := fun _ titled => title_clean titled
  help := by
    intro help given
    cases refusal <;> cases given
    decide

/-- The lines of a warning: one, and a line of help if the stream is guarded. -/
theorem Operation.warning_lines (op : Operation) (refusal : Refusal) :
    (op.warning refusal).lines = (op.warning refusal).headLine ::
      match refusal with
      | .guarded _ => [Diagnostic.helpLead ++ Refusal.guardedHelp.toList]
      | .wrongTag .. | .notLive _ => [] := by
  cases refusal <;> rfl

/-- Two warnings have one text if they are given under one name for refusals that are alike. -/
theorem Operation.render_warning_eq_iff {op op' : Operation} {refusal refusal' : Refusal}
    (legible : refusal.Legible) (legible' : refusal'.Legible) :
    (op.warning refusal).render = (op'.warning refusal').render ↔
      op.title? = op'.title? ∧ refusal.Alike refusal' := by
  constructor
  · intro same
    have whole := Diagnostic.render_inj (op.warning_plain legible) (op'.warning_plain legible') same
    have codes : some refusal.cause.code = some refusal'.cause.code :=
      congrArg Diagnostic.code whole
    exact ⟨congrArg Diagnostic.operation whole, Refusal.alike_of_message legible legible'
      (Option.some.inj codes) (congrArg Diagnostic.message whole)⟩
  · rintro ⟨titles, alike⟩
    unfold warning Refusal.message
    rw [titles, alike.cause_eq, alike.help?_eq]

namespace Broker

variable {b : Broker} {ops : List Operation} {op : Operation} {refusal : Refusal}

theorem mistaken_legible {operation : String} {stream : Value}
    (clean : '(' ∉ operation.toList ∧ OneLine operation)
    (mistaken : mistaken? operation stream = some refusal) : refusal.Legible := by
  unfold mistaken? at mistaken
  split at mistaken
  · cases mistaken
  · cases mistaken
    exact ⟨clean, by decide⟩

theorem mismatch_legible {stream data : Value} (mismatch : mismatch? stream data = some refusal) :
    refusal.Legible := by
  have clean : '(' ∉ writeName.toList ∧ OneLine writeName := by decide
  unfold mismatch? at mismatch
  split at mismatch
  · cases mismatch
    exact ⟨clean, by decide⟩
  · exact mistaken_legible clean mismatch

/-- What an operation complains of is told in names that its sentence closes. -/
theorem complaint_legible (complaint : b.complaint? op = some refusal) : refusal.Legible := by
  have ended : '(' ∉ atEndName.toList ∧ OneLine atEndName := by decide
  have closed : '(' ∉ closeName.toList ∧ OneLine closeName := by decide
  cases op with
  | write stream data => exact mismatch_legible complaint
  | discard stream data =>
    have complaint : (if b.config.warnOnDiscard then mismatch? stream data else none) =
      some refusal := complaint
    split at complaint
    · exact mismatch_legible complaint
    · cases complaint
  | atEnd stream => exact mistaken_legible ended complaint
  | close stream =>
    cases stream with
    | resource h =>
      simp only [complaint?] at complaint
      split at complaint
      · cases complaint
        trivial
      · split at complaint
        · cases complaint
          trivial
        · cases complaint
    | null | bool | int | float | string => exact mistaken_legible closed complaint
  | _ => cases complaint

theorem Raises.legible (raised : b.Raises ops op refusal) : refusal.Legible := by
  obtain ⟨before, after, parts, complaint⟩ := raised
  exact complaint_legible complaint

/-- The text of diagnostics tells which they are, and that of warnings what they were given for.

* A list of diagnostics whose parts do not hold what closes them is read back from its text, so
  no two such lists share one.
* What a run hands in, to any sink, are the warnings of the refusals that it raises.
* Each of those is such a diagnostic. Its text is one line, and one of help if and only if the
  stream was guarded.
* The warnings of any two refusals, be they of different runs, have one text if and only if they
  are given under one name and the refusals are the same but for the generation of the handle. -/
theorem rendered_unambiguous :
    (∀ ds : List Diagnostic, (∀ d ∈ ds, d.Plain) →
      Diagnostic.readAll (Diagnostic.renderAll ds) = some ds) ∧
    (∀ ds ds' : List Diagnostic, (∀ d ∈ ds, d.Plain) → (∀ d ∈ ds', d.Plain) →
      Diagnostic.renderAll ds = Diagnostic.renderAll ds' → ds = ds') ∧
    (∀ (b : Broker) (ops : List Operation) (d : Diagnostic),
      d ∈ handedIn (b.run ops).events ↔
        ∃ op refusal, b.Raises ops op refusal ∧ d = op.warning refusal) ∧
    (∀ (b : Broker) (ops : List Operation) (op : Operation) (refusal : Refusal),
      b.Raises ops op refusal →
      let d := op.warning refusal
      d.Plain ∧ d.render.toList.splitOn '\n' = d.headLine ::
        match refusal with
        | .guarded _ => [Diagnostic.helpLead ++ Refusal.guardedHelp.toList]
        | .wrongTag .. | .notLive _ => []) ∧
    ∀ (b b' : Broker) (ops ops' : List Operation) (op op' : Operation)
      (refusal refusal' : Refusal), b.Raises ops op refusal → b'.Raises ops' op' refusal' →
      ((op.warning refusal).render = (op'.warning refusal').render ↔
        op.title? = op'.title? ∧ refusal.Alike refusal') := by
  refine ⟨fun ds plain => Diagnostic.readAll_renderAll plain,
    fun ds ds' plain plain' same => Diagnostic.renderAll_inj plain plain' same,
    fun b ops d => mem_handedIn, ?_, ?_⟩
  · intro b ops op refusal raised d
    have plain : d.Plain := op.warning_plain raised.legible
    exact ⟨plain, (Diagnostic.splitOn_render plain).trans (op.warning_lines refusal)⟩
  · intro b b' ops ops' op op' refusal refusal' raised raised'
    exact Operation.render_warning_eq_iff raised.legible raised'.legible

/-- Diagnostics whose parts hold what leads or closes other parts. -/
def puzzling : List Diagnostic :=
  [{ severity := .error, message := " [W0001] in stream_close(): " },
    { severity := .warning, message := "Error:   = help: ", code := some "", help := some "" },
    { severity := .warning, message := "", code := some " in (): ", operation := some "] [",
      help := some "  = help: Warning: " }]

/-- One slot asked for in two generations. -/
def outdated : List Operation := [.close (.resource ⟨1, 0⟩), .close (.resource ⟨1, 7⟩)]

theorem rendered_unambiguous_outdated :
    let start := Broker.ofConfig {} .disk .log (.ofDisk .empty)
    let first := Operation.close (.resource ⟨1, 0⟩)
    let second := Operation.close (.resource ⟨1, 7⟩)
    let early := Refusal.notLive ⟨1, 0⟩
    let late := Refusal.notLive ⟨1, 7⟩
    (∀ d ∈ puzzling, d.Plain) ∧
    Diagnostic.readAll (Diagnostic.renderAll puzzling) = some puzzling ∧
    start.Raises outdated first early ∧ start.Raises outdated second late ∧
    early ≠ late ∧ (first.warning early).render = (second.warning late).render ∧
    (second.warning late).render.toList.splitOn '\n' = [(second.warning late).headLine] ∧
    second.warning late ∈ handedIn (start.run outdated).events := by
  intro start first second early late
  have plain : ∀ d ∈ puzzling, d.Plain := by decide
  have before : start.Raises outdated first early := ⟨[], [second], rfl, rfl⟩
  have after : start.Raises outdated second late := ⟨[first], [], rfl, rfl⟩
  obtain ⟨reads, _, handed, lines, texts⟩ := rendered_unambiguous
  exact ⟨plain, reads puzzling plain, before, after, by decide,
    (texts _ _ _ _ _ _ _ _ before after).mpr ⟨rfl, .notLive rfl⟩,
    (lines _ _ _ _ after).2, (handed _ _ _).mpr ⟨_, _, after, rfl⟩⟩

end Broker

end StreamBroker
