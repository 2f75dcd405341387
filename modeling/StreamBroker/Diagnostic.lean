/-!
# Diagnostics and their text

A diagnostic tells the host what went wrong: how severe it is, a message, and,
where known, a stable code, the operation that raised it and a line of help.

* **wording** — `Cause.message` holds the sentence of each cause and
  `Cause.code` its code;
* **layout** — `Diagnostic.render` writes one line, and a second one for help;
  a part that is absent leaves no trace. `render` of a list joins by line breaks.
-/

namespace StreamBroker

inductive Severity
  | error
  | warning
deriving DecidableEq

/-- The word that opens a rendered diagnostic. -/
def Severity.label : Severity → String
  | .error => "Error"
  | .warning => "Warning"

namespace Diagnostic

/-- What a diagnostic with a code is about. -/
inductive Cause
  | invalidArguments (operation parameter expected actual : String)
  /-- A handle that no longer names a held stream. -/
  | notLive (handle : String)
  /-- A handle whose stream refuses to be closed. -/
  | notValid (handle : String)
deriving DecidableEq

/-- The code of a wrong argument. -/
def Code.invalidArguments : String := "W0001"

/-- The code of a handle that names no held stream. -/
def Code.notLive : String := "W0002"

/-- The code of a handle whose stream may not be closed. -/
def Code.guarded : String := "W0003"

namespace Cause

def code : Cause → String
  | .invalidArguments .. => Code.invalidArguments
  | .notLive _ => Code.notLive
  | .notValid _ => Code.guarded

def message : Cause → String
  | .invalidArguments operation parameter expected actual =>
    s!"Invalid arguments supplied for {operation}(): '{parameter}' must be {expected}, got {actual}"
  | .notLive handle => s!"{handle} is not a live stream resource"
  | .notValid handle => s!"{handle} is not a valid stream resource"

end Cause

end Diagnostic

structure Diagnostic where
  severity : Severity
  message : String
  code : Option String := none
  operation : Option String := none
  help : Option String := none
deriving DecidableEq

namespace Diagnostic

/-- The diagnostic of a cause, with its code and sentence. -/
def ofCause (severity : Severity) (cause : Cause) : Diagnostic where
  severity := severity
  message := cause.message
  code := some cause.code

/-- Names the operation that raised it; a later name takes the place of an
earlier one. -/
def withOperation (d : Diagnostic) (operation : String) : Diagnostic :=
  { d with operation := some operation }

/-- Adds the line of help; a later line takes the place of an earlier one. -/
def withHelp (d : Diagnostic) (help : String) : Diagnostic :=
  { d with help := some help }

/-! ## Layout -/

/-- The code in brackets, after a blank. -/
def codePart : Option String → String
  | none => ""
  | some code => s!" [{code}]"

/-- The operation as a call without arguments, after the word "in". -/
def operationPart : Option String → String
  | none => ""
  | some operation => s!" in {operation}()"

/-- The help on a line of its own. -/
def helpPart : Option String → String
  | none => ""
  | some help => s!"\n  = help: {help}"

def render (d : Diagnostic) : String :=
  d.severity.label ++ codePart d.code ++ operationPart d.operation ++ ": " ++ d.message
    ++ helpPart d.help

/-- The texts of several diagnostics, one below the other. -/
def renderAll (ds : List Diagnostic) : String := "\n".intercalate (ds.map render)

end Diagnostic

end StreamBroker
