import StreamBroker.Diagnostic
import StreamBroker.Value

/-!
# Refusals

Why an operation of the broker did not do what it was asked: an argument of the
wrong kind, a handle that names no held stream, or a stream that must not be
closed. A refusal is shown by the sentence of its cause and reported as a
warning (`Refusal.diagnostic`); only the last one comes with a line of help.
-/

namespace StreamBroker

inductive Refusal
  | wrongTag (operation parameter : String) (expected actual : Tag)
  /-- No held stream answers to the handle. -/
  | notLive (handle : Handle)
  /-- The stream is owned elsewhere and stays open. -/
  | guarded (handle : Handle)
deriving DecidableEq

namespace Refusal

/-- What a message asks for where a value of this kind is needed. -/
def wanted : Tag → String
  | .string => "a string"
  | .resource => "a stream resource"
  | tag => tag.name

/-- The cause that a refusal is reported under. A handle is named by its index,
whatever its generation. -/
def cause : Refusal → Diagnostic.Cause
  | .wrongTag operation parameter expected actual =>
    .invalidArguments operation parameter (wanted expected) actual.name
  | .notLive handle => .notLive handle.text
  | .guarded handle => .notValid handle.text

def message (r : Refusal) : String := r.cause.message

/-- The help that comes with a refused close. -/
def guardedHelp : String := "the stream is owned elsewhere and cannot be closed here"

def help? : Refusal → Option String
  | .guarded _ => some guardedHelp
  | _ => none

/-- The warning that reports a refusal of `operation`. -/
def diagnostic (r : Refusal) (operation : String) : Diagnostic :=
  { (Diagnostic.ofCause .warning r.cause).withOperation operation with help := r.help? }

end Refusal

end StreamBroker
