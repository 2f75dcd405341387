import StreamBroker.Bytes
import StreamBroker.Slots

/-!
# Host values

Arguments reach the broker as loosely typed values. The broker looks at their
tag, and takes the payload of two kinds only: the bytes of a string and the
handle of a resource.

* **equality** — `Value.beq` compares payloads of one kind; different kinds are
  never equal. Floats compare by value: a NaN equals nothing, and the two zeros
  are equal (`Binary64.equal`).
-/

namespace StreamBroker

/-- The kind of a value, as messages name it. -/
inductive Tag
  | null
  | bool
  | int
  | float
  | string
  | resource
deriving DecidableEq

namespace Tag

def name : Tag → String
  | .null => "null"
  | .bool => "bool"
  | .int => "int"
  | .float => "float"
  | .string => "string"
  | .resource => "resource"

/-- Every tag, in the order of its declaration. -/
def all : List Tag := [.null, .bool, .int, .float, .string, .resource]

def ofName? (s : String) : Option Tag := all.find? fun t => t.name == s

end Tag

/-! ## Binary64 words -/

namespace Binary64

/-- Whether the word is a NaN: without its sign it lies above infinity. -/
def isNaN (bits : UInt64) : Bool := bits &&& 0x7FFFFFFFFFFFFFFF > 0x7FF0000000000000

/-- Whether the word is one of the two zeros. -/
def isZero (bits : UInt64) : Bool := bits &&& 0x7FFFFFFFFFFFFFFF == 0

/-- Equality of the numbers that two words stand for. -/
def equal (a b : UInt64) : Bool :=
  !isNaN a && !isNaN b && (a == b || isZero a && isZero b)

end Binary64

/-! ## Values -/

/-- A value of the host. A float is kept as its binary64 word. -/
inductive Value
  | null
  | bool (b : Bool)
  | int (n : Int64)
  | float (bits : UInt64)
  | string (bytes : Bytes)
  | resource (handle : Handle)


namespace Value

def tag : Value → Tag
  | .null => .null
  | .bool _ => .bool
  | .int _ => .int
  | .float _ => .float
  | .string _ => .string
  | .resource _ => .resource

def bytes? : Value → Option Bytes
  | .string bytes => some bytes
  | _ => none

def handle? : Value → Option Handle
  | .resource h => some h
  | _ => none

/-- Equality of values; not reflexive, because of NaN. -/
def beq : Value → Value → Bool
  | .null, .null => true
  | .bool a, .bool b => a == b
  | .int a, .int b => a == b
  | .float a, .float b => Binary64.equal a b
  | .string a, .string b => a == b
  | .resource a, .resource b => a == b
  | _, _ => false

instance : BEq Value := ⟨beq⟩

instance : Coe Bool Value := ⟨.bool⟩
instance : Coe Int64 Value := ⟨.int⟩
instance : Coe Bytes Value := ⟨.string⟩
instance : Coe Handle Value := ⟨.resource⟩

/-- A string is written as its UTF-8 bytes. -/
def ofString (s : String) : Value := .string s.toUTF8.toList

@[simp] theorem bytes?_eq_some_iff {v : Value} {data : Bytes} :
    v.bytes? = some data ↔ v = .string data := by
  cases v <;> simp [bytes?]

@[simp] theorem handle?_eq_some_iff {v : Value} {h : Handle} :
    v.handle? = some h ↔ v = .resource h := by
  cases v <;> simp [handle?]

end Value

end StreamBroker
