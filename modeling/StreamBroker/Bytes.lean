/-!
# Byte strings and their readable text

Data, paths and file contents are lists of bytes; a zero byte is ordinary
content. A path that appears in a message is shown as text:

* **decoding** — `Bytes.text` reads UTF-8 and never fails: the longest start of
  a character that is cut short, and every byte that can start none, is shown
  as U+FFFD (`Bytes.feed` takes one byte at a time).
-/

namespace StreamBroker

abbrev Bytes := List UInt8

namespace Bytes

/-- A character of which some bytes have been read: how many are still missing,
the range that the next one must lie in, and the bits gathered so far. -/
structure Pending where
  missing : Nat
  low : UInt8
  high : UInt8
  bits : Nat

/-- The character shown for bytes that are not UTF-8. -/
def replacement : Char := '\uFFFD'

/-- Reads a byte where a character may start. Overlong forms, surrogates and
values above U+10FFFF are excluded by the range left for the second byte. -/
def start (b : UInt8) : List Char × Option Pending :=
  if b < 0x80 then ([Char.ofNat b.toNat], none)
  else if 0xC2 ≤ b ∧ b ≤ 0xDF then ([], some ⟨1, 0x80, 0xBF, b.toNat % 32⟩)
  else if 0xE0 ≤ b ∧ b ≤ 0xEF then
    ([], some ⟨2, if b = 0xE0 then 0xA0 else 0x80, if b = 0xED then 0x9F else 0xBF, b.toNat % 16⟩)
  else if 0xF0 ≤ b ∧ b ≤ 0xF4 then
    ([], some ⟨3, if b = 0xF0 then 0x90 else 0x80, if b = 0xF4 then 0x8F else 0xBF, b.toNat % 8⟩)
  else ([replacement], none)

/-- Reads one byte. A byte that does not continue the pending character ends it
as one replacement and is then read as a start. -/
def feed : Option Pending → UInt8 → List Char × Option Pending
  | none, b => start b
  | some p, b =>
    if p.low ≤ b ∧ b ≤ p.high then
      let bits := p.bits * 64 + b.toNat % 64
      if p.missing ≤ 1 then ([Char.ofNat bits], none)
      else ([], some ⟨p.missing - 1, 0x80, 0xBF, bits⟩)
    else
      let (shown, next) := start b
      (replacement :: shown, next)

/-- The characters shown for `bytes` after the pending character. -/
def decode : Option Pending → Bytes → List Char
  | none, [] => []
  | some _, [] => [replacement]
  | pending, b :: rest =>
    let (shown, next) := feed pending b
    shown ++ decode next rest

/-- The readable text of a byte string. -/
def text (bytes : Bytes) : String := String.ofList (decode none bytes)

end Bytes

end StreamBroker
