/-!
# UTF-8

Bytes as text.  Bytes that are not part of a well-formed character become the
replacement character, one for each longest start of a character that breaks
off.
-/

namespace Milling.Text

/-- A character of several bytes that is being read: its bits so far, how many
bytes are to come, and the range of the next one. -/
structure PartialChar where
  bits : Nat
  missing : Nat
  low : Nat
  high : Nat
deriving Repr, DecidableEq

def replacement : Char := Char.ofNat 0xFFFD

def leadByte? (byte : Nat) : Option PartialChar :=
  if 0xC2 ≤ byte ∧ byte ≤ 0xDF then
    some { bits := byte - 0xC0, missing := 1, low := 0x80, high := 0xBF }
  else if 0xE0 ≤ byte ∧ byte ≤ 0xEF then
    some {
      bits := byte - 0xE0
      missing := 2
      low := if byte = 0xE0 then 0xA0 else 0x80
      high := if byte = 0xED then 0x9F else 0xBF }
  else if 0xF0 ≤ byte ∧ byte ≤ 0xF4 then
    some {
      bits := byte - 0xF0
      missing := 3
      low := if byte = 0xF0 then 0x90 else 0x80
      high := if byte = 0xF4 then 0x8F else 0xBF }
  else none

/-- A byte at the start of a character: the characters it completes, and the
one it begins. -/
def startChar (byte : Nat) : List Char × Option PartialChar :=
  if byte < 0x80 then ([Char.ofNat byte], none)
  else
    match leadByte? byte with
    | some pending => ([], some pending)
    | none => ([replacement], none)

/-- One more byte: the characters it completes, and the one that is begun. -/
def readByte (pending : Option PartialChar) (byte : Nat) : List Char × Option PartialChar :=
  match pending with
  | none => startChar byte
  | some begun =>
      if begun.low ≤ byte ∧ byte ≤ begun.high then
        let bits := begun.bits * 64 + byte % 64
        if begun.missing = 1 then ([Char.ofNat bits], none)
        else ([], some { bits, missing := begun.missing - 1, low := 0x80, high := 0xBF })
      else
        let (characters, next) := startChar byte
        (replacement :: characters, next)

def charsFrom : Option PartialChar → List UInt8 → List Char
  | none, [] => []
  | some _, [] => [replacement]
  | pending, byte :: rest =>
      let (characters, next) := readByte pending byte.toNat
      characters ++ charsFrom next rest

def ofBytes (bytes : List UInt8) : String := String.ofList (charsFrom none bytes)

def ofBytes? (bytes : List UInt8) : Option String :=
  let text := ofBytes bytes
  if text.toUTF8.toList = bytes then some text else none

end Milling.Text
