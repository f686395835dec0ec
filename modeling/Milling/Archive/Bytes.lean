/-!
# Bytes of archives

Fields are read off the front of a buffer, or refused by name.
-/

/-!
## Refused archives

Why bytes are not an archive, naming the field that was being read.
-/

namespace Milling.Archive

/-- Why bytes are refused. -/
inductive DecodeError where
  /-- The bytes end before a field does. -/
  | short (field : String) (width offset length : Nat)
  | overLimit (field : String) (count limit : Nat)
  | shortArray (field : String) (count width offset remaining : Nat)
  | magic (shown : String)
  | version (given : Nat)
  | size (declared length : Nat)
  | unitsFlag (flag : Nat)
  /-- A face refers to a vertex that is not there. -/
  | face (index vertex count : Nat)
deriving Repr, DecidableEq

namespace DecodeError

/-- The field that could not be read, when the bytes or a limit ran out. -/
def field? : DecodeError → Option String
  | .short field .. => some field
  | .overLimit field .. => some field
  | .shortArray field .. => some field
  | _ => none

def isBounds (error : DecodeError) : Bool := error.field?.isSome

def reason : DecodeError → String
  | .short _ width offset length =>
      "need " ++ toString width ++ " bytes at offset " ++ toString offset ++
        ", buffer is " ++ toString length ++ " bytes"
  | .overLimit _ count limit =>
      toString count ++ " exceeds the limit of " ++ toString limit
  | .shortArray _ count width offset remaining =>
      toString count ++ " elements of " ++ toString width ++ " bytes declared at offset " ++
        toString offset ++ ", only " ++ toString remaining ++ " bytes remain"
  | .magic shown => "Invalid MCAM magic " ++ shown
  | .version given => "Unsupported MCAM version " ++ toString given
  | .size declared length =>
      "Declared file size " ++ toString declared ++ " does not match buffer length " ++
        toString length
  | .unitsFlag flag => "Invalid units flag " ++ toString flag
  | .face index vertex count =>
      "Face " ++ toString index ++ " references vertex " ++ toString vertex ++
        " but only " ++ toString count ++ " vertices exist"

def message (error : DecodeError) : String :=
  match error.field? with
  | some field => "Bounds error reading '" ++ field ++ "': " ++ error.reason
  | none => "Format error: " ++ error.reason

end DecodeError

end Milling.Archive

/-!
## Reading bytes

Fields of a set width are taken off the front of a buffer.  A read that does
not fit names its field and leaves the reader where it was.
-/

namespace Milling.Archive

/-- The bytes of a buffer that are still to be read, and how many were. -/
structure ByteReader where
  offset : Nat := 0
  rest : List UInt8
deriving Repr, DecidableEq

abbrev Decoder := StateT ByteReader (Except DecodeError)

/-- The number with the given bytes, the least significant first. -/
def littleEndian : List UInt8 → Nat
  | [] => 0
  | byte :: rest => byte.toNat + 256 * littleEndian rest

namespace ByteReader

def start (bytes : List UInt8) : ByteReader := { rest := bytes }

def remaining (reader : ByteReader) : Nat := reader.rest.length

def length (reader : ByteReader) : Nat := reader.offset + reader.remaining

def require (field : String) (width : Nat) (reader : ByteReader) : Except DecodeError Unit :=
  if width ≤ reader.remaining then .ok ()
  else .error (.short field width reader.offset reader.length)

/-- What comes of taking a field off the front, and the reader behind it: a field
that does not fit leaves the reader where it was. -/
def attempt (field : String) (width : Nat) (reader : ByteReader) :
    Except DecodeError (List UInt8) × ByteReader :=
  match reader.require field width with
  | .error error => (.error error, reader)
  | .ok () =>
      (.ok (reader.rest.take width),
        { offset := reader.offset + width, rest := reader.rest.drop width })

def take (field : String) (width : Nat) : Decoder (List UInt8) := fun reader =>
  match reader.attempt field width with
  | (.error error, _) => .error error
  | (.ok bytes, after) => .ok (bytes, after)

/-- The number in a field, the least significant byte first. -/
def number (field : String) (width : Nat) : Decoder Nat := do
  pure (littleEndian (← take field width))

def refuse (error : DecodeError) : Decoder β := fun _ => .error error

def requireArray (element : String) (count width : Nat) : Decoder Unit := fun reader =>
  if count * width ≤ reader.remaining then .ok ((), reader)
  else
    let field := element ++ "[" ++ toString (reader.remaining / width) ++ "]"
    .error (.shortArray field count width reader.offset reader.remaining)

def elements (read : Nat → Decoder β) : Nat → Nat → Decoder (List β)
  | _, 0 => pure []
  | index, count + 1 => do
      let element ← read index
      let others ← elements read (index + 1) count
      pure (element :: others)

end ByteReader

end Milling.Archive
