import Milling.Decimal.Shortest

/-!
# Data values

The values of data files and answers: records, lists, texts and numbers, with
whole numbers kept apart from floats.
-/

namespace Milling

/-- A data value.  Records keep their fields in the order they were written. -/
inductive Json where
  | null
  | bool (value : Bool)
  | integer (value : Int)
  | float (value : Float)
  | text (value : String)
  | list (items : List Json)
  | record (fields : List (String × Json))

namespace Json

/-- A float, or a whole number taken as one. -/
def float? : Json → Option Float
  | .float value => some value
  | .integer value => some (Float.ofInt value)
  | _ => none

/-- A whole number from 0 to `bound`. -/
def natural? (bound : Nat) : Json → Option Nat
  | .integer value => if 0 ≤ value ∧ value ≤ bound then some value.toNat else none
  | _ => none

def text? : Json → Option String
  | .text value => some value
  | _ => none

def bool? : Json → Option Bool
  | .bool value => some value
  | _ => none

def list? (item? : Json → Option β) : Json → Option (List β)
  | .list items => items.mapM item?
  | _ => none

def nullable? (value? : Json → Option β) : Json → Option (Option β)
  | .null => some none
  | json => (value? json).map some

/-- A name out of a fixed set, written as a text or as a record of that one
name with nothing in it. -/
def choice? (ofName? : String → Option β) : Json → Option β
  | .text name => ofName? name
  | .record [(name, .null)] => ofName? name
  | _ => none

/-- A name out of a fixed set inside a record that is tagged with its kind,
where the record of the name may hold an empty record as well. -/
def taggedChoice? (ofName? : String → Option β) : Json → Option β
  | .record [(name, .record [])] => ofName? name
  | json => choice? ofName? json

def greatest32 : Nat := Nat.pow 2 32 - 1

def greatest64 : Nat := Nat.pow 2 64 - 1

def greatest8 : Nat := Nat.pow 2 8 - 1

/-- A number, null where it is absent. -/
def ofFloat? : Option Float → Json
  | some value => .float value
  | none => .null

/-- A field that is left out when its value is absent. -/
def present (name : String) (encode : β → Json) : Option β → List (String × Json)
  | some value => [(name, encode value)]
  | none => []

def get? (name : String) : Json → Option Json
  | .record fields => fields.lookup name
  | _ => none

end Json

/-- The members of a record that is being read: by name, or by position in the
order of declaration. -/
inductive Members where
  | named (fields : List (String × Json))
  | listed (items : List Json)

/-- Reads the members of one record, each at most once. -/
abbrev MemberReader := StateT Members Option

namespace Members

def ofJson? : Json → Option Members
  | .record fields => some (.named fields)
  | .list items => some (.listed items)
  | _ => none

/-- The member with a name, or the next one by position.  Two fields of that
name are refused. -/
def next (name : String) : MemberReader (Option Json)
  | .named fields =>
      match fields.filter fun field => decide (field.1 = name) with
      | [] => some (none, .named fields)
      | [field] => some (some field.2, .named fields)
      | _ => none
  | .listed [] => some (none, .listed [])
  | .listed (item :: rest) => some (some item, .listed rest)

def required (name : String) (value? : Json → Option β) : MemberReader β := do
  match ← next name with
  | some json => StateT.lift (value? json)
  | none => failure

def defaulted (name : String) (value? : Json → Option β) (absent : β) : MemberReader β := do
  match ← next name with
  | some json => StateT.lift (value? json)
  | none => pure absent

def optional (name : String) (value? : Json → Option β) : MemberReader (Option β) :=
  defaulted name (Json.nullable? value?) none

/-- Runs a reader on a record; no positional member may be left over. -/
def read? (reader : MemberReader β) (json : Json) : Option β := do
  let members ← ofJson? json
  let (value, rest) ← reader members
  match rest with
  | .listed (_ :: _) => none
  | _ => some value

/-- Runs a reader on a record; positional members that are left over do not
count. -/
def readStart? (reader : MemberReader β) (json : Json) : Option β := do
  let members ← ofJson? json
  (reader members).map Prod.fst

/-- Splits the name of the alternative off a record that is tagged with it. -/
def tagged? (tag : String) : Json → Option (Json × Json)
  | .record fields =>
      match fields.filter fun field => decide (field.1 = tag) with
      | [field] =>
          some (field.2, .record (fields.filter fun other => decide (other.1 ≠ tag)))
      | _ => none
  | .list (head :: rest) => some (head, .list rest)
  | _ => none

end Members

end Milling
