import Milling.Json.Basic

/-!
# Tables of a TOML document

A table is written once: under its own header, by dotted keys, or as a value.
Headers may pass through tables that are not written yet and add to them;
dotted keys may only add to tables that dotted keys began.
-/

namespace Milling.TomlText

/-- How a table came to be in a document. -/
inductive Origin where
  /-- Written under a header of its own. -/
  | header
  /-- On the way to a table under a header. -/
  | passage
  /-- On the way of a dotted key. -/
  | dotted
deriving Repr, DecidableEq

/-- What a key of a table holds. -/
inductive Entry where
  | value (json : Json)
  | table (origin : Origin) (entries : List (String × Entry))
  /-- A list of tables, each under a header; the last one is still open. -/
  | tables (closed : List (List (String × Entry))) (last : List (String × Entry))

abbrev Entries := List (String × Entry)

namespace Entries

def replace (entries : Entries) (key : String) (entry : Entry) : Entries :=
  entries.map fun (name, present) => if name = key then (name, entry) else (name, present)

def insertNew? (key : String) (json : Json) (entries : Entries) : Option Entries :=
  if (entries.lookup key).isSome then none else some (entries ++ [(key, .value json)])

def assign? (key : String) (json : Json) : List String → Entries → Option Entries
  | [], entries => insertNew? key json entries
  | step :: path, entries =>
      match entries.lookup step with
      | none => do
          let inner ← assign? key json path []
          some (entries ++ [(step, .table .dotted inner)])
      | some (.table .dotted present) => do
          let inner ← assign? key json path present
          some (entries.replace step (.table .dotted inner))
      | some (.table .passage present) =>
          if path = [] then none
          else do
            let inner ← assign? key json path present
            some (entries.replace step (.table .passage inner))
      | some (.tables closed last) =>
          if path = [] then none
          else do
            let inner ← assign? key json path last
            some (entries.replace step (.tables closed inner))
      | some (.table .header _) => none
      | some (.value _) => none

/-- Changes the table that a path of headers leads to; tables on the way are
made where they are missing. -/
def below? (change : Entries → Option Entries) : List String → Entries → Option Entries
  | [], entries => change entries
  | step :: path, entries =>
      match entries.lookup step with
      | none => do
          let inner ← below? change path []
          some (entries ++ [(step, .table .passage inner)])
      | some (.table origin present) => do
          let inner ← below? change path present
          some (entries.replace step (.table origin inner))
      | some (.tables closed last) => do
          let inner ← below? change path last
          some (entries.replace step (.tables closed inner))
      | some (.value _) => none

def openTable? (key : String) (entries : Entries) : Option Entries :=
  match entries.lookup key with
  | none => some (entries ++ [(key, .table .header [])])
  | some (.table .passage present) => some (entries.replace key (.table .header present))
  | some _ => none

def openNext? (key : String) (entries : Entries) : Option Entries :=
  match entries.lookup key with
  | none => some (entries ++ [(key, .tables [] [])])
  | some (.tables closed last) => some (entries.replace key (.tables (closed ++ [last]) []))
  | some _ => none

end Entries

mutual

def Entry.toJson : Entry → Json
  | .value json => json
  | .table _ entries => .record (fieldsJson entries)
  | .tables closed last => .list (tablesJson closed ++ [.record (fieldsJson last)])

def fieldsJson : List (String × Entry) → List (String × Json)
  | [] => []
  | (key, entry) :: rest => (key, entry.toJson) :: fieldsJson rest

def tablesJson : List (List (String × Entry)) → List Json
  | [] => []
  | entries :: rest => .record (fieldsJson entries) :: tablesJson rest

end

end Milling.TomlText
