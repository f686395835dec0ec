import Milling.Text.Blank
import Milling.Text.Path
import Milling.Workplace.Basic

/-!
# A desk

A workplace in memory: files and folders by the names on their paths, and what
was printed and reported so far.
-/

namespace Milling

/-- Files and folders, both by the names from the root. -/
structure Desk where
  stored : List (List String × List UInt8) := []
  folders : List (List String) := []
  /-- The folder that paths start from, unless they start from the root. -/
  home : List String := ["desk"]
  /-- What was put out, in reverse order. -/
  printed : List String := []
  /-- The lines that were reported, in reverse order. -/
  reported : List String := []
  clock : Clock
deriving Repr, DecidableEq

namespace Desk

/-- The files below the folder that paths start from, by the names from there. -/
def files (desk : Desk) : List (List String × List UInt8) :=
  desk.stored.filterMap fun file =>
    if desk.home.isPrefixOf file.1 then some (file.1.drop desk.home.length, file.2) else none

def hasFolder (desk : Desk) (names : List String) : Bool :=
  names.isPrefixOf desk.home || desk.folders.contains names

/-- Follows names from a folder.  All but the last one have to lead to folders,
and nothing leads above the root. -/
def follow? (desk : Desk) : List String → List String → Option (List String)
  | place, [] => some place
  | place, name :: rest =>
      if !desk.hasFolder place then none
      else if name = ".." then desk.follow? place.dropLast rest
      else desk.follow? (place ++ [name]) rest

def origin (desk : Desk) (path : String) : List String :=
  if path.startsWith "/" then [] else desk.home

/-- A path can name folders only: it ends in a slash or a dot. -/
def namesFolder (path : String) : Bool :=
  match (Path.pieces path).getLast? with
  | some piece => piece == [] || piece == ['.'] || piece == ['.', '.']
  | none => true

def place? (desk : Desk) (path : String) : Option (List String) :=
  desk.follow? (desk.origin path) (Path.names path)

def filePlace? (desk : Desk) (path : String) : Option (List String) :=
  if namesFolder path then none
  else (desk.place? path).filter fun place => !desk.hasFolder place

def read? (desk : Desk) (path : String) : Option (List UInt8) := do
  desk.stored.lookup (← desk.filePlace? path)

def put (desk : Desk) (place : List String) (bytes : List UInt8) : Desk :=
  { desk with stored := desk.stored.filter (·.1 != place) ++ [(place, bytes)] }

def write? (desk : Desk) (path text : String) : Option Desk := do
  let place ← desk.filePlace? path
  some (desk.put place text.toUTF8.toList)

def makeFolders? (desk : Desk) : List String → List String → Option Desk
  | _, [] => some desk
  | place, ".." :: rest => desk.makeFolders? place.dropLast rest
  | place, name :: rest =>
      let next := place ++ [name]
      if (desk.stored.lookup next).isSome then none
      else if desk.hasFolder next then desk.makeFolders? next rest
      else { desk with folders := desk.folders ++ [next] }.makeFolders? next rest

def makeFolder? (desk : Desk) (path : String) : Option Desk :=
  desk.makeFolders? (desk.origin path) (Path.names path)

def ofFiles (clock : Clock) (files : List (String × List UInt8)) : Desk :=
  files.foldl
    (fun desk (path, bytes) =>
      ((desk.makeFolder? (Path.parent path)).getD desk).put
        (desk.origin path ++ Path.names path) bytes)
    { clock }

abbrev Work := StateM Desk

def replace (next : Option Desk) : Work Bool := do
  match next with
  | some desk => set desk; pure true
  | none => pure false

instance : Workplace Work where
  readFile path := do pure ((← get).read? path)
  writeFile path text := do replace ((← get).write? path text)
  makeFolder path := do replace ((← get).makeFolder? path)
  print text := modify fun desk => { desk with printed := text :: desk.printed }
  report text := modify fun desk =>
    let lines := (Text.lines (text.toList ++ ['\n'])).map String.ofList
    { desk with reported := lines.reverse ++ desk.reported }
  clock := do pure (← get).clock

end Desk

end Milling
