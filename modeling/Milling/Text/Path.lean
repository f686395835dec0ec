/-!
# Names of files

Paths are texts with slashes between the names of folders and files.
-/

namespace Milling.Path

def pieces (path : String) : List (List Char) := path.toList.splitOn '/'

/-- The names on a path; a dot names the folder it stands in and adds
nothing. -/
def names (path : String) : List String :=
  ((pieces path).filter fun piece => piece ≠ [] ∧ piece ≠ ['.']).map String.ofList

/-- The last name on a path, unless it leads upwards. -/
def fileName? (path : String) : Option String := (names path).getLast?.filter (· ≠ "..")

/-- What follows the last point of the last name on a path, when something
comes before that point. -/
def extension? (path : String) : Option String := do
  let reversed := (← fileName? path).toList.reverse
  let before := reversed.dropWhile (· != '.')
  if 1 < before.length then
    some (String.ofList (reversed.takeWhile (· != '.')).reverse)
  else none

/-- The pieces of a path without those at its end that add no name, given in
reverse order.  A dot that starts the path stays. -/
def dropNameless : List (List Char) → List (List Char)
  | piece :: earlier =>
      if (piece = [] ∨ piece = ['.']) ∧ earlier ≠ [] then dropNameless earlier
      else piece :: earlier
  | [] => []

/-- The path of the folder that a path names something in; empty for a name
alone. -/
def parent (path : String) : String :=
  match dropNameless ((dropNameless (pieces path).reverse).drop 1) with
  | [[]] => "/"
  | reversed => "/".intercalate (reversed.reverse.map String.ofList)

end Milling.Path
