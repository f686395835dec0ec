import Milling.Archive.Instant

/-!
# The workplace

What the commands ask of their surroundings: files by path, lines to print and
the time.
-/

namespace Milling

/-- The time in the forms that programs and setup sheets need it. -/
structure Clock where
  date : String
  /-- A number for names of files. -/
  number : String
  stamp : String
deriving Repr, DecidableEq

/-- Files, messages and the time. -/
class Workplace (m : Type → Type) where
  /-- The bytes of a file; none when there is no such file to read. -/
  readFile : String → m (Option (List UInt8))
  /-- Writes a file and says whether that went well. -/
  writeFile : String → String → m Bool
  /-- Makes a folder with those above it and says whether it is there now. -/
  makeFolder : String → m Bool
  print : String → m Unit
  /-- Tells the user a line of text, apart from what is put out. -/
  report : String → m Unit
  clock : m Clock

/-- Work that may end early is done at the same workplace. -/
instance {ε : Type} {m : Type → Type} [Monad m] [Workplace m] : Workplace (ExceptT ε m) where
  readFile path := ExceptT.lift (Workplace.readFile path)
  writeFile path text := ExceptT.lift (Workplace.writeFile path text)
  makeFolder path := ExceptT.lift (Workplace.makeFolder path)
  print text := ExceptT.lift (Workplace.print text)
  report line := ExceptT.lift (Workplace.report line)
  clock := ExceptT.lift Workplace.clock

end Milling

/-!
## The time of day

A point in time in the forms that programs and setup sheets need it.
-/

namespace Milling.Clock

def secondsTo1970 : Nat := 11644473600

def instant (milliseconds : Nat) : Archive.Instant :=
  { milliseconds := secondsTo1970 * 1000 + milliseconds }

/-- The clock some milliseconds after the start of 1970, universal time. -/
def ofMilliseconds (milliseconds : Nat) : Clock :=
  let stamp := (instant milliseconds).text
  { date := String.ofList (stamp.toList.takeWhile (· != 'T'))
    number := toString (milliseconds / 1000)
    stamp }

end Milling.Clock
