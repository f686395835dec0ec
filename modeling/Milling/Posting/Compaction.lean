import Milling.Posting.Dialect
import Milling.Program.Modal
import Milling.Text.Blank

/-!
# Compaction

Words that repeat what is in force already are taken out of a program: motion
codes, feeds and spindle speeds.  Lines left empty go too.
-/

namespace Milling.Posting

/-- What the last words of each kind said. -/
structure InForce where
  motion : Option Nat := none
  feed : Option Line := none
  spindle : Option Line := none
deriving Repr, DecidableEq

/-- What follows a letter, in either case, at the start of a word. -/
def afterLetter? (letter : Char) (word : Line) : Option Line :=
  match word with
  | first :: rest => if first.toUpper = letter then some rest else none
  | [] => none

/-- The number of a word of the motion group: a move or a cycle. -/
def motionCode? (word : Line) : Option Nat := do
  let number ← afterLetter? 'G' word
  let code ← Decimal.boundedNatural? Program.Code.greatest number
  if code ≤ 3 ∨ (80 ≤ code ∧ code ≤ 89) then some code else none

def keepWord (inForce : InForce) (word : Line) : InForce × Option Line :=
  match motionCode? word, afterLetter? 'F' word, afterLetter? 'S' word with
  | some code, _, _ =>
      if inForce.motion = some code then (inForce, none)
      else ({ inForce with motion := some code }, some word)
  | none, some value, _ =>
      if inForce.feed = some value then (inForce, none)
      else ({ inForce with feed := some value }, some word)
  | none, none, some value =>
      if inForce.spindle = some value then (inForce, none)
      else ({ inForce with spindle := some value }, some word)
  | none, none, none => (inForce, some word)

def keepWords (inForce : InForce) : List Line → InForce × List Line
  | [] => (inForce, [])
  | word :: rest =>
      let (next, kept) := keepWord inForce word
      let (last, others) := keepWords next rest
      (last, kept.toList ++ others)

def startsComment (character : Char) : Bool := character == ';' || character == '('

def isRemark (line : Line) : Bool :=
  match line with
  | first :: _ => startsComment first || first == '%'
  | [] => false

/-- A line without its repeated words, `none` when nothing is left. -/
def compactLine (inForce : InForce) (line : Line) : InForce × Option Line :=
  let trimmed := Text.trim line
  if trimmed.isEmpty then (inForce, none)
  else if isRemark trimmed then (inForce, some trimmed)
  else
    let code := trimmed.takeWhile fun character => !startsComment character
    let comment := Text.trim (trimmed.dropWhile fun character => !startsComment character)
    let (next, kept) := keepWords inForce (Text.words code)
    let parts := kept ++ if comment.isEmpty then [] else [comment]
    (next, if parts.isEmpty then none else some ([' '].intercalate parts))

def compactFrom (inForce : InForce) : List Line → List Line
  | [] => []
  | line :: rest =>
      let (next, kept) := compactLine inForce line
      kept.toList ++ compactFrom next rest

def compact (lines : List Line) : List Line := compactFrom {} lines

end Milling.Posting
