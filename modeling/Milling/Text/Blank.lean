/-!
# Blank characters

The characters with Unicode's `White_Space` property, and the trimming and
splitting of text around them.
-/

namespace Milling.Text

/-- Unicode's `White_Space` property. -/
def isBlank (character : Char) : Bool :=
  let code := character.toNat
  (9 ≤ code && code ≤ 13) || code == 32 || code == 0x85 || code == 0xA0 ||
    code == 0x1680 || (0x2000 ≤ code && code ≤ 0x200A) || code == 0x2028 ||
    code == 0x2029 || code == 0x202F || code == 0x205F || code == 0x3000

def trimStart (text : List Char) : List Char := text.dropWhile isBlank

/-- The text without the trailing characters that satisfy `drops`. -/
def dropEndWhile (drops : Char → Bool) (text : List Char) : List Char :=
  (text.reverse.dropWhile drops).reverse

def trimEnd (text : List Char) : List Char := dropEndWhile isBlank text

def trim (text : List Char) : List Char := trimEnd (trimStart text)

/-- Pieces of a list between the elements that satisfy `separates`; a list
with `n` separators has `n + 1` pieces. -/
def splitOn (separates : α → Bool) : List α → List (List α)
  | [] => [[]]
  | head :: tail =>
      match splitOn separates tail with
      | [] => [[head]]
      | piece :: pieces =>
          if separates head then [] :: piece :: pieces
          else (head :: piece) :: pieces

def words (text : List Char) : List (List Char) :=
  (splitOn isBlank text).filter (· ≠ [])

/-- The text before and after the first character that satisfies `stops`,
that character left out. -/
def cutAt (stops : Char → Bool) (text : List Char) : Option (List Char × List Char) :=
  match text.dropWhile (fun character => !stops character) with
  | [] => none
  | _ :: after => some (text.takeWhile (fun character => !stops character), after)

/-- Lines that end in a line feed, with or without a carriage return before
it; a last line without one counts if it is not empty. -/
def lines (text : List Char) : List (List Char) :=
  let pieces := splitOn (· == '\n') text
  let withoutReturn (line : List Char) : List Char :=
    if line.getLast? = some '\r' then line.dropLast else line
  let closed := pieces.dropLast.map withoutReturn
  match pieces.getLast? with
  | none => closed
  | some [] => closed
  | some last => closed ++ [last]

def lowerAscii (text : List Char) : List Char := text.map Char.toLower

@[simp] theorem splitOn_nil (separates : α → Bool) : splitOn separates [] = [[]] := rfl

theorem splitOn_ne_nil (separates : α → Bool) (text : List α) :
    splitOn separates text ≠ [] := by
  cases text with
  | nil => simp
  | cons head tail =>
      simp only [splitOn]
      split
      · simp
      · split <;> simp

end Milling.Text
