import Milling.Decimal.Binary
import Milling.Scalar.Basic
import Milling.Shop.Units

/-!
# Dialects

How one family of controllers wants its programs: what stands at their start
and end, how comments are marked and how numbers are written.  The words are
the same for all.
-/

namespace Milling.Posting

abbrev Line := List Char

/-- How numbers are written. -/
inductive NumberStyle where
  /-- With all decimals, as in `10.000`. -/
  | fixed
  /-- With a point but without zeros at the end, as in `10.`. -/
  | trailingPoint
deriving Repr, DecidableEq

/-- How comments are marked. -/
inductive CommentStyle where
  | semicolon
  | parentheses
deriving Repr, DecidableEq

/-- The conventions of one family of controllers. -/
structure Dialect where
  id : String
  name : String
  description : String
  extension : String
  /-- Lines before the line that sets the modes. -/
  programStart : List String := []
  dateStamp : Bool := false
  /-- Lines after the return to the origin. -/
  programEnd : List String := ["M30"]
  decimals : Nat := 3
  numberStyle : NumberStyle := .fixed
  commentStyle : CommentStyle := .semicolon
deriving Repr, DecidableEq

namespace Dialect

def generic : Dialect :=
  { id := "generic_3axis"
    name := "Generic 3-Axis Mill"
    description := "Standard 3-axis milling machine"
    extension := "nc" }

def framed (header : String) (dialect : Dialect) : Dialect :=
  { dialect with
    programStart := ["%", header]
    programEnd := ["M30", "%"]
    numberStyle := .trailingPoint
    commentStyle := .parentheses }

def fanuc : Dialect :=
  framed "O1000"
    { id := "fanuc"
      name := "Fanuc Compatible"
      description := "Fanuc 0i/16i/18i/21i compatible"
      extension := "nc" }

def haas : Dialect :=
  framed "O1000 (PROGRAM NAME)"
    { id := "haas"
      name := "Haas Compatible"
      description := "Haas CNC mill compatible"
      extension := "nc" }

def mach3 : Dialect :=
  { id := "mach3"
    name := "Mach3 Compatible"
    description := "Mach3 CNC controller compatible"
    extension := "tap"
    dateStamp := true
    commentStyle := .parentheses }

def linuxcnc : Dialect :=
  { id := "linuxcnc"
    name := "LinuxCNC Compatible"
    description := "LinuxCNC/EMC2 compatible"
    extension := "ngc"
    dateStamp := true
    commentStyle := .parentheses }

def grbl : Dialect :=
  { id := "grbl"
    name := "GRBL Compatible"
    description := "GRBL 1.1 and grblHAL hobby controllers"
    extension := "gcode" }

def builtIn : List Dialect := [generic, fanuc, haas, mach3, linuxcnc, grbl]

/-- A text as a comment.  Parentheses inside a comment in parentheses are left
out. -/
def comment (dialect : Dialect) (text : Line) : Line :=
  match dialect.commentStyle with
  | .semicolon => ';' :: ' ' :: text
  | .parentheses =>
      '(' :: (text.filter fun character => character != '(' && character != ')') ++ [')']

def styled (style : NumberStyle) (text : Line) : Line :=
  match style with
  | .fixed => text
  | .trailingPoint =>
      if text.contains '.' then (text.reverse.dropWhile (· == '0')).reverse
      else text ++ ['.']

/-- The lines at the start of a program: its frame, the date where wanted, and
the line that sets the modes. -/
def preamble (dialect : Dialect) (units : Units) (date : String) : List Line :=
  let stamp :=
    if dialect.dateStamp then [dialect.comment ("File created: " ++ date).toList] else []
  dialect.programStart.map String.toList ++ stamp ++
    [("G17 " ++ units.word ++ " G40 G49 G54 G80 G90 G94").toList]

variable {α : Type} [Scalar α]

/-- A number in the style of the dialect; one that rounds to zero has no sign.
Any number of decimals is written here, while a format takes 65535 at most and
settings allow six. -/
def numberText (dialect : Dialect) (value : α) : Line :=
  let text :=
    if Scalar.isFinite value then
      Decimal.fixedText dialect.decimals (Scalar.scaled dialect.decimals value)
    else (Scalar.toText value).toList
  styled dialect.numberStyle text

def word (dialect : Dialect) (letter : Char) (value : α) : Line :=
  letter :: dialect.numberText value

def originMove (dialect : Dialect) : Line :=
  "G0 ".toList ++ dialect.word 'X' (0 : α) ++ ' ' :: dialect.word 'Y' (0 : α)

def heightMove (dialect : Dialect) (z : α) : Line := "G0 ".toList ++ dialect.word 'Z' z

def footer (dialect : Dialect) (safeZ : α) : List Line :=
  ["M5".toList, dialect.heightMove safeZ, dialect.originMove (α := α)] ++
    dialect.programEnd.map String.toList

end Dialect

end Milling.Posting
