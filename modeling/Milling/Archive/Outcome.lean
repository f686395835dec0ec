import Milling.Archive.Decode
import Milling.Expression.Evaluation
import Milling.Program.Reading

/-!
# Archives or programs

Bytes that are no archive may still be the text of a program.
-/

namespace Milling.Archive

/-- What bytes turned out to be. -/
inductive Outcome where
  | archive (file : File)
  | program (outcome : Program.Outcome Float)
  | failure (error : DecodeError)

/-- The program in a text, with the first tool in the spindle. -/
def readText (calculate : String → Except String Float) (text : String) :
    Program.Outcome Float :=
  Program.readProgram calculate Program.defaultTool text

/-- Decodes bytes as an archive, else as a program with motion in it, whose
expressions are calculated.  When both fail the archive's error counts. -/
def decode (bytes : List UInt8)
    (calculate : String → Except String Float := Expression.number) : Outcome :=
  match decodeFile bytes with
  | .ok file => .archive file
  | .error error =>
      let outcome := readText calculate (Text.ofBytes bytes)
      if outcome.segments.any fun path => !path.points.isEmpty then .program outcome
      else .failure error

/-- What an outcome was read as. -/
inductive Source where
  | binary
  | text
deriving Repr, DecidableEq

namespace Outcome

def succeeded : Outcome → Bool
  | .archive _ => true
  | .program _ => true
  | .failure _ => false

def header? : Outcome → Option Header
  | .archive file => some file.header
  | .program _ => none
  | .failure _ => none

def mesh? : Outcome → Option Mesh
  | .archive file => some file.mesh
  | .program _ => none
  | .failure _ => none

def toolpaths? : Outcome → Option (List (Toolpath Float))
  | .archive file => some file.toolpaths
  | .program outcome => some outcome.segments
  | .failure _ => none

def units? : Outcome → Option Units
  | .archive file => some file.header.units
  | .program outcome => some outcome.units
  | .failure _ => none

def error? : Outcome → Option String
  | .archive _ => none
  | .program _ => none
  | .failure error => some error.message

/-- A text is named as the source only where it was one. -/
def source : Outcome → Source
  | .archive _ => .binary
  | .program _ => .text
  | .failure _ => .binary

def warnings : Outcome → List (Fault Float)
  | .archive _ => []
  | .program outcome => outcome.warnings
  | .failure _ => []

def combined (outcome : Outcome) : Toolpath Float :=
  { points := (outcome.toolpaths?.getD []).flatMap Toolpath.points }

end Outcome

end Milling.Archive
