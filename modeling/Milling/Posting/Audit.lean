import Milling.Program.Modal
import Milling.Program.Token
import Milling.Report.Basic
import Milling.Shop.Limits

/-!
# Auditing programs

The text of a program against the limits of a machine, line by line: codes that
controllers may not know, feeds above the greatest, and places out of reach.
-/

namespace Milling.Posting

open Milling.Program

variable {α : Type} [Scalar α]

def unsupportedCodes : List Code := [
  .g 5, { letter := 'G', major := 5, minor := some 1 },
  { letter := 'G', major := 5, minor := some 2 },
  { letter := 'G', major := 6, minor := some 2 },
  .g 7, .g 8, .g 9, .g 10, .g 11, .g 12, .g 13]

/-- The `G` code with a number, and nothing behind its point, is among the codes
of a line. -/
def hasWhole (codes : List Code) (major : Nat) : Bool := codes.contains (.g major)

def codeOf? : Token α → Option Code
  | .word letter _ raw =>
      if letter = 'G' ∨ letter = 'M' then Code.read? letter raw.toList else none
  | .expression _ => none

def auditWord (limits : Limits α) (line : Nat) : Token α → Report α
  | .word 'F' (.number value) _ =>
      Report.warningIf (decide (limits.maxFeed < value))
        (.feedExceeded line value limits.maxFeed)
  | .word letter (.number value) _ =>
      match limits.travel? letter with
      | some travel =>
          Report.errorIf (decide (travel / 2 < Scalar.magnitude value))
            (.outOfBounds line letter value (travel / 2))
      | none => {}
  | _ => {}

def isSkipped (line : List Char) : Bool :=
  match line with
  | [] => true
  | first :: _ => first == ';' || first == '(' || first == '%'

def auditLine (limits : Limits α) (number : Nat) (written : List Char) : Report α :=
  let line := Text.trim written
  if isSkipped line then {}
  else
    let tokens : List (Token α) := tokenize (stripComments line)
    let codes := tokens.filterMap codeOf?
    let unknown := (unsupportedCodes.filter fun code => codes.contains code).map fun code =>
      Report.warning (.unsupportedCode number code.text)
    Report.concat (tokens.map (auditWord limits number)) ++ Report.concat unknown ++
      Report.errorIf (hasWhole codes 0 && hasWhole codes 1) (.modalConflict number)

def auditProgram (limits : Limits α) (text : String) : Report α :=
  Report.concat ((Text.lines text.toList).zipIdx.map fun (line, index) =>
    auditLine limits (index + 1) line)

end Milling.Posting
