import Milling.Json.Basic
import Milling.Program.Command
import Milling.Scalar.Double

/-!
# Programs as data

The records in which codes, tokens, modal states and commands are exchanged.
-/

namespace Milling.Program

def char? : Json → Option Char
  | .text text =>
      match text.toList with
      | [character] => some character
      | _ => none
  | _ => none

namespace Code

def toJson (code : Code) : Json :=
  .record [
    ("letter", .text code.letter.toString),
    ("major", .integer code.major),
    ("minor", match code.minor with
      | some minor => .integer minor
      | none => .null)]

def ofJson? : Json → Option Code :=
  Members.read? do
    let letter ← Members.required "letter" char?
    let major ← Members.required "major" (Json.natural? Json.greatest32)
    let minor ← Members.optional "minor" (Json.natural? Json.greatest32)
    pure { letter, major, minor }

end Code

namespace WordValue

def toJson : WordValue Float → Json
  | .number value => .record [("Number", .float value)]
  | .expression text => .record [("Expression", .text text)]
  | .invalid text => .record [("Invalid", .text text)]

def ofJson? : Json → Option (WordValue Float)
  | .record [("Number", json)] => json.float?.map .number
  | .record [("Expression", json)] => json.text?.map .expression
  | .record [("Invalid", json)] => json.text?.map .invalid
  | _ => none

end WordValue

namespace Token

def toJson : Token Float → Json
  | .word letter value raw =>
      .record [("Word", .record [
        ("letter", .text letter.toString), ("value", value.toJson), ("raw", .text raw)])]
  | .expression text => .record [("Expression", .text text)]

def readWord : MemberReader (Token Float) := do
  let letter ← Members.required "letter" char?
  let value ← Members.required "value" WordValue.ofJson?
  let raw ← Members.required "raw" Json.text?
  pure (.word letter value raw)

def ofJson? : Json → Option (Token Float)
  | .record [("Word", json)] => Members.read? readWord json
  | .record [("Expression", json)] => json.text?.map .expression
  | _ => none

end Token

namespace ModalState

def toJson (state : ModalState) : Json :=
  .record [
    ("motion_mode", .integer state.motion), ("plane_mode", .integer state.plane),
    ("units_mode", .integer state.units), ("distance_mode", .integer state.distance),
    ("feed_rate_mode", .integer state.feedMode),
    ("coordinate_system", .integer state.workOffset),
    ("compensation_mode", .integer state.compensation),
    ("spindle", .integer state.spindle), ("coolant", .integer state.coolant)]

def ofJson? : Json → Option ModalState :=
  Members.read? do
    let number (name : String) := Members.required name (Json.natural? Json.greatest8)
    let motion ← number "motion_mode"
    let plane ← number "plane_mode"
    let units ← number "units_mode"
    let distance ← number "distance_mode"
    let feedMode ← number "feed_rate_mode"
    let workOffset ← number "coordinate_system"
    let compensation ← number "compensation_mode"
    let spindle ← number "spindle"
    let coolant ← number "coolant"
    pure {
      motion, plane, units, distance, feedMode, workOffset, compensation, spindle, coolant }

end ModalState

namespace Parameters

def toJson (parameters : Parameters Float) : Json :=
  .record (parameters.entries.map fun (letter, value) => (letter.toString, .float value))

def ofJson? : Json → Option (Parameters Float)
  | .record fields => do
      let entries ← fields.mapM fun (name, json) => do
        let letter ← char? (.text name)
        let value ← json.float?
        some (letter, value)
      some (ofList entries)
  | _ => none

end Parameters

namespace Command

def toJson (command : Command Float) : Json :=
  .record (
    [("line_number", .integer command.line), ("raw", .text command.raw),
      ("codes", .list (command.codes.map Code.toJson)),
      ("params", command.parameters.toJson)] ++
    (if command.tokens.isEmpty then []
      else [("tokens", .list (command.tokens.map Token.toJson))]) ++
    [("modal", command.modal.toJson)] ++
    Json.present "comment" .text command.comment)

def ofJson? : Json → Option (Command Float) :=
  Members.read? do
    let line ← Members.required "line_number" (Json.natural? Json.greatest32)
    let raw ← Members.required "raw" Json.text?
    let codes ← Members.required "codes" (Json.list? Code.ofJson?)
    let parameters ← Members.required "params" Parameters.ofJson?
    let tokens ← Members.defaulted "tokens" (Json.list? Token.ofJson?) []
    let modal ← Members.required "modal" ModalState.ofJson?
    let comment ← Members.optional "comment" Json.text?
    pure { line, raw, codes, parameters, tokens, modal, comment }

end Command

def ToolChange.toJson (change : ToolChange) : Json :=
  .record [
    ("line_number", .integer change.line), ("from_tool", .integer change.before),
    ("to_tool", .integer change.after)]

end Milling.Program
