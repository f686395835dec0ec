import Milling.Json.Basic
import Milling.Posting.Dialect
import Milling.Posting.SetupSheet
import Milling.Scalar.Double

/-!
# Dialects and setup sheets as data

The records in which dialects and setup sheets are exchanged.
-/

namespace Milling.Posting

namespace NumberStyle

def name : NumberStyle → String
  | .fixed => "fixed"
  | .trailingPoint => "trailing_point"

def ofName? (name : String) : Option NumberStyle :=
  [fixed, trailingPoint].find? fun style => style.name = name

end NumberStyle

namespace CommentStyle

def name : CommentStyle → String
  | .semicolon => "semicolon"
  | .parentheses => "parentheses"

def ofName? (name : String) : Option CommentStyle :=
  [semicolon, parentheses].find? fun style => style.name = name

end CommentStyle

namespace Dialect

def toJson (dialect : Dialect) : Json :=
  .record [
    ("id", .text dialect.id), ("name", .text dialect.name),
    ("description", .text dialect.description), ("extension", .text dialect.extension),
    ("program_start", .list (dialect.programStart.map .text)),
    ("date_stamp", .bool dialect.dateStamp),
    ("program_end", .list (dialect.programEnd.map .text)),
    ("decimals", .integer dialect.decimals),
    ("number_style", .text dialect.numberStyle.name),
    ("comment_style", .text dialect.commentStyle.name)]

def ofJson? : Json → Option Dialect :=
  Members.read? do
    let id ← Members.required "id" Json.text?
    let name ← Members.required "name" Json.text?
    let description ← Members.required "description" Json.text?
    let extension ← Members.required "extension" Json.text?
    let programStart ← Members.required "program_start" (Json.list? Json.text?)
    let dateStamp ← Members.required "date_stamp" Json.bool?
    let programEnd ← Members.required "program_end" (Json.list? Json.text?)
    let decimals ← Members.required "decimals" (Json.natural? Json.greatest64)
    let numberStyle ← Members.required "number_style" (Json.choice? NumberStyle.ofName?)
    let commentStyle ← Members.required "comment_style" (Json.choice? CommentStyle.ofName?)
    pure {
      id, name, description, extension, programStart, dateStamp, programEnd, decimals
      numberStyle, commentStyle }

end Dialect

def durationSeconds (duration : Duration) : Float :=
  Float.ofNat duration.seconds +
    Float.ofNat duration.nanoseconds / Float.ofNat Duration.nanosecondsPerSecond

namespace SetupSheet

def toolToJson (tool : SheetTool Float) : Json :=
  .record [
    ("id", .integer tool.number), ("kind", .text tool.kind.name),
    ("description", .text tool.description), ("diameter", .float tool.diameter),
    ("flutes", .integer tool.flutes)]

def operationToJson (operation : SheetOperation Float) : Json :=
  .record [
    ("kind", .text operation.kind), ("tool", .integer operation.tool),
    ("depth", .float operation.depth), ("feed_rate", .float operation.feed),
    ("spindle_speed", .float operation.spindle)]

def toJson (sheet : SetupSheet Float) (fileName created : String) : Json :=
  .record [
    ("program", .record [
      ("file_name", .text fileName), ("created", .text created),
      ("post_processor", .text sheet.dialect), ("total_lines", .integer sheet.lines)]),
    ("tools", .list (sheet.tools.map toolToJson)),
    ("operations", .list (sheet.operations.map operationToJson)),
    ("estimated_time_secs", .float (durationSeconds sheet.duration)),
    ("safety_notes", .list (sheet.notes.map .text))]

end SetupSheet

end Milling.Posting
