import Milling.Json.Basic
import Milling.Json.Reader
import Milling.Json.Writer
import Milling.Machining.Interchange
import Milling.Settings.Basic
import Milling.Text.Blank
import Milling.Text.Path
import Milling.Text.Utf8
import Milling.Toml.Reader
import Milling.Toml.Writer
import Milling.Workplace.Basic

/-!
# Settings in texts and files
-/

/-!
## Formats of settings

Settings are kept in JSON or TOML, as the extension of their file says.
-/

namespace Milling.Settings

inductive Format where
  | json
  | toml
deriving Repr, DecidableEq

namespace Format

def ofPath? (path : String) : Option Format :=
  let extension := String.ofList (Text.lowerAscii ((Path.extension? path).getD "").toList)
  if extension = "json" then some .json
  else if extension = "toml" then some .toml
  else none

/-- Reads a record.  Positional members beyond the last one are refused in
JSON and passed over in TOML. -/
def record? (format : Format) (members : MemberReader β) (json : Json) : Option β :=
  match format with
  | .json => Members.read? members json
  | .toml => Members.readStart? members json

/-- Reads a name out of a fixed set, as a text or as the one key of a record.
That key holds null in JSON, and an empty list or table in TOML. -/
def choice? (format : Format) (ofName? : String → Option β) (json : Json) : Option β :=
  match format, json with
  | .toml, .record [(name, .record [])] => ofName? name
  | .toml, .record [(name, .list [])] => ofName? name
  | _, _ => Json.choice? ofName? json

end Format

end Milling.Settings

/-!
## Settings as text

Reading and writing settings.  What a file leaves out is as it is where
nothing is set, and settings with a fault are neither read nor written.
-/

namespace Milling

namespace PostSettings

def toJson (post : PostSettings) : Json :=
  .record [
    ("default_dialect", .text post.dialect),
    ("decimals", (post.decimals.map fun decimals => .integer decimals).getD .null),
    ("units", post.units.toJson)]

def members (format : Settings.Format) : MemberReader PostSettings := do
  let base : PostSettings := {}
  let dialect ← Members.defaulted "default_dialect" Json.text? base.dialect
  let decimals ← Members.optional "decimals" (Json.natural? Json.greatest64)
  let units ← Members.defaulted "units" (format.choice? Units.ofName?) base.units
  pure { dialect, decimals, units }

end PostSettings

namespace CutDefaults

def toJson (cut : CutDefaults Float) : Json :=
  .record [
    ("safe_z", .float cut.safeZ), ("clearance_z", .float cut.clearanceZ),
    ("helix_pitch", .float cut.helix.pitch),
    ("segments_per_revolution", .integer cut.helix.segments)]

def members : MemberReader (CutDefaults Float) := do
  let base : CutDefaults Float := standard
  let safeZ ← Members.defaulted "safe_z" Json.float? base.safeZ
  let clearanceZ ← Members.defaulted "clearance_z" Json.float? base.clearanceZ
  let pitch ← Members.defaulted "helix_pitch" Json.float? base.helix.pitch
  let segments ← Members.defaulted "segments_per_revolution"
    (Json.natural? Json.greatest32) base.helix.segments
  pure { safeZ, clearanceZ, helix := { pitch, segments } }

end CutDefaults

namespace Settings

def toJson (settings : Settings Float) : Json :=
  .record [
    ("machine", settings.machine.toJson), ("post", settings.post.toJson),
    ("cam", settings.cut.toJson)]

def ofJson? (format : Format) : Json → Option (Settings Float) :=
  format.record? do
    let base : Settings Float := standard
    let machine ← Members.defaulted "machine" (format.record? Limits.members) base.machine
    let post ← Members.defaulted "post" (format.record? (PostSettings.members format)) base.post
    let cut ← Members.defaulted "cam" (format.record? CutDefaults.members) base.cut
    pure { machine, post, cut }

/-- Why settings are not read or written. -/
inductive Failure where
  | unsupported (path : String)
  | unreadable (format : Format)
  | fault (fault : SettingFault)
  /-- The file cannot be read or written. -/
  | inaccessible
deriving Repr, DecidableEq

def Failure.message : Failure → String
  | .unsupported path =>
      "Unsupported config format: '" ++ path ++ "' (config file must be .json or .toml)"
  | .unreadable .json => "JSON error"
  | .unreadable .toml => "TOML error"
  | .fault found => found.message
  | .inaccessible => "I/O error"

def checked (settings : Settings Float) : Except Failure (Settings Float) :=
  match settings.fault? with
  | some fault => .error (.fault fault)
  | none => .ok settings

def read (format : Format) (text : String) : Except Failure (Settings Float) :=
  let json? := match format with
    | .json => JsonText.read? text
    | .toml => TomlText.read? text
  match json?.bind (ofJson? format) with
  | some settings => settings.checked
  | none => .error (.unreadable format)

def write (format : Format) (settings : Settings Float) : Except Failure String := do
  let checked ← settings.checked
  match format with
  | .json => pure (JsonText.write checked.toJson)
  | .toml => pure (TomlText.writeSections checked.toJson)

def formatOf (path : String) : Except Failure Format :=
  match Format.ofPath? path with
  | some format => .ok format
  | none => .error (.unsupported path)

end Settings

end Milling

/-!
## Settings in files
-/

namespace Milling.Settings

variable {m : Type → Type} [Monad m] [Workplace m]

def load (path : String) : ExceptT Failure m (Settings Float) := do
  let format ← ofExcept (formatOf path)
  match (← Workplace.readFile path).bind Text.ofBytes? with
  | some text => ofExcept (read format text)
  | none => throw .inaccessible

def save (settings : Settings Float) (path : String) : ExceptT Failure m Unit := do
  let format ← ofExcept (formatOf path)
  let text ← ofExcept (write format settings)
  if !(← Workplace.writeFile path text) then throw .inaccessible

end Milling.Settings
