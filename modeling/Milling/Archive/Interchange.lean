import Milling.Archive.Outcome
import Milling.Report.Interchange
import Milling.Shop.Interchange
import Milling.Toolpath.Interchange

/-!
# Archives as data

The records in which decoded files are exchanged.
-/

namespace Milling.Archive

def Header.toJson (header : Header) : Json :=
  .record [
    ("magic", .text header.magic), ("version", .integer header.version),
    ("file_size", .integer header.fileSize), ("creation_timestamp", .integer header.ticks),
    ("created_at", .text header.created.text), ("units", header.units.toJson)]

def Corner.toJson (corner : Corner) : Json :=
  .list [.float corner.x.widened, .float corner.y.widened, .float corner.z.widened]

def Face.toJson (face : Face) : Json :=
  .list [.integer face.first, .integer face.second, .integer face.third]

def Mesh.toJson (mesh : Mesh) : Json :=
  .record [
    ("vertices", .list (mesh.corners.map Corner.toJson)),
    ("faces", .list (mesh.faces.map Face.toJson))]

def Source.name : Source → String
  | .binary => "binary"
  | .text => "gcode_fallback"

def Outcome.toJson (outcome : Outcome) : Json :=
  .record (
    [("success", .bool outcome.succeeded)] ++
    Json.present "header" Header.toJson outcome.header? ++
    Json.present "geometry" Mesh.toJson outcome.mesh? ++
    Json.present "toolpaths" (fun paths => .list (paths.map Toolpath.toJson))
      outcome.toolpaths? ++
    Json.present "units" Units.toJson outcome.units? ++
    Json.present "error" .text outcome.error? ++
    [("source", .text outcome.source.name)] ++
    if outcome.warnings.isEmpty then []
    else [("warnings", .list (outcome.warnings.map (Fault.toJson "warning")))])

end Milling.Archive
