import Milling.Json.Basic
import Milling.Report.Basic
import Milling.Scalar.Double

/-!
# Reports as data

A finding is written with its severity, its line and its text.
-/

namespace Milling

def Fault.toJson (severity : String) (fault : Fault Float) : Json :=
  .record [
    ("severity", .text severity),
    ("line", match fault.line? with
      | some line => .integer line
      | none => .null),
    ("message", .text fault.message)]

def Report.toJson (report : Report Float) : Json :=
  .record [
    ("errors", .list (report.errors.map (Fault.toJson "error"))),
    ("warnings", .list (report.warnings.map (Fault.toJson "warning")))]

end Milling
