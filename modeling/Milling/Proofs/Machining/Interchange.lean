import Mathlib
import Milling.Machining.Interchange
import Milling.Proofs.Toolpath.Interchange

/-!
# Operations that are written and read

An operation is read back from what was written for it, whatever its kind.  All of its fields
are written, so no default is ever filled in; only a number that is not finite, or a whole
number that its field cannot hold, is lost.
-/

namespace Milling

open Json Members

namespace Tool

def numbers (tool : Tool Float) : List Float :=
  [tool.diameter, tool.surfaceSpeed, tool.feedPerTooth]

/-- Whole numbers have 32 bits. -/
def Fits (tool : Tool Float) : Prop := tool.number ≤ greatest32 ∧ tool.flutes ≤ greatest32

@[simp] theorem taggedKind?_spelled (kind : ToolKind) :
    taggedChoice? ToolKind.ofName? (spelled (.text kind.name)) = some kind := by
  cases kind <;> rfl

@[simp] theorem taggedMaterial?_spelled (material : ToolMaterial) :
    taggedChoice? ToolMaterial.ofName? (spelled (.text material.name)) = some material := by
  cases material <;> rfl

@[simp] theorem ofTaggedJson?_spelled (tool : Tool Float) :
    ofTaggedJson? tool.toJson.spelled = some tool ↔
      tool.Fits ∧ ∀ number ∈ tool.numbers, number.isFinite = true := by
  obtain ⟨number, kind, diameter, flutes, material, surfaceSpeed, feedPerTooth, description⟩ :=
    tool
  rw [ofTaggedJson?, toJson, spelled]
  have distinct : ((spelledFields [
      ("id", .integer number), ("kind", .text kind.name), ("diameter", .float diameter),
      ("flutes", .integer flutes), ("material", .text material.name),
      ("surface_speed", .float surfaceSpeed), ("feed_per_tooth", .float feedPerTooth),
      ("description", .text description)]).map Prod.fst).Nodup := by
    simp
  simp [members, read?_required distinct, List.lookup_cons, Option.bind_eq_some_iff, Fits, numbers,
    and_assoc, and_comm, and_left_comm]

end Tool

namespace HelixSettings

def Fits (helix : HelixSettings Float) : Prop := helix.segments ≤ greatest32

@[simp] theorem ofJson?_spelled (helix : HelixSettings Float) :
    ofJson? helix.toJson.spelled = some helix ↔
      helix.Fits ∧ helix.pitch.isFinite = true := by
  obtain ⟨pitch, segments⟩ := helix
  rw [ofJson?, toJson, spelled]
  have distinct : ((spelledFields [("pitch", .float pitch),
      ("segments_per_revolution", .integer segments)]).map Prod.fst).Nodup := by
    simp
  simp [read?_defaulted distinct, List.lookup_cons, Option.bind_eq_some_iff, Fits, and_comm]

end HelixSettings

namespace CutSettings

def numbers (cut : CutSettings Float) : List Float :=
  cut.tool.numbers ++ [cut.feed, cut.spindle, cut.safeZ, cut.clearanceZ]

@[simp] theorem ofJson?_spelled (cut : CutSettings Float) :
    ofJson? cut.toJson.spelled = some cut ↔
      cut.tool.Fits ∧ ∀ number ∈ cut.numbers, number.isFinite = true := by
  obtain ⟨tool, feed, spindle, safeZ, clearanceZ⟩ := cut
  rw [ofJson?, toJson, spelled]
  have distinct : ((spelledFields [("tool", tool.toJson), ("feed_rate", .float feed),
      ("spindle_speed", .float spindle), ("safe_z", .float safeZ),
      ("clearance_z", .float clearanceZ)]).map Prod.fst).Nodup := by
    simp
  simp [read?_required distinct, read?_defaulted distinct, List.lookup_cons,
    Option.bind_eq_some_iff, numbers, or_imp, forall_and, and_assoc]

end CutSettings

/-! Names of fixed choices are read back as the choices. -/

@[simp] theorem LeadStrategy.taggedChoice?_spelled (strategy : LeadStrategy) :
    taggedChoice? ofName? (spelled (.text strategy.name)) = some strategy := by
  cases strategy <;> rfl

@[simp] theorem Compensation.taggedChoice?_spelled (compensation : Compensation) :
    taggedChoice? ofName? (spelled (.text compensation.name)) = some compensation := by
  cases compensation <;> rfl

@[simp] theorem PocketPattern.taggedChoice?_spelled (pattern : PocketPattern) :
    taggedChoice? ofName? (spelled (.text pattern.name)) = some pattern := by
  cases pattern <;> rfl

@[simp] theorem RampStrategy.taggedChoice?_spelled (strategy : RampStrategy) :
    taggedChoice? ofName? (spelled (.text strategy.name)) = some strategy := by
  cases strategy <;> rfl

namespace Contour

def numbers (contour : Contour Float) : List Float :=
  contour.cut.numbers ++ contour.geometry.numbers ++
    [contour.depth, contour.stepDown, contour.stockToLeave]

theorem names_toFields (contour : Contour Float) : contour.toFields.map Prod.fst =
    ["cut", "geometry", "depth", "step_down", "lead_in", "lead_out", "climb", "compensation",
      "stock_to_leave"] := rfl

@[simp] theorem read?_spelled (contour : Contour Float) :
    read? read (.record (spelledFields contour.toFields)) = some contour ↔
      contour.cut.tool.Fits ∧ ∀ number ∈ contour.numbers, number.isFinite = true := by
  have distinct : ((spelledFields contour.toFields).map Prod.fst).Nodup := by
    simp [names_toFields]
  obtain ⟨cut, geometry, depth, stepDown, leadIn, leadOut, climb, compensation, stockToLeave⟩ :=
    contour
  rw [toFields] at distinct ⊢
  simp [read, read?_required distinct, read?_defaulted distinct, List.lookup_cons,
    Option.bind_eq_some_iff, numbers, or_imp, forall_and, and_assoc]

end Contour

namespace Pocket

def numbers (pocket : Pocket Float) : List Float :=
  pocket.cut.numbers ++ pocket.boundary.numbers ++
    [pocket.depth, pocket.stepDown, pocket.stepOver, pocket.helix.pitch, pocket.stockToLeave]

def Fits (pocket : Pocket Float) : Prop := pocket.cut.tool.Fits ∧ pocket.helix.Fits

theorem names_toFields (pocket : Pocket Float) : pocket.toFields.map Prod.fst =
    ["cut", "boundary", "depth", "step_down", "step_over", "pattern", "ramp", "helix",
      "stock_to_leave"] := rfl

@[simp] theorem read?_spelled (pocket : Pocket Float) :
    read? read (.record (spelledFields pocket.toFields)) = some pocket ↔
      pocket.Fits ∧ ∀ number ∈ pocket.numbers, number.isFinite = true := by
  have distinct : ((spelledFields pocket.toFields).map Prod.fst).Nodup := by
    simp [names_toFields]
  obtain ⟨cut, boundary, depth, stepDown, stepOver, pattern, ramp, helix, stockToLeave⟩ := pocket
  rw [toFields] at distinct ⊢
  simp [read, read?_required distinct, read?_defaulted distinct, List.lookup_cons,
    Option.bind_eq_some_iff, Fits, numbers, or_imp, forall_and, and_assoc, and_comm, and_left_comm]

end Pocket

namespace Drilling

def numbers (drilling : Drilling Float) : List Float :=
  drilling.cut.numbers ++ drilling.points.flatMap PlanePoint.numbers ++
    [drilling.depth, drilling.peckDepth, drilling.clearance, drilling.retract, drilling.dwell]

theorem names_toFields (drilling : Drilling Float) : drilling.toFields.map Prod.fst =
    ["cut", "points", "depth", "peck_depth", "clearance", "retract", "dwell"] := rfl

@[simp] theorem read?_spelled (drilling : Drilling Float) :
    read? read (.record (spelledFields drilling.toFields)) = some drilling ↔
      drilling.cut.tool.Fits ∧ ∀ number ∈ drilling.numbers, number.isFinite = true := by
  have distinct : ((spelledFields drilling.toFields).map Prod.fst).Nodup := by
    simp [names_toFields]
  obtain ⟨cut, points, depth, peckDepth, clearance, retract, dwell⟩ := drilling
  rw [toFields] at distinct ⊢
  simp [read, read?_required distinct, read?_defaulted distinct, List.lookup_cons,
    Option.bind_eq_some_iff, numbers, List.forall_mem_append, List.forall_mem_flatMap,
    -List.mem_append, -List.mem_flatMap, and_assoc]

end Drilling

namespace Operation

def numbers : Operation Float → List Float
  | .contour profile => profile.numbers
  | .pocket cavity => cavity.numbers
  | .drill holes => holes.numbers

/-- Whole numbers have 32 bits. -/
def Fits : Operation Float → Prop
  | .contour profile => profile.cut.tool.Fits
  | .pocket cavity => cavity.Fits
  | .drill holes => holes.cut.tool.Fits

theorem ofJson?_tagged {name : String} {reader : Json → Option (Operation Float)}
    (isReader : readerOf? name = some reader) {fields : List (String × Json)}
    (absent : "type" ∉ fields.map Prod.fst) :
    ofJson? (spelled (.record (("type", .text name) :: fields))) =
      reader (.record (spelledFields fields)) := by
  rw [← names_spelledFields] at absent
  rw [spelled, spelledFields, ofJson?, tagged?_cons absent]
  simp [spelled, text?, isReader]

@[simp] theorem ofJson?_spelled (operation : Operation Float) :
    ofJson? operation.toJson.spelled = some operation ↔
      operation.Fits ∧ ∀ number ∈ operation.numbers, number.isFinite = true := by
  cases operation with
  | contour profile =>
      have absent : "type" ∉ profile.toFields.map Prod.fst := by simp [Contour.names_toFields]
      rw [toJson, name, ofJson?_tagged rfl absent, read?_map]
      simp [Fits, numbers]
  | pocket cavity =>
      have absent : "type" ∉ cavity.toFields.map Prod.fst := by simp [Pocket.names_toFields]
      rw [toJson, name, ofJson?_tagged rfl absent, read?_map]
      simp [Fits, numbers]
  | drill holes =>
      have absent : "type" ∉ holes.toFields.map Prod.fst := by simp [Drilling.names_toFields]
      rw [toJson, name, ofJson?_tagged rfl absent, read?_map]
      simp [Fits, numbers]

end Operation

/-- A toolpath, and an operation, is read back from the data that is written for it exactly if
all of its numbers are finite and its whole numbers are ones that their fields can hold. -/
theorem interchange_reads_back (path : Toolpath Float) (operation : Operation Float) :
    (Toolpath.ofJson? path.toJson.spelled = some path ↔
        path.Fits ∧ ∀ number ∈ path.numbers, number.isFinite = true) ∧
      (Operation.ofJson? operation.toJson.spelled = some operation ↔
        operation.Fits ∧ ∀ number ∈ operation.numbers, number.isFinite = true) :=
  ⟨path.ofJson?_spelled, operation.ofJson?_spelled⟩

end Milling
