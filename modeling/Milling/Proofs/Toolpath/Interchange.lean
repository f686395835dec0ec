import Mathlib
import Milling.Proofs.Json.Record
import Milling.Toolpath.Interchange

/-!
# Toolpaths that are written and read

A point is read back from what was written for it: its own fields and those of its motion have
different names whatever the kind of motion, so each is found where it was put, and what was
left out is absent again.  Only a number that is not finite, or a whole number that its field
cannot hold, is lost.
-/

namespace Milling

open Json Members

namespace PlanePoint

def numbers (point : PlanePoint Float) : List Float := [point.x, point.y]

@[simp] theorem ofJson?_spelled (point : PlanePoint Float) :
    ofJson? point.toJson.spelled = some point ↔
      ∀ number ∈ point.numbers, number.isFinite = true := by
  obtain ⟨x, y⟩ := point
  have distinct : ((spelledFields [("x", .float x), ("y", .float y)]).map Prod.fst).Nodup := by
    simp
  rw [ofJson?, toJson, spelled]
  simp [read?_required distinct, List.lookup_cons, Option.bind_eq_some_iff, numbers]

end PlanePoint

namespace Polyline

def numbers (polyline : Polyline Float) : List Float :=
  polyline.points.flatMap PlanePoint.numbers

@[simp] theorem ofJson?_spelled (polyline : Polyline Float) :
    ofJson? polyline.toJson.spelled = some polyline ↔
      ∀ number ∈ polyline.numbers, number.isFinite = true := by
  obtain ⟨points, closed⟩ := polyline
  have distinct : ((spelledFields [("points", .list (points.map PlanePoint.toJson)),
      ("closed", .bool closed)]).map Prod.fst).Nodup := by
    simp
  rw [ofJson?, toJson, spelled]
  simp [read?_required distinct, read?_defaulted distinct, List.lookup_cons,
    Option.bind_eq_some_iff, numbers, List.forall_mem_flatMap, -List.mem_flatMap]

end Polyline

@[simp] theorem Rotation.taggedChoice?_spelled (rotation : Rotation) :
    taggedChoice? ofName? (spelled (.text rotation.name)) = some rotation := by
  cases rotation <;> rfl

namespace Motion

/-- The names of the fields that a kind of motion may have. -/
def fieldNames : MotionKind → List String
  | .rapid => ["type"]
  | .linear => ["type"]
  | .arc => ["type", "direction", "i", "j", "k", "r"]
  | .drill => ["type", "cycle", "retract_height", "dwell_time", "peck"]
  | .dwell => ["type", "seconds"]

def numbers : Motion Float → List Float
  | .rapid => []
  | .linear => []
  | .arc shape => shape.i.toList ++ shape.j.toList ++ shape.k.toList ++ shape.radius.toList
  | .drill cycle => cycle.retract.toList ++ cycle.dwell.toList ++ cycle.peck.toList
  | .dwell seconds => [seconds]

/-- The number of a drilling cycle has eight bits. -/
def Fits : Motion Float → Prop
  | .drill cycle => cycle.cycle ≤ greatest8
  | _ => True

theorem names_toFields (motion : Motion Float) :
    (motion.toFields.map Prod.fst).Sublist (fieldNames motion.kind) := by
  cases motion with
  | rapid => exact List.Sublist.refl _
  | linear => exact List.Sublist.refl _
  | arc shape =>
      simp only [toFields, List.map_cons, List.map_append]
      exact (((((names_present "i" _).append (names_present "j" _)).append
        (names_present "k" _)).append (names_present "r" _)).cons_cons _).cons_cons _
  | drill cycle =>
      simp only [toFields, List.map_cons, List.map_append]
      exact ((((names_present "retract_height" _).append (names_present "dwell_time" _)).append
        (names_present "peck" _)).cons_cons _).cons_cons _
  | dwell seconds => exact List.Sublist.refl _

theorem kindOfTag?_spelled (kind : MotionKind) :
    kindOfTag? (spelled (.text kind.name)) = some kind := by
  cases kind <;> rfl

@[simp] theorem keeps_read {fields : List (String × Json)} : Keeps fields read := by
  refine (keeps_required _ _).bind fun kind => ?_
  cases kind with
  | rapid => exact keeps_pure _
  | linear => exact keeps_pure _
  | arc =>
      exact (keeps_required _ _).bind fun _ => (keeps_defaulted _ _ _).bind fun _ =>
        (keeps_defaulted _ _ _).bind fun _ => (keeps_defaulted _ _ _).bind fun _ =>
          (keeps_defaulted _ _ _).bind fun _ => keeps_pure _
  | drill =>
      exact (keeps_required _ _).bind fun _ => (keeps_defaulted _ _ _).bind fun _ =>
        (keeps_defaulted _ _ _).bind fun _ => (keeps_defaulted _ _ _).bind fun _ => keeps_pure _
  | dwell => exact (keeps_required _ _).bind fun _ => keeps_pure _

/-- A motion is read back from any record that has its fields among others of other names. -/
theorem read?_of_lookup {fields : List (String × Json)} (distinct : (fields.map Prod.fst).Nodup)
    {motion : Motion Float}
    (written : ∀ name ∈ fieldNames motion.kind,
      fields.lookup name = (motion.toFields.lookup name).map spelled) :
    read? read (.record fields) = some motion ↔
      motion.Fits ∧ ∀ number ∈ motion.numbers, number.isFinite = true := by
  have isTagged : read? (required "type" kindOfTag?) (.record fields) = some motion.kind := by
    have isType : "type" ∈ fieldNames motion.kind := by cases motion <;> simp [kind, fieldNames]
    have named : motion.toFields.lookup "type" = some (.text motion.kind.name) :=
      List.lookup_cons_self
    rw [read?_required distinct, written "type" isType, named]
    exact kindOfTag?_spelled motion.kind
  rw [read, read?_bind (keeps_required _ _), isTagged, Option.bind_some]
  cases motion with
  | rapid => simp [kind, Fits, numbers]
  | linear => simp [kind, Fits, numbers]
  | arc shape =>
      obtain ⟨rotation, i, j, k, radius⟩ := shape
      obtain ⟨-, isRotation, isI, isJ, isK, isRadius⟩ :
          fields.lookup "type" = some (spelled (.text MotionKind.arc.name)) ∧
            fields.lookup "direction" = some (spelled (.text rotation.name)) ∧
            fields.lookup "i" = i.map (spelled ∘ float) ∧
            fields.lookup "j" = j.map (spelled ∘ float) ∧
            fields.lookup "k" = k.map (spelled ∘ float) ∧
            fields.lookup "r" = radius.map (spelled ∘ float) := by
        simpa [kind, fieldNames, toFields, List.lookup_cons, List.lookup_append, lookup_present]
          using written
      simp [kind, readArc, Members.optional, read?_required distinct, read?_defaulted distinct,
        isRotation, isI, isJ, isK, isRadius, Option.bind_eq_some_iff, Fits, numbers, or_imp,
        forall_and]
  | drill cycle =>
      obtain ⟨cycle, retract, dwell, peck⟩ := cycle
      obtain ⟨-, isCycle, isRetract, isDwell, isPeck⟩ :
          fields.lookup "type" = some (spelled (.text MotionKind.drill.name)) ∧
            fields.lookup "cycle" = some (spelled (.integer cycle)) ∧
            fields.lookup "retract_height" = retract.map (spelled ∘ float) ∧
            fields.lookup "dwell_time" = dwell.map (spelled ∘ float) ∧
            fields.lookup "peck" = peck.map (spelled ∘ float) := by
        simpa [kind, fieldNames, toFields, List.lookup_cons, List.lookup_append, lookup_present]
          using written
      simp [kind, readDrill, Members.optional, read?_required distinct, read?_defaulted distinct,
        isCycle, isRetract, isDwell, isPeck, Option.bind_eq_some_iff, Fits, numbers, or_imp,
        forall_and]
  | dwell seconds =>
      have isSeconds : fields.lookup "seconds" = some (spelled (.float seconds)) :=
        written "seconds" (List.mem_of_mem_tail List.mem_cons_self)
      simp [kind, readDwell, read?_required distinct, isSeconds, Fits, numbers]

end Motion

namespace MotionPoint

def numbers (point : MotionPoint Float) : List Float :=
  [point.position.x, point.position.y, point.position.z] ++ point.rotary.toList ++
    point.motion.numbers ++ point.feed.toList ++ point.spindle.toList

/-- Whole numbers have 32 bits, those of drilling cycles eight. -/
def Fits (point : MotionPoint Float) : Prop :=
  point.motion.Fits ∧ point.tool ≤ greatest32 ∧ ∀ line ∈ point.line, line ≤ greatest32

/-- The names of the fields of a point that stand before those of its motion. -/
def frontNames : List String := ["x", "y", "z", "a"]

/-- The names of the fields of a point that stand after those of its motion. -/
def backNames : List String := ["feed_rate", "spindle_speed", "tool_id", "line", "comment"]

theorem nodup_fieldNames (kind : MotionKind) :
    (frontNames ++ Motion.fieldNames kind ++ backNames).Nodup := by
  cases kind <;> decide

theorem notMem_fieldNames {kind : MotionKind} {name : String}
    (isOwn : name ∈ frontNames ++ backNames) : name ∉ Motion.fieldNames kind := by
  revert name
  cases kind <;> decide

section Fields

variable (point : MotionPoint Float)

def front : List (String × Json) :=
  [("x", .float point.position.x), ("y", .float point.position.y),
    ("z", .float point.position.z)] ++ present "a" .float point.rotary

def back : List (String × Json) :=
  present "feed_rate" .float point.feed ++ present "spindle_speed" .float point.spindle ++
    [("tool_id", .integer point.tool)] ++
    present "line" (fun line : Nat => .integer line) point.line ++
    present "comment" .text point.comment

def fields : List (String × Json) := point.front ++ point.motion.toFields ++ point.back

theorem toJson_eq : point.toJson = .record point.fields := by
  obtain ⟨position, motion, rotary, feed, spindle, tool, line, comment⟩ := point
  cases line <;> simp only [toJson, fields, front, back, List.append_assoc] <;> rfl

theorem names_front : (point.front.map Prod.fst).Sublist frontNames := by
  rw [front, List.map_append]
  exact (List.Sublist.refl ["x", "y", "z"]).append (names_present "a" _)

theorem names_back : (point.back.map Prod.fst).Sublist backNames := by
  simp only [back, List.map_append]
  exact ((((names_present "feed_rate" _).append (names_present "spindle_speed" _)).append
    (List.Sublist.refl ["tool_id"])).append (names_present "line" _)).append
      (names_present "comment" _)

theorem nodup_names : ((spelledFields point.fields).map Prod.fst).Nodup := by
  rw [names_spelledFields, fields, List.map_append, List.map_append]
  exact ((point.names_front.append point.motion.names_toFields).append
    point.names_back).nodup (nodup_fieldNames point.motion.kind)

/-- The fields of the motion are found as they were put into the record of the point. -/
theorem lookup_of_motion {name : String} (isField : name ∈ Motion.fieldNames point.motion.kind) :
    (spelledFields point.fields).lookup name = (point.motion.toFields.lookup name).map spelled := by
  have front : name ∉ frontNames := fun own =>
    notMem_fieldNames (List.mem_append_left _ own) isField
  have back : name ∉ backNames := fun own =>
    notMem_fieldNames (List.mem_append_right _ own) isField
  rw [lookup_spelledFields, fields, List.lookup_append, List.lookup_append,
    lookup_eq_none_of_notMem point.names_front front,
    lookup_eq_none_of_notMem point.names_back back, Option.none_or, Option.or_none]

/-- The fields of the point itself are found as they were put there. -/
theorem lookup_of_point :
    let fields := spelledFields point.fields
    fields.lookup "x" = some (spelled (.float point.position.x)) ∧
      fields.lookup "y" = some (spelled (.float point.position.y)) ∧
      fields.lookup "z" = some (spelled (.float point.position.z)) ∧
      fields.lookup "a" = point.rotary.map (spelled ∘ float) ∧
      fields.lookup "feed_rate" = point.feed.map (spelled ∘ float) ∧
      fields.lookup "spindle_speed" = point.spindle.map (spelled ∘ float) ∧
      fields.lookup "tool_id" = some (spelled (.integer point.tool)) ∧
      fields.lookup "line" = point.line.map (spelled ∘ fun line : Nat => integer line) ∧
      fields.lookup "comment" = point.comment.map (spelled ∘ text) := by
  have foreign (name : String) (isOwn : name ∈ frontNames ++ backNames) :
      point.motion.toFields.lookup name = none :=
    lookup_eq_none_of_notMem point.motion.names_toFields (notMem_fieldNames isOwn)
  simp [List.lookup_append, fields, front, back, List.lookup_cons, foreign "a" (by decide),
    foreign "feed_rate" (by decide), foreign "spindle_speed" (by decide),
    foreign "tool_id" (by decide), foreign "line" (by decide), foreign "comment" (by decide)]

end Fields

@[simp] theorem ofJson?_spelled (point : MotionPoint Float) :
    ofJson? point.toJson.spelled = some point ↔
      point.Fits ∧ ∀ number ∈ point.numbers, number.isFinite = true := by
  have distinct := point.nodup_names
  have isMotion := Motion.read?_of_lookup distinct fun name => point.lookup_of_motion
  obtain ⟨isX, isY, isZ, isRotary, isFeed, isSpindle, isTool, isLine, isComment⟩ :=
    point.lookup_of_point
  rw [toJson_eq, spelled]
  -- reading asks a record for nothing but these lookups
  generalize spelledFields point.fields = fields at *
  obtain ⟨⟨x, y, z⟩, motion, rotary, feed, spindle, tool, line, comment⟩ := point
  simp [ofJson?, read, Members.optional, read?_required distinct, read?_defaulted distinct, isX,
    isY, isZ, isRotary, isMotion, isFeed, isSpindle, isTool, isLine, isComment,
    Option.bind_eq_some_iff, Fits, numbers, or_imp, forall_and, and_assoc, and_comm, and_left_comm]

end MotionPoint

namespace Toolpath

def numbers (path : Toolpath Float) : List Float :=
  path.points.flatMap MotionPoint.numbers ++ path.diameter.toList

/-- Whole numbers have 32 bits, those of drilling cycles eight. -/
def Fits (path : Toolpath Float) : Prop :=
  (∀ point ∈ path.points, point.Fits) ∧ ∀ tool ∈ path.tool, tool ≤ greatest32

def fields (path : Toolpath Float) : List (String × Json) :=
  ("points", .list (path.points.map MotionPoint.toJson)) ::
    (present "tool_id" (fun tool : Nat => .integer tool) path.tool ++
      present "tool_diameter" .float path.diameter)

theorem toJson_eq (path : Toolpath Float) : path.toJson = .record path.fields := by
  obtain ⟨points, tool, diameter⟩ := path
  cases tool <;> rfl

theorem nodup_names (path : Toolpath Float) : (path.fields.map Prod.fst).Nodup := by
  have names : (path.fields.map Prod.fst).Sublist ["points", "tool_id", "tool_diameter"] := by
    rw [fields, List.map_cons, List.map_append]
    exact ((names_present "tool_id" _).append (names_present "tool_diameter" _)).cons_cons _
  exact names.nodup (by decide)

@[simp] theorem ofJson?_spelled (path : Toolpath Float) :
    ofJson? path.toJson.spelled = some path ↔
      path.Fits ∧ ∀ number ∈ path.numbers, number.isFinite = true := by
  have distinct := path.nodup_names
  rw [← names_spelledFields] at distinct
  obtain ⟨arePoints, isTool, isDiameter⟩ :
      let fields := spelledFields path.fields
      fields.lookup "points" = some (spelled (.list (path.points.map MotionPoint.toJson))) ∧
        fields.lookup "tool_id" = path.tool.map (spelled ∘ fun tool : Nat => integer tool) ∧
        fields.lookup "tool_diameter" = path.diameter.map (spelled ∘ float) := by
    simp [fields, List.lookup_cons, List.lookup_append]
  rw [toJson_eq, spelled]
  generalize spelledFields path.fields = fields at *
  obtain ⟨points, tool, diameter⟩ := path
  simp [ofJson?, Members.optional, read?_required distinct, read?_defaulted distinct, arePoints,
    isTool, isDiameter, Option.bind_eq_some_iff, Fits, numbers, List.forall_mem_append,
    List.forall_mem_flatMap, -List.mem_append, -List.mem_flatMap, forall_and, and_assoc, and_comm,
    and_left_comm]

end Toolpath

end Milling
