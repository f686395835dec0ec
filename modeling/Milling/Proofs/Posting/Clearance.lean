import Milling.Program.Check
import Milling.Proofs.Posting.RoundTrip
import Milling.Scalar.Double

/-!
# Checked paths are written

A path without errors has finite places, feeds above zero and speeds that are
not below zero.  The poster asks more of feeds and speeds than the check does:
they have to be finite, and only that can make it refuse a checked path.
-/

namespace Milling

variable {α : Type}

section Reports

theorem Report.isValid_concat_iff {reports : List (Report α)} :
    (Report.concat reports).isValid = true ↔ ∀ report ∈ reports, report.isValid = true := by
  simp [Report.concat, Report.isValid, List.isEmpty_iff]

theorem Report.isValid_errorIf (condition : Bool) (fault : Fault α) :
    (Report.errorIf condition fault).isValid = !condition := by
  cases condition <;> rfl

theorem Report.isValid_warningIf (condition : Bool) (fault : Fault α) :
    (Report.warningIf condition fault).isValid = true := by
  cases condition <;> rfl

theorem Report.isValid_empty : ({} : Report α).isValid = true := rfl

end Reports

/-- The coordinates of a point, its rotary axis included. -/
def MotionPoint.places (point : MotionPoint α) : List α :=
  [point.position.x, point.position.y, point.position.z] ++ point.rotary.toList

/-- The feed and the spindle speed that a point states. -/
def MotionPoint.rates (point : MotionPoint α) : List α :=
  point.feed.toList ++ point.spindle.toList

theorem MotionPoint.forall_mem_places {point : MotionPoint α} {holds : α → Prop} :
    (∀ value ∈ point.places, holds value) ↔
      holds point.position.x ∧ holds point.position.y ∧ holds point.position.z ∧
        ∀ value ∈ point.rotary, holds value := by
  simp [MotionPoint.places]

variable [Scalar α]

/-- A point in which a check finds no error. -/
structure MotionPoint.IsClear (point : MotionPoint α) : Prop where
  placed : ∀ value ∈ point.places, Scalar.isFinite value = true
  feed : ∀ feed ∈ point.feed, ¬feed ≤ 0 ∧ Scalar.isUndefined feed = false
  spindle : ∀ speed ∈ point.spindle, ¬speed < 0

namespace Program

theorem isValid_checkAxis_iff (line : Nat) (axis : Char) (value : Option α) :
    (checkAxis line axis value).isValid = true ↔
      ∀ number ∈ value, Scalar.isFinite number = true := by
  cases value <;> simp [checkAxis, Report.isValid_errorIf, Report.isValid_empty]

theorem isValid_checkFeed_iff (line : Nat) (feed : Option α) :
    (checkFeed line feed).isValid = true ↔
      ∀ value ∈ feed, ¬value ≤ 0 ∧ Scalar.isUndefined value = false := by
  cases feed <;> simp [checkFeed, Report.isValid_errorIf, Report.isValid_empty]

theorem isValid_checkSpindle_iff (line : Nat) (speed : Option α) :
    (checkSpindle line speed).isValid = true ↔ ∀ value ∈ speed, ¬value < 0 := by
  cases speed <;> simp [checkSpindle, Report.isValid_errorIf, Report.isValid_empty]

theorem isValid_checkPoint_iff (line : Nat) (point : MotionPoint α) :
    (checkPoint line point).isValid = true ↔ point.IsClear := by
  have given (value : α) : (∀ number ∈ some value, Scalar.isFinite number = true) ↔
      Scalar.isFinite value = true := by
    simp
  rw [checkPoint, Report.isValid_concat_iff]
  simp only [List.forall_mem_cons, Report.isValid_warningIf, isValid_checkAxis_iff, given,
    isValid_checkFeed_iff, isValid_checkSpindle_iff, true_and]
  constructor
  · rintro ⟨_, x, y, z, rotary, feed, spindle, _⟩
    exact ⟨MotionPoint.forall_mem_places.mpr ⟨x, y, z, rotary⟩, feed, spindle⟩
  · rintro ⟨placed, feed, spindle⟩
    obtain ⟨x, y, z, rotary⟩ := MotionPoint.forall_mem_places.mp placed
    refine ⟨?_, x, y, z, rotary, feed, spindle, by simp⟩
    -- An arc without a centre is warned about, which is no error.
    split
    · exact Report.isValid_warningIf _ _
    · exact Report.isValid_empty

/-- A path has no errors exactly when all of its points are clear. -/
theorem isValid_checkToolpath_iff (path : Toolpath α) :
    (checkToolpath path).isValid = true ↔ ∀ point ∈ path.points, point.IsClear := by
  rw [checkToolpath, Report.isValid_concat_iff]
  constructor
  · intro valid point member
    obtain ⟨index, isAt⟩ := List.mem_iff_getElem?.mp member
    have indexed : (point, index) ∈ path.points.zipIdx :=
      List.mem_zipIdx_iff_getElem?.mpr isAt
    exact (isValid_checkPoint_iff _ point).mp (valid _ (List.mem_map.mpr ⟨_, indexed, rfl⟩))
  · intro clear report member
    obtain ⟨⟨point, index⟩, indexed, rfl⟩ := List.mem_map.mp member
    exact (isValid_checkPoint_iff _ point).mpr (clear point (List.fst_mem_of_mem_zipIdx indexed))

end Program

namespace Posting

/-- Only the feed and the speed of a clear point can be unfit to be written. -/
theorem infiniteWord?_of_isClear {point : MotionPoint α} (clear : point.IsClear) :
    infiniteWord? point =
      (([('F', point.feed), ('S', point.spindle)] : List (Char × Option α)).find? fun word =>
        word.2.any fun value => !Scalar.isFinite value).map Prod.fst := by
  obtain ⟨x, y, z, turned⟩ := MotionPoint.forall_mem_places.mp clear.placed
  have rotary : (point.rotary.any fun value => !Scalar.isFinite value) = false := by
    cases isRotary : point.rotary with
    | none => rfl
    | some value => simp [turned value isRotary]
  simp [infiniteWord?, List.find?_cons, x, y, z, rotary]

/-- A path is refused for one of its points exactly when that is the first
point that cannot be written. -/
theorem program_eq_invalidPoint_iff (poster : Poster α) (date : String) (path : Toolpath α)
    (operations : List (Operation α)) (id : String) (error : PointError) :
    poster.program date path operations id = .error (.invalidPoint error) ↔
      pointError? path.points = some error := by
  cases empty : path.points.isEmpty with
  | true =>
      have noPoints : path.points = [] := List.isEmpty_iff.mp empty
      simp only [Poster.program, Poster.lines, noPoints, pointError?]
      simp [bind, Except.bind]
  | false =>
      cases stopped : pointError? path.points with
      | none => simp [Poster.program, Poster.lines, empty, stopped, bind, Except.bind, pure,
          Except.pure]
      | some other => simp [Poster.program, Poster.lines, empty, stopped, bind, Except.bind]

/-- A path without errors is refused for a point exactly when a feed or a
speed in it is not finite, and what is refused is then that word. -/
theorem program_refused_iff (poster : Poster α) (date : String) {path : Toolpath α}
    (valid : (Program.checkToolpath path).isValid = true) (operations : List (Operation α))
    (id : String) :
    ((∃ error, poster.program date path operations id = .error (.invalidPoint error)) ↔
        ∃ point ∈ path.points, ∃ rate ∈ point.rates, Scalar.isFinite rate = false) ∧
      ∀ error, poster.program date path operations id = .error (.invalidPoint error) →
        error.letter ∈ ['F', 'S'] := by
  have clear : ∀ point ∈ path.points, point.IsClear :=
    (Program.isValid_checkToolpath_iff path).mp valid
  have numbers (point : MotionPoint α) : checkedNumbers point = point.places ++ point.rates := by
    simp [checkedNumbers, MotionPoint.places, MotionPoint.rates]
  have unstopped : pointError? path.points = none ↔
      ∀ point ∈ path.points, ∀ rate ∈ point.rates, Scalar.isFinite rate = true := by
    rw [pointError?_eq_none_iff]
    refine forall₂_congr fun point member => ?_
    rw [numbers, List.forall_mem_append]
    exact and_iff_right (clear point member).placed
  simp only [program_eq_invalidPoint_iff]
  constructor
  · rw [← Option.isSome_iff_exists, ← Option.ne_none_iff_isSome, ne_eq, unstopped]
    simp
  · intro error stopped
    obtain ⟨⟨point, index⟩, indexed, isError⟩ := List.exists_of_findSome?_eq_some stopped
    obtain ⟨letter, isLetter, rfl⟩ := Option.map_eq_some_iff.mp isError
    rw [infiniteWord?_of_isClear (clear point (List.fst_mem_of_mem_zipIdx indexed))] at isLetter
    obtain ⟨word, isWord, rfl⟩ := Option.map_eq_some_iff.mp isLetter
    have member := List.mem_of_find?_eq_some isWord
    simp only [List.mem_cons, List.not_mem_nil, or_false] at member
    rcases member with rfl | rfl <;> simp

/-- A straight cut with a spindle speed. -/
def spunCut (speed : Float) : Toolpath Float :=
  { points := [{ MotionPoint.linear 1 0 0 with spindle := some speed }] }

theorem program_refused_iff_spunCut :
    (Program.checkToolpath (spunCut 8000)).isValid = true ∧
      ((∃ error, Poster.standard.program "2026-01-31" (spunCut 8000) [] "fanuc" =
          .error (.invalidPoint error)) ↔
        ∃ point ∈ (spunCut 8000).points, ∃ rate ∈ point.rates, Scalar.isFinite rate = false) ∧
      ∀ error, Poster.standard.program "2026-01-31" (spunCut 8000) [] "fanuc" =
        .error (.invalidPoint error) → error.letter ∈ ['F', 'S'] := by
  have valid : (Program.checkToolpath (spunCut 8000)).isValid = true := by decide +kernel
  exact ⟨valid, program_refused_iff Poster.standard "2026-01-31" valid [] "fanuc"⟩

/-- An undefined speed is not below zero, so the check lets it through. -/
theorem spunCut_refused :
    (Program.checkToolpath (spunCut (0 / 0))).isValid = true ∧
      Poster.standard.program "2026-01-31" (spunCut (0 / 0)) [] "fanuc" =
        .error (.invalidPoint { index := 0, letter := 'S' }) := by
  refine ⟨by decide +kernel, ?_⟩
  rw [program_eq_invalidPoint_iff]
  decide +kernel

end Posting

end Milling
