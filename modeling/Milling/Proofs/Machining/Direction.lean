import Mathlib
import Milling.Machining.Profile
import Milling.Proofs.Offset.Corner
import Milling.Proofs.Offset.Reversal
import Milling.Proofs.Machining.Raster

/-!
# The direction of closed profiles

A loop that is picked among those beside an outline keeps its area when it is started
elsewhere, and turns its sign when it is reversed.  It is reversed exactly if it goes the
wrong way, so a closed outline is travelled clockwise for a climb cut and counterclockwise
otherwise.
-/

namespace Milling

variable {α : Type}

theorem mem_of_bestOf? {β : Type} {better : β → β → Bool} {items : List β} {item : β}
    (found : bestOf? better items = some item) : item ∈ items := by
  cases items with
  | nil => cases found
  | cons first rest =>
      obtain rfl := Option.some.inj found
      induction rest generalizing first with
      | nil => exact List.mem_cons_self
      | cons second rest ih =>
          rw [List.foldl_cons]
          split
          · exact List.mem_cons_of_mem first (ih second rfl)
          · rcases List.mem_cons.mp (ih first rfl) with isFirst | later
            · rw [isFirst]
              exact List.mem_cons_self
            · exact List.mem_cons_of_mem first (List.mem_cons_of_mem second later)

namespace OffsetLoop

/-- A loop that comes back to the vertex at which it starts. -/
structure IsRound (loop : OffsetLoop α) : Prop where
  closed : loop.closed = true
  nonempty : loop.vertices ≠ []

namespace IsRound

variable {loop : OffsetLoop α}

theorem exists_points (round : loop.IsRound) : ∃ first rest, loop.points = first :: rest := by
  refine List.exists_cons_of_ne_nil fun none => round.nonempty ?_
  rwa [points, List.map_eq_nil_iff] at none

theorem rotated (round : loop.IsRound) (start : Nat) : (loop.rotated start).IsRound := by
  obtain ⟨front, back, isVertices, isRotated⟩ := exists_rotated_eq loop start
  rw [isRotated]
  refine ⟨round.closed, fun none => round.nonempty ?_⟩
  obtain ⟨noBack, noFront⟩ := List.append_eq_nil_iff.mp none
  rw [isVertices, noBack, noFront, List.append_nil]

theorem reversed [Scalar α] (round : loop.IsRound) : loop.reversed.IsRound := by
  obtain ⟨first, rest, isPoints⟩ := round.exists_points
  refine ⟨(closed_reversed loop).trans round.closed, fun none => ?_⟩
  have reached := points_reversed_of_closed round.closed isPoints
  rw [points, none] at reached
  cases reached

end IsRound

end OffsetLoop

namespace Offsetter

def KeepsClosed (offsetter : Offsetter α) : Prop :=
  ∀ outline distance loops, outline.closed = true → offsetter outline distance = some loops →
    ∀ loop ∈ loops, loop.closed = true

variable [Scalar α] {offsetter : Offsetter α}

theorem isRound_of_run (keeps : offsetter.KeepsClosed) {outline : Polyline α}
    (closed : outline.closed = true) {distance : α} {loops : List (OffsetLoop α)}
    (made : offsetter.run outline distance = .ok loops) : ∀ loop ∈ loops, loop.IsRound := by
  have distinctClosed : outline.distinct.closed = true := by
    unfold Polyline.distinct
    split <;> exact closed
  unfold run at made
  split at made
  · rename_i all isAll
    obtain rfl := Except.ok.inj made
    intro loop isLoop
    obtain ⟨isMember, nonempty⟩ := List.mem_filter.mp isLoop
    refine ⟨keeps _ _ _ distinctClosed isAll loop isMember, fun none => ?_⟩
    rw [none] at nonempty
    cases nonempty
  · cases made

theorem isRound_of_aroundClosed (keeps : offsetter.KeepsClosed) {polygon : Polyline α}
    {distance : α} {loops : List (OffsetLoop α)}
    (made : offsetter.aroundClosed polygon distance = .ok loops) :
    ∀ loop ∈ loops, loop.IsRound := by
  unfold aroundClosed at made
  dsimp only at made
  generalize (if polygon.isCounterclockwise then polygon else polygon.reversed) = turned at made
  obtain ⟨first, isFirst, made⟩ := exists_of_bind_eq_ok made
  obtain ⟨chosen, round, made⟩ : ∃ chosen : List (OffsetLoop α), (∀ loop ∈ chosen, loop.IsRound) ∧
      (.ok (chosen.map fun loop => if loop.signedArea < 0 then loop.reversed else loop) :
        Except α (List (OffsetLoop α))) = .ok loops := by
    split at made
    · exact ⟨first, isRound_of_run keeps rfl isFirst, made⟩
    · obtain ⟨second, isSecond, made⟩ := exists_of_bind_eq_ok made
      exact ⟨second, isRound_of_run keeps rfl isSecond, made⟩
  obtain rfl := Except.ok.inj made
  intro loop isLoop
  obtain ⟨source, isSource, rfl⟩ := List.mem_map.mp isLoop
  split
  · exact (round source isSource).reversed
  · exact round source isSource

theorem keepsClosed_rectangular (width height : ℝ) :
    (rectangular width height).KeepsClosed := by
  intro outline distance loops _ made loop isLoop
  unfold rectangular at made
  split at made
  · obtain rfl := Option.some.inj made
    obtain rfl := List.mem_singleton.mp isLoop
    rfl
  · obtain rfl := Option.some.inj made
    cases isLoop

theorem keepsClosed_aroundRectangle (width height : ℝ) :
    (aroundRectangle width height).KeepsClosed := by
  intro outline distance loops closed made loop isLoop
  unfold aroundRectangle at made
  split at made
  · obtain rfl := Option.some.inj made
    obtain rfl := List.mem_singleton.mp isLoop
    rfl
  · exact keepsClosed_rectangular width height outline distance loops closed made loop isLoop

end Offsetter

namespace Contour

variable [ExactScalar α] {offsetter : Offsetter α} {contour : Contour α}

/-- The loop that is followed around a closed outline: the largest one beside it, or the
outline itself if it is not offset here. -/
def Follows (offsetter : Offsetter α) (contour : Contour α) (loop : OffsetLoop α) : Prop :=
  match contour.compensation with
  | .computer => ∃ loops, offsetter.aroundClosed contour.geometry contour.offset = .ok loops ∧
      largest? loops = some loop
  | .control => loop = .ofPolyline contour.geometry
  | .none => loop = .ofPolyline contour.geometry

theorem isRound_ofPolyline (closed : contour.isClosed = true) :
    (OffsetLoop.ofPolyline contour.geometry).IsRound := by
  rw [isClosed, Bool.and_eq_true, decide_eq_true_eq] at closed
  obtain ⟨isClosed, enough⟩ := closed
  refine ⟨isClosed, fun none => ?_⟩
  have length := congrArg List.length none
  simp only [OffsetLoop.ofPolyline, List.length_map, List.length_nil] at length
  omega

theorem exists_startNear_eq (loop : OffsetLoop α) (geometry : Polyline α) :
    startNear loop geometry = loop ∨ ∃ start, startNear loop geometry = loop.rotated start := by
  unfold startNear
  split
  · exact .inl rfl
  · dsimp only
    split
    · exact .inr ⟨_, rfl⟩
    · exact .inr ⟨_, rfl⟩

theorem exists_follows (closed : contour.isClosed = true) (keeps : offsetter.KeepsClosed)
    {beside : OffsetLoop α} (made : contour.besideLoop offsetter = .ok beside) :
    ∃ loop, contour.Follows offsetter loop ∧ beside.IsRound ∧
      beside.signedArea = loop.signedArea := by
  unfold besideLoop at made
  cases isMode : contour.compensation with
  | computer =>
      simp only [isMode, closed, if_true] at made
      obtain ⟨loops, isLoops, made⟩ := exists_of_bind_eq_ok made
      have around := Offsetter.eq_ok_of_orError isLoops
      cases isLargest : largest? loops with
      | none =>
          rw [isLargest] at made
          cases made
      | some loop =>
          rw [isLargest] at made
          obtain rfl := Except.ok.inj made
          have round := Offsetter.isRound_of_aroundClosed keeps around loop
            (mem_of_bestOf? isLargest)
          refine ⟨loop, ?_, ?_⟩
          · rw [Follows, isMode]
            exact ⟨loops, around, isLargest⟩
          · rcases exists_startNear_eq loop contour.geometry with same | ⟨start, rotated⟩
            · rw [same]
              exact ⟨round, rfl⟩
            · rw [rotated]
              exact ⟨round.rotated start, loop.signedArea_rotated start⟩
  | control =>
      rw [isMode] at made
      obtain rfl := Except.ok.inj made
      exact ⟨_, by rw [Follows, isMode], isRound_ofPolyline closed, rfl⟩
  | none =>
      rw [isMode] at made
      obtain rfl := Except.ok.inj made
      exact ⟨_, by rw [Follows, isMode], isRound_ofPolyline closed, rfl⟩

def pathArea (path : List (PathVertex α)) : α :=
  Polyline.signedArea { points := path.map PathVertex.point, closed := true }

theorem pathArea_toPath {loop : OffsetLoop α} (round : loop.IsRound) :
    pathArea loop.toPath = loop.signedArea := by
  obtain ⟨first, rest, isPoints⟩ := round.exists_points
  rw [pathArea, OffsetLoop.map_point_toPath_of_closed round.closed isPoints,
    OffsetLoop.signedArea, isPoints, round.closed]
  exact Polyline.signedArea_append_first first rest true true

/-- The loop that is cut goes clockwise for a climb cut and counterclockwise otherwise. -/
theorem signedArea_of_cutLoop (closed : contour.isClosed = true) {beside loop : OffsetLoop α}
    (isBeside : contour.besideLoop offsetter = .ok beside) (round : beside.IsRound)
    (made : contour.cutLoop offsetter = .ok loop) :
    loop.IsRound ∧
      loop.signedArea = if contour.climb then -|beside.signedArea| else |beside.signedArea| := by
  have isLoop : loop =
      if decide (0 < beside.signedArea) == contour.climb then beside.reversed else beside := by
    rw [cutLoop, isBeside] at made
    simp only [bind, Except.bind, closed, Bool.true_and, ExactScalar.literal_zero] at made
    split at made
    · rename_i turns
      rw [if_pos turns]
      exact (Except.ok.inj made).symm
    · rename_i stays
      rw [if_neg stays]
      exact (Except.ok.inj made).symm
  rw [isLoop]
  rcases lt_or_ge 0 beside.signedArea with counterclockwise | clockwise
  · rw [decide_eq_true counterclockwise, abs_of_pos counterclockwise]
    cases contour.climb with
    | true => exact ⟨round.reversed, beside.signedArea_reversed⟩
    | false => exact ⟨round, rfl⟩
  · rw [decide_eq_false (not_lt.mpr clockwise), abs_of_nonpos clockwise]
    cases contour.climb with
    | true => exact ⟨round, (neg_neg _).symm⟩
    | false => exact ⟨round.reversed, beside.signedArea_reversed⟩

/-- There is a path around a closed outline if there is a loop around it. -/
theorem exists_cutPath (isMode : contour.compensation = .computer)
    (closed : contour.isClosed = true) {loops : List (OffsetLoop α)}
    (around : offsetter.aroundClosed contour.geometry contour.offset = .ok loops)
    {loop : OffsetLoop α} (isLargest : largest? loops = some loop) :
    ∃ path, contour.cutPath offsetter = .ok path := by
  have beside : contour.besideLoop offsetter = .ok (startNear loop contour.geometry) := by
    simp only [besideLoop, isMode, closed, if_true, around, Offsetter.orError, bind, Except.bind,
      isLargest]
  obtain ⟨cut, isCut⟩ : ∃ cut, contour.cutLoop offsetter = .ok cut := by
    simp only [cutLoop, beside, bind, Except.bind]
    split <;> exact ⟨_, rfl⟩
  refine ⟨cut.toPath, ?_⟩
  rw [cutPath, isCut]
  rfl

theorem returns_toPath {loop : OffsetLoop α} (round : loop.IsRound) :
    ∃ first ∈ loop.toPath.head?, ∃ last ∈ loop.toPath.getLast?, last.point = first.point := by
  obtain ⟨first, rest, isPoints⟩ := round.exists_points
  have places := OffsetLoop.map_point_toPath_of_closed round.closed isPoints
  have ends : loop.toPath.getLast?.map PathVertex.point = some first := by
    rw [← List.getLast?_map, places, List.getLast?_concat]
  obtain ⟨last, isLast, there⟩ := Option.map_eq_some_iff.mp ends
  refine ⟨{ point := first }, ?_, last, isLast, there⟩
  rw [OffsetLoop.toPath_of_points isPoints]
  rfl

/-- A closed outline is travelled clockwise for a climb cut and counterclockwise otherwise,
strictly so if the chosen loop has an area, and back to where the path starts. -/
theorem cutPath_turns (closed : contour.isClosed = true) (keeps : offsetter.KeepsClosed)
    {path : List (PathVertex α)} (made : contour.cutPath offsetter = .ok path) :
    ∃ loop, contour.Follows offsetter loop ∧
      (contour.climb = true → pathArea path ≤ 0) ∧
      (contour.climb = false → 0 ≤ pathArea path) ∧
      (loop.signedArea ≠ 0 → pathArea path ≠ 0) ∧
      ∃ first ∈ path.head?, ∃ last ∈ path.getLast?, last.point = first.point := by
  obtain ⟨cut, isCut, made⟩ := exists_of_bind_eq_ok made
  obtain rfl := Except.ok.inj made
  obtain ⟨beside, isBeside, _⟩ := exists_of_bind_eq_ok isCut
  obtain ⟨loop, follows, besideRound, same⟩ := exists_follows closed keeps isBeside
  obtain ⟨round, area⟩ := signedArea_of_cutLoop closed isBeside besideRound isCut
  rw [pathArea_toPath round, area, same]
  refine ⟨loop, follows, fun climb => ?_, fun conventional => ?_, fun sized => ?_,
    returns_toPath round⟩
  · rw [if_pos climb]
    exact neg_nonpos.mpr (abs_nonneg _)
  · rw [conventional, if_neg Bool.false_ne_true]
    exact abs_nonneg _
  · split
    · exact neg_ne_zero.mpr (abs_ne_zero.mpr sized)
    · exact abs_ne_zero.mpr sized

/-- A square that is cut around from outside. -/
noncomputable def square : Contour ℝ :=
  { cut := {
      tool := {
        number := 3, kind := .endMill, diameter := 4, flutes := 3, material := .carbide
        surfaceSpeed := 120, feedPerTooth := 0.02, description := "4 mm mill" }
      feed := 300, spindle := 9000, safeZ := 5, clearanceZ := 50 }
    geometry := .rectangle 0 0 20 20
    depth := -2
    stepDown := 1
    leadIn := .tangent
    leadOut := .radial
    climb := true
    compensation := .computer
    stockToLeave := 0 }

theorem aroundClosed_square :
    (Offsetter.aroundRectangle 20 20).aroundClosed square.geometry square.offset =
      .ok [Offsetter.outsetRectangle 20 20 2] := by
  have offset : square.offset = 2 := by
    rw [Contour.offset, CutSettings.toolRadius, Tool.radius, ExactScalar.literal]
    norm_num [square]
  rw [offset]
  exact Offsetter.aroundClosed_outwards (by norm_num) (by norm_num) (by norm_num)

theorem follows_square {loop : OffsetLoop ℝ}
    (follows : square.Follows (Offsetter.aroundRectangle 20 20) loop) :
    loop = Offsetter.outsetRectangle 20 20 2 := by
  obtain ⟨loops, isLoops, isLargest⟩ := follows
  obtain rfl := Except.ok.inj (isLoops.symm.trans aroundClosed_square)
  exact (Option.some.inj isLargest).symm

theorem cutPath_turns_square :
    square.isClosed = true ∧ (Offsetter.aroundRectangle 20 20).KeepsClosed ∧
      ∃ path, square.cutPath (Offsetter.aroundRectangle 20 20) = .ok path ∧
        pathArea path < 0 ∧
        ∃ first ∈ path.head?, ∃ last ∈ path.getLast?, last.point = first.point := by
  have closed : square.isClosed = true := rfl
  obtain ⟨path, made⟩ := exists_cutPath rfl closed aroundClosed_square rfl
  have keeps := Offsetter.keepsClosed_aroundRectangle 20 20
  obtain ⟨loop, follows, clockwise, _, sized, returns⟩ := cutPath_turns closed keeps made
  obtain rfl := follows_square follows
  have area : (Offsetter.outsetRectangle 20 20 2).signedArea ≠ 0 := by
    rw [Offsetter.signedArea_outsetRectangle]
    norm_num
  exact ⟨closed, keeps, path, made, lt_of_le_of_ne (clockwise rfl) (sized area), returns⟩

end Contour

end Milling
