import Mathlib
import Milling.Proofs.Geometry.Steps
import Milling.Proofs.Offset.Arc

/-!
# Loops backwards

A bulge belongs to the move that leaves its vertex, so backwards it goes to the vertex at
which that move ended.  The moves of a reversed loop are then those of the loop in the
opposite order, each from its end to its start, and its path leads back along the path of
the loop.
-/

namespace Milling

variable {α : Type}

/-- A path leads back along another one: to its places in the opposite order, straight where
the other one is straight, and otherwise around the same centres in the other sense. -/
structure LeadsBack (path back : List (PathVertex α)) : Prop where
  start : ∀ vertex ∈ back.head?, vertex.arc = none
  places : back.map PathVertex.point = (path.map PathVertex.point).reverse
  moves : back.tail.map PathVertex.arc =
    (path.tail.map fun vertex => vertex.arc.map ArcMove.backwards).reverse

namespace OffsetLoop

section Vertices

/-- Vertices from their places and their bulges. -/
def assembled (points : List (PlanePoint α)) (bulges : List α) : List (BulgeVertex α) :=
  points.zipWith (fun point bulge => { point, bulge }) bulges

variable {points : List (PlanePoint α)} {bulges : List α}

theorem map_point_assembled (lengths : points.length = bulges.length) :
    (assembled points bulges).map BulgeVertex.point = points :=
  List.ext_getElem (by simp [assembled, lengths]) fun index _ _ => by simp [assembled]

theorem map_bulge_assembled (lengths : points.length = bulges.length) :
    (assembled points bulges).map BulgeVertex.bulge = bulges :=
  List.ext_getElem (by simp [assembled, lengths]) fun index _ _ => by simp [assembled]

theorem assembled_reverse (lengths : points.length = bulges.length) :
    assembled points.reverse bulges.reverse = (assembled points bulges).reverse :=
  (List.reverse_zipWith lengths).symm

theorem assembled_points_bulges (loop : OffsetLoop α) :
    assembled loop.points loop.bulges = loop.vertices :=
  List.ext_getElem (by simp [assembled, points, bulges]) fun index _ _ => by
    simp [assembled, points, bulges]

theorem length_points (loop : OffsetLoop α) : loop.points.length = loop.vertices.length :=
  List.length_map _

theorem length_bulges (loop : OffsetLoop α) : loop.bulges.length = loop.vertices.length :=
  List.length_map _

end Vertices

section Moves

theorem segments_of_closed {loop : OffsetLoop α} (closed : loop.closed = true)
    {first : PlanePoint α} {rest : List (PlanePoint α)} (isPoints : loop.points = first :: rest) :
    loop.segments = loop.vertices.zip (rest ++ [first]) := by
  rw [segments, isPoints, closed]
  rfl

theorem segments_of_open {loop : OffsetLoop α} (isOpen : loop.closed = false) :
    loop.segments = loop.vertices.zip loop.points.tail := by
  cases isPoints : loop.points with
  | nil =>
      rw [segments, isPoints, List.tail_nil, List.zip_nil_right]
  | cons first rest =>
      rw [segments, isPoints, isOpen]
      rfl

variable [Scalar α]

def turnedMove (move : BulgeVertex α × PlanePoint α) : BulgeVertex α × PlanePoint α :=
  ({ point := move.2, bulge := -move.1.bulge }, move.1.point)

/-- Moves whose bulges are given to the vertices at which they end. -/
theorem zip_assembled (vertices : List (BulgeVertex α)) (stops : List (PlanePoint α)) :
    (assembled stops (vertices.map fun vertex => -vertex.bulge)).zip
      (vertices.map BulgeVertex.point) = (vertices.zip stops).map turnedMove := by
  induction vertices generalizing stops with
  | nil => simp [assembled]
  | cons vertex vertices ih =>
      cases stops with
      | nil => rfl
      | cons stop stops => exact congrArg (turnedMove (vertex, stop) :: ·) (ih stops)

theorem closed_reversed (loop : OffsetLoop α) : loop.reversed.closed = loop.closed := by
  unfold reversed
  dsimp only
  split
  · split <;> rfl
  · rfl

theorem vertices_reversed_of_closed {loop : OffsetLoop α} (closed : loop.closed = true)
    {first : PlanePoint α} {rest : List (PlanePoint α)} (isPoints : loop.points = first :: rest) :
    loop.reversed.vertices =
      assembled (first :: rest.reverse) (loop.bulges.reverse.map fun bulge => -bulge) := by
  unfold reversed
  rw [closed, isPoints]
  rfl

theorem vertices_reversed_of_open {loop : OffsetLoop α} (isOpen : loop.closed = false) :
    loop.reversed.vertices = assembled loop.points.reverse
      ((loop.bulges.dropLast.reverse.map fun bulge => -bulge) ++ [0]) := by
  unfold reversed
  rw [isOpen]
  rfl

theorem points_reversed_of_closed {loop : OffsetLoop α} (closed : loop.closed = true)
    {first : PlanePoint α} {rest : List (PlanePoint α)} (isPoints : loop.points = first :: rest) :
    loop.reversed.points = first :: rest.reverse := by
  have lengths := congrArg List.length isPoints
  rw [points, vertices_reversed_of_closed closed isPoints]
  apply map_point_assembled
  simpa [length_points, length_bulges] using lengths.symm

theorem points_reversed_of_open {loop : OffsetLoop α} (isOpen : loop.closed = false) :
    loop.reversed.points = loop.points.reverse := by
  cases isVertices : loop.vertices with
  | nil => simp [points, vertices_reversed_of_open isOpen, isVertices, assembled]
  | cons first rest =>
      rw [points, vertices_reversed_of_open isOpen]
      apply map_point_assembled
      simp [length_points, length_bulges, isVertices]

theorem zip_append_of_length {β γ : Type} {items : List β} {others : List γ}
    (lengths : items.length = others.length) (after : List β) :
    (items ++ after).zip others = items.zip others := by
  have split : (items ++ after).zip (others ++ []) = items.zip others ++ after.zip [] :=
    List.zip_append lengths
  rwa [List.append_nil, List.zip_nil_right, List.append_nil] at split

theorem segments_reversed_of_closed {loop : OffsetLoop α} (closed : loop.closed = true) :
    loop.reversed.segments = (loop.segments.map turnedMove).reverse := by
  have stillClosed : loop.reversed.closed = true := (closed_reversed loop).trans closed
  cases isPoints : loop.points with
  | nil =>
      have unchanged : loop.reversed = loop := by
        unfold reversed
        rw [closed, isPoints]
        rfl
      rw [unchanged, segments, isPoints]
      rfl
  | cons first rest =>
      let stops := rest ++ [first]
      let turned := loop.vertices.map fun vertex => -vertex.bulge
      have lengths : stops.length = turned.length := by
        have same := congrArg List.length isPoints
        simpa [stops, turned, length_points] using same.symm
      have vertices : loop.reversed.vertices = (assembled stops turned).reverse := by
        rw [vertices_reversed_of_closed closed isPoints, ← assembled_reverse lengths]
        simp [stops, turned, bulges, Function.comp_def]
      have backwards : rest.reverse ++ [first] =
          (loop.vertices.map BulgeVertex.point).reverse := by
        rw [← List.reverse_cons, ← isPoints, points]
      rw [segments_of_closed stillClosed (points_reversed_of_closed closed isPoints), vertices,
        segments_of_closed closed isPoints, backwards, ← zip_assembled,
        List.zip_eq_zipWith, List.zip_eq_zipWith]
      exact (List.reverse_zipWith (by simp [assembled, lengths, turned])).symm

theorem segments_reversed_of_open {loop : OffsetLoop α} (isOpen : loop.closed = false) :
    loop.reversed.segments = (loop.segments.map turnedMove).reverse := by
  have stillOpen : loop.reversed.closed = false := (closed_reversed loop).trans isOpen
  rw [segments_of_open stillOpen, segments_of_open isOpen, points_reversed_of_open isOpen,
    vertices_reversed_of_open isOpen, List.tail_reverse]
  rcases List.eq_nil_or_concat loop.vertices with none | ⟨front, last, isVertices⟩
  · simp [points, none, assembled]
  · rw [List.concat_eq_append] at isVertices
    cases isPoints : loop.points with
    | nil => simp [points, isVertices] at isPoints
    | cons first stops =>
        let turned := front.map fun vertex => -vertex.bulge
        have starts : (first :: stops).dropLast = front.map BulgeVertex.point := by
          rw [← isPoints, points, isVertices, List.map_append, List.map_singleton,
            List.dropLast_concat]
        have lengths : stops.length = turned.length := by
          have same := congrArg List.length starts
          simpa [turned] using same
        -- No move leaves the last vertex, which starts the reversed loop without its bulge.
        have vertices : assembled (first :: stops).reverse
            ((loop.bulges.dropLast.reverse.map fun bulge => -bulge) ++ [0]) =
              (assembled stops turned).reverse ++ [{ point := first, bulge := 0 }] := by
          have kept : (loop.bulges.dropLast.reverse.map fun bulge => -bulge) = turned.reverse := by
            simp [bulges, isVertices, turned, Function.comp_def]
          rw [kept, List.reverse_cons, ← assembled_reverse lengths, assembled,
            List.zipWith_append (by simpa using lengths)]
          rfl
        rw [vertices, isVertices, starts, List.tail_cons,
          zip_append_of_length (by simp [assembled, lengths, turned]),
          zip_append_of_length (by simpa [turned] using lengths.symm), ← zip_assembled,
          List.zip_eq_zipWith, List.zip_eq_zipWith]
        exact (List.reverse_zipWith (by simp [assembled, lengths, turned])).symm

/-- The moves of a reversed loop are those of the loop from the last one to the first, each
from its end to its start. -/
theorem segments_reversed (loop : OffsetLoop α) :
    loop.reversed.segments = (loop.segments.map turnedMove).reverse := by
  cases isClosed : loop.closed with
  | true => exact segments_reversed_of_closed isClosed
  | false => exact segments_reversed_of_open isClosed

end Moves

section Paths

variable [Scalar α]

/-- Where a move leads, and along which arc. -/
def moveTo (move : BulgeVertex α × PlanePoint α) : PathVertex α :=
  { point := move.2, arc := arcOfBulge? move.1.point move.2 move.1.bulge }

theorem toPath_of_points {loop : OffsetLoop α} {first : PlanePoint α}
    {rest : List (PlanePoint α)} (isPoints : loop.points = first :: rest) :
    loop.toPath = { point := first } :: loop.segments.map moveTo := by
  rw [toPath, isPoints]
  rfl

theorem map_point_toPath_of_closed {loop : OffsetLoop α} (closed : loop.closed = true)
    {first : PlanePoint α} {rest : List (PlanePoint α)} (isPoints : loop.points = first :: rest) :
    loop.toPath.map PathVertex.point = first :: rest ++ [first] := by
  have stops : (loop.segments.map moveTo).map PathVertex.point = rest ++ [first] := by
    have lengths := congrArg List.length isPoints
    rw [List.map_map, segments_of_closed closed isPoints]
    refine List.map_snd_zip ?_
    simpa [length_points] using lengths.ge
  rw [toPath_of_points isPoints, List.map_cons, stops]
  rfl

theorem map_point_toPath_of_open {loop : OffsetLoop α} (isOpen : loop.closed = false) :
    loop.toPath.map PathVertex.point = loop.points := by
  cases isPoints : loop.points with
  | nil => simp [toPath, isPoints]
  | cons first rest =>
      have stops : (loop.segments.map moveTo).map PathVertex.point = rest := by
        have lengths := congrArg List.length isPoints
        rw [List.map_map, segments_of_open isOpen, isPoints, List.tail_cons]
        refine List.map_snd_zip ?_
        simp only [length_points, List.length_cons] at lengths
        omega
      rw [toPath_of_points isPoints, List.map_cons, stops]

theorem map_point_toPath_reversed (loop : OffsetLoop α) :
    loop.reversed.toPath.map PathVertex.point = (loop.toPath.map PathVertex.point).reverse := by
  cases isClosed : loop.closed with
  | true =>
      have stillClosed := (closed_reversed loop).trans isClosed
      cases isPoints : loop.points with
      | nil => simp [reversed, toPath, isClosed, isPoints]
      | cons first rest =>
          rw [map_point_toPath_of_closed isClosed isPoints, map_point_toPath_of_closed stillClosed
            (points_reversed_of_closed isClosed isPoints)]
          simp
  | false =>
      have stillOpen := (closed_reversed loop).trans isClosed
      rw [map_point_toPath_of_open isClosed, map_point_toPath_of_open stillOpen,
        points_reversed_of_open isClosed]

theorem tail_toPath (loop : OffsetLoop α) : loop.toPath.tail = loop.segments.map moveTo := by
  cases isPoints : loop.points with
  | nil => simp [toPath, segments, isPoints]
  | cons first rest => rw [toPath_of_points isPoints, List.tail_cons]

/-- The path starts with the first vertex, to which no move leads. -/
theorem arc_of_mem_head?_toPath (loop : OffsetLoop α) :
    ∀ vertex ∈ loop.toPath.head?, vertex.arc = none := by
  intro vertex isFirst
  cases isPoints : loop.points with
  | nil => simp [toPath, isPoints] at isFirst
  | cons first rest =>
      rw [toPath_of_points isPoints] at isFirst
      obtain rfl := Option.some.inj isFirst
      rfl

end Paths

theorem leadsBack_reversed (loop : OffsetLoop ℝ) : LeadsBack loop.toPath loop.reversed.toPath := by
  have back (move : BulgeVertex ℝ × PlanePoint ℝ) :
      (moveTo (turnedMove move)).arc = (moveTo move).arc.map ArcMove.backwards :=
    arcOfBulge?_backwards move.1.point move.2 move.1.bulge
  refine ⟨arc_of_mem_head?_toPath _, map_point_toPath_reversed loop, ?_⟩
  rw [tail_toPath, tail_toPath, segments_reversed]
  simp only [List.map_reverse, List.map_map]
  exact congrArg List.reverse (List.map_congr_left fun move _ => back move)

section Areas

variable [ExactScalar α]

/-- A closed loop backwards twice is the loop. -/
theorem reversed_reversed {loop : OffsetLoop α} (closed : loop.closed = true) :
    loop.reversed.reversed = loop := by
  have stillClosed := (closed_reversed loop).trans closed
  cases isPoints : loop.points with
  | nil => simp [reversed, closed, isPoints]
  | cons first rest =>
      have same : loop.reversed.reversed.vertices = loop.vertices := by
        have lengths := congrArg List.length isPoints
        have bulges : loop.reversed.bulges = loop.bulges.reverse.map fun bulge => -bulge := by
          rw [OffsetLoop.bulges, vertices_reversed_of_closed closed isPoints]
          apply map_bulge_assembled
          simpa [length_points, length_bulges] using lengths.symm
        rw [vertices_reversed_of_closed stillClosed (points_reversed_of_closed closed isPoints),
          bulges, List.reverse_reverse, ← isPoints, ← assembled_points_bulges loop]
        simp
      have closedTwice := (closed_reversed loop.reversed).trans (closed_reversed loop)
      cases isTwice : loop.reversed.reversed
      cases loop
      simp_all

theorem signedArea_reversed (loop : OffsetLoop α) :
    loop.reversed.signedArea = -loop.signedArea := by
  apply Polyline.signedArea_of_perm_swap
  cases isClosed : loop.closed with
  | true =>
      cases isPoints : loop.points with
      | nil => simp [reversed, isClosed, isPoints, Polyline.cyclicSteps]
      | cons first rest =>
          rw [points_reversed_of_closed isClosed isPoints, Polyline.cyclicSteps_cons_reverse]
          exact List.reverse_perm _
  | false =>
      rw [points_reversed_of_open isClosed]
      exact Polyline.cyclicSteps_reverse_perm _

omit [ExactScalar α] in
theorem exists_rotated_eq (loop : OffsetLoop α) (start : Nat) :
    ∃ front back, loop.vertices = front ++ back ∧
      loop.rotated start = { loop with vertices := back ++ front } := by
  have unmoved : loop = { loop with vertices := loop.vertices ++ [] } := by
    rw [List.append_nil]
  unfold rotated
  split
  · unfold List.rotateLeft
    dsimp only
    split
    · exact ⟨[], loop.vertices, rfl, unmoved⟩
    · exact ⟨_, _, (List.take_append_drop _ _).symm, rfl⟩
  · exact ⟨[], loop.vertices, rfl, unmoved⟩

theorem signedArea_rotated (loop : OffsetLoop α) (start : Nat) :
    (loop.rotated start).signedArea = loop.signedArea := by
  obtain ⟨front, back, isVertices, isRotated⟩ := exists_rotated_eq loop start
  apply Polyline.signedArea_of_perm
  rw [isRotated, points, points, isVertices, List.map_append, List.map_append]
  exact Polyline.cyclicSteps_append_perm _ _

end Areas

/-- A loop backwards is travelled along the path of the loop from its end to its start.
Backwards twice a closed loop is itself again, and backwards once its area has the other
sign.  Where a loop starts does not matter for its area. -/
theorem reversed_leadsBack (loop : OffsetLoop ℝ) :
    LeadsBack loop.toPath loop.reversed.toPath ∧
      (loop.closed = true → loop.reversed.reversed = loop) ∧
      loop.reversed.signedArea = -loop.signedArea ∧
      ∀ start, (loop.rotated start).signedArea = loop.signedArea :=
  ⟨leadsBack_reversed loop, reversed_reversed, signedArea_reversed loop, signedArea_rotated loop⟩

end OffsetLoop

end Milling
