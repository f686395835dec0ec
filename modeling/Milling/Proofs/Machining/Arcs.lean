import Mathlib
import Milling.Machining.Profile
import Milling.Proofs.Machining.Levels
import Milling.Proofs.Machining.Raster
import Milling.Proofs.Offset.Corner

/-!
# Arcs of profiles

The words of an arc give its centre from where the tool is, so they are right only for a tool
that stands where the arc begins.  A tool that follows a path from its first vertex stands on
each vertex when it comes to the next one, whatever way it took to the first.
-/

namespace Milling

variable {α : Type}

section Definitions

variable [Scalar α]

def PlanePoint.squareDistance (start stop : PlanePoint α) : α :=
  (stop.x - start.x) * (stop.x - start.x) + (stop.y - start.y) * (stop.y - start.y)

/-- The centre of an arc is as far from one place as from another. -/
def ArcMove.Joins (arc : ArcMove α) (start stop : PlanePoint α) : Prop :=
  arc.center.squareDistance start = arc.center.squareDistance stop

/-- The arc to a vertex, if there is one, joins it to the vertex before. -/
def PathVertex.Joins (before vertex : PathVertex α) : Prop :=
  ∀ arc ∈ vertex.arc, arc.Joins before.point vertex.point

/-- The words of an arc describe one from a position to another at the same height: around a
centre, given by its way from the start, that is as far from the start as from the end. -/
structure Arc.IsTrue (arc : Arc α) (start stop : Position α) : Prop where
  level : stop.z = start.z
  noRadius : arc.radius = none
  center : ∃ i j, arc.i = some i ∧ arc.j = some j ∧
    PlanePoint.squareDistance ⟨start.x + i, start.y + j⟩ ⟨start.x, start.y⟩ =
      PlanePoint.squareDistance ⟨start.x + i, start.y + j⟩ ⟨stop.x, stop.y⟩

/-- If a point is the end of an arc, the arc is one from the point before it. -/
def MotionPoint.TurnsTo (before point : MotionPoint α) : Prop :=
  ∀ arc, point.motion = .arc arc → arc.IsTrue before.position point.position

end Definitions

variable [ExactScalar α]

namespace OffsetLoop

/-- The centre of an arc lies on the perpendicular through the middle of its chord. -/
theorem joins_of_arcOfBulge? {start stop : PlanePoint α} {bulge : α} {arc : ArcMove α}
    (isArc : arcOfBulge? start stop bulge = some arc) : arc.Joins start stop := by
  unfold arcOfBulge? at isArc
  split at isArc
  · cases isArc
  · obtain rfl := Option.some.inj isArc
    simp only [ArcMove.Joins, PlanePoint.squareDistance]
    rw [ExactScalar.literal 2, Nat.cast_ofNat]
    generalize (_ - bulge * bulge) / (_ * bulge) = lift
    ring

theorem joins_moveTo {before : PathVertex α} {vertex : BulgeVertex α}
    (here : before.point = vertex.point) (stop : PlanePoint α) :
    before.Joins (moveTo (vertex, stop)) := by
  intro arc isArc
  rw [here]
  exact joins_of_arcOfBulge? isArc

/-- Each move starts where the one before it has ended. -/
theorem isChain_moves (before : PathVertex α) {vertex : BulgeVertex α}
    (here : before.point = vertex.point) (vertices : List (BulgeVertex α))
    (home : List (PlanePoint α)) :
    (before :: ((vertex :: vertices).zip (vertices.map BulgeVertex.point ++ home)).map
      moveTo).IsChain PathVertex.Joins := by
  induction vertices generalizing vertex before with
  | nil =>
      cases home with
      | nil => exact .singleton before
      | cons stop _ => exact .cons_cons (joins_moveTo here stop) (.singleton _)
  | cons next vertices ih => exact .cons_cons (joins_moveTo here next.point) (ih _ rfl)

theorem isChain_toPath (loop : OffsetLoop α) : loop.toPath.IsChain PathVertex.Joins := by
  cases isPoints : loop.points with
  | nil =>
      rw [toPath, isPoints]
      exact .nil
  | cons first rest =>
      obtain ⟨vertex, vertices, isVertices, here, places⟩ := List.map_eq_cons_iff.mp isPoints
      rw [toPath_of_points isPoints]
      cases isClosed : loop.closed with
      | true =>
          rw [segments_of_closed isClosed isPoints, isVertices, ← places]
          exact isChain_moves { point := first } here.symm vertices [first]
      | false =>
          have chain := isChain_moves { point := first } here.symm vertices []
          rw [List.append_nil, places] at chain
          rw [segments_of_open isClosed, isPoints, isVertices, List.tail_cons]
          exact chain

end OffsetLoop

namespace Cutter

/-- The tool has started with a rapid and has passed no arcs but true ones to where it is. -/
structure IsTrue (cutter : Cutter α) : Prop where
  start : ∃ first ∈ cutter.passed.getLast?, first.motion = .rapid
  turns : cutter.passed.IsChain fun point before => before.TurnsTo point
  position : ∃ last ∈ cutter.passed.head?, last.position = cutter.position

variable {cutter : Cutter α}

theorem IsTrue.push (isTrue : cutter.IsTrue) {point : MotionPoint α}
    (turns : ∀ arc, point.motion = .arc arc → arc.IsTrue cutter.position point.position) :
    (cutter.push point).IsTrue := by
  obtain ⟨first, isFirst, rapid⟩ := isTrue.start
  obtain ⟨last, isLast, there⟩ := isTrue.position
  have chain := isTrue.turns
  cases isPassed : cutter.passed with
  | nil =>
      rw [isPassed] at isLast
      cases isLast
  | cons latest earlier =>
      rw [isPassed] at isFirst isLast chain
      obtain rfl := Option.some.inj isLast
      refine { start := ⟨first, ?_, rapid⟩, turns := ?_, position := ⟨_, rfl, rfl⟩ }
      · rw [Cutter.push, isPassed, List.getLast?_cons_cons]
        exact isFirst
      · rw [Cutter.push, isPassed]
        refine .cons_cons (fun arc isArc => ?_) chain
        rw [there]
        exact turns arc isArc

theorem IsTrue.rapid (isTrue : cutter.IsTrue) (x y z : α) : (cutter.rapid x y z).IsTrue :=
  isTrue.push fun _ isArc => nomatch isArc

theorem IsTrue.linear (isTrue : cutter.IsTrue) (x y z : α) : (cutter.linear x y z).IsTrue :=
  isTrue.push fun _ isArc => nomatch isArc

theorem start_isTrue (cut : CutSettings α) : (start cut).IsTrue :=
  { start := ⟨_, rfl, rfl⟩
    turns := .singleton _
    position := ⟨_, rfl, rfl⟩ }

def StandsAt (cutter : Cutter α) (place : PlanePoint α) (z : α) : Prop :=
  cutter.position = { x := place.x, y := place.y, z }

theorem followOne_standsAt (z : α) (cutter : Cutter α) (vertex : PathVertex α) :
    (followOne z cutter vertex).StandsAt vertex.point z := by
  unfold followOne
  split <;> rfl

theorem IsTrue.followOne {z : α} {before vertex : PathVertex α} (isTrue : cutter.IsTrue)
    (stands : cutter.StandsAt before.point z) (joins : before.Joins vertex) :
    (followOne z cutter vertex).IsTrue := by
  unfold Cutter.followOne
  split
  · rename_i arc isArc
    refine isTrue.push fun words isWords => ?_
    obtain rfl := Motion.arc.inj isWords
    rw [stands]
    refine { level := rfl, noRadius := rfl, center := ⟨_, _, rfl, rfl, ?_⟩ }
    simp only [add_sub_cancel]
    exact joins arc isArc
  · exact isTrue.linear vertex.point.x vertex.point.y z

theorem IsTrue.follow {z : α} {before : PathVertex α} {path : List (PathVertex α)}
    (isTrue : cutter.IsTrue) (stands : cutter.StandsAt before.point z)
    (chain : (before :: path).IsChain PathVertex.Joins) : (cutter.follow path z).IsTrue := by
  induction path generalizing cutter before with
  | nil => exact isTrue
  | cons vertex path ih =>
      obtain ⟨joins, rest⟩ := List.isChain_cons_cons.mp chain
      exact ih (isTrue.followOne stands joins) (followOne_standsAt z cutter vertex) rest

def HasTurned (cutter : Cutter α) : Prop :=
  ∃ point ∈ cutter.passed, point.kind = .arc

omit [ExactScalar α] in
theorem HasTurned.push (turned : cutter.HasTurned) (point : MotionPoint α) :
    (cutter.push point).HasTurned := by
  obtain ⟨arc, isPoint, kind⟩ := turned
  exact ⟨arc, List.mem_cons_of_mem _ isPoint, kind⟩

theorem HasTurned.follow (turned : cutter.HasTurned) (path : List (PathVertex α)) (z : α) :
    (cutter.follow path z).HasTurned := by
  refine List.foldlRecOn path (followOne z) turned fun cutter turned vertex _ => ?_
  unfold followOne
  split <;> exact turned.push _

theorem follow_hasTurned (cutter : Cutter α) {path : List (PathVertex α)}
    (arcs : ∃ vertex ∈ path, vertex.arc.isSome = true) (z : α) :
    (cutter.follow path z).HasTurned := by
  obtain ⟨vertex, isVertex, isArc⟩ := arcs
  obtain ⟨arc, isArc⟩ := Option.isSome_iff_exists.mp isArc
  obtain ⟨front, back, rfl⟩ := List.append_of_mem isVertex
  have turned : (followOne z (cutter.follow front z) vertex).HasTurned := by
    rw [followOne, isArc]
    exact ⟨_, List.mem_cons_self, rfl⟩
  rw [follow, List.foldl_append, List.foldl_cons]
  exact turned.follow back z

end Cutter

namespace Contour

variable {contour : Contour α} {offsetter : Offsetter α}

/-- With or without a lead in, the tool is at the first vertex when it comes to the second. -/
theorem cutLevel_isTrue {first : PathVertex α} {rest : List (PathVertex α)}
    (chain : (first :: rest).IsChain PathVertex.Joins) (leadIn leadOut : Option (PlanePoint α))
    {cutter : Cutter α} (isTrue : cutter.IsTrue) (level : α) :
    (contour.cutLevel first.point rest leadIn leadOut cutter level).IsTrue := by
  unfold cutLevel
  cases leadIn with
  | none =>
      have lowered := (isTrue.rapid first.point.x first.point.y contour.cut.safeZ).linear
        first.point.x first.point.y level
      have followed := lowered.follow rfl chain
      cases leadOut with
      | none => exact followed.rapid _ _ _
      | some exit => exact (followed.linear exit.x exit.y level).rapid _ _ _
  | some entry =>
      have lowered := (isTrue.rapid entry.x entry.y contour.cut.safeZ).linear entry.x entry.y level
      have followed := (lowered.linear first.point.x first.point.y level).follow rfl chain
      cases leadOut with
      | none => exact followed.rapid _ _ _
      | some exit => exact (followed.linear exit.x exit.y level).rapid _ _ _

/-- Every arc of a profile is one from the point before it, which there always is. -/
theorem toolpath_turnsTo {path : Toolpath α} (made : contour.toolpath offsetter = .ok path) :
    (∃ first ∈ path.points.head?, first.motion = .rapid) ∧
      path.points.IsChain MotionPoint.TurnsTo := by
  obtain ⟨vertices, isPath, made⟩ := exists_of_bind_eq_ok made
  obtain ⟨loop, _, isPath⟩ := exists_of_bind_eq_ok isPath
  obtain rfl := Except.ok.inj isPath
  have chain := loop.isChain_toPath
  split at made
  · cases made
  · rename_i first rest isVertices
    obtain rfl := Except.ok.inj made
    rw [isVertices] at chain ⊢
    have isTrue := List.foldlRecOn (depthLevels contour.depth contour.stepDown)
      (contour.cutLevel first.point rest (contour.leadIn? (first :: rest))
        (contour.leadOut? (first :: rest)))
      (Cutter.start_isTrue contour.cut) fun cutter isTrue level _ =>
        cutLevel_isTrue chain _ _ isTrue level
    refine ⟨?_, ?_⟩
    · rw [Cutter.toolpath, List.head?_reverse]
      exact isTrue.start
    · rw [Cutter.toolpath, List.isChain_reverse]
      exact isTrue.turns

theorem cutLevel_hasTurned (contour : Contour α) (start : PlanePoint α)
    {rest : List (PathVertex α)} (arcs : ∃ vertex ∈ rest, vertex.arc.isSome = true)
    (leadIn leadOut : Option (PlanePoint α)) (cutter : Cutter α) (level : α) :
    (contour.cutLevel start rest leadIn leadOut cutter level).HasTurned := by
  unfold cutLevel
  have followed (entered : Cutter α) := entered.follow_hasTurned arcs level
  cases leadOut with
  | none => exact (followed _).push _
  | some exit => exact ((followed _).push _).push _

/-- A path with arcs is cut with arcs. -/
theorem exists_arc_of_toolpath (below : contour.depth ≤ 0) {first : PathVertex α}
    {rest : List (PathVertex α)} (isPath : contour.cutPath offsetter = .ok (first :: rest))
    (arcs : ∃ vertex ∈ rest, vertex.arc.isSome = true) :
    ∃ path, contour.toolpath offsetter = .ok path ∧ ∃ point ∈ path.points, point.kind = .arc := by
  have some := List.ne_nil_of_mem (depth_mem_depthLevels below contour.stepDown)
  obtain ⟨levels, last, isLevels⟩ := List.eq_nil_or_concat _ |>.resolve_left some
  rw [toolpath, isPath]
  refine ⟨_, rfl, ?_⟩
  rw [isLevels, List.concat_eq_append, List.foldl_append, List.foldl_cons, List.foldl_nil]
  obtain ⟨point, isPoint, kind⟩ := contour.cutLevel_hasTurned first.point arcs
    (contour.leadIn? (first :: rest)) (contour.leadOut? (first :: rest)) _ last
  exact ⟨point, List.mem_reverse.mpr isPoint, kind⟩

/-- The edge of a step, with a bend. -/
noncomputable def ledge : Contour ℝ :=
  { cut := {
      tool := {
        number := 3, kind := .endMill, diameter := 4, flutes := 3, material := .carbide
        surfaceSpeed := 120, feedPerTooth := 0.02, description := "4 mm mill" }
      feed := 300, spindle := 9000, safeZ := 5, clearanceZ := 50 }
    geometry := Offsetter.bend 10 10
    depth := -1
    stepDown := 1
    leadIn := .tangent
    leadOut := .perpendicular
    climb := true
    compensation := .computer
    stockToLeave := 0 }

theorem cutPath_ledge : ledge.cutPath (Offsetter.besideBend 10 10) =
    .ok (Offsetter.outsideBend 10 10 2).toPath := by
  have offset : ledge.offset = 2 := by
    rw [Contour.offset, CutSettings.toolRadius, Tool.radius, ExactScalar.literal]
    norm_num [ledge]
  have isBeside := Offsetter.besideOpen_bend 10 10 (zero_lt_two : (0 : ℝ) < 2)
  have beside : ledge.besideLoop (Offsetter.besideBend 10 10) =
      .ok (Offsetter.outsideBend 10 10 2) := by
    have isMode : ledge.compensation = .computer := rfl
    have isOpen : ledge.isClosed = false := rfl
    have climbs : ledge.climb = true := rfl
    have geometry : ledge.geometry = Offsetter.bend 10 10 := rfl
    simp only [besideLoop, isMode, isOpen, climbs, geometry, offset, if_true, isBeside,
      Offsetter.orError, bind, Except.bind, Bool.false_eq_true, if_false]
    rfl
  rw [cutPath, cutLoop, beside]
  rfl

theorem toolpath_turnsTo_ledge :
    ∃ path, ledge.toolpath (Offsetter.besideBend 10 10) = .ok path ∧
      (∃ point ∈ path.points, point.kind = .arc) ∧
      (∃ first ∈ path.points.head?, first.motion = .rapid) ∧
      path.points.IsChain MotionPoint.TurnsTo := by
  obtain ⟨first, rest, isPath, arcs⟩ :=
    Offsetter.exists_arc_outsideBend 10 10 (one_le_two : (1 : ℝ) ≤ 2)
  obtain ⟨path, made, turns⟩ := exists_arc_of_toolpath (by norm_num [ledge])
    (cutPath_ledge.trans (congrArg _ isPath)) arcs
  exact ⟨path, made, turns, toolpath_turnsTo made⟩

end Contour

end Milling
