import Mathlib
import Milling.Proofs.Machining.Legs
import Milling.Proofs.Offset.Arc

/-!
# Every path of a clearing is cut once

The moves of a clearing fall into one part for each of its paths, in their order: a
link to the start, unless the tool is there already, and the moves along the path.
Where the tool stands when it begins a path is what one part hands on to the next.
-/

namespace Milling.Clearing

open Cutter

variable {α : Type}

/-- The paths of a clearing in order, a pass as a path of two vertices. -/
def paths : Clearing α → List (List (PathVertex α))
  | .raster rows =>
      rows.flatten.map fun pass => [{ point := pass.start }, { point := pass.stop }]
  | .nested rings => rings.flatten

/-- A way to a place at a height. -/
inductive IsLink (safeZ z feed : α) (here : Position α) (target : PlanePoint α) :
    List (MotionPoint α) → Prop where
  | stay : IsLink safeZ z feed here target []
  | across : IsLink safeZ z feed here target [.cutTo feed target z]
  | lifted : IsLink safeZ z feed here target
      [.rapid here.x here.y safeZ, .rapid target.x target.y safeZ, .cutTo feed target z]

/-- Cuts along a path at a height, around the centres of its arcs. -/
inductive Traces [Add α] (z feed : α) :
    Position α → List (PathVertex α) → List (MotionPoint α) → Prop where
  | nil (here : Position α) : Traces z feed here [] []
  | straight {here : Position α} {vertex : PathVertex α} {rest : List (PathVertex α)}
      {moves : List (MotionPoint α)} (line : vertex.arc = none)
      (later : Traces z feed (.above vertex.point z) rest moves) :
      Traces z feed here (vertex :: rest) (.cutTo feed vertex.point z :: moves)
  | around {here : Position α} {vertex : PathVertex α} {rest : List (PathVertex α)}
      {moves : List (MotionPoint α)} {arc : ArcMove α} {i j : α} (isArc : vertex.arc = some arc)
      (center : arc.center = { x := here.x + i, y := here.y + j })
      (later : Traces z feed (.above vertex.point z) rest moves) :
      Traces z feed here (vertex :: rest)
        ({ position := .above vertex.point z
           motion := .arc (.around arc.rotation i j)
           feed := some feed } :: moves)

/-- The tool is within a billionth of a place at a height. -/
structure IsNear (here : Position ℝ) (target : PlanePoint ℝ) (z : ℝ) : Prop where
  place : ({ x := here.x, y := here.y } : PlanePoint ℝ).distance target < 1 / (10 ^ 9 : ℕ)
  height : |here.z - z| < 1 / (10 ^ 9 : ℕ)

/-- Moves that cut paths one after the other, each of them from its start to its end and
all at one height.  A path without vertices is passed over. -/
inductive Sweeps (safeZ z feed : ℝ) :
    Position ℝ → List (List (PathVertex ℝ)) → List (MotionPoint ℝ) → Prop where
  | nil (here : Position ℝ) : Sweeps safeZ z feed here [] []
  | skip {here : Position ℝ} {paths : List (List (PathVertex ℝ))} {moves : List (MotionPoint ℝ)}
      (later : Sweeps safeZ z feed here paths moves) : Sweeps safeZ z feed here ([] :: paths) moves
  | path {here : Position ℝ} {start : PathVertex ℝ} {rest : List (PathVertex ℝ)}
      {paths : List (List (PathVertex ℝ))} {link cut moves : List (MotionPoint ℝ)}
      (isLink : IsLink safeZ z feed here start.point link)
      (arrived : IsNear (here.after link) start.point z)
      (traced : Traces z feed (here.after link) rest cut)
      (later : Sweeps safeZ z feed ((here.after link).after cut) paths moves) :
      Sweeps safeZ z feed here ((start :: rest) :: paths) (link ++ cut ++ moves)

/-- Where a path starts and how it goes on. -/
def split? : List (PathVertex α) → Option (PlanePoint α × List (PathVertex α))
  | [] => none
  | start :: rest => some (start.point, rest)

section Plan

def legPath (leg : Leg α) : PlanePoint α × List (PathVertex α) := (leg.start, leg.rest)

theorem map_legPath_unliftFirst (isFirst : Bool) (legs : List (Leg α)) :
    (unliftFirst isFirst legs).map legPath = legs.map legPath := by
  cases legs <;> rfl

theorem map_legPath_ring (ring : List (List (PathVertex α))) (index : Nat) :
    ((ring.zipIdx index).filterMap ringLeg?).map legPath = ring.filterMap split? := by
  induction ring generalizing index with
  | nil => rfl
  | cons path ring ih =>
      cases path with
      | nil => exact ih (index + 1)
      | cons start rest => exact congrArg (_ :: ·) (ih (index + 1))

theorem map_legPath_legs (before : Option (PlacedPass α)) (passes : List (PlacedPass α)) :
    (PlacedPass.legs before passes).map legPath =
      (passes.map PlacedPass.pass).map fun pass => (pass.start, [{ point := pass.stop }]) := by
  induction passes generalizing before with
  | nil => rfl
  | cons next rest ih => exact congrArg (_ :: ·) (ih (some next))

theorem map_pass_inOrder (rows : List (List (RasterPass α))) (number : Nat) :
    (Raster.inOrder rows number).map PlacedPass.pass = rows.flatten := by
  induction rows generalizing number with
  | nil => rfl
  | cons row rows ih =>
      rw [Raster.inOrder, List.map_append, ih, Raster.placed, List.map_map, List.flatten_cons]
      exact congrArg (· ++ rows.flatten) (List.map_id' row)

/-- The legs of a clearing are its paths that have a start. -/
theorem map_legPath_eq (clearing : Clearing α) :
    clearing.legs.map legPath = clearing.paths.filterMap split? := by
  cases clearing with
  | raster rows =>
      rw [legs, map_legPath_legs, map_pass_inOrder, paths, List.filterMap_map]
      induction rows.flatten with
      | nil => rfl
      | cons pass passes ih => exact congrArg (_ :: ·) ih
  | nested rings =>
      rw [legs, map_legPath_unliftFirst, paths, List.map_flatMap, List.filterMap_flatten,
        ← List.flatMap_def]
      simp only [map_legPath_ring]

end Plan

section Moves

variable {safeZ z feed : ℝ}

theorem isLink_linkMoves (here : Position ℝ) (target : PlanePoint ℝ) (lift : Bool) :
    IsLink safeZ z feed here target (linkMoves safeZ z feed here target lift) := by
  unfold linkMoves
  split
  · exact .stay
  · cases lift with
    | false => exact .across
    | true => exact .lifted

theorem isNear_of_isAt {here : Position ℝ} {target : PlanePoint ℝ} (there : here.IsAt target z) :
    IsNear here target z := by
  obtain ⟨place, height⟩ := there
  rw [placeTolerance_eq] at place height
  rw [magnitude_eq_abs] at height
  exact ⟨place, height⟩

theorem isNear_above (target : PlanePoint ℝ) : IsNear (.above target z) target z := by
  constructor
  · have same : ({ x := target.x, y := target.y } : PlanePoint ℝ).distance target = 0 := by
      rw [PlanePoint.distance_eq_dist, dist_self]
    exact same.trans_lt (by positivity)
  · have same : (Position.above target z).z - z = 0 := sub_self z
    rw [same, abs_zero]
    positivity

/-- A link leaves the tool near its target. -/
theorem isNear_after_linkMoves (here : Position ℝ) (target : PlanePoint ℝ) (lift : Bool) :
    IsNear (here.after (linkMoves safeZ z feed here target lift)) target z := by
  rw [linkMoves]
  split
  · rename_i there
    exact isNear_of_isAt there
  · rw [Position.after_append]
    exact isNear_above target

theorem traces_followMoves (here : Position ℝ) (path : List (PathVertex ℝ)) :
    Traces z feed here path (followMoves z feed here path) := by
  induction path generalizing here with
  | nil => exact .nil here
  | cons vertex rest ih =>
      rw [followMoves, vertexMove]
      cases turning : vertex.arc with
      | none => exact .straight turning (ih (.above vertex.point z))
      | some arc =>
          refine .around turning ?_ (ih (.above vertex.point z))
          have x : here.x + (arc.center.x - here.x) = arc.center.x := add_sub_cancel _ _
          have y : here.y + (arc.center.y - here.y) = arc.center.y := add_sub_cancel _ _
          exact (congrArg₂ PlanePoint.mk x y).symm

/-- Legs sweep the paths they are the legs of, in order. -/
theorem sweeps_legMoves {paths : List (List (PathVertex ℝ))} {legs : List (Leg ℝ)}
    (plan : legs.map legPath = paths.filterMap split?) (here : Position ℝ) :
    Sweeps safeZ z feed here paths (legMoves safeZ z feed here legs) := by
  induction paths generalizing legs here with
  | nil =>
      obtain rfl := List.map_eq_nil_iff.mp plan
      exact .nil here
  | cons path paths ih =>
      cases path with
      | nil => exact .skip (ih plan here)
      | cons start rest =>
          have ahead : legs.map legPath = (start.point, rest) :: paths.filterMap split? := plan
          obtain ⟨leg, legs, rfl, isLeg, later⟩ := List.map_eq_cons_iff.mp ahead
          obtain ⟨isStart, rfl⟩ := Prod.mk.inj isLeg
          rw [legMoves, isStart]
          exact .path (isLink_linkMoves here start.point leg.lift)
            (isNear_after_linkMoves here start.point leg.lift) (traces_followMoves _ leg.rest)
            (ih later _)

theorem IsLink.height_of_rapid {here : Position ℝ} {target : PlanePoint ℝ}
    {moves : List (MotionPoint ℝ)} (isLink : IsLink safeZ z feed here target moves)
    {point : MotionPoint ℝ} (isPoint : point ∈ moves) (isRapid : point.motion = .rapid) :
    point.position.z = safeZ := by
  cases isLink with
  | stay => cases isPoint
  | across =>
      obtain rfl := List.mem_singleton.mp isPoint
      cases isRapid
  | lifted =>
      simp only [List.mem_cons, List.not_mem_nil, or_false] at isPoint
      rcases isPoint with rfl | rfl | rfl
      · rfl
      · rfl
      · cases isRapid

theorem Traces.isCutting {here : Position ℝ} {path : List (PathVertex ℝ)}
    {moves : List (MotionPoint ℝ)} (traced : Traces z feed here path moves)
    {point : MotionPoint ℝ} (isPoint : point ∈ moves) : point.motion ≠ .rapid := by
  induction traced with
  | nil => cases isPoint
  | straight line later ih =>
      rcases List.mem_cons.mp isPoint with rfl | isPoint
      · intro isRapid; cases isRapid
      · exact ih isPoint
  | around isArc center later ih =>
      rcases List.mem_cons.mp isPoint with rfl | isPoint
      · intro isRapid; cases isRapid
      · exact ih isPoint

theorem Sweeps.height_of_rapid {here : Position ℝ} {paths : List (List (PathVertex ℝ))}
    {moves : List (MotionPoint ℝ)} (sweeps : Sweeps safeZ z feed here paths moves)
    {point : MotionPoint ℝ} (isPoint : point ∈ moves) (isRapid : point.motion = .rapid) :
    point.position.z = safeZ := by
  induction sweeps with
  | nil => cases isPoint
  | skip later ih => exact ih isPoint
  | path isLink arrived traced later ih =>
      rw [List.mem_append, List.mem_append] at isPoint
      rcases isPoint with (linking | cutting) | isPoint
      · exact isLink.height_of_rapid linking isRapid
      · exact absurd isRapid (traced.isCutting cutting)
      · exact ih isPoint

end Moves

/-- A clearing is cut at a level by moves that sweep its paths, each of them once and in
order, and that are rapid at safe height only. -/
theorem cut_sweeps (safeZ z : ℝ) (cutter : Cutter ℝ) (clearing : Clearing ℝ) :
    ∃ moves, (clearing.cut safeZ z cutter).passed.reverse =
        cutter.passed.reverse ++ moves.map (stamped cutter.cut) ∧
      Sweeps safeZ z cutter.cut.feed cutter.position clearing.paths moves ∧
      ∀ point ∈ moves, point.motion = .rapid → point.position.z = safeZ := by
  have sweeps : Sweeps safeZ z cutter.cut.feed cutter.position clearing.paths
      (legMoves safeZ z cutter.cut.feed cutter.position clearing.legs) :=
    sweeps_legMoves (map_legPath_eq clearing) cutter.position
  exact ⟨_, passed_cut safeZ z cutter clearing, sweeps,
    fun _ isPoint isRapid => sweeps.height_of_rapid isPoint isRapid⟩

end Milling.Clearing
