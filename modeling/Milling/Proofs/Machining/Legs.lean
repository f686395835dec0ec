import Mathlib
import Milling.Machining.Clearing
import Milling.Proofs.Machining.Hole
import Milling.Proofs.Scalar.Exact

/-!
# The legs of a clearing

A clearing is cut leg by leg: the tool is linked to the start of a path, lifted over
or not, and follows the rest of the path at the height of the level.  The plan alone
says which legs there are and which of them are lifted over to; where the tool stands
says whether a link is needed at all.
-/

namespace Milling

open Cutter

variable {α : Type}

def MotionPoint.cutTo (feed : α) (target : PlanePoint α) (z : α) : MotionPoint α :=
  { MotionPoint.linear target.x target.y z with feed := some feed }

namespace Position

/-- A place at a height. -/
def above (place : PlanePoint α) (z : α) : Position α := { x := place.x, y := place.y, z }

/-- Where a tool is after some moves. -/
def after (here : Position α) (moves : List (MotionPoint α)) : Position α :=
  moves.foldl (fun _ point => point.position) here

theorem after_append (here : Position α) (front back : List (MotionPoint α)) :
    here.after (front ++ back) = (here.after front).after back :=
  List.foldl_append

variable [Scalar α]

/-- A tool counts as being at a place at a height. -/
structure IsAt (here : Position α) (target : PlanePoint α) (z : α) : Prop where
  place : ({ x := here.x, y := here.y } : PlanePoint α).distance target <
    Clearing.placeTolerance
  height : Scalar.magnitude (here.z - z) < Clearing.placeTolerance

theorem isAt_iff {cutter : Cutter α} {target : PlanePoint α} {z : α} :
    Clearing.isAt cutter target z = true ↔ cutter.position.IsAt target z := by
  rw [Clearing.isAt, Bool.and_eq_true, decide_eq_true_eq, decide_eq_true_eq]
  constructor
  · rintro ⟨place, height⟩
    exact ⟨place, height⟩
  · rintro ⟨place, height⟩
    exact ⟨place, height⟩

instance (here : Position α) (target : PlanePoint α) (z : α) : Decidable (here.IsAt target z) :=
  decidable_of_iff
    (({ x := here.x, y := here.y } : PlanePoint α).distance target < Clearing.placeTolerance ∧
      Scalar.magnitude (here.z - z) < Clearing.placeTolerance)
    ⟨fun both => ⟨both.1, both.2⟩, fun isAt => ⟨isAt.place, isAt.height⟩⟩

end Position

theorem Cutter.position_foldl_push (moves : List (MotionPoint α)) (cutter : Cutter α) :
    (moves.foldl push cutter).position = cutter.position.after moves := by
  induction moves generalizing cutter with
  | nil => rfl
  | cons point moves ih => exact ih (cutter.push point)

/-- A path and the way to its start. -/
structure Leg (α : Type) where
  start : PlanePoint α
  rest : List (PathVertex α)
  /-- The tool is lifted over to the start, if it is not there. -/
  lift : Bool

/-- A pass in its raster. -/
structure PlacedPass (α : Type) where
  pass : RasterPass α
  row : Nat
  /-- There is no other pass in its row. -/
  alone : Bool

namespace PlacedPass

def leg (placed : PlacedPass α) (lift : Bool) : Leg α :=
  { start := placed.pass.start
    rest := [{ point := placed.pass.stop }]
    lift }

def legs : Option (PlacedPass α) → List (PlacedPass α) → List (Leg α)
  | _, [] => []
  | before, next :: rest =>
      next.leg (before.any fun before => !(before.alone && next.alone)) :: legs (some next) rest

end PlacedPass

namespace Raster

/-- The passes of a row. -/
def placed (row : List (RasterPass α)) (number : Nat) : List (PlacedPass α) :=
  row.map fun pass => { pass, row := number, alone := row.length == 1 }

/-- The passes of the rows from a number on, in order. -/
def inOrder : List (List (RasterPass α)) → Nat → List (PlacedPass α)
  | [], _ => []
  | row :: rows, number => placed row number ++ inOrder rows (number + 1)

end Raster

namespace Clearing

/-- The leg of a path of a ring; none for a path without vertices. -/
def ringLeg? (item : List (PathVertex α) × Nat) : Option (Leg α) :=
  match item with
  | ([], _) => none
  | (start :: rest, index) => some { start := start.point, rest, lift := decide (0 < index) }

/-- The first leg is not lifted over to, if it is the very first. -/
def unliftFirst : Bool → List (Leg α) → List (Leg α)
  | _, [] => []
  | isFirst, leg :: legs => { leg with lift := !isFirst && leg.lift } :: legs

def legs : Clearing α → List (Leg α)
  | .raster rows => PlacedPass.legs none (Raster.inOrder rows 0)
  | .nested rings => unliftFirst true (rings.flatMap fun ring => ring.zipIdx.filterMap ringLeg?)

variable [Scalar α]

def cutLeg (safeZ z : α) (cutter : Cutter α) (leg : Leg α) : Cutter α :=
  (link safeZ cutter leg.start z leg.lift).follow leg.rest z

section Raster

variable {safeZ z : α}

omit [Scalar α] in
theorem legs_append (before : Option (PlacedPass α)) (front back : List (PlacedPass α)) :
    PlacedPass.legs before (front ++ back) =
      PlacedPass.legs before front ++ PlacedPass.legs (front.getLast?.or before) back := by
  induction front generalizing before with
  | nil => rfl
  | cons next front ih =>
      rw [List.cons_append, PlacedPass.legs, PlacedPass.legs, ih, List.cons_append,
        List.getLast?_cons]
      cases front.getLast? <;> rfl

/-- The number of passes of a row tells whether the last one of them was alone. -/
inductive Remembers : Option Nat → Option (PlacedPass α) → Prop where
  | nothing : Remembers none none
  | pass {length : Nat} {before : PlacedPass α} (positive : 0 < length)
      (alone : before.alone = (length == 1)) : Remembers (some length) (some before)

omit [Scalar α] in
theorem liftsBefore_eq {previous : Option Nat} {before : Option (PlacedPass α)}
    (remembers : Remembers previous before) {length : Nat} (nonempty : 0 < length) :
    liftsBefore previous length 0 =
      before.any fun before => !(before.alone && (length == 1)) := by
  cases remembers with
  | nothing => rfl
  | @pass earlier before positive alone =>
      rw [liftsBefore, Option.any_some, alone, Bool.eq_iff_iff]
      simp only [Bool.or_eq_true, decide_eq_true_eq, Bool.not_eq_true', Bool.and_eq_false_iff,
        beq_eq_false_iff_ne]
      omega

/-- Behind the first pass of a row, all are lifted over to. -/
theorem foldl_eq_of_crowded {step : Cutter α → RasterPass α × Nat → Cutter α} {number : Nat}
    (steps : ∀ cutter pass index, step cutter (pass, index + 1) =
      cutLeg safeZ z cutter (PlacedPass.leg { pass, row := number, alone := false } true))
    (passes : List (RasterPass α)) (index : Nat) (before : PlacedPass α)
    (crowded : before.alone = false) (cutter : Cutter α) :
    (passes.zipIdx (index + 1)).foldl step cutter =
      (PlacedPass.legs (some before)
        (passes.map fun pass => { pass, row := number, alone := false })).foldl
        (cutLeg safeZ z) cutter := by
  induction passes generalizing index before cutter with
  | nil => rfl
  | cons pass passes ih =>
      rw [List.zipIdx_cons, List.foldl_cons, steps,
        ih (index + 1) { pass, row := number, alone := false } rfl, List.map_cons,
        PlacedPass.legs, List.foldl_cons, Option.any_some, crowded]
      rfl

theorem cutRow_eq_foldl {previous : Option Nat} {before : Option (PlacedPass α)}
    (remembers : Remembers previous before) {row : List (RasterPass α)} (nonempty : row ≠ [])
    (number : Nat) (cutter : Cutter α) :
    cutRow safeZ z cutter previous row =
      (PlacedPass.legs before (Raster.placed row number)).foldl (cutLeg safeZ z) cutter := by
  have lifts := liftsBefore_eq remembers (List.length_pos_iff.mpr nonempty)
  cases row with
  | nil => exact absurd rfl nonempty
  | cons first rest =>
      rw [cutRow, List.zipIdx_cons, List.foldl_cons, Raster.placed, List.map_cons,
        PlacedPass.legs, List.foldl_cons]
      dsimp only
      rw [lifts]
      cases rest with
      | nil => rfl
      | cons second rest =>
          have crowded : ((first :: second :: rest).length == 1) = false := rfl
          rw [crowded]
          refine foldl_eq_of_crowded (fun cutter pass index => ?_) (second :: rest) 0 _ rfl _
          have lifted :
              liftsBefore previous (first :: second :: rest).length (index + 1) = true := by
            cases previous <;> rfl
          dsimp only
          rw [lifted]
          rfl

omit [Scalar α] in
theorem remembers_placed {row : List (RasterPass α)} (nonempty : row ≠ []) (number : Nat)
    (before : Option (PlacedPass α)) :
    Remembers (some row.length) ((Raster.placed row number).getLast?.or before) := by
  rw [Raster.placed, List.getLast?_map, List.getLast?_eq_some_getLast nonempty]
  exact .pass (List.length_pos_iff.mpr nonempty) rfl

theorem cutRows_eq_foldl {previous : Option Nat} {before : Option (PlacedPass α)}
    (remembers : Remembers previous before) (rows : List (List (RasterPass α))) (number : Nat)
    (cutter : Cutter α) :
    cutRows safeZ z previous cutter rows =
      (PlacedPass.legs before (Raster.inOrder rows number)).foldl (cutLeg safeZ z) cutter := by
  induction rows generalizing previous before number cutter with
  | nil => rfl
  | cons row rows ih =>
      rw [cutRows, Raster.inOrder, legs_append, List.foldl_append]
      split
      · rename_i empty
        rw [List.isEmpty_iff.mp empty]
        exact ih remembers (number + 1) cutter
      · rename_i some
        have nonempty : row ≠ [] := mt List.isEmpty_iff.mpr some
        rw [cutRow_eq_foldl remembers nonempty number cutter]
        exact ih (remembers_placed nonempty number before) (number + 1) _

end Raster

section Rings

variable {safeZ z : α}

omit [Scalar α] in
@[simp] theorem unliftFirst_false (legs : List (Leg α)) : unliftFirst false legs = legs := by
  cases legs <;> rfl

omit [Scalar α] in
theorem unliftFirst_append (isFirst : Bool) (front back : List (Leg α)) :
    unliftFirst isFirst (front ++ back) =
      unliftFirst isFirst front ++ unliftFirst (isFirst && front.isEmpty) back := by
  cases front with
  | nil => rw [List.isEmpty_nil, Bool.and_true]; rfl
  | cons leg front => rw [List.isEmpty_cons, Bool.and_false, unliftFirst_false]; rfl

theorem cutRing_eq_foldl (cutter : Cutter α) (isFirst : Bool)
    (ring : List (List (PathVertex α))) :
    cutRing safeZ z (cutter, isFirst) ring =
      ((unliftFirst isFirst (ring.zipIdx.filterMap ringLeg?)).foldl (cutLeg safeZ z) cutter,
        isFirst && (ring.zipIdx.filterMap ringLeg?).isEmpty) := by
  rw [cutRing]
  induction ring.zipIdx generalizing cutter isFirst with
  | nil => rw [List.filterMap_nil, List.isEmpty_nil, Bool.and_true]; rfl
  | cons item items ih =>
      obtain ⟨path, index⟩ := item
      rw [List.foldl_cons]
      cases path with
      | nil => exact ih cutter isFirst
      | cons start rest =>
          have isLeg : ringLeg? (start :: rest, index) = some
              { start := start.point, rest, lift := decide (0 < index) } := rfl
          rw [ih, unliftFirst_false, List.filterMap_cons_some isLeg, List.isEmpty_cons,
            Bool.false_and, Bool.and_false]
          rfl

theorem foldl_cutRing_eq_foldl (rings : List (List (List (PathVertex α)))) (cutter : Cutter α)
    (isFirst : Bool) :
    (rings.foldl (cutRing safeZ z) (cutter, isFirst)).1 =
      (unliftFirst isFirst (rings.flatMap fun ring => ring.zipIdx.filterMap ringLeg?)).foldl
        (cutLeg safeZ z) cutter := by
  induction rings generalizing cutter isFirst with
  | nil => rfl
  | cons ring rings ih =>
      rw [List.foldl_cons, cutRing_eq_foldl, ih, List.flatMap_cons, unliftFirst_append,
        List.foldl_append]

end Rings

/-- A clearing is cut leg by leg. -/
theorem cut_eq_foldl (safeZ z : α) (cutter : Cutter α) (clearing : Clearing α) :
    clearing.cut safeZ z cutter = clearing.legs.foldl (cutLeg safeZ z) cutter := by
  cases clearing with
  | raster rows => exact cutRows_eq_foldl .nothing rows 0 cutter
  | nested rings => exact foldl_cutRing_eq_foldl rings cutter true

section Moves

/-- The moves by which a tool goes to a place at a height. -/
def linkMoves (safeZ z feed : α) (here : Position α) (target : PlanePoint α) (lift : Bool) :
    List (MotionPoint α) :=
  if here.IsAt target z then []
  else
    (if lift then [.rapid here.x here.y safeZ, .rapid target.x target.y safeZ] else []) ++
      [.cutTo feed target z]

/-- The move to a vertex of a path; the centre of an arc is given from where the tool is. -/
def vertexMove (z feed : α) (here : Position α) (vertex : PathVertex α) : MotionPoint α :=
  match vertex.arc with
  | some arc =>
      { position := .above vertex.point z
        motion := .arc (.around arc.rotation (arc.center.x - here.x) (arc.center.y - here.y))
        feed := some feed }
  | none => .cutTo feed vertex.point z

def followMoves (z feed : α) : Position α → List (PathVertex α) → List (MotionPoint α)
  | _, [] => []
  | here, vertex :: rest =>
      vertexMove z feed here vertex :: followMoves z feed (.above vertex.point z) rest

/-- The moves of legs, each from where the one before ended. -/
def legMoves (safeZ z feed : α) : Position α → List (Leg α) → List (MotionPoint α)
  | _, [] => []
  | here, leg :: legs =>
      let linked := linkMoves safeZ z feed here leg.start leg.lift
      let cut := followMoves z feed (here.after linked) leg.rest
      linked ++ cut ++ legMoves safeZ z feed ((here.after linked).after cut) legs

variable {safeZ z : α}

theorem link_eq_foldl (cutter : Cutter α) (target : PlanePoint α) (lift : Bool) :
    link safeZ cutter target z lift =
      (linkMoves safeZ z cutter.cut.feed cutter.position target lift).foldl push cutter := by
  rw [link, linkMoves]
  by_cases there : cutter.position.IsAt target z
  · rw [if_pos there, if_pos (Position.isAt_iff.mpr there)]
    rfl
  · rw [if_neg there, if_neg (mt Position.isAt_iff.mp there)]
    cases lift <;> rfl

@[simp] theorem position_vertexMove (feed : α) (here : Position α) (vertex : PathVertex α) :
    (vertexMove z feed here vertex).position = .above vertex.point z := by
  unfold vertexMove
  split <;> rfl

theorem followOne_eq_push (cutter : Cutter α) (vertex : PathVertex α) :
    followOne z cutter vertex =
      cutter.push (vertexMove z cutter.cut.feed cutter.position vertex) := by
  cases turning : vertex.arc with
  | none =>
      simp only [followOne, vertexMove, turning]
      rfl
  | some arc =>
      simp only [followOne, vertexMove, turning]
      rfl

theorem follow_eq_foldl (cutter : Cutter α) (path : List (PathVertex α)) :
    cutter.follow path z =
      (followMoves z cutter.cut.feed cutter.position path).foldl push cutter := by
  induction path generalizing cutter with
  | nil => rfl
  | cons vertex path ih =>
      have arrived : (followOne z cutter vertex).position = .above vertex.point z := by
        rw [followOne_eq_push]
        exact position_vertexMove cutter.cut.feed cutter.position vertex
      have followed : cutter.follow (vertex :: path) z =
          (followOne z cutter vertex).follow path z := rfl
      rw [followed, ih, arrived, followMoves, List.foldl_cons, followOne_eq_push]
      rfl

theorem cutLegs_eq_foldl (cutter : Cutter α) (legs : List (Leg α)) :
    legs.foldl (cutLeg safeZ z) cutter =
      (legMoves safeZ z cutter.cut.feed cutter.position legs).foldl push cutter := by
  induction legs generalizing cutter with
  | nil => rfl
  | cons leg legs ih =>
      rw [List.foldl_cons, cutLeg, link_eq_foldl, follow_eq_foldl, ih, legMoves,
        List.foldl_append, List.foldl_append]
      simp only [cut_foldl_push, position_foldl_push]

/-- What a tool passes while it cuts a clearing. -/
theorem passed_cut (safeZ z : α) (cutter : Cutter α) (clearing : Clearing α) :
    (clearing.cut safeZ z cutter).passed.reverse = cutter.passed.reverse ++
      (legMoves safeZ z cutter.cut.feed cutter.position clearing.legs).map
        (stamped cutter.cut) := by
  rw [cut_eq_foldl, cutLegs_eq_foldl, passed_foldl_push, List.reverse_append,
    List.reverse_reverse]

end Moves

theorem placeTolerance_eq {β : Type} [ExactScalar β] :
    (placeTolerance : β) = 1 / (10 ^ 9 : ℕ) := by
  rw [placeTolerance, ExactScalar.decimal, Nat.cast_one]

end Clearing

end Milling
