import Mathlib
import Milling.Proofs.Geometry.Steps
import Milling.Proofs.Machining.Legs
import Milling.Proofs.Scalar.Real

/-!
# Steps from row to row

The tool goes on to the next pass by a cut straight across only if both passes are
alone in their rows.  Rows without passes do not count there: two such passes may
have empty rows between them, and what lies in those is cut across as well.
-/

namespace Milling

open Cutter Clearing

variable {α : Type}

namespace Raster

theorem inOrder_append (front back : List (List (RasterPass α))) (number : Nat) :
    inOrder (front ++ back) number =
      inOrder front number ++ inOrder back (number + front.length) := by
  induction front generalizing number with
  | nil => rfl
  | cons row front ih =>
      rw [List.cons_append, inOrder, inOrder, ih, List.append_assoc, List.length_cons,
        Nat.add_right_comm, Nat.add_assoc]

theorem inOrder_replicate_nil (gap number : Nat) :
    inOrder (List.replicate gap ([] : List (RasterPass α))) number = [] := by
  induction gap generalizing number with
  | zero => rfl
  | succ gap ih => exact ih (number + 1)

theorem inOrder_singleton_cons (pass : RasterPass α) (rows : List (List (RasterPass α)))
    (number : Nat) :
    inOrder ([pass] :: rows) number =
      { pass, row := number, alone := true } :: inOrder rows (number + 1) := rfl

theorem eq_singleton_of_mem_placed {row : List (RasterPass α)} {number : Nat}
    {found : PlacedPass α} (isPlaced : found ∈ placed row number) (alone : found.alone = true) :
    ∃ pass, row = [pass] ∧ found = { pass, row := number, alone := true } := by
  obtain ⟨pass, isPass, rfl⟩ := List.mem_map.mp isPlaced
  obtain ⟨only, rfl⟩ := List.length_eq_one_iff.mp (eq_of_beq alone)
  obtain rfl := List.mem_singleton.mp isPass
  exact ⟨pass, rfl, rfl⟩

/-- A pass that is alone in its row comes in a later row, or is the whole first one. -/
theorem split_cases {row : List (RasterPass α)} {rows : List (List (RasterPass α))}
    {number : Nat} {earlier later : List (PlacedPass α)} {found : PlacedPass α}
    (split : inOrder (row :: rows) number = earlier ++ found :: later)
    (alone : found.alone = true) :
    (∃ extra, inOrder rows (number + 1) = extra ++ found :: later) ∨
      ∃ pass, row = [pass] ∧ found = { pass, row := number, alone := true } ∧
        inOrder rows (number + 1) = later := by
  rcases List.append_eq_append_iff.mp split with ⟨extra, _, rest⟩ | ⟨extra, isPlaced, rest⟩
  · exact .inl ⟨extra, rest⟩
  · cases extra with
    | nil => exact .inl ⟨[], rest.symm⟩
    | cons head extra =>
        obtain ⟨rfl, rest⟩ := List.cons.inj rest
        have member : found ∈ placed row number := by
          rw [isPlaced]
          exact List.mem_append_right earlier List.mem_cons_self
        obtain ⟨pass, rfl, same⟩ := eq_singleton_of_mem_placed member alone
        refine .inr ⟨pass, rfl, same, ?_⟩
        rw [inOrder_singleton_cons, ← same] at split
        cases earlier with
        | nil => exact (List.cons.inj split).2
        | cons first earlier =>
            have length := congrArg List.length isPlaced
            simp only [placed, List.map_cons, List.map_nil, List.length_cons, List.length_nil,
              List.length_append] at length
            omega

/-- If the first pass of all is alone in its row, no row before it has a pass. -/
theorem exists_of_inOrder_eq_cons {rows : List (List (RasterPass α))} {number : Nat}
    {next : PlacedPass α} {later : List (PlacedPass α)}
    (isFirst : inOrder rows number = next :: later) (alone : next.alone = true) :
    ∃ gap pass back, rows = List.replicate gap [] ++ [pass] :: back ∧
      next = { pass, row := number + gap, alone := true } := by
  induction rows generalizing number with
  | nil => cases isFirst
  | cons row rows ih =>
      cases row with
      | nil =>
          obtain ⟨gap, pass, back, rfl, same⟩ := ih isFirst
          refine ⟨gap + 1, pass, back, rfl, ?_⟩
          rw [same, Nat.add_right_comm, Nat.add_assoc]
      | cons first others =>
          have isPlaced : next ∈ placed (first :: others) number := by
            obtain ⟨rfl, _⟩ := List.cons.inj isFirst
            exact List.mem_cons_self
          obtain ⟨pass, single, same⟩ := eq_singleton_of_mem_placed isPlaced alone
          exact ⟨0, pass, rows, congrArg (· :: rows) single, same⟩

/-- Two passes that follow each other and are alone in their rows have nothing but
empty rows between them. -/
theorem exists_gap_of_inOrder_eq {rows : List (List (RasterPass α))} {number : Nat}
    {before next : PlacedPass α} {earlier later : List (PlacedPass α)}
    (split : inOrder rows number = earlier ++ before :: next :: later)
    (alone : before.alone = true) (alike : next.alone = true) :
    ∃ front first gap second back,
      rows = front ++ [first] :: (List.replicate gap [] ++ [second] :: back) ∧
      before = { pass := first, row := number + front.length, alone := true } ∧
      next = { pass := second, row := number + front.length + 1 + gap, alone := true } := by
  induction rows generalizing number earlier with
  | nil => exact absurd split (by simp [inOrder])
  | cons row rows ih =>
      rcases split_cases split alone with ⟨extra, rest⟩ | ⟨first, rfl, same, rest⟩
      · obtain ⟨front, first, gap, second, back, rfl, isBefore, isNext⟩ := ih rest
        have further : number + 1 + front.length = number + (row :: front).length := by
          rw [List.length_cons, Nat.add_right_comm, Nat.add_assoc]
        rw [further] at isBefore isNext
        exact ⟨row :: front, first, gap, second, back, rfl, isBefore, isNext⟩
      · obtain ⟨gap, second, back, rfl, isNext⟩ := exists_of_inOrder_eq_cons rest alike
        exact ⟨[], first, gap, second, back, rfl, same, isNext⟩

theorem mem_steps_inOrder (front : List (List (RasterPass α))) (first : RasterPass α) (gap : Nat)
    (second : RasterPass α) (back : List (List (RasterPass α))) (number : Nat) :
    (({ pass := first, row := number + front.length, alone := true } : PlacedPass α),
      ({ pass := second, row := number + front.length + 1 + gap, alone := true } : PlacedPass α)) ∈
      Polyline.steps
        (inOrder (front ++ [first] :: (List.replicate gap [] ++ [second] :: back)) number) := by
  rw [inOrder_append, inOrder_singleton_cons, inOrder_append, inOrder_replicate_nil,
    inOrder_singleton_cons, List.length_replicate, List.nil_append]
  exact Polyline.mem_steps_iff.mpr ⟨_, _, rfl⟩

section Moves

variable [Scalar α]

/-- The moves from the end of a pass to the start of the next one. -/
def joint (safeZ z feed : α) (before next : PlacedPass α) : List (MotionPoint α) :=
  linkMoves safeZ z feed (.above before.pass.stop z) next.pass.start
    !(before.alone && next.alone)

/-- The moves of passes: to the first one and along it, then from each to the next and
along that. -/
def passMoves (safeZ z feed : α) (here : Position α) : List (PlacedPass α) → List (MotionPoint α)
  | [] => []
  | first :: rest =>
      linkMoves safeZ z feed here first.pass.start false ++
        .cutTo feed first.pass.stop z ::
          (Polyline.steps (first :: rest)).flatMap fun (before, next) =>
            joint safeZ z feed before next ++ [.cutTo feed next.pass.stop z]

/-- The tool cuts from a pass to the next one without being lifted. -/
structure CutsAcross (safeZ z feed : α) (before next : PlacedPass α) : Prop where
  moves : joint safeZ z feed before next ≠ []
  cuts : ∀ point ∈ joint safeZ z feed before next, point.isCutting = true

/-- The tool is lifted between passes, but for two that are alone in rows beside each
other. -/
def StepsOverBeside (safeZ z feed : α) (rows : List (List (RasterPass α))) : Prop :=
  ∀ before next, (before, next) ∈ Polyline.steps (inOrder rows 0) →
    CutsAcross safeZ z feed before next →
      before.alone = true ∧ next.alone = true ∧ next.row = before.row + 1

variable {safeZ z feed : α}

theorem legMoves_legs (before : PlacedPass α) (passes : List (PlacedPass α)) :
    legMoves safeZ z feed (.above before.pass.stop z) (PlacedPass.legs (some before) passes) =
      (Polyline.steps (before :: passes)).flatMap fun (before, next) =>
        joint safeZ z feed before next ++ [.cutTo feed next.pass.stop z] := by
  induction passes generalizing before with
  | nil => rfl
  | cons next rest ih =>
      rw [Polyline.steps, List.flatMap_cons, ← ih next]
      rfl

theorem legMoves_raster (here : Position α) (rows : List (List (RasterPass α))) :
    legMoves safeZ z feed here (Clearing.raster rows).legs =
      passMoves safeZ z feed here (inOrder rows 0) := by
  rw [Clearing.legs]
  cases inOrder rows 0 with
  | nil => rfl
  | cons first rest =>
      rw [passMoves, ← legMoves_legs]
      simp only [PlacedPass.legs, legMoves, PlacedPass.leg, followMoves, vertexMove,
        Option.any_none, List.append_assoc]
      rfl

theorem cutsAcross_iff {before next : PlacedPass α} :
    CutsAcross safeZ z feed before next ↔
      ¬(Position.above before.pass.stop z).IsAt next.pass.start z ∧
        before.alone = true ∧ next.alone = true := by
  rw [← Bool.and_eq_true]
  constructor
  · rintro ⟨moves, cuts⟩
    constructor
    · intro there
      exact moves (if_pos there)
    · by_contra crowded
      have lifted : (!(before.alone && next.alone)) = true := by
        rw [Bool.not_eq_true', ← Bool.not_eq_true]
        exact crowded
      unfold joint linkMoves at moves cuts
      rw [lifted] at moves cuts
      split at cuts
      · rename_i there
        exact moves (if_pos there)
      · exact absurd (cuts _ List.mem_cons_self) Bool.false_ne_true
  · rintro ⟨away, alone⟩
    have straight : joint safeZ z feed before next = [.cutTo feed next.pass.start z] := by
      rw [joint, linkMoves, if_neg away, alone]
      rfl
    constructor
    · rw [straight]
      exact List.cons_ne_nil _ _
    · intro point isPoint
      rw [straight] at isPoint
      obtain rfl := List.mem_singleton.mp isPoint
      rfl

/-- The tool steps over only between rows beside each other if no two passes that are
alone in their rows, and apart, have empty rows between them. -/
theorem stepsOverBeside_iff {rows : List (List (RasterPass α))} :
    StepsOverBeside safeZ z feed rows ↔
      ∀ front first gap second back,
        rows = front ++ [first] :: (List.replicate gap [] ++ [second] :: back) →
          gap = 0 ∨ (Position.above first.stop z).IsAt second.start z := by
  constructor
  · rintro beside front first gap second back rfl
    by_contra! apart
    obtain ⟨_, _, numbers⟩ := beside _ _ (mem_steps_inOrder front first gap second back 0)
      (cutsAcross_iff.mpr ⟨apart.2, rfl, rfl⟩)
    exact apart.1 (Nat.left_eq_add.mp numbers.symm)
  · intro close before next follows across
    obtain ⟨away, alone, alike⟩ := cutsAcross_iff.mp across
    obtain ⟨earlier, later, split⟩ := Polyline.mem_steps_iff.mp follows
    obtain ⟨front, first, gap, second, back, isRows, rfl, rfl⟩ :=
      exists_gap_of_inOrder_eq split alone alike
    rcases close front first gap second back isRows with rfl | there
    · exact ⟨rfl, rfl, rfl⟩
    · exact absurd there away

end Moves

end Raster

variable [Scalar α]

/-- A raster is cut pass by pass, and the tool is lifted between two passes unless both are
alone in their rows.  So it steps over only between rows beside each other exactly if
nothing but rows beside each other is left when empty rows are passed over. -/
theorem Clearing.cut_raster (safeZ z : α) (cutter : Cutter α)
    (rows : List (List (RasterPass α))) :
    ((Clearing.raster rows).cut safeZ z cutter).passed.reverse = cutter.passed.reverse ++
        (Raster.passMoves safeZ z cutter.cut.feed cutter.position
          (Raster.inOrder rows 0)).map (stamped cutter.cut) ∧
      (Raster.StepsOverBeside safeZ z cutter.cut.feed rows ↔
        ∀ front first gap second back,
          rows = front ++ [first] :: (List.replicate gap [] ++ [second] :: back) →
            gap = 0 ∨ (Position.above first.stop z).IsAt second.start z) := by
  constructor
  · rw [passed_cut, Raster.legMoves_raster]
  · exact Raster.stepsOverBeside_iff

/-- The rows of two chambers that a channel too narrow for the tool connects. -/
noncomputable def chamberRows : List (List (RasterPass ℝ)) :=
  [[{ start := ⟨3, 3⟩, stop := ⟨17, 3⟩ }], [{ start := ⟨17, 6⟩, stop := ⟨3, 6⟩ }], [], [], [],
    [{ start := ⟨17, 18⟩, stop := ⟨3, 18⟩ }], [{ start := ⟨3, 21⟩, stop := ⟨17, 21⟩ }]]

/-- From one chamber to the other the tool cuts straight across. -/
theorem chamberRows_crossed : ¬Raster.StepsOverBeside 5 (-1) 800 chamberRows := by
  rw [Raster.stepsOverBeside_iff]
  intro close
  rcases close [_] _ 3 _ _ rfl with gap | there
  · cases gap
  · have near := there.place
    rw [placeTolerance_eq] at near
    have far : (1 : ℝ) ≤ ({ x := 3, y := 6 } : PlanePoint ℝ).distance { x := 17, y := 18 } :=
      Real.le_sqrt_of_sq_le (by norm_num)
    have small : (1 : ℝ) < 1 / (10 ^ 9 : ℕ) := far.trans_lt near
    norm_num at small

end Milling
