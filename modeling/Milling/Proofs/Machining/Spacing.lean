import Mathlib
import Milling.Proofs.Machining.Raster

/-!
# Rows leave no strip uncut

Rows lie one step apart from the lowest to the highest place of a part, and each is
scanned close to where it lies.  The scanned heights come no further apart than the
rows, for moving places inside limits brings none of them further from another.
-/

namespace Milling.Raster

variable {α : Type} [ExactScalar α]

/-- Heights that leave no strip of a range wider than a step: they rise in steps, from
close to its lower limit to close to its upper one. -/
structure Covers (low high step atLow atHigh : α) (heights : List α) : Prop where
  rising : heights.Pairwise (· ≤ ·)
  close : heights.IsChain fun y next => |next - y| ≤ step
  first : ∃ first ∈ heights.head?, |first - low| ≤ atLow
  last : ∃ last ∈ heights.getLast?, |last - high| ≤ atHigh

/-- How far a row goes in its direction from one place to another: every second row goes
from right to left. -/
def travel (number : Nat) (start stop : α) : α :=
  if number % 2 = 1 then start - stop else stop - start

/-- The passes of a row at a height follow each other in its direction. -/
structure RunsAlong (number : Nat) (y : α) (row : List (RasterPass α)) : Prop where
  level : ∀ pass ∈ row, pass.start.y = y ∧ pass.stop.y = y
  long : ∀ pass ∈ row, 1 / (10 ^ 6 : ℕ) ≤ travel number pass.start.x pass.stop.x
  apart : row.Pairwise fun before next => 0 ≤ travel number before.stop.x next.start.x

/-- The stretch that a pass of a row goes along, from left to right. -/
def stretchOf (number : Nat) (pass : RasterPass α) : α × α :=
  if number % 2 = 1 then (pass.stop.x, pass.start.x) else (pass.start.x, pass.stop.x)

/-- The stretches of a height that are long enough for a pass. -/
def longStretches (edges : List (Edge α)) (y : α) : List (α × α) :=
  (intervals edges y).filter fun stretch => decide (1 / (10 ^ 6 : ℕ) ≤ stretch.2 - stretch.1)

section Limits

theorem rowTolerance_eq : (rowTolerance : α) = 1 / (10 ^ 9 : ℕ) := by
  rw [rowTolerance, ExactScalar.decimal, Nat.cast_one]

theorem nudge_eq : (nudge : α) = 1 / (10 ^ 7 : ℕ) := by
  rw [nudge, ExactScalar.decimal, Nat.cast_one]

theorem shortestPass_eq : (shortestPass : α) = 1 / (10 ^ 6 : ℕ) := by
  rw [shortestPass, ExactScalar.decimal, Nat.cast_one]

/-- The limits of heights are the least and the greatest of them. -/
theorem foldl_limits (edges : List (Edge α)) (low high : α) :
    edges.foldl
      (fun (low, high) edge => (Scalar.lesser low edge.1.y, Scalar.greater high edge.1.y))
      (low, high) =
      ((edges.map fun edge => edge.1.y).foldl min low,
        (edges.map fun edge => edge.1.y).foldl max high) := by
  induction edges generalizing low high with
  | nil => rfl
  | cons edge edges ih =>
      rw [List.foldl_cons, ih, List.map_cons, List.foldl_cons, List.foldl_cons,
        ExactScalar.lesser_eq_min, ExactScalar.greater_eq_max]

theorem span?_eq {edges : List (Edge α)} {low high : α}
    (lowest : IsLeast {y | ∃ edge ∈ edges, edge.1.y = y} low)
    (highest : IsGreatest {y | ∃ edge ∈ edges, edge.1.y = y} high) :
    span? edges = some (low, high) := by
  cases edges with
  | nil =>
      obtain ⟨edge, member, _⟩ := lowest.1
      cases member
  | cons first rest =>
      have least : ((first :: rest).map fun edge => edge.1.y).min? = some low :=
        List.min?_eq_some_iff.mpr ⟨List.mem_map.mpr lowest.1,
          fun y isStart => lowest.2 (List.mem_map.mp isStart)⟩
      have greatest : ((first :: rest).map fun edge => edge.1.y).max? = some high :=
        List.max?_eq_some_iff.mpr ⟨List.mem_map.mpr highest.1,
          fun y isStart => highest.2 (List.mem_map.mp isStart)⟩
      rw [List.map_cons, List.min?_cons'] at least
      rw [List.map_cons, List.max?_cons'] at greatest
      rw [span?, foldl_limits, Option.some.inj least, Option.some.inj greatest]

end Limits

section Heights

variable {low high step : α}

theorem rowHeight_eq (low step : α) (row : Nat) : rowHeight low step row = low + step * row := by
  cases row with
  | zero => rw [rowHeight, Nat.cast_zero, mul_zero, add_zero]
  | succ row => rw [rowHeight, ExactScalar.ofInt_cast, Int.cast_natCast]

/-- Rows are counted up to the first one above the limit, unless that is too far up. -/
theorem rowCount?_cases (low high step : α) (allowed row : Nat) :
    ((∀ k ≤ allowed, low + step * (row + k : ℕ) ≤ high + rowTolerance) ∧
        rowCount? low high step allowed row = none) ∨
      ∃ more ≤ allowed, (∀ k < more, low + step * (row + k : ℕ) ≤ high + rowTolerance) ∧
        high + rowTolerance < low + step * (row + more : ℕ) ∧
        rowCount? low high step allowed row = some (row + more) := by
  induction allowed generalizing row with
  | zero =>
      rw [rowCount?, rowHeight_eq]
      split
      · rename_i within
        left
        constructor
        · intro k none
          rw [Nat.le_zero.mp none]
          exact within
        · rfl
      · rename_i above
        exact .inr ⟨0, le_rfl, fun k none => absurd none (Nat.not_lt_zero k), not_le.mp above, rfl⟩
  | succ allowed ih =>
      rw [rowCount?, rowHeight_eq]
      split
      · rename_i within
        have further (k : Nat) : row + (k + 1) = row + 1 + k := by omega
        rcases ih (row + 1) with ⟨all, counted⟩ | ⟨more, few, below, above, counted⟩
        · left
          refine ⟨fun k isRow => ?_, counted⟩
          cases k with
          | zero => exact within
          | succ k =>
              rw [further]
              exact all k (Nat.le_of_succ_le_succ isRow)
        · right
          refine ⟨more + 1, Nat.succ_le_succ few, fun k isRow => ?_, ?_, ?_⟩
          · cases k with
            | zero => exact within
            | succ k =>
                rw [further k]
                exact below k (Nat.lt_of_succ_lt_succ isRow)
          · rw [further more]
            exact above
          · rw [further more]
            exact counted
      · rename_i above
        exact .inr ⟨0, Nat.zero_le _, fun k none => absurd none (Nat.not_lt_zero k),
          not_le.mp above, rfl⟩

/-- Heights one step apart from a lower limit on, none of them above an upper limit. -/
def evenly (low high step : α) (count : Nat) : List α :=
  (List.range count).map fun row : Nat => min (low + step * row) high

theorem rising_evenly (positive : 0 < step) (count : Nat) :
    (evenly low high step count).Pairwise (· ≤ ·) := by
  rw [evenly, List.pairwise_map]
  apply List.pairwise_lt_range.imp
  intro row next before
  have further : (row : α) ≤ next := Nat.cast_le.mpr before.le
  exact min_le_min_right high (add_le_add_right (mul_le_mul_of_nonneg_left further positive.le) low)

theorem close_evenly (positive : 0 < step) (count : Nat) :
    (evenly low high step count).IsChain fun y next => |next - y| ≤ step := by
  cases count with
  | zero => exact .nil
  | succ last =>
      rw [evenly, List.isChain_map, List.isChain_range_succ]
      intro row _
      have apart : low + step * (row + 1 : ℕ) - (low + step * row) = step := by
        push_cast
        ring
      calc |min (low + step * (row + 1 : ℕ)) high - min (low + step * row) high|
          ≤ |low + step * (row + 1 : ℕ) - (low + step * row)| := abs_inf_sub_inf_le_abs _ _ _
        _ = step := by rw [apart, abs_of_pos positive]

theorem mem_Icc_of_mem_evenly (ordered : low ≤ high) (positive : 0 < step) {count : Nat} {y : α}
    (member : y ∈ evenly low high step count) : y ∈ Set.Icc low high := by
  obtain ⟨row, _, rfl⟩ := List.mem_map.mp member
  have forward : low ≤ low + step * row :=
    le_add_of_nonneg_right (mul_nonneg positive.le (Nat.cast_nonneg row))
  exact ⟨le_min forward ordered, min_le_right _ _⟩

/-- The heights of rows, with one more at the upper limit if the last one is not close to
it. -/
def completed (low high step : α) (last : Nat) : List α :=
  if rowTolerance < high - min (low + step * last) high then
    evenly low high step (last + 1) ++ [high]
  else evenly low high step (last + 1)

theorem getLast?_evenly (low high step : α) (last : Nat) :
    (evenly low high step (last + 1)).getLast? = some (min (low + step * last) high) := by
  rw [evenly, List.range_succ, List.map_append, List.map_singleton, List.getLast?_concat]

theorem head?_evenly (ordered : low ≤ high) (last : Nat) :
    (evenly low high step (last + 1)).head? = some low := by
  rw [evenly, List.head?_map, List.head?_range, if_neg (Nat.succ_ne_zero last), Option.map_some,
    Nat.cast_zero, mul_zero, add_zero, min_eq_left ordered]

theorem rowHeights?_eq {last : Nat}
    (counted : rowCount? low high step mostRows 0 = some (last + 1)) :
    rowHeights? low high step = some (completed low high step last) := by
  have even : (List.range (last + 1)).map (fun row =>
      Scalar.lesser (rowHeight low step row) high) = evenly low high step (last + 1) := by
    simp only [rowHeight_eq, ExactScalar.lesser_eq_min, evenly]
  rw [rowHeights?, counted, Option.map_some, even]
  dsimp only
  rw [getLast?_evenly, completed]
  dsimp only
  by_cases far : rowTolerance < high - min (low + step * last) high
  · rw [if_pos far, if_pos far]
  · rw [if_neg far, if_neg far]

theorem mem_Icc_of_mem_completed (ordered : low ≤ high) (positive : 0 < step) {last : Nat} {y : α}
    (member : y ∈ completed low high step last) : y ∈ Set.Icc low high := by
  unfold completed at member
  split at member
  · rcases List.mem_append.mp member with isEven | isTop
    · exact mem_Icc_of_mem_evenly ordered positive isEven
    · rw [List.mem_singleton.mp isTop]
      exact ⟨ordered, le_rfl⟩
  · exact mem_Icc_of_mem_evenly ordered positive member

theorem rowTolerance_pos : (0 : α) < rowTolerance := by
  rw [rowTolerance_eq]
  positivity

theorem covers_evenly (ordered : low ≤ high) (positive : 0 < step) {last : Nat} {atHigh : α}
    (near : high - min (low + step * last) high ≤ atHigh) :
    Covers low high step 0 atHigh (evenly low high step (last + 1)) := by
  refine ⟨rising_evenly positive _, close_evenly positive _, ?_, ?_⟩
  · refine ⟨low, head?_evenly ordered last, ?_⟩
    rw [sub_self, abs_zero]
  · refine ⟨_, getLast?_evenly low high step last, ?_⟩
    rwa [abs_sub_comm, abs_of_nonneg (sub_nonneg.mpr (min_le_right _ _))]

/-- One more row at the upper limit leaves no strip if the last one is a step away. -/
theorem Covers.top {atLow atHigh tolerance : α} {heights : List α}
    (covers : Covers low high step atLow atHigh heights) (below : ∀ y ∈ heights, y ≤ high)
    (near : ∀ last ∈ heights.getLast?, high - last ≤ step) (tolerant : 0 ≤ tolerance) :
    Covers low high step atLow tolerance (heights ++ [high]) := by
  constructor
  · refine List.pairwise_append.mpr ⟨covers.rising, List.pairwise_singleton _ _, ?_⟩
    intro y isHeight top isTop
    rw [List.mem_singleton.mp isTop]
    exact below y isHeight
  · refine List.isChain_append.mpr ⟨covers.close, .singleton _, ?_⟩
    intro last isLast top isTop
    obtain rfl := Option.some.inj isTop
    rw [abs_of_nonneg (sub_nonneg.mpr (below last (List.mem_of_mem_getLast? isLast)))]
    exact near last isLast
  · obtain ⟨first, isFirst, close⟩ := covers.first
    exact ⟨first, List.mem_head?_append_of_mem_head? isFirst, close⟩
  · refine ⟨high, List.getLast?_concat, ?_⟩
    rwa [sub_self, abs_zero]

/-- If no further row fits, the rows leave no strip. -/
theorem covers_completed (ordered : low ≤ high) (positive : 0 < step) {last : Nat}
    (above : high < low + step * (last + 1 : ℕ)) :
    Covers low high step 0 rowTolerance (completed low high step last) := by
  unfold completed
  split
  · refine (covers_evenly ordered positive le_rfl).top
      (fun y isEven => (mem_Icc_of_mem_evenly ordered positive isEven).2) ?_ rowTolerance_pos.le
    intro final isLast
    rw [getLast?_evenly] at isLast
    obtain rfl := Option.some.inj isLast
    have next : low + step * (last + 1 : ℕ) = low + step * last + step := by
      push_cast
      ring
    rw [sub_le_comm]
    exact le_min (by linarith) (by linarith)
  · rename_i near
    exact covers_evenly ordered positive (not_lt.mp near)

/-- Rows leave no strip, or they are too many. -/
theorem rowHeights?_cases (ordered : low ≤ high) (positive : 0 < step) :
    (low + step * mostRows ≤ high + rowTolerance ∧ rowHeights? low high step = none) ∨
      high + rowTolerance < low + step * mostRows ∧
        ∃ heights, rowHeights? low high step = some heights ∧
          (∀ y ∈ heights, y ∈ Set.Icc low high) ∧
          Covers low high step 0 rowTolerance heights := by
  have tolerant : (0 : α) < rowTolerance := rowTolerance_pos
  rcases rowCount?_cases low high step mostRows 0 with
    ⟨all, counted⟩ | ⟨count, few, _, above, counted⟩
  · left
    have most := all mostRows le_rfl
    rw [Nat.zero_add] at most
    exact ⟨most, by rw [rowHeights?, counted, Option.map_none]⟩
  · right
    rw [Nat.zero_add] at above counted
    have further : (count : α) ≤ mostRows := Nat.cast_le.mpr few
    have beyond : low + step * count ≤ low + step * mostRows :=
      add_le_add_right (mul_le_mul_of_nonneg_left further positive.le) low
    refine ⟨above.trans_le beyond, ?_⟩
    cases count with
    | zero =>
        rw [Nat.cast_zero, mul_zero, add_zero] at above
        linarith
    | succ last =>
        exact ⟨_, rowHeights?_eq counted, fun y => mem_Icc_of_mem_completed ordered positive,
          covers_completed ordered positive (by linarith)⟩

end Heights

section Scanning

variable {low high : α}

theorem scanHeight_eq (low high y : α) :
    scanHeight low high y =
      min (max y (low + nudge)) (max (high - nudge) (low + nudge)) := by
  have inside : low + nudge ≤ max (high - nudge) (low + nudge) := le_max_right _ _
  simp only [scanHeight, ExactScalar.greater_eq_max]
  split
  · rename_i below
    rw [max_eq_right below.le, min_eq_left inside]
  · rename_i least
    rw [max_eq_left (not_lt.mp least)]
    split
    · rename_i above
      rw [min_eq_right above.le]
    · rename_i most
      rw [min_eq_left (not_lt.mp most)]

theorem scanHeight_le_scanHeight {y next : α} (ordered : y ≤ next) :
    scanHeight low high y ≤ scanHeight low high next := by
  rw [scanHeight_eq, scanHeight_eq]
  exact min_le_min_right _ (max_le_max_right _ ordered)

theorem abs_scanHeight_sub_le (y next : α) :
    |scanHeight low high next - scanHeight low high y| ≤ |next - y| := by
  rw [scanHeight_eq, scanHeight_eq]
  exact (abs_inf_sub_inf_le_abs _ _ _).trans (abs_max_sub_max_le_abs _ _ _)

theorem abs_scanHeight_sub_self_le {y : α} (within : y ∈ Set.Icc low high) :
    |scanHeight low high y - y| ≤ nudge := by
  obtain ⟨above, below⟩ := within
  have nudged : (0 : α) < nudge := by
    rw [nudge_eq]
    positivity
  have most : high - nudge ≤ max (high - nudge) (low + nudge) := le_max_left _ _
  simp only [scanHeight, ExactScalar.greater_eq_max]
  rw [abs_le]
  split
  · constructor <;> linarith
  · split
    · constructor <;> linarith
    · constructor <;> linarith

theorem Covers.scanned {step atHigh : α} {heights : List α}
    (covers : Covers low high step 0 atHigh heights)
    (within : ∀ y ∈ heights, y ∈ Set.Icc low high) :
    Covers low high step nudge (nudge + atHigh) (heights.map (scanHeight low high)) := by
  have near {y limit apart : α} (isHeight : y ∈ heights) (close : |y - limit| ≤ apart) :
      |scanHeight low high y - limit| ≤ nudge + apart :=
    (abs_sub_le _ y _).trans (add_le_add (abs_scanHeight_sub_self_le (within y isHeight)) close)
  obtain ⟨first, isFirst, closeFirst⟩ := covers.first
  obtain ⟨last, isLast, closeLast⟩ := covers.last
  constructor
  · rw [List.pairwise_map]
    exact covers.rising.imp scanHeight_le_scanHeight
  · rw [List.isChain_map]
    exact covers.close.imp fun y next close => (abs_scanHeight_sub_le y next).trans close
  · refine ⟨_, List.head?_map ▸ Option.mem_map_of_mem _ isFirst, ?_⟩
    have close := near (List.mem_of_mem_head? isFirst) closeFirst
    rwa [add_zero] at close
  · exact ⟨_, List.getLast?_map ▸ Option.mem_map_of_mem _ isLast,
      near (List.mem_of_mem_getLast? isLast) closeLast⟩

end Scanning

section Passes

theorem pairwise_pairs {places : List α} (sorted : places.Pairwise (· ≤ ·)) :
    (pairs places).Pairwise fun stretch next => stretch.2 ≤ next.1 := by
  induction places using pairs.induct with
  | case1 first second rest ih =>
      obtain ⟨_, later⟩ := List.pairwise_cons.mp sorted
      obtain ⟨ahead, later⟩ := List.pairwise_cons.mp later
      rw [pairs, List.pairwise_cons]
      exact ⟨fun next isNext => ahead next.1 (mem_pairs isNext).1, ih later⟩
  | case2 places short =>
      rw [pairs]
      · exact .nil
      · exact short

/-- The stretches of a height are its crossings from left to right in pairs. -/
theorem exists_intervals_eq_pairs (edges : List (Edge α)) (y : α) :
    ∃ places, intervals edges y = pairs places ∧
      places.Perm ((edges.filter (crosses y)).map (crossingAt y)) ∧
      places.Pairwise (· ≤ ·) := by
  refine ⟨_, rfl, List.mergeSort_perm _ _,
    List.Pairwise.imp ?_ (List.pairwise_mergeSort ?_ ?_ _)⟩
  · intro left right ordered
    simpa only [decide_eq_true_eq] using ordered
  · intro first second third before after
    simp only [decide_eq_true_eq] at before after ⊢
    exact before.trans after
  · intro left right
    simp only [Bool.or_eq_true, decide_eq_true_eq]
    exact le_total left right

theorem pairwise_intervals (edges : List (Edge α)) (y : α) :
    (intervals edges y).Pairwise fun stretch next => stretch.2 ≤ next.1 := by
  obtain ⟨places, isPairs, _, sorted⟩ := exists_intervals_eq_pairs edges y
  rw [isPairs]
  exact pairwise_pairs sorted

/-- The passes of a row run from left to right before it is directed. -/
theorem runsAlong_rowPasses (edges : List (Edge α)) (y : α) {number : Nat}
    (even : number % 2 ≠ 1) : RunsAlong number y (rowPasses edges y) := by
  constructor
  · intro pass isPass
    obtain ⟨stretch, _, rfl⟩ := List.mem_map.mp isPass
    exact ⟨rfl, rfl⟩
  · intro pass isPass
    obtain ⟨stretch, isLong, rfl⟩ := List.mem_map.mp isPass
    have long := List.of_mem_filter isLong
    simp only [decide_eq_true_eq] at long
    rw [travel, if_neg even, ← shortestPass_eq]
    exact long
  · rw [rowPasses, List.pairwise_map]
    refine ((pairwise_intervals edges y).filter _).imp fun ahead => ?_
    rw [travel, if_neg even]
    exact sub_nonneg.mpr ahead

/-- Passes in the other direction, from the last one on, run along an odd row if they run
along an even one. -/
theorem RunsAlong.turned {even odd : Nat} {y : α} {row : List (RasterPass α)}
    (runs : RunsAlong even y row) (isEven : even % 2 ≠ 1) (isOdd : odd % 2 = 1) :
    RunsAlong odd y (row.reverse.map turned) := by
  have opposite (start stop : α) : travel odd stop start = travel even start stop := by
    rw [travel, travel, if_pos isOdd, if_neg isEven]
  constructor
  · intro pass isPass
    obtain ⟨source, isSource, rfl⟩ := List.mem_map.mp isPass
    exact (runs.level source (List.mem_reverse.mp isSource)).symm
  · intro pass isPass
    obtain ⟨source, isSource, rfl⟩ := List.mem_map.mp isPass
    exact (runs.long source (List.mem_reverse.mp isSource)).trans_eq (opposite _ _).symm
  · rw [List.pairwise_map, List.pairwise_reverse]
    exact runs.apart.imp fun ahead => ahead.trans_eq (opposite _ _).symm

/-- The passes of a row run in its direction. -/
theorem runsAlong_directed (edges : List (Edge α)) (y : α) (number : Nat) :
    RunsAlong number y (directed number (rowPasses edges y)) := by
  unfold directed
  split
  · rename_i odd
    have runs : RunsAlong 0 y (rowPasses edges y) := runsAlong_rowPasses edges y (by decide)
    exact runs.turned (by decide) odd
  · rename_i even
    exact runsAlong_rowPasses edges y even

theorem rowPasses_eq (edges : List (Edge α)) (y : α) :
    rowPasses edges y = (longStretches edges y).map fun stretch =>
      { start := { x := stretch.1, y }, stop := { x := stretch.2, y } } := by
  refine congrArg (List.map _) (List.filter_congr fun stretch _ => ?_)
  rw [← shortestPass_eq, decide_eq_decide]

/-- Every stretch that is long enough has its pass in a row, and there are no others. -/
theorem stretches_directed (edges : List (Edge α)) (y : α) (number : Nat) :
    ((directed number (rowPasses edges y)).map (stretchOf number)).Perm
      (longStretches edges y) := by
  rw [rowPasses_eq]
  unfold directed
  split
  · rename_i odd
    have along (stretch : α × α) : stretchOf number (turned
        { start := { x := stretch.1, y }, stop := { x := stretch.2, y } }) = stretch := by
      rw [stretchOf, if_pos odd]
      rfl
    simp only [← List.map_reverse, List.map_map, Function.comp_def, along, List.map_id_fun']
    exact List.reverse_perm _
  · rename_i even
    have along (stretch : α × α) : stretchOf number
        { start := { x := stretch.1, y }, stop := { x := stretch.2, y } } = stretch := by
      rw [stretchOf, if_neg even]
    simp only [List.map_map, Function.comp_def, along, List.map_id_fun']
    exact .refl _

end Passes

/-- The rows over a part leave no strip of its height uncut, unless they are too many.  A row
has a pass for every stretch of its height that is long enough, and its passes run in its
direction without overlap. -/
theorem rows_cover {edges : List (Edge α)} {low high step : α}
    (lowest : IsLeast {y | ∃ edge ∈ edges, edge.1.y = y} low)
    (highest : IsGreatest {y | ∃ edge ∈ edges, edge.1.y = y} high) (positive : 0 < step) :
    (∀ offsetter boundary inset, insetEdges offsetter boundary inset = .ok edges →
        rows offsetter boundary inset step = rowsOf edges step) ∧
      (low + step * mostRows ≤ high + 1 / (10 ^ 9 : ℕ) →
        rowsOf edges step = .error (.tooManyRows mostRows)) ∧
      (high + 1 / (10 ^ 9 : ℕ) < low + step * mostRows →
        ∃ heights, rowsOf edges step = .ok (heights.zipIdx.map fun (y, number) =>
            directed number (rowPasses edges y)) ∧
          Covers low high step (1 / (10 ^ 7 : ℕ)) (1 / (10 ^ 7 : ℕ) + 1 / (10 ^ 9 : ℕ)) heights ∧
          ∀ y number, RunsAlong number y (directed number (rowPasses edges y)) ∧
            ((directed number (rowPasses edges y)).map (stretchOf number)).Perm
              (longStretches edges y)) := by
  have ordered : low ≤ high := highest.2 lowest.1
  refine ⟨fun offsetter boundary inset found => by rw [rows, found]; rfl, ?_⟩
  rw [rowsOf, span?_eq lowest highest, ← rowTolerance_eq, ← nudge_eq]
  dsimp only
  rcases rowHeights?_cases ordered positive with
    ⟨fits, none⟩ | ⟨above, heights, some, within, covers⟩
  · rw [none]
    exact ⟨fun _ => rfl, fun above => absurd fits (not_le.mpr above)⟩
  · rw [some]
    refine ⟨fun fits => absurd fits (not_le.mpr above), fun _ => ?_⟩
    refine ⟨heights.map (scanHeight low high), ?_, covers.scanned within,
      fun y number => ⟨runsAlong_directed edges y number, stretches_directed edges y number⟩⟩
    rw [List.zipIdx_map, List.map_map]
    rfl

noncomputable def rectangleEdges : List (Edge ℝ) :=
  [(⟨0, 0⟩, ⟨10, 0⟩), (⟨10, 0⟩, ⟨10, 5⟩), (⟨10, 5⟩, ⟨0, 5⟩), (⟨0, 5⟩, ⟨0, 0⟩)]

theorem start_rectangleEdges {edge : Edge ℝ} (isEdge : edge ∈ rectangleEdges) :
    0 ≤ edge.1.y ∧ edge.1.y ≤ 5 := by
  simp only [rectangleEdges, List.mem_cons, List.not_mem_nil, or_false] at isEdge
  rcases isEdge with rfl | rfl | rfl | rfl <;> norm_num

theorem isLeast_rectangleEdges : IsLeast {y | ∃ edge ∈ rectangleEdges, edge.1.y = y} 0 := by
  refine ⟨⟨_, List.mem_cons_self, rfl⟩, ?_⟩
  rintro y ⟨edge, isEdge, rfl⟩
  exact (start_rectangleEdges isEdge).1

theorem isGreatest_rectangleEdges :
    IsGreatest {y | ∃ edge ∈ rectangleEdges, edge.1.y = y} 5 := by
  refine ⟨⟨_, List.mem_cons_of_mem _ (List.mem_cons_of_mem _ List.mem_cons_self), rfl⟩, ?_⟩
  rintro y ⟨edge, isEdge, rfl⟩
  exact (start_rectangleEdges isEdge).2

/-- Every height within the rectangle crosses it from its left to its right side. -/
theorem intervals_rectangleEdges {y : ℝ} (above : 0 ≤ y) (below : y < 5) :
    intervals rectangleEdges y = [(0, 10)] := by
  obtain ⟨places, isPairs, same, sorted⟩ := exists_intervals_eq_pairs rectangleEdges y
  have crossed : (rectangleEdges.filter (crosses y)).map (crossingAt y) = [10, 0] := by
    have last : ¬5 ≤ y := not_le.mpr below
    simp [rectangleEdges, crosses, crossingAt, above, below, last, not_lt.mpr above]
  rw [crossed] at same
  have inOrder : places = [0, 10] :=
    (same.trans (List.Perm.swap 0 10 [])).eq_of_pairwise (fun left right _ _ => le_antisymm)
      sorted (by simp)
  rw [isPairs, inOrder]
  rfl

theorem rowHeights?_rectangle : rowHeights? (0 : ℝ) 5 2 = some [0, 2, 4, 5] := by
  rcases rowCount?_cases (0 : ℝ) 5 2 mostRows 0 with ⟨all, _⟩ | ⟨count, _, below, above, counted⟩
  · have third := all 3 (by decide)
    norm_num [rowTolerance_eq] at third
  · have three : count = 3 := by
      rcases lt_trichotomy count 3 with fewer | isThree | more
      · have few : (count : ℝ) ≤ 2 := by exact_mod_cast Nat.le_of_lt_succ fewer
        rw [rowTolerance_eq, Nat.zero_add] at above
        norm_num at above
        linarith
      · exact isThree
      · have third := below 3 more
        norm_num [rowTolerance_eq] at third
    subst three
    rw [rowHeights?_eq counted, completed, rowTolerance_eq]
    norm_num [evenly, List.range_succ]

/-- The second row of the rectangle goes back at height two. -/
theorem rowsOf_rectangleEdges :
    ∃ rows, rowsOf rectangleEdges 2 = .ok rows ∧ rows[1]? = some [⟨⟨10, 2⟩, ⟨0, 2⟩⟩] := by
  have scanned : scanHeight (0 : ℝ) 5 2 = 2 := by
    rw [scanHeight_eq, nudge_eq]
    norm_num
  have passes : rowPasses rectangleEdges 2 = [⟨⟨0, 2⟩, ⟨10, 2⟩⟩] := by
    rw [rowPasses_eq, longStretches, intervals_rectangleEdges (by norm_num) (by norm_num)]
    norm_num
  rw [rowsOf, span?_eq isLeast_rectangleEdges isGreatest_rectangleEdges]
  dsimp only
  rw [rowHeights?_rectangle]
  refine ⟨_, rfl, ?_⟩
  simp [scanned, passes, directed, turned]

theorem rows_cover_rectangle :
    IsLeast {y | ∃ edge ∈ rectangleEdges, edge.1.y = y} 0 ∧
      IsGreatest {y | ∃ edge ∈ rectangleEdges, edge.1.y = y} 5 ∧ (0 : ℝ) < 2 ∧
      ∃ heights, rowsOf rectangleEdges 2 = .ok (heights.zipIdx.map fun (y, number) =>
          directed number (rowPasses rectangleEdges y)) ∧
        Covers (0 : ℝ) 5 2 (1 / (10 ^ 7 : ℕ)) (1 / (10 ^ 7 : ℕ) + 1 / (10 ^ 9 : ℕ)) heights ∧
        (∀ y number, RunsAlong number y (directed number (rowPasses rectangleEdges y)) ∧
          ((directed number (rowPasses rectangleEdges y)).map (stretchOf number)).Perm
            (longStretches rectangleEdges y)) ∧
        ∃ y, heights[1]? = some y ∧
          directed 1 (rowPasses rectangleEdges y) = [⟨⟨10, 2⟩, ⟨0, 2⟩⟩] := by
  have few : (5 : ℝ) + 1 / (10 ^ 9 : ℕ) < 0 + 2 * mostRows := by norm_num [mostRows]
  have positive : (0 : ℝ) < 2 := two_pos
  obtain ⟨_, _, covered⟩ :=
    rows_cover isLeast_rectangleEdges isGreatest_rectangleEdges positive
  obtain ⟨heights, made, covers, runs⟩ := covered few
  refine ⟨isLeast_rectangleEdges, isGreatest_rectangleEdges, positive, heights, made, covers,
    runs, ?_⟩
  obtain ⟨rows, same, second⟩ := rowsOf_rectangleEdges
  rw [← Except.ok.inj (made.symm.trans same), List.getElem?_map, List.getElem?_zipIdx] at second
  obtain ⟨_, isEntry, goesBack⟩ := Option.map_eq_some_iff.mp second
  obtain ⟨y, isHeight, rfl⟩ := Option.map_eq_some_iff.mp isEntry
  exact ⟨y, isHeight, goesBack⟩

end Milling.Raster
