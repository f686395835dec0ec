import Mathlib
import Milling.Machining.Holes
import Milling.Proofs.Machining.Check
import Milling.Proofs.Machining.Levels
import Milling.Proofs.Scalar.Real

/-!
# Steps down to a depth

The levels of an operation are whole steps from the top of the stock, and then
the depth itself.  Everything else about them follows: how far it is from one to
the next, how many there are, and that a count of them in 32 bits suffices for
every operation that passes its check.
-/

namespace Milling

variable {α : Type}

/-- The depth of an operation and the step in which it goes down; nothing for
holes that are drilled in one plunge. -/
def Operation.descent? [Scalar α] : Operation α → Option (α × α)
  | .contour profile => some (profile.depth, profile.stepDown)
  | .pocket cavity => some (cavity.depth, cavity.stepDown)
  | .drill holes => if holes.isPecking then some (holes.depth, holes.peckDepth) else none

/-- The levels from a pass on, with the passes counted in 32 bits. -/
def levelsByWord [Scalar α] (depth stepDown : α) : Nat → UInt32 → List α
  | 0, _ => [depth]
  | fuel + 1, pass =>
      let level := -stepDown * Scalar.ofInt pass.toNat
      if level ≤ depth + levelTolerance then [depth]
      else level :: levelsByWord depth stepDown fuel (pass + 1)

variable [ExactScalar α]

/-- Levels that fall to a depth in steps of a size, the first one from zero. -/
structure StepsDown (depth stepDown : α) (levels : List α) : Prop where
  last : levels.getLast? = some depth
  falling : levels.Pairwise (· > ·)
  drops : ∀ pass ∈ (0 :: levels).zip levels, pass.1 - pass.2 ≤ stepDown + 1 / (10 ^ 9 : ℕ)

/-- Levels that go down to a depth in whole steps as long as more than a residue
is left. -/
structure Descends (depth stepDown : α) (levels : List α) : Prop
    extends StepsDown depth stepDown levels where
  inside : ∀ level ∈ levels, depth ≤ level ∧ level < 0
  whole : ∀ index, index + 1 < levels.length →
    levels[index]? = some (-(stepDown * (index + 1 : ℕ)))
  residue : ∀ front before, levels = front ++ [before, depth] → 1 / (10 ^ 9 : ℕ) < before - depth
  count : (levels.length : ℤ) ≤ Scalar.ceil (-depth / stepDown)

variable {depth stepDown : α}

theorem levelTolerance_eq : (levelTolerance : α) = 1 / (10 ^ 9 : ℕ) := by
  rw [levelTolerance, ExactScalar.decimal, Nat.cast_one]

/-- Whole steps of a number from the top of the stock, and then a depth. -/
def wholeSteps (depth stepDown : α) (pass count : ℕ) : List α :=
  (List.range count).map (fun index => -(stepDown * (pass + index : ℕ))) ++ [depth]

/-- The levels are whole steps as long as these stay above the depth by more than
the tolerance. -/
theorem exists_levelsFrom_eq (down : 0 < stepDown) {fuel pass : ℕ}
    (enough : -depth / stepDown ≤ (pass + fuel : ℕ)) :
    ∃ count, levelsFrom depth stepDown fuel pass = wholeSteps depth stepDown pass count ∧
      (∀ index < count, depth + levelTolerance < -(stepDown * (pass + index : ℕ))) ∧
      -(stepDown * (pass + count : ℕ)) ≤ depth + levelTolerance := by
  have tolerance := levelTolerance_nonneg (α := α)
  induction fuel generalizing pass with
  | zero =>
      refine ⟨0, rfl, fun index few => absurd few (Nat.not_lt_zero index), ?_⟩
      have reached := (div_le_iff₀' down).mp enough
      linarith
  | succ fuel ih =>
      have level : -stepDown * (Scalar.ofInt pass : α) = -(stepDown * (pass : ℕ)) := by
        rw [ExactScalar.ofInt_cast, Int.cast_natCast, neg_mul]
      simp only [levelsFrom, level]
      split
      · rename_i reached
        exact ⟨0, rfl, fun index few => absurd few (Nat.not_lt_zero index), reached⟩
      · rename_i above
        have next : -depth / stepDown ≤ (pass + 1 + fuel : ℕ) := by
          rwa [Nat.add_right_comm, Nat.add_assoc]
        obtain ⟨count, steps, stays, reached⟩ := ih next
        refine ⟨count + 1, ?_, ?_, ?_⟩
        · rw [steps, wholeSteps, wholeSteps, List.range_succ_eq_map]
          simp [Function.comp_def, Nat.add_right_comm, Nat.add_assoc]
        · intro index few
          cases index with
          | zero => exact not_le.mp above
          | succ index =>
              have later := stays index (Nat.lt_of_succ_lt_succ few)
              rwa [Nat.add_right_comm, Nat.add_assoc] at later
        · rwa [Nat.add_right_comm, Nat.add_assoc] at reached

section WholeSteps

variable {pass count : ℕ}

@[simp] theorem length_wholeSteps : (wholeSteps depth stepDown pass count).length = count + 1 := by
  simp [wholeSteps]

theorem getElem?_wholeSteps_of_lt {index : ℕ} (few : index < count) :
    (wholeSteps depth stepDown pass count)[index]? = some (-(stepDown * (pass + index : ℕ))) := by
  rw [wholeSteps, List.getElem?_append_left (by simpa using few)]
  simp [few]

theorem getElem?_wholeSteps_self : (wholeSteps depth stepDown pass count)[count]? = some depth := by
  rw [wholeSteps, List.getElem?_append_right (by simp)]
  simp

theorem getElem?_zero_cons_wholeSteps {index : ℕ} (few : index ≤ count) :
    (0 :: wholeSteps depth stepDown 1 count)[index]? = some (-(stepDown * index)) := by
  cases index with
  | zero => simp
  | succ index =>
      rw [List.getElem?_cons_succ, getElem?_wholeSteps_of_lt few, Nat.add_comm]

theorem mem_zip_wholeSteps {pair : α × α}
    (isPair : pair ∈ (0 :: wholeSteps depth stepDown 1 count).zip
      (wholeSteps depth stepDown 1 count)) :
    (∃ index < count, pair = (-(stepDown * index), -(stepDown * (1 + index : ℕ)))) ∨
      pair = (-(stepDown * count), depth) := by
  obtain ⟨index, isIndex⟩ := List.mem_iff_getElem?.mp isPair
  obtain ⟨isAbove, isLevel⟩ := List.getElem?_zip_eq_some.mp isIndex
  have few : index ≤ count := by
    have inside := (List.getElem?_eq_some_iff.mp isLevel).1
    rw [length_wholeSteps] at inside
    omega
  rw [getElem?_zero_cons_wholeSteps few] at isAbove
  rcases Nat.lt_or_eq_of_le few with less | rfl
  · rw [getElem?_wholeSteps_of_lt less] at isLevel
    exact .inl ⟨index, less, Prod.ext (Option.some.inj isAbove).symm (Option.some.inj isLevel).symm⟩
  · rw [getElem?_wholeSteps_self] at isLevel
    exact .inr (Prod.ext (Option.some.inj isAbove).symm (Option.some.inj isLevel).symm)

theorem mem_wholeSteps {level : α} (isLevel : level ∈ wholeSteps depth stepDown pass count) :
    (∃ index < count, level = -(stepDown * (pass + index : ℕ))) ∨ level = depth := by
  rcases List.mem_append.mp isLevel with isStep | isLast
  · obtain ⟨index, isIndex, rfl⟩ := List.mem_map.mp isStep
    exact .inl ⟨index, List.mem_range.mp isIndex, rfl⟩
  · exact .inr (List.mem_singleton.mp isLast)

variable (below : depth < 0) (down : 0 < stepDown)
  (stays : ∀ index < count, depth + levelTolerance < -(stepDown * (1 + index : ℕ)))

include stays

/-- A whole step that is cut lies above the depth. -/
theorem depth_lt_of_stays {index : ℕ} (few : index < count) :
    depth < -(stepDown * (1 + index : ℕ)) := by
  have tolerance := levelTolerance_nonneg (α := α)
  linarith [stays index few]

include down in
theorem pairwise_wholeSteps : (wholeSteps depth stepDown 1 count).Pairwise (· > ·) := by
  refine List.pairwise_append.mpr ⟨?_, List.pairwise_singleton _ _, ?_⟩
  · refine List.pairwise_map.mpr (List.pairwise_lt_range.imp fun {first second} order => ?_)
    have further : ((1 + first : ℕ) : α) < (1 + second : ℕ) := by exact_mod_cast by omega
    exact neg_lt_neg (mul_lt_mul_of_pos_left further down)
  · intro level isStep last isLast
    obtain ⟨index, isIndex, rfl⟩ := List.mem_map.mp isStep
    obtain rfl := List.mem_singleton.mp isLast
    exact depth_lt_of_stays stays (List.mem_range.mp isIndex)

include below in
/-- All whole steps together are shorter than the depth. -/
theorem mul_count_lt : stepDown * count < -depth := by
  cases count with
  | zero => simpa using below
  | succ count =>
      have last := depth_lt_of_stays stays (Nat.lt_succ_self count)
      rw [Nat.add_comm]
      linarith

include down

theorem stepsDown_wholeSteps
    (reached : -(stepDown * (1 + count : ℕ)) ≤ depth + levelTolerance) :
    StepsDown depth stepDown (wholeSteps depth stepDown 1 count) where
  last := by simp [wholeSteps]
  falling := pairwise_wholeSteps down stays
  drops := by
    intro pair isPair
    rw [← levelTolerance_eq]
    have tolerance := levelTolerance_nonneg (α := α)
    rcases mem_zip_wholeSteps isPair with ⟨index, _, rfl⟩ | rfl
    · push_cast
      linarith
    · push_cast at reached
      linarith

include below in
theorem descends_wholeSteps
    (reached : -(stepDown * (1 + count : ℕ)) ≤ depth + levelTolerance) :
    Descends depth stepDown (wholeSteps depth stepDown 1 count) where
  toStepsDown := stepsDown_wholeSteps down stays reached
  inside := by
    intro level isLevel
    rcases mem_wholeSteps isLevel with ⟨index, few, rfl⟩ | rfl
    · have forward : 0 < stepDown * (1 + index : ℕ) := by positivity
      exact ⟨(depth_lt_of_stays stays few).le, neg_lt_zero.mpr forward⟩
    · exact ⟨le_rfl, below⟩
  whole := by
    intro index inside
    rw [length_wholeSteps] at inside
    rw [getElem?_wholeSteps_of_lt (Nat.lt_of_succ_lt_succ inside), Nat.add_comm]
  residue := by
    intro front before levels
    have length := congrArg List.length levels
    simp only [length_wholeSteps, List.length_append, List.length_cons, List.length_nil] at length
    have few : front.length < count := by omega
    have isBefore : (wholeSteps depth stepDown 1 count)[front.length]? = some _ :=
      getElem?_wholeSteps_of_lt few
    rw [levels] at isBefore
    simp only [List.getElem?_append_right le_rfl, Nat.sub_self, List.getElem?_cons_zero,
      Option.some.injEq] at isBefore
    rw [isBefore, ← levelTolerance_eq]
    linarith [stays front.length few]
  count := by
    rw [length_wholeSteps]
    by_contra many
    have few : Scalar.ceil (-depth / stepDown) ≤ (count : ℤ) := by
      push_cast at many
      omega
    rw [ExactScalar.ceil_le_iff, div_le_iff₀' down, Int.cast_natCast] at few
    exact absurd (mul_count_lt below stays) (not_lt.mpr few)

end WholeSteps

theorem le_enoughPasses (depth stepDown : α) :
    -depth / stepDown ≤ (1 + enoughPasses depth stepDown : ℕ) := by
  have whole : Scalar.ceil (-depth / stepDown) ≤ (1 + enoughPasses depth stepDown : ℕ) := by
    rw [enoughPasses, ExactScalar.finite, if_pos rfl]
    omega
  exact_mod_cast ExactScalar.ceil_le_iff.mp whole

theorem descends_depthLevels (below : depth < 0) (down : 0 < stepDown) :
    Descends depth stepDown (depthLevels depth stepDown) := by
  obtain ⟨count, levels, stays, reached⟩ :=
    exists_levelsFrom_eq down (le_enoughPasses depth stepDown)
  have stepping : ¬((0 : α) ≤ depth ∨ stepDown ≤ 0 ∨ (!Scalar.isFinite stepDown) = true) := by
    simp [below, down]
  rw [depthLevels, ExactScalar.literal_zero, if_neg stepping, levels]
  exact descends_wholeSteps below down stays reached

section Checked

open Require

theorem Drilling.isPecking_iff {drilling : Drilling α} :
    drilling.isPecking = true ↔ 0 < drilling.peckDepth := by
  simp [Drilling.isPecking, ExactScalar.literal_zero]

/-- What a passed check says about the way down of an operation. -/
theorem Operation.descent_of_check {operation : Operation α} (passed : operation.check = .ok ())
    (goesDown : operation.descent? = some (depth, stepDown)) :
    depth ≤ 0 ∧ 0 < stepDown ∧ -depth / stepDown ≤ mostLevels := by
  cases operation with
  | contour profile =>
      obtain ⟨rfl, rfl⟩ := Prod.mk.inj (Option.some.inj goesDown)
      simp only [Operation.check, Contour.check, bind_eq_ok, steps_eq_ok] at passed
      exact passed.2.1
  | pocket cavity =>
      obtain ⟨rfl, rfl⟩ := Prod.mk.inj (Option.some.inj goesDown)
      simp only [Operation.check, Pocket.check, bind_eq_ok, steps_eq_ok] at passed
      exact passed.2.1
  | drill holes =>
      rw [Operation.descent?] at goesDown
      split at goesDown
      · rename_i pecking
        obtain ⟨rfl, rfl⟩ := Prod.mk.inj (Option.some.inj goesDown)
        have pecks := Drilling.isPecking_iff.mp pecking
        exact ⟨Drilling.depth_nonpos passed, pecks, Drilling.pecks_le passed pecks⟩
      · cases goesDown

/-- Where the steps are few, a pass before the depth has a number far below the
greatest of 32 bits, so counting it there makes no difference. -/
theorem levelsByWord_eq_levelsFrom (down : 0 < stepDown)
    (few : -depth / stepDown ≤ mostLevels) (rounds : ℕ) (pass : UInt32) :
    levelsByWord depth stepDown rounds pass = levelsFrom depth stepDown rounds pass.toNat := by
  induction rounds generalizing pass with
  | zero => rfl
  | succ rounds ih =>
      simp only [levelsByWord, levelsFrom]
      split
      · rfl
      · rename_i above
        have tolerance := levelTolerance_nonneg (α := α)
        have step : stepDown * (pass.toNat : α) < -depth := by
          rw [ExactScalar.ofInt_cast, Int.cast_natCast] at above
          linarith
        have early : (pass.toNat : α) < mostLevels := ((lt_div_iff₀' down).mpr step).trans_le few
        have small : pass.toNat < mostLevels := by exact_mod_cast early
        have next : (pass + 1).toNat = pass.toNat + 1 := by
          rw [mostLevels] at small
          rw [UInt32.toNat_add, UInt32.toNat_one, Nat.mod_eq_of_lt (by omega)]
        rw [ih, next]

theorem length_depthLevels_le (below : depth ≤ 0) (down : 0 < stepDown)
    (few : -depth / stepDown ≤ mostLevels) : (depthLevels depth stepDown).length ≤ mostLevels := by
  rcases below.eq_or_lt with rfl | below
  · simp [depthLevels, mostLevels, ExactScalar.literal_zero]
  · have count := (descends_depthLevels below down).count
    have most : Scalar.ceil (-depth / stepDown) ≤ (mostLevels : ℤ) :=
      ExactScalar.ceil_le_iff.mpr (by simpa using few)
    exact_mod_cast count.trans most

/-- Levels go down to the depth in whole steps, and in an operation that passes its
check there are no more of them than are allowed, so that 32 bits count them. -/
theorem depthLevels_descend :
    (∀ depth stepDown : α, depth < 0 → 0 < stepDown →
      Descends depth stepDown (depthLevels depth stepDown)) ∧
    ∀ (operation : Operation α) (depth stepDown : α), operation.check = .ok () →
      operation.descent? = some (depth, stepDown) →
        (depthLevels depth stepDown).length ≤ mostLevels ∧
          ∀ rounds, levelsByWord depth stepDown rounds 1 =
            levelsFrom depth stepDown rounds 1 := by
  refine ⟨fun depth stepDown => descends_depthLevels, ?_⟩
  intro operation depth stepDown passed goesDown
  obtain ⟨below, down, few⟩ := operation.descent_of_check passed goesDown
  exact ⟨length_depthLevels_le below down few,
    fun rounds => levelsByWord_eq_levelsFrom down few rounds 1⟩

/-- A step along an edge, a residue deeper than three whole steps. -/
noncomputable def shelf : Contour ℝ :=
  { cut := {
      tool := {
        number := 2, kind := .endMill, diameter := 10, flutes := 3, material := .carbide
        surfaceSpeed := 120, feedPerTooth := 0.05, description := "10 mm mill" }
      feed := 600, spindle := 8000, safeZ := 5, clearanceZ := 50 }
    geometry := { points := [{ x := 0, y := 0 }, { x := 80, y := 0 }], closed := false }
    depth := -9 - 1 / 10 ^ 10
    stepDown := 3
    stockToLeave := 0 }

theorem shelf_check : (Operation.contour shelf).check = .ok () := by
  norm_num [Operation.check, Contour.check, CutSettings.check, steps_eq_ok, outline, shelf,
    PlanePoint.isFinite, bind_eq_ok, ensure_eq_ok, finite_eq_ok, positive_eq_ok,
    notNegative_eq_ok, ExactScalar.literal_zero, mostLevels]
  exact ⟨by rw [ExactScalar.literal_zero]; norm_num, rfl⟩

theorem depthLevels_descend_shelf :
    (shelf.depth < 0 ∧ 0 < shelf.stepDown ∧ (Operation.contour shelf).check = .ok () ∧
        (Operation.contour shelf).descent? = some (shelf.depth, shelf.stepDown)) ∧
      Descends shelf.depth shelf.stepDown (depthLevels shelf.depth shelf.stepDown) ∧
      (depthLevels shelf.depth shelf.stepDown).length ≤ mostLevels ∧
      ∀ rounds, levelsByWord shelf.depth shelf.stepDown rounds 1 =
        levelsFrom shelf.depth shelf.stepDown rounds 1 := by
  have below : shelf.depth < 0 := by norm_num [shelf]
  have down : 0 < shelf.stepDown := by norm_num [shelf]
  exact ⟨⟨below, down, shelf_check, rfl⟩, depthLevels_descend.1 _ _ below down,
    depthLevels_descend.2 _ _ _ shelf_check rfl⟩

end Checked

end Milling
