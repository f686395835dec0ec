import Mathlib
import Milling.Machining.Cutter
import Milling.Proofs.Scalar.Exact

/-!
# Levels lie between the top and the depth

Whole steps stop before they pass the depth, and the depth itself is always
the last level.
-/

namespace Milling

variable {α : Type} [ExactScalar α]

theorem levelTolerance_nonneg : (0 : α) ≤ levelTolerance := by
  rw [levelTolerance, ExactScalar.decimal]
  positivity

theorem depth_mem_levelsFrom (depth stepDown : α) (fuel pass : Nat) :
    depth ∈ levelsFrom depth stepDown fuel pass := by
  induction fuel generalizing pass with
  | zero => exact List.mem_cons_self
  | succ fuel ih =>
      simp only [levelsFrom]
      split
      · exact List.mem_cons_self
      · exact List.mem_cons_of_mem _ (ih (pass + 1))

theorem levelsFrom_between {depth stepDown level : α} (below : depth ≤ 0)
    (down : 0 ≤ stepDown) {fuel pass : Nat}
    (isLevel : level ∈ levelsFrom depth stepDown fuel pass) :
    depth ≤ level ∧ level ≤ 0 := by
  induction fuel generalizing pass with
  | zero =>
      obtain rfl := List.mem_singleton.mp isLevel
      exact ⟨le_rfl, below⟩
  | succ fuel ih =>
      simp only [levelsFrom] at isLevel
      split at isLevel
      · obtain rfl := List.mem_singleton.mp isLevel
        exact ⟨le_rfl, below⟩
      · rename_i above
        rcases List.mem_cons.mp isLevel with rfl | later
        · have tolerance := levelTolerance_nonneg (α := α)
          have stepped : 0 ≤ stepDown * (Scalar.ofInt pass : α) := by
            rw [ExactScalar.ofInt_cast, Int.cast_natCast]
            exact mul_nonneg down (Nat.cast_nonneg pass)
          constructor
          · linarith [not_le.mp above]
          · rw [neg_mul]
            linarith
        · exact ih later

theorem depth_mem_depthLevels {depth : α} (below : depth ≤ 0) (stepDown : α) :
    depth ∈ depthLevels depth stepDown := by
  simp only [depthLevels, ExactScalar.literal_zero]
  split
  · rw [ExactScalar.lesser_eq_left below]
    exact List.mem_cons_self
  · exact depth_mem_levelsFrom depth stepDown _ _

theorem depthLevels_between {depth stepDown level : α} (below : depth ≤ 0)
    (isLevel : level ∈ depthLevels depth stepDown) : depth ≤ level ∧ level ≤ 0 := by
  simp only [depthLevels, ExactScalar.literal_zero] at isLevel
  split at isLevel
  · rw [ExactScalar.lesser_eq_left below] at isLevel
    obtain rfl := List.mem_singleton.mp isLevel
    exact ⟨le_rfl, below⟩
  · rename_i stepping
    have down : 0 ≤ stepDown := by
      by_contra negative
      exact stepping (.inr (.inl (not_le.mp negative).le))
    exact levelsFrom_between below down isLevel

/-- No pass down to a level starts or ends below the depth. -/
theorem depth_le_of_mem_zip {depth start : α} (below : depth ≤ 0) (above : depth ≤ start)
    {stepDown : α} {pass : α × α}
    (isPass : pass ∈ (start :: depthLevels depth stepDown).zip (depthLevels depth stepDown)) :
    depth ≤ pass.1 ∧ depth ≤ pass.2 := by
  obtain ⟨isPrevious, isLevel⟩ := List.of_mem_zip isPass
  refine ⟨?_, (depthLevels_between below isLevel).1⟩
  rcases List.mem_cons.mp isPrevious with rfl | earlier
  · exact above
  · exact (depthLevels_between below earlier).1

theorem exists_last_pass {depth : α} (below : depth ≤ 0) (start stepDown : α) :
    ∃ front last, (start :: depthLevels depth stepDown).zip (depthLevels depth stepDown) =
      front ++ [last] := by
  refine (List.eq_nil_or_concat' _).resolve_left fun none => ?_
  have reached := depth_mem_depthLevels below stepDown
  cases isLevels : depthLevels depth stepDown with
  | nil =>
      rw [isLevels] at reached
      cases reached
  | cons level levels =>
      rw [isLevels] at none
      cases none

end Milling
