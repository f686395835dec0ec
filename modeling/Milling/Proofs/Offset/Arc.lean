import Mathlib
import Milling.Offset.Loop
import Milling.Proofs.Geometry.Wall

/-!
# Places along arcs

The arc of a bulge turns its start around its centre by four times the angle
whose tangent is the bulge, and so ends where it should.  Travelled backwards
it passes the same places.
-/

namespace Milling

open Complex (I)

theorem PlanePoint.distance_eq_dist (start stop : PlanePoint ℝ) :
    start.distance stop = dist start.complex stop.complex := by
  rw [dist_comm, Complex.dist_eq_re_im]
  rfl

/-- Turning by an angle whose tangent is known. -/
theorem exp_four_arctan (bulge : ℝ) :
    Complex.exp ((4 * Real.arctan bulge : ℝ) * I) =
      (1 + bulge * I) ^ 4 / (1 + (bulge : ℂ) ^ 2) ^ 2 := by
  have positive : (0 : ℝ) < 1 + bulge ^ 2 := by positivity
  have root : ((Real.sqrt (1 + bulge ^ 2) : ℝ) : ℂ) ^ 2 = 1 + (bulge : ℂ) ^ 2 := by
    exact_mod_cast Real.sq_sqrt positive.le
  have once : Complex.exp (Real.arctan bulge * I) =
      (1 + bulge * I) / (Real.sqrt (1 + bulge ^ 2) : ℝ) := by
    rw [Complex.exp_mul_I, ← Complex.ofReal_cos, ← Complex.ofReal_sin, Real.cos_arctan,
      Real.sin_arctan]
    push_cast
    ring
  have four : ((4 * Real.arctan bulge : ℝ) : ℂ) * I = (4 : ℕ) * (Real.arctan bulge * I) := by
    push_cast
    ring
  rw [four, Complex.exp_nat_mul, once, div_pow, ← root]
  ring

namespace ArcMove

/-- The same arc travelled from its end to its start. -/
def backwards {α : Type} (arc : ArcMove α) : ArcMove α :=
  { arc with rotation := arc.rotation.opposite }

noncomputable def place (arc : ArcMove ℝ) (start : PlanePoint ℝ) (angle : ℝ) : ℂ :=
  arc.center.complex + (start.complex - arc.center.complex) * Complex.exp (angle * I)

theorem place_zero (arc : ArcMove ℝ) (start : PlanePoint ℝ) :
    arc.place start 0 = start.complex := by
  simp [place]

theorem dist_place_center (arc : ArcMove ℝ) (start : PlanePoint ℝ) (angle : ℝ) :
    dist (arc.place start angle) arc.center.complex =
      dist start.complex arc.center.complex := by
  rw [place, dist_self_add_left, norm_mul, Complex.norm_exp_ofReal_mul_I, mul_one, dist_eq_norm]

end ArcMove

namespace OffsetLoop

variable {start stop : PlanePoint ℝ} {bulge : ℝ} {arc : ArcMove ℝ}

/-- The angle from the start of an arc to its end. -/
noncomputable def sweep (bulge : ℝ) : ℝ := 4 * Real.arctan bulge

/-- How far the centre of an arc lies from its chord, in chord lengths. -/
noncomputable def lift (bulge : ℝ) : ℝ := (1 - bulge * bulge) / (4 * bulge)

theorem arcOfBulge?_center (isArc : arcOfBulge? start stop bulge = some arc) :
    bulge ≠ 0 ∧ arc.center.complex =
      (start.complex + stop.complex) / 2 +
        I * (stop.complex - start.complex) * lift bulge := by
  unfold arcOfBulge? at isArc
  split at isArc
  · cases isArc
  · rename_i considerable
    refine ⟨?_, ?_⟩
    · rintro rfl
      apply considerable
      left
      rw [magnitude_eq_abs, abs_zero, negligible, ExactScalar.decimal]
      norm_num
    · have center : arc.center = {
          x := (start.x + stop.x) / 2 - (stop.y - start.y) * lift bulge
          y := (start.y + stop.y) / 2 + (stop.x - start.x) * lift bulge } := by
        obtain rfl := Option.some.inj isArc
        simp only [ExactScalar.literal_one]
        rfl
      rw [center]
      apply Complex.ext
      · simp [PlanePoint.complex]
        ring
      · simp [PlanePoint.complex]

/-- Start and end of an arc seen from its centre. -/
theorem sub_center (isArc : arcOfBulge? start stop bulge = some arc) :
    start.complex - arc.center.complex =
        -(stop.complex - start.complex) * I * (1 - bulge * I) ^ 2 / (4 * bulge) ∧
      stop.complex - arc.center.complex =
        -(stop.complex - start.complex) * I * (1 + bulge * I) ^ 2 / (4 * bulge) := by
  obtain ⟨nonzero, center⟩ := arcOfBulge?_center isArc
  have unreal : (bulge : ℂ) ≠ 0 := by exact_mod_cast nonzero
  rw [center, lift]
  push_cast
  generalize start.complex = first
  generalize stop.complex = last
  constructor
  · field_simp
    linear_combination (2 * (-2 * bulge + bulge ^ 2 * I) * (last - first)) * Complex.I_sq
  · field_simp
    linear_combination (2 * (2 * bulge + bulge ^ 2 * I) * (last - first)) * Complex.I_sq

/-- An arc ends at its end. -/
theorem place_sweep (isArc : arcOfBulge? start stop bulge = some arc) :
    arc.place start (sweep bulge) = stop.complex := by
  obtain ⟨fromCenter, toCenter⟩ := sub_center isArc
  have product : (1 + (bulge : ℂ) ^ 2) = (1 + bulge * I) * (1 - bulge * I) := by
    linear_combination (bulge : ℂ) ^ 2 * Complex.I_sq
  have nonzero : (1 + bulge * I) * (1 - bulge * I) ≠ 0 := by
    have positive : (0 : ℝ) < 1 + bulge ^ 2 := by positivity
    rw [← product]
    exact_mod_cast positive.ne'
  obtain ⟨_, right⟩ := mul_ne_zero_iff.mp nonzero
  rw [mul_comm (bulge : ℂ)] at right
  have unreal : (bulge : ℂ) ≠ 0 := by exact_mod_cast (arcOfBulge?_center isArc).1
  have turned : (start.complex - arc.center.complex) * Complex.exp ((sweep bulge : ℝ) * I) =
      stop.complex - arc.center.complex := by
    rw [sweep, exp_four_arctan, product, fromCenter, toCenter]
    generalize start.complex = first
    generalize stop.complex = last
    field_simp
  rw [ArcMove.place, turned]
  ring

/-- The places from the start of a move to its end. -/
def trace (start stop : PlanePoint ℝ) (bulge : ℝ) : Set ℂ :=
  match arcOfBulge? start stop bulge with
  | some arc => {place | ∃ part ∈ Set.Icc (0 : ℝ) 1, arc.place start (part * sweep bulge) = place}
  | none => segment ℝ start.complex stop.complex

theorem trace_of_arc (isArc : arcOfBulge? start stop bulge = some arc) :
    trace start stop bulge =
      {place | ∃ part ∈ Set.Icc (0 : ℝ) 1, arc.place start (part * sweep bulge) = place} := by
  rw [trace, isArc]

theorem trace_of_line (isLine : arcOfBulge? start stop bulge = none) :
    trace start stop bulge = segment ℝ start.complex stop.complex := by
  rw [trace, isLine]

theorem start_mem_trace (start stop : PlanePoint ℝ) (bulge : ℝ) :
    start.complex ∈ trace start stop bulge := by
  cases isArc : arcOfBulge? start stop bulge with
  | none =>
      rw [trace_of_line isArc]
      exact left_mem_segment ℝ _ _
  | some arc =>
      rw [trace_of_arc isArc]
      exact ⟨0, by simp, by rw [zero_mul, arc.place_zero]⟩

theorem stop_mem_trace (start stop : PlanePoint ℝ) (bulge : ℝ) :
    stop.complex ∈ trace start stop bulge := by
  cases isArc : arcOfBulge? start stop bulge with
  | none =>
      rw [trace_of_line isArc]
      exact right_mem_segment ℝ _ _
  | some arc =>
      rw [trace_of_arc isArc]
      exact ⟨1, by simp, by rw [one_mul, place_sweep isArc]⟩

theorem sweep_neg (bulge : ℝ) : sweep (-bulge) = -sweep bulge := by
  rw [sweep, sweep, Real.arctan_neg]
  ring

theorem arcOfBulge?_backwards (start stop : PlanePoint ℝ) (bulge : ℝ) :
    arcOfBulge? stop start (-bulge) = (arcOfBulge? start stop bulge).map ArcMove.backwards := by
  have size : Scalar.magnitude (-bulge) = Scalar.magnitude bulge := by
    rw [magnitude_eq_abs, magnitude_eq_abs, abs_neg]
  have distance : stop.distance start = start.distance stop := by
    rw [PlanePoint.distance_eq_dist, PlanePoint.distance_eq_dist, dist_comm]
  cases isArc : arcOfBulge? start stop bulge with
  | none =>
      unfold arcOfBulge? at isArc ⊢
      rw [size, distance]
      split at isArc
      · rename_i isLine
        rw [if_pos isLine, Option.map_none]
      · cases isArc
  | some arc =>
      have nonzero := (arcOfBulge?_center isArc).1
      unfold arcOfBulge? at isArc ⊢
      rw [size, distance]
      split at isArc
      · cases isArc
      · rename_i considerable
        obtain rfl := Option.some.inj isArc
        rw [if_neg considerable, Option.map_some, ArcMove.backwards]
        simp only [ExactScalar.literal_zero, ExactScalar.literal_one]
        congr 2
        · rcases lt_or_gt_of_ne nonzero with negative | positive
          · rw [if_pos (neg_pos.mpr negative), if_neg (not_lt.mpr negative.le)]
            rfl
          · rw [if_neg (not_lt.mpr (neg_neg_of_pos positive).le), if_pos positive]
            rfl
        · congr 1
          · ring
          · ring

/-- A move passes no other places backwards. -/
theorem trace_symm_subset (start stop : PlanePoint ℝ) (bulge : ℝ) :
    trace stop start (-bulge) ⊆ trace start stop bulge := by
  have back := arcOfBulge?_backwards start stop bulge
  cases isArc : arcOfBulge? start stop bulge with
  | none =>
      rw [isArc, Option.map_none] at back
      rw [trace_of_line isArc, trace_of_line back, segment_symm]
  | some arc =>
      rw [isArc, Option.map_some] at back
      have center : arc.backwards.center = arc.center := rfl
      rw [trace_of_arc isArc, trace_of_arc back]
      rintro place ⟨part, within, rfl⟩
      refine ⟨1 - part, ⟨by linarith [within.2], by linarith [within.1]⟩, ?_⟩
      have turn : ((1 - part) * sweep bulge : ℝ) * I =
          (sweep bulge : ℝ) * I + (part * sweep (-bulge) : ℝ) * I := by
        rw [sweep_neg]
        push_cast
        ring
      have ends := place_sweep isArc
      rw [ArcMove.place] at ends ⊢
      rw [ArcMove.place, center, turn, Complex.exp_add, ← ends]
      ring

end OffsetLoop

end Milling
