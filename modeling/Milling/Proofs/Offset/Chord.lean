import Mathlib
import Milling.Proofs.Offset.Arc

/-!
# Chords near their arcs

The chords that replace an arc stay near it: where the tolerance is less than
the radius there are enough of them, and otherwise the arc is small as a whole.
-/

namespace Milling

open Complex (I)

section Middle

/-! A place on a chord, seen from the middle of a unit arc of twice an angle. -/

/-- The place at a part of the way, from `-1` to `1`. -/
noncomputable def onChord (half way : ℝ) : ℂ := ⟨Real.cos half, way * Real.sin half⟩

theorem between_ends (half way : ℝ) :
    ((1 - way : ℝ) : ℂ) * Complex.exp ((-half : ℝ) * I) + way * Complex.exp (half * I) =
      onChord half (2 * way - 1) := by
  have left : Complex.exp ((-half : ℝ) * I) = ⟨Real.cos half, -Real.sin half⟩ := by
    apply Complex.ext
    · rw [Complex.exp_ofReal_mul_I_re, Real.cos_neg]
    · rw [Complex.exp_ofReal_mul_I_im, Real.sin_neg]
  have right : Complex.exp (half * I) = ⟨Real.cos half, Real.sin half⟩ := by
    apply Complex.ext
    · rw [Complex.exp_ofReal_mul_I_re]
    · rw [Complex.exp_ofReal_mul_I_im]
  rw [left, right, onChord]
  apply Complex.ext
  · simp
    ring
  · simp
    ring

variable {half way : ℝ}

theorem normSq_onChord : ‖onChord half way‖ ^ 2 =
    Real.cos half ^ 2 + way ^ 2 * Real.sin half ^ 2 := by
  rw [← Complex.normSq_eq_norm_sq, Complex.normSq_apply, onChord]
  ring

variable (within : |way| ≤ 1)

include within in
theorem way_le_norm_onChord : |way| ≤ ‖onChord half way‖ := by
  have small : way ^ 2 ≤ 1 := (sq_le_one_iff_abs_le_one way).mpr within
  have unit := Real.sin_sq_add_cos_sq half
  have cosine := sq_nonneg (Real.cos half)
  rw [← abs_norm]
  apply sq_le_sq.mp
  rw [normSq_onChord]
  nlinarith

include within in
theorem norm_onChord_le_one : ‖onChord half way‖ ≤ 1 := by
  have small : way ^ 2 ≤ 1 := (sq_le_one_iff_abs_le_one way).mpr within
  have unit := Real.sin_sq_add_cos_sq half
  have sine := sq_nonneg (Real.sin half)
  apply (sq_le_one_iff₀ (norm_nonneg _)).mp
  rw [normSq_onChord]
  nlinarith

/-- The place lies within the angle. -/
theorem abs_arg_onChord_le (narrow : |half| ≤ Real.pi / 2) (within : |way| ≤ 1) :
    |Complex.arg (onChord half way)| ≤ |half| := by
  have ahead : 0 ≤ (onChord half way).re :=
    Real.cos_nonneg_of_neg_pi_div_two_le_of_le (neg_le_of_abs_le narrow) (le_of_abs_le narrow)
  have least : 0 ≤ Real.sin |half| :=
    Real.sin_nonneg_of_nonneg_of_le_pi (abs_nonneg half) (by linarith [Real.pi_pos])
  have sine : |Real.sin half| = Real.sin |half| := by
    rcases abs_cases half with ⟨same, _⟩ | ⟨opposite, _⟩
    · rw [same] at least ⊢
      exact abs_of_nonneg least
    · rw [opposite, Real.sin_neg] at least ⊢
      exact abs_of_nonpos (by linarith)
  have ratio : |(onChord half way).im / ‖onChord half way‖| ≤ Real.sin |half| := by
    have norm : |way| ≤ ‖onChord half way‖ := way_le_norm_onChord within
    rw [abs_div, abs_norm]
    refine div_le_of_le_mul₀ (norm_nonneg _) least ?_
    rw [onChord, abs_mul, sine, mul_comm]
    exact mul_le_mul_of_nonneg_left norm least
  have back : Real.arcsin (Real.sin |half|) = |half| :=
    Real.arcsin_sin (by linarith [abs_nonneg half, Real.pi_pos]) narrow
  rw [Complex.arg_of_re_nonneg ahead, abs_le, ← back, ← Real.arcsin_neg]
  exact ⟨Real.monotone_arcsin (neg_le_of_abs_le ratio),
    Real.monotone_arcsin (le_of_abs_le ratio)⟩

/-- The place is near the arc. -/
theorem dist_onChord_le (within : |way| ≤ 1) :
    dist (onChord half way) (Complex.exp (Complex.arg (onChord half way) * I)) ≤
      1 - Real.cos half := by
  have polar := Complex.norm_mul_exp_arg_mul_I (onChord half way)
  have norm : ‖onChord half way‖ ≤ 1 := norm_onChord_le_one within
  have cosine : Real.cos half ≤ ‖onChord half way‖ :=
    (le_abs_self _).trans (Complex.abs_re_le_norm (onChord half way))
  have apart : onChord half way - Complex.exp (Complex.arg (onChord half way) * I) =
      ((‖onChord half way‖ - 1 : ℝ) : ℂ) *
        Complex.exp (Complex.arg (onChord half way) * I) := by
    push_cast
    rw [sub_mul, polar, one_mul]
  rw [dist_eq_norm, apart, norm_mul, Complex.norm_exp_ofReal_mul_I, mul_one, Complex.norm_real,
    Real.norm_eq_abs, abs_of_nonpos (by linarith)]
  linarith

end Middle

namespace ArcMove

variable {arc : ArcMove ℝ} {start : PlanePoint ℝ}

theorem exists_part {step angle : ℝ} (small : |angle| ≤ |step / 2|) :
    ∃ part ∈ Set.Icc (0 : ℝ) 1, part * step = step / 2 + angle := by
  by_cases still : step = 0
  · subst still
    rw [zero_div, abs_zero] at small
    have zero := abs_nonpos_iff.mp small
    exact ⟨0, by simp, by simp [zero]⟩
  · have ratio : |angle / step| ≤ 1 / 2 := by
      rw [abs_div, div_le_iff₀ (abs_pos.mpr still)]
      rw [abs_div, abs_two] at small
      linarith
    obtain ⟨low, high⟩ := abs_le.mp ratio
    refine ⟨1 / 2 + angle / step, ⟨by linarith, by linarith⟩, ?_⟩
    field_simp

/-- A chord over no more than half a turn stays near its arc. -/
theorem exists_place_near {first step : ℝ} (narrow : |step| ≤ Real.pi) {point : ℂ}
    (isOn : point ∈ segment ℝ (arc.place start first) (arc.place start (first + step))) :
    ∃ part ∈ Set.Icc (0 : ℝ) 1, dist point (arc.place start (first + part * step)) ≤
      dist start.complex arc.center.complex * (1 - Real.cos (step / 2)) := by
  rw [segment_eq_image] at isOn
  obtain ⟨way, ⟨after, before⟩, rfl⟩ := isOn
  have within : |2 * way - 1| ≤ 1 := abs_le.mpr ⟨by linarith, by linarith⟩
  have half : |step / 2| ≤ Real.pi / 2 := by
    rw [abs_div, abs_two]
    linarith
  have near := @dist_onChord_le (step / 2) _ within
  have small := abs_arg_onChord_le half within
  generalize Complex.arg (onChord (step / 2) (2 * way - 1)) = angle at near small
  obtain ⟨part, isPart, turn⟩ := exists_part small
  refine ⟨part, isPart, ?_⟩
  -- everything is seen from the middle of the arc
  let middle : ℂ := (start.complex - arc.center.complex) * Complex.exp ((first + step / 2 : ℝ) * I)
  have turned (other : ℝ) : arc.place start (first + step / 2 + other) =
      arc.center.complex + middle * Complex.exp (other * I) := by
    have sum : ((first + step / 2 + other : ℝ) : ℂ) * I =
        (first + step / 2 : ℝ) * I + other * I := by
      push_cast
      ring
    rw [place, sum, Complex.exp_add, ← mul_assoc]
  have isFirst : arc.place start first =
      arc.center.complex + middle * Complex.exp ((-(step / 2) : ℝ) * I) := by
    rw [← turned]
    congr 1
    ring
  have isLast : arc.place start (first + step) =
      arc.center.complex + middle * Complex.exp ((step / 2 : ℝ) * I) := by
    rw [← turned]
    congr 1
    ring
  have isNear : arc.place start (first + part * step) =
      arc.center.complex + middle * Complex.exp (angle * I) := by
    rw [← turned, turn]
    congr 1
    ring
  have isChord : (1 - way) • arc.place start first + way • arc.place start (first + step) =
      arc.center.complex + middle * onChord (step / 2) (2 * way - 1) := by
    rw [isFirst, isLast, ← between_ends, Complex.real_smul, Complex.real_smul]
    push_cast
    ring
  have radius : ‖middle‖ = dist start.complex arc.center.complex := by
    rw [norm_mul, Complex.norm_exp_ofReal_mul_I, mul_one, dist_eq_norm]
  dsimp only
  rw [isChord, isNear, dist_add_left, dist_eq_norm, ← mul_sub, norm_mul, radius, ← dist_eq_norm]
  exact mul_le_mul_of_nonneg_left near dist_nonneg

end ArcMove

namespace OffsetLoop

open ArcMove

theorem chordCount_eq (tolerance radius turn : ℝ) :
    chordCount tolerance radius turn =
      max 1 ⌈|turn| / if tolerance < radius then 2 * Real.arccos (1 - tolerance / radius)
        else |turn|⌉.toNat := by
  unfold chordCount
  simp only [magnitude_eq_abs, ExactScalar.finite, if_true, ceil_eq, ExactScalar.literal_one]
  rfl

/-- There are enough chords for a radius above the tolerance. -/
theorem chordCount_narrow {tolerance radius turn : ℝ} (positive : 0 < tolerance)
    (large : tolerance < radius) :
    |turn / chordCount tolerance radius turn| ≤ 2 * Real.arccos (1 - tolerance / radius) := by
  have widest : 0 < 2 * Real.arccos (1 - tolerance / radius) := by
    have ratio : 0 < tolerance / radius := div_pos positive (positive.trans large)
    have angle : 0 < Real.arccos (1 - tolerance / radius) :=
      Real.arccos_pos.mpr (by linarith)
    linarith
  rw [chordCount_eq, if_pos large]
  generalize 2 * Real.arccos (1 - tolerance / radius) = width at widest
  have enough : |turn| / width ≤ (max 1 ⌈|turn| / width⌉.toNat : ℕ) := by
    have whole : (⌈|turn| / width⌉ : ℝ) ≤ (⌈|turn| / width⌉.toNat : ℕ) := by
      exact_mod_cast Int.self_le_toNat _
    have most : ((⌈|turn| / width⌉.toNat : ℕ) : ℝ) ≤ (max 1 ⌈|turn| / width⌉.toNat : ℕ) :=
      Nat.cast_le.mpr (Nat.le_max_right 1 _)
    exact (Int.le_ceil _).trans (whole.trans most)
  have count : (0 : ℝ) < (max 1 ⌈|turn| / width⌉.toNat : ℕ) :=
    Nat.cast_pos.mpr (Nat.lt_of_lt_of_le Nat.zero_lt_one (Nat.le_max_left 1 _))
  rw [abs_div, abs_of_pos count, div_le_iff₀ count]
  rw [div_le_iff₀ widest] at enough
  linarith

theorem chordCount_of_small {tolerance radius turn : ℝ} (small : radius ≤ tolerance) :
    chordCount tolerance radius turn = 1 := by
  have one : ⌈|turn| / |turn|⌉ ≤ 1 := by
    apply Int.ceil_le.mpr
    rw [Int.cast_one]
    exact div_self_le_one _
  rw [chordCount_eq, if_neg (not_lt.mpr small)]
  omega

theorem chordCount_pos (tolerance radius turn : ℝ) : 0 < chordCount tolerance radius turn := by
  rw [chordCount_eq]
  omega

/-- A chord that is narrow enough for a tolerance stays within it. -/
theorem rise_le {tolerance radius step : ℝ} (positive : 0 < tolerance)
    (large : tolerance < radius)
    (narrow : |step| ≤ 2 * Real.arccos (1 - tolerance / radius)) :
    radius * (1 - Real.cos (step / 2)) ≤ tolerance := by
  have radiusPositive : 0 < radius := positive.trans large
  have share : 0 ≤ tolerance / radius := by positivity
  have ratio : tolerance / radius ≤ 1 := (div_le_one radiusPositive).mpr large.le
  have half : |step / 2| ≤ Real.arccos (1 - tolerance / radius) := by
    rw [abs_div, abs_two]
    linarith
  have cosine : 1 - tolerance / radius ≤ Real.cos (step / 2) := by
    have falls := Real.cos_le_cos_of_nonneg_of_le_pi (abs_nonneg _) (Real.arccos_le_pi _) half
    rw [Real.cos_abs, Real.cos_arccos (by linarith) (by linarith)] at falls
    exact falls
  calc radius * (1 - Real.cos (step / 2))
      ≤ radius * (tolerance / radius) :=
        mul_le_mul_of_nonneg_left (by linarith) radiusPositive.le
    _ = tolerance := mul_div_cancel₀ tolerance radiusPositive.ne'

theorem exists_trace_near_chord {start stop : PlanePoint ℝ} {bulge : ℝ} {arc : ArcMove ℝ}
    (isArc : arcOfBulge? start stop bulge = some arc) {tolerance : ℝ} (positive : 0 < tolerance)
    {count : Nat}
    (isCount : chordCount tolerance (dist start.complex arc.center.complex) (sweep bulge) = count)
    {index : Nat} (within : index < count) {point : ℂ}
    (isOn : point ∈ segment ℝ (arc.place start (index * (sweep bulge / count)))
      (arc.place start ((index + 1 : ℕ) * (sweep bulge / count)))) :
    ∃ place ∈ trace start stop bulge, dist point place ≤ 2 * tolerance := by
  rcases le_or_gt (dist start.complex arc.center.complex) tolerance with small | large
  · -- the whole arc is near its start
    rw [chordCount_of_small small] at isCount
    obtain rfl := isCount
    obtain rfl : index = 0 := by omega
    rw [Nat.cast_zero, zero_mul, arc.place_zero] at isOn
    refine ⟨start.complex, start_mem_trace start stop bulge, ?_⟩
    have step := dist_add_dist_of_mem_segment isOn
    have rest := dist_nonneg (x := point)
      (y := arc.place start ((0 + 1 : ℕ) * (sweep bulge / (1 : ℕ))))
    have across := dist_triangle start.complex arc.center.complex
      (arc.place start ((0 + 1 : ℕ) * (sweep bulge / (1 : ℕ))))
    rw [dist_comm arc.center.complex, arc.dist_place_center] at across
    rw [dist_comm]
    linarith
  · have radius : 0 < dist start.complex arc.center.complex := positive.trans large
    have positiveCount : (0 : ℝ) < count :=
      Nat.cast_pos.mpr (isCount ▸ chordCount_pos tolerance _ (sweep bulge))
    have narrow := @chordCount_narrow _ _ (sweep bulge) positive large
    rw [isCount] at narrow
    have ratio : tolerance / dist start.complex arc.center.complex ≤ 1 :=
      (div_le_one radius).mpr large.le
    have quarter : Real.arccos (1 - tolerance / dist start.complex arc.center.complex) ≤
        Real.pi / 2 := Real.arccos_le_pi_div_two.mpr (by linarith)
    have next : ((index + 1 : ℕ) : ℝ) * (sweep bulge / count) =
        index * (sweep bulge / count) + sweep bulge / count := by
      push_cast
      ring
    rw [next] at isOn
    obtain ⟨part, ⟨after, before⟩, near⟩ := exists_place_near (by linarith) isOn
    have upper : (index : ℝ) + 1 ≤ count := by exact_mod_cast within
    have rise := rise_le positive large narrow
    refine ⟨_, ?_, near.trans (by linarith)⟩
    rw [trace_of_arc isArc]
    refine ⟨(index + part) / count, ⟨by positivity, ?_⟩, ?_⟩
    · rw [div_le_one positiveCount]
      linarith
    · congr 1
      ring

end OffsetLoop

end Milling
