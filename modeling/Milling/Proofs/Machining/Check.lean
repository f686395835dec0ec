import Mathlib
import Milling.Machining.Check
import Milling.Proofs.Scalar.Exact

/-!
# What a passed check says

An operation that passes its check has a depth at the top of the stock or
below it, and a tool of some width.  A pocket also has segments in each turn of
its helix and passes apart, and holes have places.
-/

namespace Milling

namespace Require

theorem bind_eq_ok {ε : Type} {first second : Except ε Unit} :
    (first >>= fun _ => second) = .ok () ↔ first = .ok () ∧ second = .ok () := by
  cases first with
  | error error => simp [bind, Except.bind]
  | ok value => simp [bind, Except.bind]

variable {α : Type}

theorem ensure_eq_ok [Scalar α] {condition : Bool} {error : ParameterError α} :
    ensure condition error = .ok () ↔ condition = true := by
  cases condition <;> simp [ensure]

variable [ExactScalar α]

theorem finite_eq_ok (parameter : String) (value : α) : finite parameter value = .ok () :=
  ensure_eq_ok.mpr (ExactScalar.finite value)

theorem positive_eq_ok {parameter : String} {value : α} :
    positive parameter value = .ok () ↔ 0 < value := by
  simp [positive, finite_eq_ok, bind_eq_ok, ensure_eq_ok, ExactScalar.literal_zero]

theorem notNegative_eq_ok {parameter : String} {value : α} :
    notNegative parameter value = .ok () ↔ 0 ≤ value := by
  simp [notNegative, finite_eq_ok, bind_eq_ok, ensure_eq_ok, ExactScalar.literal_zero]

theorem belowTop_eq_ok {parameter : String} {value : α} :
    belowTop parameter value = .ok () ↔ value ≤ 0 := by
  simp [belowTop, finite_eq_ok, bind_eq_ok, ensure_eq_ok, ExactScalar.literal_zero]

theorem steps_eq_ok {depth stepDown : α} :
    steps depth stepDown = .ok () ↔ depth ≤ 0 ∧ 0 < stepDown ∧ -depth / stepDown ≤ mostLevels := by
  simp [steps, bind_eq_ok, belowTop_eq_ok, positive_eq_ok, ensure_eq_ok]

end Require

open Require

variable {α : Type} [ExactScalar α]

theorem CutSettings.diameter_pos {cut : CutSettings α} (passed : cut.check = .ok ()) :
    0 < cut.tool.diameter := by
  simp only [CutSettings.check, bind_eq_ok, ensure_eq_ok, Bool.and_eq_true, Bool.not_eq_true',
    decide_eq_false_iff_not, not_le, ExactScalar.literal_zero] at passed
  exact passed.1.2

theorem Contour.depth_nonpos {contour : Contour α} (passed : contour.check = .ok ()) :
    contour.depth ≤ 0 := by
  simp only [Contour.check, bind_eq_ok] at passed
  exact (steps_eq_ok.mp passed.2.1).1

theorem Pocket.depth_nonpos {pocket : Pocket α} (passed : pocket.check = .ok ()) :
    pocket.depth ≤ 0 := by
  simp only [Pocket.check, bind_eq_ok] at passed
  exact (steps_eq_ok.mp passed.2.1).1

theorem Pocket.fewest_le_segments {pocket : Pocket α} (passed : pocket.check = .ok ()) :
    HelixSettings.fewestSegments ≤ pocket.helix.segments := by
  simp only [Pocket.check, bind_eq_ok, ensure_eq_ok, decide_eq_true_eq] at passed
  obtain ⟨_, _, _, _, _, enough, _⟩ := passed
  exact enough

theorem Pocket.segments_pos {pocket : Pocket α} (passed : pocket.check = .ok ()) :
    0 < pocket.helix.segments :=
  Nat.lt_of_lt_of_le (by decide) (fewest_le_segments passed)

theorem Pocket.pitch_pos {pocket : Pocket α} (passed : pocket.check = .ok ()) :
    0 < pocket.helix.pitch := by
  simp only [Pocket.check, bind_eq_ok, positive_eq_ok] at passed
  obtain ⟨_, _, _, _, positive, _⟩ := passed
  exact positive

theorem Pocket.check_withHelix {pocket : Pocket α} (passed : pocket.check = .ok ())
    {helix : HelixSettings α} (positive : 0 < helix.pitch)
    (enough : HelixSettings.fewestSegments ≤ helix.segments) :
    ({ pocket with helix } : Pocket α).check = .ok () := by
  simp only [Pocket.check, bind_eq_ok, positive_eq_ok, ensure_eq_ok, decide_eq_true_eq]
    at passed ⊢
  obtain ⟨cut, steps, stepOver, stock, _, _, outline⟩ := passed
  exact ⟨cut, steps, stepOver, stock, positive, enough, outline⟩

theorem Pocket.diameter_pos {pocket : Pocket α} (passed : pocket.check = .ok ()) :
    0 < pocket.cut.tool.diameter := by
  simp only [Pocket.check, bind_eq_ok] at passed
  exact CutSettings.diameter_pos passed.1

theorem Pocket.stepDistance_pos {pocket : Pocket α} (passed : pocket.check = .ok ()) :
    0 < pocket.stepDistance := by
  have diameter := diameter_pos passed
  simp only [Pocket.check, bind_eq_ok, ensure_eq_ok, Bool.and_eq_true, decide_eq_true_eq,
    ExactScalar.literal_zero] at passed
  obtain ⟨_, _, ⟨forward, _⟩, _⟩ := passed
  exact mul_pos diameter forward

theorem Pocket.stockToLeave_nonneg {pocket : Pocket α} (passed : pocket.check = .ok ()) :
    0 ≤ pocket.stockToLeave := by
  simp only [Pocket.check, bind_eq_ok, notNegative_eq_ok] at passed
  obtain ⟨_, _, _, stock, _⟩ := passed
  exact stock

theorem Pocket.exists_centroid {pocket : Pocket α} (passed : pocket.check = .ok ()) :
    ∃ center, pocket.boundary.centroid? = some center := by
  simp only [Pocket.check, outline, bind_eq_ok, ensure_eq_ok, decide_eq_true_eq] at passed
  obtain ⟨_, _, _, _, _, _, _, enough, _⟩ := passed
  unfold Polyline.centroid?
  cases places : pocket.boundary.points with
  | nil => simp [places] at enough
  | cons first rest => exact ⟨_, rfl⟩

theorem Drilling.depth_nonpos {drilling : Drilling α} (passed : drilling.check = .ok ()) :
    drilling.depth ≤ 0 := by
  simp only [Drilling.check, bind_eq_ok, belowTop_eq_ok] at passed
  exact passed.2.1

theorem Drilling.pecks_le {drilling : Drilling α} (passed : drilling.check = .ok ())
    (pecks : 0 < drilling.peckDepth) : -drilling.depth / drilling.peckDepth ≤ mostLevels := by
  simp only [Drilling.check, bind_eq_ok, ensure_eq_ok] at passed
  obtain ⟨_, _, _, few, _⟩ := passed
  simp only [ExactScalar.literal_zero, Bool.not_eq_true', Bool.and_eq_false_iff,
    decide_eq_false_iff_not, not_lt, ExactScalar.ofInt_cast, Int.cast_natCast] at few
  rw [neg_div]
  linarith [few.resolve_left (not_le.mpr pecks)]

theorem Drilling.points_ne_nil {drilling : Drilling α} (passed : drilling.check = .ok ()) :
    drilling.points ≠ [] := by
  simp only [Drilling.check, bind_eq_ok, ensure_eq_ok] at passed
  obtain ⟨_, _, _, _, _, _, _, listed, _⟩ := passed
  intro empty
  rw [empty] at listed
  cases listed

end Milling
