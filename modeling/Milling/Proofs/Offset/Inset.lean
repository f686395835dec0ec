import Mathlib
import Milling.Offset.Inset
import Milling.Proofs.Offset.Flattening

/-!
# Inward loops

What an offset library is relied on for: the loops that it leads along the
inside of an outline stay inside at their distance.  Loops that are turned, and
the chords that stand for their arcs, stay there too.
-/

namespace Milling

/-- What succeeds after a first step had a first step that succeeded. -/
theorem exists_of_bind_eq_ok {ε β γ : Type} {first : Except ε β} {rest : β → Except ε γ}
    {value : γ} (made : first >>= rest = .ok value) :
    ∃ middle, first = .ok middle ∧ rest middle = .ok value := by
  cases first with
  | error error => cases made
  | ok middle => exact ⟨middle, rfl, made⟩

theorem Scalar.greater_eq_or {α : Type} [Scalar α] (left right : α) :
    Scalar.greater left right = left ∨ Scalar.greater left right = right := by
  unfold Scalar.greater
  split
  · exact .inr rfl
  · split
    · exact .inr rfl
    · exact .inl rfl

/-- The outline of a boundary as it is offset: closed and counterclockwise. -/
def Polyline.outline {α : Type} [Scalar α] (boundary : Polyline α) : Polyline α :=
  { (if boundary.isCounterclockwise then boundary else boundary.reversed) with closed := true }

/-- A closed loop along the inside of a boundary: it encloses less, and keeps its
distance from the walls, give or take vertices that are taken for one. -/
structure OffsetLoop.IsInset (boundary : Polyline ℝ) (distance : ℝ) (loop : OffsetLoop ℝ) :
    Prop where
  closed : loop.closed = true
  smaller : |loop.signedArea| < boundary.outline.signedArea
  clears : ∀ place ∈ loop.passes,
    boundary.Clears (distance - Polyline.repeatTolerance) place

/-- The inward loops of a boundary lie inside it at their distance. -/
def Offsetter.KeepsInside (offsetter : Offsetter ℝ) (boundary : Polyline ℝ) : Prop :=
  ∀ distance loops, 0 < distance →
    offsetter boundary.outline.distinct distance = some loops →
      ∀ loop ∈ loops, loop.IsInset boundary distance

namespace Offsetter

variable {offsetter : Offsetter ℝ} {boundary : Polyline ℝ} {distance : ℝ}

theorem run_inset (keeps : offsetter.KeepsInside boundary) (positive : 0 < distance)
    {loops : List (OffsetLoop ℝ)} (made : offsetter.run boundary.outline distance = .ok loops) :
    ∀ loop ∈ loops, loop.IsInset boundary distance := by
  unfold run at made
  split at made
  · rename_i all isAll
    obtain rfl := Except.ok.inj made
    intro loop isLoop
    exact keeps distance all positive isAll loop (List.mem_of_mem_filter isLoop)
  · cases made

/-- Loops that enclose less are the ones of an inward offset. -/
theorem matchesDistance_of_smaller {loops : List (OffsetLoop ℝ)} {area : ℝ}
    (smaller : ∀ loop ∈ loops, |loop.signedArea| < area) (positive : 0 < distance) :
    matchesDistance loops area (-distance) = true := by
  have inward : -distance < 0 := by linarith
  have largest (rest : List ℝ) (first : ℝ) (below : first < area)
      (allBelow : ∀ size ∈ rest, size < area) : rest.foldl Scalar.greater first < area := by
    induction rest generalizing first with
    | nil => exact below
    | cons second rest ih =>
        have secondBelow := allBelow second List.mem_cons_self
        refine ih _ ?_ fun size isSize => allBelow size (List.mem_cons_of_mem second isSize)
        rcases Scalar.greater_eq_or first second with isFirst | isSecond
        · rw [isFirst]
          exact below
        · rw [isSecond]
          exact secondBelow
  unfold matchesDistance
  simp only [ExactScalar.literal_zero, magnitude_eq_abs]
  cases loops with
  | nil => exact decide_eq_true inward
  | cons loop loops =>
      have below := smaller loop List.mem_cons_self
      have rest := largest (loops.map fun loop => |loop.signedArea|) |loop.signedArea| below
        fun size isSize => by
          obtain ⟨other, isOther, rfl⟩ := List.mem_map.mp isSize
          exact smaller other (List.mem_cons_of_mem loop isOther)
      simp only [List.map_cons, if_neg (not_lt.mpr inward.le)]
      exact decide_eq_true rest

/-- An inward offset keeps the loops of one run and turns the clockwise ones. -/
theorem aroundClosed_of_run (keeps : offsetter.KeepsInside boundary) (positive : 0 < distance)
    {all : List (OffsetLoop ℝ)} (isRun : offsetter.run boundary.outline distance = .ok all) :
    offsetter.aroundClosed boundary (-distance) =
      .ok (all.map fun loop => if loop.signedArea < 0 then loop.reversed else loop) := by
  have twice : - -distance = distance := neg_neg distance
  have isOutline : ({ points := (if boundary.isCounterclockwise then boundary
      else boundary.reversed).points, closed := true } : Polyline ℝ) = boundary.outline := rfl
  have insets := run_inset keeps positive isRun
  have matching := matchesDistance_of_smaller (fun loop isLoop => (insets loop isLoop).smaller)
    positive
  simp only [aroundClosed, ExactScalar.literal_zero, isOutline, twice, isRun, bind, Except.bind,
    matching, if_true, pure, Except.pure]

/-- What is kept of an inward offset lies inside at its distance. -/
theorem aroundClosed_inset (keeps : offsetter.KeepsInside boundary) (positive : 0 < distance)
    {loops : List (OffsetLoop ℝ)}
    (made : offsetter.aroundClosed boundary (-distance) = .ok loops) :
    ∀ loop ∈ loops, loop.closed = true ∧
      ∀ place ∈ loop.passes, boundary.Clears (distance - Polyline.repeatTolerance) place := by
  have twice : - -distance = distance := neg_neg distance
  obtain ⟨all, isRun, _⟩ := exists_of_bind_eq_ok made
  have isRun : offsetter.run boundary.outline distance = .ok all := by
    rw [← twice]
    exact isRun
  obtain rfl := Except.ok.inj ((aroundClosed_of_run keeps positive isRun).symm.trans made)
  intro loop isLoop
  obtain ⟨source, isSource, rfl⟩ := List.mem_map.mp isLoop
  have inset := run_inset keeps positive isRun source isSource
  split
  · refine ⟨(OffsetLoop.closed_reversed source).trans inset.closed, ?_⟩
    intro place onLoop
    exact inset.clears place (OffsetLoop.passes_reversed_subset source onLoop)
  · exact ⟨inset.closed, inset.clears⟩

/-- The rings of a boundary lie inside it at the distance of the first or farther. -/
theorem rings_inset (keeps : offsetter.KeepsInside boundary) {inset step : ℝ}
    (positive : 0 < inset) (inward : 0 ≤ step) {count : Nat}
    {rings : List (List (OffsetLoop ℝ))}
    (made : offsetter.rings boundary inset step count = .ok rings) :
    ∀ ring ∈ rings, ∀ loop ∈ ring, loop.closed = true ∧
      ∀ place ∈ loop.passes, boundary.Clears (inset - Polyline.repeatTolerance) place := by
  induction count generalizing inset rings with
  | zero =>
      obtain rfl := Except.ok.inj made
      simp
  | succ count ih =>
      rw [Offsetter.rings] at made
      obtain ⟨first, isFirst, made⟩ := exists_of_bind_eq_ok made
      split at made
      · obtain rfl := Except.ok.inj made
        simp
      · obtain ⟨rest, isRest, made⟩ := exists_of_bind_eq_ok made
        obtain rfl := Except.ok.inj made
        intro ring isRing loop isLoop
        rcases List.mem_cons.mp isRing with rfl | later
        · exact aroundClosed_inset keeps positive isFirst loop isLoop
        · obtain ⟨closed, clears⟩ := ih (by linarith) isRest ring later loop isLoop
          exact ⟨closed, fun place onLoop => (clears place onLoop).mono (by linarith)⟩

end Offsetter

end Milling
