import Mathlib
import Milling.Machining.Raster
import Milling.Proofs.Offset.Inset

/-!
# Raster passes inside walls

A pass starts and stops on the edges of the part that is cleared, and those
edges keep the distance of the part from the walls but for the tolerance of
their chords.
-/

namespace Milling.Raster

theorem part_of_crosses {y low high : ℝ}
    (between : (low ≤ y ∧ y < high) ∨ (high ≤ y ∧ y < low)) :
    high - low ≠ 0 ∧ (y - low) / (high - low) ∈ Set.Icc (0 : ℝ) 1 := by
  rcases between with ⟨above, below⟩ | ⟨above, below⟩
  · have rising : 0 < high - low := by linarith
    exact ⟨rising.ne', div_nonneg (by linarith) rising.le,
      (div_le_one rising).mpr (by linarith)⟩
  · have falling : high - low < 0 := by linarith
    exact ⟨falling.ne, div_nonneg_of_nonpos (by linarith) falling.le,
      (div_le_one_of_neg falling).mpr (by linarith)⟩

/-- A place where an edge crosses a height is on the edge. -/
theorem crossing_mem_segment {y : ℝ} {edge : Edge ℝ} (isCrossed : crosses y edge = true) :
    (⟨crossingAt y edge, y⟩ : ℂ) ∈ segment ℝ edge.1.complex edge.2.complex := by
  rw [crosses, Bool.or_eq_true, Bool.and_eq_true, Bool.and_eq_true] at isCrossed
  simp only [decide_eq_true_eq] at isCrossed
  obtain ⟨slanted, within⟩ := part_of_crosses isCrossed
  rw [segment_eq_image]
  refine ⟨(y - edge.1.y) / (edge.2.y - edge.1.y), within, ?_⟩
  have across : crossingAt y edge =
      edge.1.x + (y - edge.1.y) * (edge.2.x - edge.1.x) / (edge.2.y - edge.1.y) := rfl
  rw [across]
  apply Complex.ext
  · simp only [PlanePoint.complex, Complex.add_re, Complex.smul_re, smul_eq_mul]
    ring
  · simp only [PlanePoint.complex, Complex.add_im, Complex.smul_im, smul_eq_mul]
    field_simp
    ring

theorem mem_pairs {β : Type} {items : List β} {pair : β × β} (member : pair ∈ pairs items) :
    pair.1 ∈ items ∧ pair.2 ∈ items := by
  induction items using pairs.induct with
  | case1 first second rest ih =>
      rcases List.mem_cons.mp member with rfl | later
      · simp
      · obtain ⟨left, right⟩ := ih later
        exact ⟨List.mem_cons_of_mem _ (List.mem_cons_of_mem _ left),
          List.mem_cons_of_mem _ (List.mem_cons_of_mem _ right)⟩
  | case2 items short =>
      rw [pairs] at member
      · cases member
      · exact short

/-- The ends of a stretch of a height are crossings. -/
theorem mem_intervals {edges : List (Edge ℝ)} {y : ℝ} {stretch : ℝ × ℝ}
    (member : stretch ∈ intervals edges y) :
    ∀ x ∈ [stretch.1, stretch.2], ∃ edge ∈ edges,
      (⟨x, y⟩ : ℂ) ∈ segment ℝ edge.1.complex edge.2.complex := by
  have crossing : ∀ x ∈ ((edges.filter (crosses y)).map (crossingAt y)).mergeSort
      (fun left right => decide (left ≤ right)),
      ∃ edge ∈ edges, (⟨x, y⟩ : ℂ) ∈ segment ℝ edge.1.complex edge.2.complex := by
    intro x isCrossing
    obtain ⟨edge, isEdge, rfl⟩ := List.mem_map.mp (List.mem_mergeSort.mp isCrossing)
    obtain ⟨isMember, isCrossed⟩ := List.mem_filter.mp isEdge
    exact ⟨edge, isMember, crossing_mem_segment isCrossed⟩
  obtain ⟨left, right⟩ := mem_pairs member
  intro x isEnd
  simp only [List.mem_cons, List.not_mem_nil, or_false] at isEnd
  rcases isEnd with rfl | rfl
  · exact crossing _ left
  · exact crossing _ right

/-- Both ends of a pass satisfy a condition. -/
structure RasterPassEnds {α : Type} (allowed : PlanePoint α → Prop) (pass : RasterPass α) :
    Prop where
  start : allowed pass.start
  stop : allowed pass.stop

/-- A pass starts and stops on edges. -/
theorem ends_of_mem_rowPasses {edges : List (Edge ℝ)} {y : ℝ} {allowed : PlanePoint ℝ → Prop}
    (onEdges : ∀ point : PlanePoint ℝ, (∃ edge ∈ edges,
      point.complex ∈ segment ℝ edge.1.complex edge.2.complex) → allowed point)
    {pass : RasterPass ℝ} (member : pass ∈ rowPasses edges y) :
    RasterPassEnds allowed pass := by
  obtain ⟨stretch, isStretch, rfl⟩ := List.mem_map.mp member
  have ends := mem_intervals (List.mem_of_mem_filter isStretch)
  exact ⟨onEdges _ (ends stretch.1 (by simp)), onEdges _ (ends stretch.2 (by simp))⟩

theorem ends_of_mem_directed {allowed : PlanePoint ℝ → Prop} {row : Nat}
    {passes : List (RasterPass ℝ)} (ends : ∀ pass ∈ passes, RasterPassEnds allowed pass)
    {pass : RasterPass ℝ} (member : pass ∈ directed row passes) :
    RasterPassEnds allowed pass := by
  unfold directed at member
  split at member
  · obtain ⟨source, isSource, rfl⟩ := List.mem_map.mp member
    have both := ends source (List.mem_reverse.mp isSource)
    exact ⟨both.stop, both.start⟩
  · exact ends pass member

/-- The passes of all rows start and stop on edges. -/
theorem ends_of_mem_rowsOf {edges : List (Edge ℝ)} {step : ℝ} {allowed : PlanePoint ℝ → Prop}
    (onEdges : ∀ point : PlanePoint ℝ, (∃ edge ∈ edges,
      point.complex ∈ segment ℝ edge.1.complex edge.2.complex) → allowed point)
    {rows : List (List (RasterPass ℝ))} (made : rowsOf edges step = .ok rows) :
    ∀ row ∈ rows, ∀ pass ∈ row, RasterPassEnds allowed pass := by
  unfold rowsOf at made
  split at made
  · obtain rfl := Except.ok.inj made
    simp
  · split at made
    · cases made
    · obtain rfl := Except.ok.inj made
      intro row isRow pass isPass
      obtain ⟨⟨y, number⟩, _, rfl⟩ := List.mem_map.mp isRow
      exact ends_of_mem_directed (fun other isOther => ends_of_mem_rowPasses onEdges isOther)
        isPass

end Raster

theorem Offsetter.eq_ok_of_orError {α β : Type} {result : Except α β} {value : β}
    (found : Offsetter.orError result = .ok value) : result = .ok value := by
  cases result with
  | ok _ => rw [Except.ok.inj found]
  | error _ => cases found

namespace Raster

theorem arcTolerance_pos : (0 : ℝ) < arcTolerance := by
  rw [arcTolerance, ExactScalar.decimal]
  norm_num

variable {offsetter : Offsetter ℝ} {boundary : Polyline ℝ} {inset : ℝ}

theorem clears_of_mem_insetEdges (keeps : offsetter.KeepsInside boundary)
    (wide : Polyline.repeatTolerance + 2 * arcTolerance < inset) (positive : 0 < inset)
    {edges : List (Edge ℝ)} (made : insetEdges offsetter boundary inset = .ok edges)
    {edge : Edge ℝ} (isEdge : edge ∈ edges) {point : ℂ}
    (isOn : point ∈ segment ℝ edge.1.complex edge.2.complex) :
    boundary.Clears (inset - Polyline.repeatTolerance - 2 * arcTolerance) point := by
  obtain ⟨loops, found, made⟩ := exists_of_bind_eq_ok made
  obtain rfl := Except.ok.inj made
  obtain ⟨loop, isLoop, isSegment⟩ := List.mem_flatMap.mp isEdge
  obtain ⟨closed, clears⟩ := Offsetter.aroundClosed_inset keeps positive
    (Offsetter.eq_ok_of_orError found) loop isLoop
  obtain ⟨place, onLoop, near⟩ :=
    OffsetLoop.exists_passes_near closed arcTolerance_pos isSegment isOn
  refine (clears place onLoop).near ?_ (by linarith)
  rw [dist_comm]
  exact near

/-- The rows start and stop where the wall is as far as it is from the part that is
cleared but for its chords. -/
theorem clears_of_mem_rows (keeps : offsetter.KeepsInside boundary)
    (wide : Polyline.repeatTolerance + 2 * arcTolerance < inset) (positive : 0 < inset)
    {step : ℝ} {rows : List (List (RasterPass ℝ))}
    (made : Raster.rows offsetter boundary inset step = .ok rows) :
    ∀ row ∈ rows, ∀ pass ∈ row, RasterPassEnds (fun place => boundary.Clears
      (inset - Polyline.repeatTolerance - 2 * arcTolerance) place.complex) pass := by
  obtain ⟨edges, found, made⟩ := exists_of_bind_eq_ok made
  refine ends_of_mem_rowsOf (fun place onEdge => ?_) made
  obtain ⟨edge, isEdge, isOn⟩ := onEdge
  exact clears_of_mem_insetEdges keeps wide positive found isEdge isOn

end Raster

end Milling
