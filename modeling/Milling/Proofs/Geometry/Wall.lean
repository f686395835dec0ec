import Mathlib
import Milling.Geometry.Polyline
import Milling.Proofs.Scalar.Real

/-!
# Walls

The segments of a closed polyline are walls, and what the walls keep from the
far plane is inside.  Points near an inner point are inner points too, as long
as no wall is as near.
-/

namespace Milling

def PlanePoint.complex (point : PlanePoint ℝ) : ℂ := ⟨point.x, point.y⟩

namespace Polyline

variable (boundary : Polyline ℝ)

/-- The points of the segments. -/
def walls : Set ℂ :=
  {point | ∃ edge ∈ boundary.segments, point ∈ segment ℝ edge.1.complex edge.2.complex}

/-- The walls part a point from the far plane. -/
structure Encloses (point : ℂ) : Prop where
  offWalls : point ∉ boundary.walls
  bounded : Bornology.IsBounded (connectedComponentIn boundary.wallsᶜ point)

/-- A point is inside, and no wall is nearer than a distance. -/
structure Clears (distance : ℝ) (point : ℂ) : Prop where
  enclosed : boundary.Encloses point
  apart : ∀ wall ∈ boundary.walls, distance ≤ dist point wall

variable {boundary}

/-- What can be reached without crossing a wall is inside with the start. -/
theorem Encloses.of_segment {start stop : ℂ} (enclosed : boundary.Encloses start)
    (free : Disjoint (segment ℝ start stop) boundary.walls) : boundary.Encloses stop := by
  have within : segment ℝ start stop ⊆ boundary.wallsᶜ := Set.disjoint_left.mp free
  have connected : IsPreconnected (segment ℝ start stop) :=
    (convex_segment start stop).isPreconnected
  have reached : stop ∈ connectedComponentIn boundary.wallsᶜ start :=
    connected.subset_connectedComponentIn (left_mem_segment ℝ start stop) within
      (right_mem_segment ℝ start stop)
  refine ⟨within (right_mem_segment ℝ start stop), ?_⟩
  rw [← connectedComponentIn_eq reached]
  exact enclosed.bounded

namespace Clears

variable {distance : ℝ} {point other : ℂ}

theorem mono (clears : boundary.Clears distance point) {less : ℝ} (below : less ≤ distance) :
    boundary.Clears less point :=
  ⟨clears.enclosed, fun wall isWall => below.trans (clears.apart wall isWall)⟩

theorem near (clears : boundary.Clears distance point) {apart : ℝ}
    (close : dist point other ≤ apart) (less : apart < distance) :
    boundary.Clears (distance - apart) other := by
  have stays : ∀ between ∈ segment ℝ point other, ∀ wall ∈ boundary.walls,
      distance - apart ≤ dist between wall := by
    intro between isBetween wall isWall
    have far := clears.apart wall isWall
    have step : dist point between ≤ dist point other := by
      have sum := dist_add_dist_of_mem_segment isBetween
      have positive := dist_nonneg (x := between) (y := other)
      linarith
    have triangle := dist_triangle point between wall
    linarith
  refine ⟨clears.enclosed.of_segment (Set.disjoint_left.mpr ?_),
    stays other (right_mem_segment ℝ point other)⟩
  intro between isBetween isWall
  have zero := stays between isBetween between isWall
  rw [dist_self] at zero
  linarith

end Clears

end Polyline

/-!
## Inside a rectangle

The walls of a rectangle are its four sides, and they enclose what lies between
them.  Its area and its middle are those of the schoolbook.
-/

open Complex

theorem segment_across {left right : ℝ} (ordered : left ≤ right) (height : ℝ) :
    segment ℝ (⟨left, height⟩ : ℂ) ⟨right, height⟩ = Set.Icc left right ×ℂ {height} := by
  have ends : ({⟨left, height⟩, ⟨right, height⟩} : Set ℂ) = {left, right} ×ℂ {height} := by
    ext point
    simp only [Set.mem_insert_iff, Set.mem_singleton_iff, mem_reProdIm, Complex.ext_iff]
    tauto
  rw [← convexHull_pair, ends, convexHull_reProdIm, convexHull_pair, convexHull_singleton,
    segment_eq_Icc ordered]

theorem segment_up {low high : ℝ} (ordered : low ≤ high) (width : ℝ) :
    segment ℝ (⟨width, low⟩ : ℂ) ⟨width, high⟩ = {width} ×ℂ Set.Icc low high := by
  have ends : ({⟨width, low⟩, ⟨width, high⟩} : Set ℂ) = {width} ×ℂ {low, high} := by
    ext point
    simp only [Set.mem_insert_iff, Set.mem_singleton_iff, mem_reProdIm, Complex.ext_iff]
    tauto
  rw [← convexHull_pair, ends, convexHull_reProdIm, convexHull_pair, convexHull_singleton,
    segment_eq_Icc ordered]

namespace Polyline

variable {x y width height : ℝ}

/-- The sides of a rectangle. -/
theorem mem_walls_rectangle (wide : 0 ≤ width) (tall : 0 ≤ height) {point : ℂ} :
    point ∈ (rectangle x y width height).walls ↔
      (point.re ∈ Set.Icc x (x + width) ∧ (point.im = y ∨ point.im = y + height)) ∨
        (point.im ∈ Set.Icc y (y + height) ∧ (point.re = x ∨ point.re = x + width)) := by
  have across : x ≤ x + width := by linarith
  have up : y ≤ y + height := by linarith
  have sides : (rectangle x y width height).segments =
      [(⟨x, y⟩, ⟨x + width, y⟩), (⟨x + width, y⟩, ⟨x + width, y + height⟩),
        (⟨x + width, y + height⟩, ⟨x, y + height⟩), (⟨x, y + height⟩, ⟨x, y⟩)] := rfl
  simp only [walls, sides, Set.mem_ofPred_eq, List.mem_cons, List.not_mem_nil, or_false,
    exists_eq_or_imp, exists_eq_left, PlanePoint.complex]
  rw [segment_symm ℝ (⟨x, y + height⟩ : ℂ) ⟨x, y⟩,
    segment_symm ℝ (⟨x + width, y + height⟩ : ℂ) ⟨x, y + height⟩,
    segment_across across, segment_across across, segment_up up, segment_up up]
  simp only [mem_reProdIm, Set.mem_singleton_iff]
  tauto

/-- The sides are as far from a point as their lines. -/
theorem le_dist_rectangle (wide : 0 ≤ width) (tall : 0 ≤ height) {distance : ℝ} {point : ℂ}
    (across : point.re ∈ Set.Icc (x + distance) (x + width - distance))
    (up : point.im ∈ Set.Icc (y + distance) (y + height - distance)) :
    ∀ wall ∈ (rectangle x y width height).walls, distance ≤ dist point wall := by
  obtain ⟨left, right⟩ := across
  obtain ⟨low, high⟩ := up
  intro wall onWall
  have beside : |point.re - wall.re| ≤ dist point wall := by
    rw [Complex.dist_eq, ← Complex.sub_re]
    exact Complex.abs_re_le_norm _
  have above : |point.im - wall.im| ≤ dist point wall := by
    rw [Complex.dist_eq, ← Complex.sub_im]
    exact Complex.abs_im_le_norm _
  rcases (mem_walls_rectangle wide tall).mp onWall with
    ⟨_, bottom | top⟩ | ⟨_, first | last⟩
  · exact (le_abs.mpr (.inl (by linarith))).trans above
  · exact (le_abs.mpr (.inr (by linarith))).trans above
  · exact (le_abs.mpr (.inl (by linarith))).trans beside
  · exact (le_abs.mpr (.inr (by linarith))).trans beside

/-- Off the walls a point is between all four lines or beyond one of them. -/
theorem compl_walls_rectangle_subset (wide : 0 ≤ width) (tall : 0 ≤ height) :
    (rectangle x y width height).wallsᶜ ⊆
      Set.Ioo x (x + width) ×ℂ Set.Ioo y (y + height) ∪
        (Set.Icc x (x + width) ×ℂ Set.Icc y (y + height))ᶜ := by
  intro point off
  by_contra neither
  rw [Set.mem_union, not_or, Set.mem_compl_iff, not_not] at neither
  obtain ⟨notBetween, ⟨left, right⟩, low, high⟩ := neither
  have isWall := @mem_walls_rectangle x y width height wide tall point
  have notFirst : point.re ≠ x := fun equal =>
    off (isWall.mpr (.inr ⟨⟨low, high⟩, .inl equal⟩))
  have notLast : point.re ≠ x + width := fun equal =>
    off (isWall.mpr (.inr ⟨⟨low, high⟩, .inr equal⟩))
  have notBottom : point.im ≠ y := fun equal =>
    off (isWall.mpr (.inl ⟨⟨left, right⟩, .inl equal⟩))
  have notTop : point.im ≠ y + height := fun equal =>
    off (isWall.mpr (.inl ⟨⟨left, right⟩, .inr equal⟩))
  exact notBetween ⟨⟨lt_of_le_of_ne left notFirst.symm, lt_of_le_of_ne right notLast⟩,
    lt_of_le_of_ne low notBottom.symm, lt_of_le_of_ne high notTop⟩

/-- What lies between the sides of a rectangle is inside. -/
theorem encloses_rectangle {point : ℂ}
    (between : point ∈ Set.Ioo x (x + width) ×ℂ Set.Ioo y (y + height)) :
    (rectangle x y width height).Encloses point := by
  obtain ⟨⟨left, right⟩, low, high⟩ := between
  have wide : 0 ≤ width := by linarith
  have tall : 0 ≤ height := by linarith
  have offWalls : point ∉ (rectangle x y width height).walls := by
    intro onWall
    rcases (mem_walls_rectangle wide tall).mp onWall with
      ⟨_, bottom | top⟩ | ⟨_, first | last⟩ <;> linarith
  -- The two parts are open, so what is connected lies in one of them.
  have disjoint : Disjoint (Set.Ioo x (x + width) ×ℂ Set.Ioo y (y + height))
      (Set.Icc x (x + width) ×ℂ Set.Icc y (y + height))ᶜ :=
    Set.disjoint_compl_right_iff_subset.mpr
      (reProdIm_subset_iff.mpr (Set.prod_mono Set.Ioo_subset_Icc_self Set.Ioo_subset_Icc_self))
  have stays : connectedComponentIn (rectangle x y width height).wallsᶜ point ⊆
      Set.Ioo x (x + width) ×ℂ Set.Ioo y (y + height) :=
    isPreconnected_connectedComponentIn.subset_left_of_subset_union
      (isOpen_Ioo.reProdIm isOpen_Ioo) (isClosed_Icc.reProdIm isClosed_Icc).isOpen_compl disjoint
      ((connectedComponentIn_subset _ point).trans (compl_walls_rectangle_subset wide tall))
      ⟨point, mem_connectedComponentIn offWalls, ⟨left, right⟩, low, high⟩
  exact
    { offWalls
      bounded := ((Metric.isBounded_Ioo _ _).reProdIm (Metric.isBounded_Ioo _ _)).subset stays }

theorem clears_rectangle {distance : ℝ} (positive : 0 < distance) {point : ℂ}
    (across : point.re ∈ Set.Icc (x + distance) (x + width - distance))
    (up : point.im ∈ Set.Icc (y + distance) (y + height - distance)) :
    (rectangle x y width height).Clears distance point where
  enclosed := by
    obtain ⟨left, right⟩ := across
    obtain ⟨low, high⟩ := up
    exact encloses_rectangle ⟨⟨by linarith, by linarith⟩, by linarith, by linarith⟩
  apart := le_dist_rectangle (by linarith [across.1, across.2]) (by linarith [up.1, up.2])
    across up

variable (x y width height)

theorem signedArea_rectangle : (rectangle x y width height).signedArea = width * height := by
  simp only [signedArea, rectangle, cyclicSteps, steps, List.foldl_cons, List.foldl_nil,
    List.cons_append, List.nil_append, List.length_cons, List.length_nil,
    ExactScalar.literal_zero]
  norm_num
  rw [ExactScalar.literal]
  norm_num
  ring

theorem centroid_rectangle : (rectangle x y width height).centroid? =
    some ⟨x + width / 2, y + height / 2⟩ := by
  simp only [centroid?, rectangle, List.foldl_cons, List.foldl_nil, ExactScalar.literal_zero,
    ExactScalar.ofInt_cast]
  congr 2
  · norm_num
    ring
  · norm_num
    ring

end Polyline

end Milling
