import Mathlib
import Milling.Machining.Generation
import Milling.Proofs.Machining.Check
import Milling.Proofs.Machining.Clearing
import Milling.Proofs.Machining.Reach
import Milling.Proofs.Offset.Rectangle

/-!
# Pockets stay off their walls

What is cleared of a pocket keeps its distance from the walls whatever the
boundary is.  A helix goes around the average of the vertices, at a radius that
the tool gives, and the boundary has no say in it: it keeps the distance where
there is room for it.
-/

namespace Milling

namespace Pocket

/-- How far from the walls a pocket is cut. -/
def inset {α : Type} [Scalar α] (pocket : Pocket α) : α :=
  pocket.cut.toolRadius + pocket.stockToLeave

def helixRadius {α : Type} [Scalar α] (pocket : Pocket α) : α :=
  pocket.cut.tool.diameter * helixRadiusFactor

variable {pocket : Pocket ℝ} {offsetter : Offsetter ℝ}

theorem inset_pos (passed : pocket.check = .ok ()) : 0 < pocket.inset := by
  have diameter := diameter_pos passed
  have radius : pocket.cut.toolRadius = pocket.cut.tool.diameter / 2 := by
    rw [CutSettings.toolRadius, Tool.radius, ExactScalar.literal]
  have stock := stockToLeave_nonneg passed
  rw [inset, radius]
  linarith

/-- What the chords of arcs and vertices taken for one add up to. -/
theorem tolerances_le :
    (Polyline.repeatTolerance + 2 * Raster.arcTolerance : ℝ) ≤ 1 / 1000 := by
  rw [Polyline.repeatTolerance, Raster.arcTolerance, ExactScalar.decimal, ExactScalar.decimal]
  norm_num

theorem clearing_within (passed : pocket.check = .ok ())
    (keeps : offsetter.KeepsInside pocket.boundary)
    (wide : pocket.pattern = .zigzag →
      Polyline.repeatTolerance + 2 * Raster.arcTolerance < pocket.inset)
    {clearing : Clearing ℝ} (made : pocket.clearing offsetter = .ok clearing) :
    clearing.Within fun place =>
      pocket.boundary.Clears (pocket.inset - 1 / 1000) place.complex := by
  have positive := inset_pos passed
  have tolerances := tolerances_le
  have arcs := Raster.arcTolerance_pos
  unfold Pocket.clearing at made
  cases isPattern : pocket.pattern with
  | zigzag =>
      rw [isPattern] at made
      obtain ⟨rows, found, made⟩ := exists_of_bind_eq_ok made
      obtain rfl := Except.ok.inj made
      refine .raster fun row isRow pass isPass => ?_
      obtain ⟨start, stop⟩ :=
        Raster.clears_of_mem_rows keeps (wide isPattern) positive found row isRow pass isPass
      exact ⟨start.mono (by linarith), stop.mono (by linarith)⟩
  | offset =>
      rw [isPattern] at made
      obtain ⟨rings, found, made⟩ := exists_of_bind_eq_ok made
      obtain rfl := Except.ok.inj made
      refine .nested fun ring isRing path isPath vertex isVertex => ?_
      obtain ⟨loops, isLoops, rfl⟩ := List.mem_map.mp isRing
      obtain ⟨loop, isLoop, rfl⟩ := List.mem_map.mp isPath
      obtain ⟨closed, clears⟩ := Offsetter.rings_inset keeps positive
        (stepDistance_pos passed).le (Offsetter.eq_ok_of_orError found) loops
        (List.mem_reverse.mp isLoops) loop isLoop
      have onLoop := OffsetLoop.mem_passes_of_mem_toPath closed isVertex
      exact (clears _ onLoop).mono (by linarith)

variable {allowed : PlanePoint ℝ → Prop}

/-- The entry of a pocket leads to allowed places: straight down at the start of the
clearing, or on a circle around a centre. -/
structure EntersIn (allowed : PlanePoint ℝ → Prop) (pocket : Pocket ℝ)
    (start center : PlanePoint ℝ) : Prop where
  straight : pocket.ramp = .plunge → allowed start
  turning : pocket.ramp = .helical → ∀ angle : ℝ,
    allowed ⟨center.x + pocket.helixRadius * Real.cos angle,
      center.y + pocket.helixRadius * Real.sin angle⟩

theorem enterTurning_cutsIn {cutter : Cutter ℝ} (inside : cutter.CutsIn allowed)
    {center : PlanePoint ℝ} (turning : ∀ angle : ℝ,
      allowed ⟨center.x + pocket.helixRadius * Real.cos angle,
        center.y + pocket.helixRadius * Real.sin angle⟩) (start level : ℝ) :
    (pocket.enterTurning center cutter start level).CutsIn allowed := by
  have entry : allowed ⟨center.x + pocket.helixRadius, center.y⟩ := by
    have first := turning 0
    rw [Real.cos_zero, Real.sin_zero, mul_one, mul_zero, add_zero] at first
    exact first
  have entered := (inside.rapid (center.x + pocket.helixRadius) center.y
    pocket.cut.safeZ).linear entry start
  exact Cutter.CutsIn.foldl (fun segment _ _ inside => inside.linear (turning _) _) entered

theorem cutLevel_cutsIn {cutter : Cutter ℝ} (inside : cutter.CutsIn allowed)
    {clearing : Clearing ℝ} (within : clearing.Within allowed) {start center : PlanePoint ℝ}
    (enters : pocket.EntersIn allowed start center) (previous level : ℝ) :
    (pocket.cutLevel clearing start center cutter previous level).CutsIn allowed := by
  simp only [cutLevel]
  cases ramp : pocket.ramp with
  | helical =>
      have entered := enterTurning_cutsIn inside (enters.turning ramp) previous level
      exact (Clearing.cut_cutsIn entered within _ level).rapidHeight _
  | plunge =>
      have entered : (pocket.enterStraight start cutter level).CutsIn allowed :=
        (inside.rapid start.x start.y _).linearAt (enters.straight ramp) level _
      exact (Clearing.cut_cutsIn entered within _ level).rapidHeight _

/-- A pocket cuts at the places of its clearing and of its entry. -/
theorem toolpath_cutsIn {clearing : Clearing ℝ} (found : pocket.clearing offsetter = .ok clearing)
    (within : clearing.Within allowed)
    (enters : ∀ start center, clearing.start? = some start →
      pocket.boundary.centroid? = some center → pocket.EntersIn allowed start center)
    {path : Toolpath ℝ} (made : pocket.toolpath offsetter = .ok path) :
    ∀ point ∈ path.points, point.isCutting = true → allowed point.place := by
  obtain ⟨same, start, center, isFound, isStart, isCenter, _, rfl⟩ := exists_of_toolpath made
  obtain rfl := Except.ok.inj (isFound.symm.trans found)
  intro point isPoint
  have isPassed := List.mem_reverse.mp isPoint
  refine Cutter.CutsIn.foldl (fun item _ cutter inside => ?_)
    (Cutter.CutsIn.start allowed pocket.cut) point isPassed
  exact cutLevel_cutsIn inside within (enters start center isStart isCenter) item.1 item.2

/-- A place on a circle is as far from its centre as the radius says. -/
theorem dist_circle (center : PlanePoint ℝ) {radius : ℝ} (positive : 0 ≤ radius) (angle : ℝ) :
    dist center.complex
      (PlanePoint.complex ⟨center.x + radius * Real.cos angle,
        center.y + radius * Real.sin angle⟩) = radius := by
  have square : (center.x - (center.x + radius * Real.cos angle)) ^ 2 +
      (center.y - (center.y + radius * Real.sin angle)) ^ 2 = radius ^ 2 := by
    have unit := Real.cos_sq_add_sin_sq angle
    linear_combination radius ^ 2 * unit
  simp only [PlanePoint.complex]
  rw [Complex.dist_mk, square, Real.sqrt_sq positive]

theorem helixRadius_nonneg (passed : pocket.check = .ok ()) : 0 ≤ pocket.helixRadius := by
  have factor : (0 : ℝ) ≤ helixRadiusFactor := by
    rw [helixRadiusFactor, ExactScalar.decimal]
    positivity
  exact mul_nonneg (diameter_pos passed).le factor

/-- No cutting point of a pocket is nearer to a wall than the tool and the stock to leave
allow, if a helix has room around the middle of the boundary. -/
theorem clears_of_toolpath {path : Toolpath ℝ}
    (keeps : offsetter.KeepsInside pocket.boundary)
    (wide : pocket.pattern = .zigzag →
      Polyline.repeatTolerance + 2 * Raster.arcTolerance < pocket.inset)
    (room : pocket.ramp = .helical → ∀ center, pocket.boundary.centroid? = some center →
      pocket.boundary.Clears (pocket.helixRadius + pocket.inset) center.complex)
    (made : (Operation.pocket pocket).toolpath offsetter = .ok path) :
    ∀ point ∈ path.points, point.isCutting = true →
      pocket.boundary.Clears (pocket.inset - 1 / 1000) point.place.complex := by
  unfold Operation.toolpath at made
  split at made
  · rename_i passed
    obtain ⟨clearing, _, _, found, _⟩ := exists_of_toolpath made
    have within := clearing_within passed keeps wide found
    refine toolpath_cutsIn found within (fun start center isStart isCenter => ?_) made
    refine ⟨fun _ => within.start isStart, fun turning angle => ?_⟩
    have positive := inset_pos passed
    have circle := (room turning center isCenter).near
      (dist_circle center (helixRadius_nonneg passed) angle).le (by linarith)
    exact circle.mono (by linarith)
  · cases made

/-- A rectangular pocket that is cleared in rings and entered by a helix. -/
noncomputable def rectangular (width height : ℝ) : Pocket ℝ :=
  { cut := {
      tool := {
        number := 1, kind := .endMill, diameter := 6, flutes := 2, material := .carbide
        surfaceSpeed := 100, feedPerTooth := 0.1, description := "6 mm end mill" }
      feed := 800, spindle := 12000, safeZ := 5, clearanceZ := 50 }
    boundary := .rectangle 0 0 width height
    depth := -1
    stepDown := 1
    stepOver := 1
    pattern := .offset
    ramp := .helical
    helix := { pitch := 2, segments := 4 }
    stockToLeave := 0 }

variable {width height : ℝ}

theorem rectangular_inset : (rectangular width height).inset = 3 := by
  rw [inset, CutSettings.toolRadius, Tool.radius, ExactScalar.literal]
  norm_num [rectangular]

theorem rectangular_helixRadius : (rectangular width height).helixRadius = 24 / 5 := by
  rw [helixRadius, helixRadiusFactor, ExactScalar.decimal]
  norm_num [rectangular]

theorem rectangular_stepDistance : (rectangular width height).stepDistance = 6 := by
  norm_num [stepDistance, rectangular]

theorem rectangular_check : (rectangular width height).check = .ok () := by
  norm_num [Pocket.check, CutSettings.check, rectangular, Polyline.rectangle,
    PlanePoint.isFinite, Require.steps, Require.outline, Require.bind_eq_ok,
    Require.ensure_eq_ok, Require.finite_eq_ok, Require.positive_eq_ok,
    Require.notNegative_eq_ok, Require.belowTop_eq_ok, ExactScalar.literal_zero,
    Require.mostLevels, HelixSettings.fewestSegments]
  rw [ExactScalar.literal_zero]
  norm_num
  exact ⟨by rw [ExactScalar.literal_one], rfl⟩

theorem rectangular_clearing (wide : 6 < width) (tall : 6 < height) (slim : width ≤ 18) :
    (rectangular width height).clearing (.rectangular width height) =
      .ok (.nested [[(Offsetter.insetRectangle width height 3).toPath]]) := by
  have found : (Offsetter.rectangular width height).rings (.rectangle 0 0 width height)
      (rectangular width height).inset (rectangular width height).stepDistance mostRings =
        .ok [[Offsetter.insetRectangle width height 3]] := by
    rw [rectangular_inset, rectangular_stepDistance]
    exact Offsetter.rings_rectangular (by norm_num) (by norm_num)
      ⟨by linarith, by linarith⟩ (fun fits => by linarith [fits.1]) 9998
  have isRings : (rectangular width height).clearing (.rectangular width height) =
      (do
        let rings ← Offsetter.orError ((Offsetter.rectangular width height).rings
          (.rectangle 0 0 width height) (rectangular width height).inset
          (rectangular width height).stepDistance mostRings)
        pure (.nested (rings.reverse.map fun ring => ring.map OffsetLoop.toPath))) := rfl
  rw [isRings, found]
  rfl

/-- One turn suffices for a shallow rectangle. -/
theorem helixSegments_rectangular {width height level : ℝ} (deep : -1 ≤ level)
    (below : level ≤ 0) : (rectangular width height).helixSegments level = 4 := by
  have turn : revolutions level (2 : ℝ) = 1 := by
    have few : Scalar.ceil (-level / 2) ≤ 1 :=
      ExactScalar.ceil_le_iff.mpr (by push_cast; linarith)
    rw [revolutions_eq below]
    omega
  rw [helixSegments]
  exact congrArg (· * 4) turn

theorem overwinds_rectangular :
    (rectangular width height).overwinds (depthLevels (rectangular width height).depth
      (rectangular width height).stepDown) = false := by
  refine overwinds_eq_false_iff.mpr fun _ level isLevel => ?_
  obtain ⟨deep, below⟩ := depthLevels_between (depth_nonpos rectangular_check) isLevel
  rw [helixSegments_rectangular deep below]
  decide

theorem exists_toolpath_rectangular (wide : 6 < width) (tall : 6 < height)
    (slim : width ≤ 18) : ∃ path, (Operation.pocket (rectangular width height)).toolpath
      (.rectangular width height) = .ok path := by
  have middle : (rectangular width height).boundary.centroid? =
      some ⟨0 + width / 2, 0 + height / 2⟩ := Polyline.centroid_rectangle 0 0 width height
  have start : (Clearing.nested [[(Offsetter.insetRectangle width height 3).toPath]]).start? =
      some ⟨3, 3⟩ := rfl
  simp only [Operation.toolpath, Operation.check, rectangular_check,
    Operation.toolpathUnchecked, toolpath, rectangular_clearing wide tall slim, bind,
    Except.bind, middle, start, overwinds_rectangular]
  exact ⟨_, rfl⟩

theorem clears_of_toolpath_square :
    ∃ path, (Operation.pocket (rectangular 16 16)).toolpath (.rectangular 16 16) = .ok path ∧
      ∀ point ∈ path.points, point.isCutting = true →
        (Polyline.rectangle 0 0 16 16).Clears ((rectangular 16 16).inset - 1 / 1000)
          point.place.complex := by
  obtain ⟨path, made⟩ := @exists_toolpath_rectangular 16 16 (by norm_num) (by norm_num)
    (by norm_num)
  refine ⟨path, made, clears_of_toolpath (Offsetter.keepsInside_rectangular 16 16)
    (fun _ => ?_) (fun _ center isCenter => ?_) made⟩
  · rw [rectangular_inset]
    linarith [tolerances_le]
  have middle := Polyline.centroid_rectangle 0 0 16 16
  obtain rfl := Option.some.inj (middle.symm.trans isCenter)
  rw [rectangular_inset, rectangular_helixRadius]
  refine Polyline.clears_rectangle (by norm_num) ?_ ?_ <;>
    norm_num [PlanePoint.complex]

/-- A helix starts its radius beside the centre. -/
theorem enterTurning_passes {start level : ℝ} (deepStart : pocket.depth ≤ start)
    (deepLevel : pocket.depth ≤ level) (center : PlanePoint ℝ) (cutter : Cutter ℝ) :
    ∃ point ∈ (pocket.enterTurning center cutter start level).passed,
      point.isCutting = true ∧ point.place = ⟨center.x + pocket.helixRadius, center.y⟩ := by
  simp only [enterTurning]
  refine ⟨_, (@Cutter.Leads.foldl _ _ (.pocket pocket) _ _ _
    (fun segment isSegment cutter => ?_) _).kept _ List.mem_cons_self, rfl, rfl⟩
  exact Cutter.linear_leads cutter _ _ (helixPoint_deep deepStart deepLevel
    (Nat.succ_le_of_lt (List.mem_range.mp isSegment)) center _ pocket.helix.segments)

/-- A helix is cut its radius beside the average of the vertices, wherever the walls are. -/
theorem exists_beside_center (below : pocket.depth ≤ 0) (safe : 0 ≤ pocket.cut.safeZ)
    (ramp : pocket.ramp = .helical) {center : PlanePoint ℝ}
    (isCenter : pocket.boundary.centroid? = some center) {path : Toolpath ℝ}
    (made : pocket.toolpath offsetter = .ok path) :
    ∃ point ∈ path.points, point.isCutting = true ∧
      point.place = ⟨center.x + pocket.helixRadius, center.y⟩ := by
  obtain ⟨clearing, start, middle, _, _, isMiddle, _, rfl⟩ := exists_of_toolpath made
  obtain rfl := Option.some.inj (isCenter.symm.trans isMiddle)
  have top : pocket.depth ≤ @OfNat.ofNat ℝ 0 (Scalar.instOfNat 0) := by
    rw [ExactScalar.literal_zero]
    exact below
  -- The entry to the last level is the one that only the moves of its level follow.
  obtain ⟨front, last, passes⟩ := exists_last_pass below
    (@OfNat.ofNat ℝ 0 (Scalar.instOfNat 0)) pocket.stepDown
  obtain ⟨deepPrevious, deepLevel⟩ := depth_le_of_mem_zip below top
    (passes ▸ List.mem_append_right front List.mem_cons_self)
  rw [passes, List.foldl_append, List.foldl_cons, List.foldl_nil]
  generalize front.foldl _ (Cutter.start pocket.cut) = cutter
  obtain ⟨point, isPassed, cuts, place⟩ :=
    enterTurning_passes deepPrevious deepLevel center cutter
  have left : (pocket.enterTurning center cutter last.1 last.2).Leads (.pocket pocket)
      (pocket.cutLevel clearing start center cutter last.1 last.2) := by
    simp only [cutLevel, ramp]
    exact (Clearing.cut_leads below safe deepLevel _ clearing).trans
      (Cutter.rapidHeight_leads _ below safe)
  exact ⟨point, List.mem_reverse.mpr (left.kept point isPassed), cuts, place⟩

/-- A slot barely wider than the tool is cut beyond its wall. -/
theorem slot_undercut :
    (Offsetter.rectangular 7 50).KeepsInside (.rectangle 0 0 7 50) ∧
      ∃ path, (Operation.pocket (rectangular 7 50)).toolpath (.rectangular 7 50) = .ok path ∧
        ∃ point ∈ path.points, point.isCutting = true ∧
          ¬(Polyline.rectangle 0 0 7 50).Clears ((rectangular 7 50).inset - 1 / 1000)
            point.place.complex := by
  obtain ⟨path, made⟩ := @exists_toolpath_rectangular 7 50 (by norm_num) (by norm_num)
    (by norm_num)
  refine ⟨Offsetter.keepsInside_rectangular 7 50, path, made, ?_⟩
  have unchecked : (rectangular 7 50).toolpath (.rectangular 7 50) = .ok path := by
    rw [Operation.toolpath, Operation.check, rectangular_check] at made
    exact made
  obtain ⟨point, isPoint, cuts, place⟩ := exists_beside_center (by norm_num [rectangular])
    (by norm_num [rectangular]) rfl (Polyline.centroid_rectangle 0 0 7 50) unchecked
  refine ⟨point, isPoint, cuts, fun clears => ?_⟩
  -- The helix is 1.3 beyond the right wall.
  have onWall : (⟨7, 25⟩ : ℂ) ∈ (Polyline.rectangle 0 0 7 50).walls :=
    (Polyline.mem_walls_rectangle (by norm_num) (by norm_num)).mpr
      (.inr ⟨by norm_num, .inr (by norm_num)⟩)
  have far := clears.apart _ onWall
  rw [place, rectangular_helixRadius, rectangular_inset, PlanePoint.complex, Complex.dist_mk] at far
  norm_num at far

end Pocket

end Milling
