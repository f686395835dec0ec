import Milling.Proofs.Machining.Check
import Milling.Proofs.Machining.Clearing
import Milling.Proofs.Scalar.Real

/-!
# Generated paths are safe

A profile is a round for each level and drilling is a round for each hole, as
a pocket is one for each level, so every path that is made for an operation
in order is safe.
-/

namespace Milling

open Cutter Require

variable {α : Type} [ExactScalar α]

namespace Contour

variable {contour : Contour α}

theorem cutLevel_round (below : contour.depth ≤ 0) (safe : 0 ≤ contour.cut.safeZ)
    {level : α} (deep : contour.depth ≤ level) (start : PlanePoint α)
    (rest : List (PathVertex α)) (leadIn leadOut : Option (PlanePoint α))
    {cutter : Cutter α} (above : 0 ≤ cutter.position.z) :
    cutter.Round (.contour contour) level
      (contour.cutLevel start rest leadIn leadOut cutter level) := by
  simp only [cutLevel]
  generalize leadIn.getD start = entry
  have approached : cutter.Leads (.contour contour)
      (cutter.rapid entry.x entry.y contour.cut.safeZ) :=
    rapid_leads below safe above entry.x entry.y
  have lowered : cutter.Leads (.contour contour)
      ((cutter.rapid entry.x entry.y contour.cut.safeZ).linear entry.x entry.y level) :=
    approached.trans (linear_leads _ entry.x entry.y deep)
  have cut := linear_hasCut (cutter.rapid entry.x entry.y contour.cut.safeZ)
    entry.x entry.y level
  generalize (cutter.rapid entry.x entry.y contour.cut.safeZ).linear entry.x entry.y level =
    first at lowered cut ⊢
  have entered : first.Leads (.contour contour)
      (if leadIn.isSome then first.linear start.x start.y level else first) := by
    split
    · exact linear_leads first start.x start.y deep
    · exact .refl first
  have followed := entered.trans (follow_leads _ rest deep)
  have leaves (last : Cutter α) (leads : first.Leads (.contour contour) last) :
      cutter.Round (.contour contour) level (last.rapidHeight contour.cut.safeZ) := by
    have left := leads.trans (rapidHeight_leads last below safe)
    exact
      { leads := lowered.trans left
        cuts := left.hasCut cut
        ends := rapidHeight_endsAt last contour.cut.safeZ }
  cases leadOut with
  | none => exact leaves _ followed
  | some exit => exact leaves _ (followed.trans (linear_leads _ exit.x exit.y deep))

theorem toolpath_safe {offsetter : Offsetter α} {path : Toolpath α}
    (below : contour.depth ≤ 0) (travels : (Operation.contour contour).TravelsAbove)
    (made : contour.toolpath offsetter = .ok path) :
    (Operation.contour contour).Safe path := by
  simp only [toolpath] at made
  cases found : contour.cutPath offsetter with
  | error error =>
      rw [found] at made
      cases made
  | ok vertices =>
      rw [found] at made
      cases vertices with
      | nil => cases made
      | cons start rest =>
          obtain rfl := Except.ok.inj made
          refine safe_of_rounds id below travels travels.safe
            (fun level isLevel cutter above => ?_)
            (depth_mem_depthLevels below contour.stepDown) rfl
          exact cutLevel_round below travels.safe (depthLevels_between below isLevel).1
            start.point rest _ _ above

end Contour

namespace Drilling

variable {drilling : Drilling α}

theorem plunges_deep (below : drilling.depth ≤ 0) {level : α}
    (isLevel : level ∈ drilling.plunges) : drilling.depth ≤ level := by
  rw [plunges] at isLevel
  split at isLevel
  · exact (depthLevels_between below isLevel).1
  · exact (List.mem_singleton.mp isLevel).ge

theorem depth_mem_plunges (below : drilling.depth ≤ 0) :
    drilling.depth ∈ drilling.plunges := by
  rw [plunges]
  split
  · exact depth_mem_depthLevels below drilling.peckDepth
  · exact List.mem_cons_self

theorem cutPlunge_leads (below : drilling.depth ≤ 0) (retracts : 0 ≤ drilling.retract)
    {level : α} (deep : drilling.depth ≤ level) (target : PlanePoint α) (cutter : Cutter α)
    (isLast : Bool) :
    cutter.Leads (.drill drilling) (drilling.cutPlunge target cutter level isLast) ∧
      (drilling.cutPlunge target cutter level isLast).HasCut level := by
  have lowered : cutter.Leads (.drill drilling) (cutter.linear target.x target.y level) :=
    linear_leads cutter target.x target.y deep
  have cut := linear_hasCut cutter target.x target.y level
  have reached : drilling.depth ≤ (cutter.linear target.x target.y level).position.z := deep
  simp only [cutPlunge]
  generalize cutter.linear target.x target.y level = bottom at lowered cut reached ⊢
  have waited (dwells : Bool) : bottom.Leads (.drill drilling)
      (if dwells then bottom.dwell drilling.dwell else bottom) := by
    cases dwells with
    | false => exact .refl bottom
    | true => exact dwell_leads reached drilling.dwell
  have lifted (dwells : Bool) := (waited dwells).trans (rapidHeight_leads _ below retracts)
  split
  · exact ⟨lowered.trans (lifted _), (lifted _).hasCut cut⟩
  · exact ⟨lowered.trans (waited _), (waited _).hasCut cut⟩

theorem cutPlunges_leads (below : drilling.depth ≤ 0) (retracts : 0 ≤ drilling.retract)
    (target : PlanePoint α) {levels : List α} (deep : ∀ level ∈ levels, drilling.depth ≤ level)
    (cutter : Cutter α) :
    cutter.Leads (.drill drilling) (drilling.cutPlunges target cutter levels) ∧
      ∀ level ∈ levels, (drilling.cutPlunges target cutter levels).HasCut level := by
  induction levels generalizing cutter with
  | nil =>
      refine ⟨.refl cutter, fun level isLevel => ?_⟩
      cases isLevel
  | cons level levels ih =>
      obtain ⟨first, cut⟩ := cutPlunge_leads below retracts (deep level List.mem_cons_self)
        target cutter levels.isEmpty
      obtain ⟨rest, cuts⟩ :=
        ih (fun other isOther => deep other (List.mem_cons_of_mem level isOther))
          (drilling.cutPlunge target cutter level levels.isEmpty)
      refine ⟨first.trans rest, fun other isOther => ?_⟩
      rcases List.mem_cons.mp isOther with rfl | later
      · exact rest.hasCut cut
      · exact cuts other later

/-- Pecks end at the retract height. -/
theorem cutPlunges_endsAt (pecking : drilling.isPecking = true) (target : PlanePoint α)
    {levels : List α} (nonempty : levels ≠ []) (cutter : Cutter α) :
    (drilling.cutPlunges target cutter levels).EndsAt drilling.retract := by
  induction levels generalizing cutter with
  | nil => exact absurd rfl nonempty
  | cons level levels ih =>
      cases levels with
      | nil =>
          simp only [cutPlunges, cutPlunge, pecking, if_true]
          exact rapidHeight_endsAt _ drilling.retract
      | cons second levels => exact ih (List.cons_ne_nil second levels) _

theorem cutHole_round (below : drilling.depth ≤ 0) (retracts : 0 ≤ drilling.retract)
    (clears : 0 ≤ drilling.clearance) (target : PlanePoint α) {cutter : Cutter α}
    (above : 0 ≤ cutter.position.z) :
    cutter.Round (.drill drilling) drilling.depth (drilling.cutHole cutter target) := by
  have approached : cutter.Leads (.drill drilling)
      (cutter.rapid target.x target.y drilling.clearance) :=
    rapid_leads below clears above target.x target.y
  simp only [cutHole]
  generalize cutter.rapid target.x target.y drilling.clearance = hovering at approached ⊢
  obtain ⟨drilled, cuts⟩ := cutPlunges_leads below retracts target
    (fun level isLevel => plunges_deep below isLevel) hovering
  have cut := cuts drilling.depth (depth_mem_plunges below)
  split
  · have lifted : (drilling.cutPlunges target hovering drilling.plunges).Leads
        (.drill drilling)
        ((drilling.cutPlunges target hovering drilling.plunges).rapidHeight
          drilling.clearance) :=
      rapidHeight_leads _ below clears
    exact
      { leads := (approached.trans drilled).trans lifted
        cuts := lifted.hasCut cut
        ends := rapidHeight_endsAt _ drilling.clearance }
  · rename_i stays
    -- the last peck has already taken the tool to the clearance height
    have pecks : drilling.isPecking = true ∧
        (drilling.clearance != drilling.retract) = false := by
      simpa using stays
    have same : drilling.clearance = drilling.retract := by
      have equal := pecks.2
      rw [bne, Bool.not_eq_false'] at equal
      exact (ExactScalar.beq_iff _ _).mp equal
    have nonempty : drilling.plunges ≠ [] :=
      List.ne_nil_of_mem (depth_mem_plunges below)
    have ends := cutPlunges_endsAt pecks.1 target nonempty hovering
    rw [← same] at ends
    exact
      { leads := approached.trans drilled
        cuts := cut
        ends := ends }

theorem toolpath_safe (below : drilling.depth ≤ 0) (holes : drilling.points ≠ [])
    (travels : (Operation.drill drilling).TravelsAbove) :
    (Operation.drill drilling).Safe drilling.toolpath := by
  obtain ⟨clears, retracts⟩ := travels.holes drilling rfl
  obtain ⟨target, isTarget⟩ := List.exists_mem_of_ne_nil _ holes
  have each (target : PlanePoint α) (_ : target ∈ drilling.points) (cutter : Cutter α)
      (above : 0 ≤ cutter.position.z) :
      cutter.Round (.drill drilling) drilling.depth (drilling.cutHole cutter target) :=
    cutHole_round below retracts clears target above
  have atTop : (Operation.drill drilling).depth ≤ 0 := below
  exact safe_of_rounds (fun _ => drilling.depth) atTop travels clears each isTarget rfl

end Drilling

/-- Every path that is made for an operation is safe, whatever loops it was
offset to. -/
theorem Operation.safe_of_toolpath {offsetter : Offsetter α} {operation : Operation α}
    {path : Toolpath α} (travels : operation.TravelsAbove)
    (made : operation.toolpath offsetter = .ok path) : operation.Safe path := by
  rw [toolpath] at made
  cases checked : operation.check with
  | error error =>
      rw [checked] at made
      cases made
  | ok passed =>
      rw [checked] at made
      cases operation with
      | contour profile =>
          exact Contour.toolpath_safe (Contour.depth_nonpos checked) travels made
      | pocket cavity =>
          exact Pocket.toolpath_safe (Pocket.depth_nonpos checked)
            (Pocket.segments_pos checked) travels made
      | drill holes =>
          obtain rfl := Except.ok.inj made
          exact Drilling.toolpath_safe (Drilling.depth_nonpos checked)
            (Drilling.points_ne_nil checked) travels

noncomputable def deepHole : Drilling ℝ :=
  { cut := {
      tool := {
        number := 4, kind := .drill, diameter := 6, flutes := 2, material := .carbide
        surfaceSpeed := 90, feedPerTooth := 0.05, description := "6 mm drill" }
      feed := 200, spindle := 1500, safeZ := 5, clearanceZ := 50 }
    points := [{ x := 10, y := 20 }]
    depth := -8
    peckDepth := 3
    clearance := 5
    retract := 1
    dwell := 0.5 }

theorem deepHole_check : deepHole.check = .ok () := by
  norm_num [Drilling.check, CutSettings.check, deepHole, PlanePoint.isFinite, bind_eq_ok,
    ensure_eq_ok, finite_eq_ok, positive_eq_ok, notNegative_eq_ok, belowTop_eq_ok,
    ExactScalar.literal_zero, mostLevels]
  rw [ExactScalar.literal_zero]
  norm_num

theorem deepHole_travelsAbove : (Operation.drill deepHole).TravelsAbove where
  safe := by norm_num [Operation.cut, deepHole]
  first := by norm_num [Operation.cut, deepHole]
  holes := by
    rintro holes isDrill
    obtain rfl := Operation.drill.inj isDrill
    norm_num [deepHole]

theorem Operation.safe_of_toolpath_deepHole :
    (Operation.drill deepHole).TravelsAbove ∧
      (Operation.drill deepHole).toolpath (fun _ _ => none) = .ok deepHole.toolpath ∧
      (Operation.drill deepHole).Safe deepHole.toolpath := by
  have made : (Operation.drill deepHole).toolpath (fun _ _ => none) =
      .ok deepHole.toolpath := by
    simp only [Operation.toolpath, Operation.check, deepHole_check,
      Operation.toolpathUnchecked]
  exact ⟨deepHole_travelsAbove, made, Operation.safe_of_toolpath deepHole_travelsAbove made⟩

end Milling
