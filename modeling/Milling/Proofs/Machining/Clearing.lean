import Milling.Proofs.Machining.Cutter
import Milling.Proofs.Machining.Levels

/-!
# Clearing keeps the trail

A level of a pocket is entered between the level before and its own, cleared
at its own level with lifts to safe height, and left at safe height.
-/

namespace Milling

open Cutter

variable {α : Type} [ExactScalar α] {operation : Operation α} {safeZ z : α}

namespace Clearing

theorem link_leads (below : operation.depth ≤ 0) (safe : 0 ≤ safeZ)
    (deep : operation.depth ≤ z) (cutter : Cutter α) (target : PlanePoint α) (lift : Bool) :
    cutter.Leads operation (link safeZ cutter target z lift) := by
  simp only [link]
  split
  · exact .refl cutter
  · cases lift with
    | false => exact linear_leads cutter target.x target.y deep
    | true =>
        have lifted : cutter.Leads operation (cutter.rapidHeight safeZ) :=
          rapidHeight_leads cutter below safe
        have crossed : (cutter.rapidHeight safeZ).Leads operation
            ((cutter.rapidHeight safeZ).rapid target.x target.y safeZ) :=
          rapid_leads below safe safe target.x target.y
        exact (lifted.trans crossed).trans (linear_leads _ target.x target.y deep)

theorem cutRow_leads (below : operation.depth ≤ 0) (safe : 0 ≤ safeZ)
    (deep : operation.depth ≤ z) (cutter : Cutter α) (previous : Option Nat)
    (row : List (RasterPass α)) :
    cutter.Leads operation (cutRow safeZ z cutter previous row) := by
  refine Leads.foldl (fun item _ cutter => ?_) cutter
  obtain ⟨pass, index⟩ := item
  have linked := link_leads below safe deep cutter pass.start
    (liftsBefore previous row.length index)
  exact linked.trans (linear_leads _ pass.stop.x pass.stop.y deep)

theorem cutRows_leads (below : operation.depth ≤ 0) (safe : 0 ≤ safeZ)
    (deep : operation.depth ≤ z) (rows : List (List (RasterPass α)))
    (previous : Option Nat) (cutter : Cutter α) :
    cutter.Leads operation (cutRows safeZ z previous cutter rows) := by
  induction rows generalizing previous cutter with
  | nil => exact .refl cutter
  | cons row rows ih =>
      simp only [cutRows]
      split
      · exact ih previous cutter
      · have first := cutRow_leads below safe deep cutter previous row
        exact first.trans (ih (some row.length) _)

theorem cutRing_leads (below : operation.depth ≤ 0) (safe : 0 ≤ safeZ)
    (deep : operation.depth ≤ z) (cutter : Cutter α × Bool)
    (ring : List (List (PathVertex α))) :
    cutter.1.Leads operation (cutRing safeZ z cutter ring).1 := by
  rw [cutRing]
  induction ring.zipIdx generalizing cutter with
  | nil => exact .refl cutter.1
  | cons item items ih =>
      obtain ⟨path, index⟩ := item
      rw [List.foldl_cons]
      cases path with
      | nil => exact ih cutter
      | cons start rest =>
          have linked := link_leads below safe deep cutter.1 start.point
            (!cutter.2 && decide (0 < index))
          exact (linked.trans (follow_leads _ rest deep)).trans (ih (_, false))

theorem cut_leads (below : operation.depth ≤ 0) (safe : 0 ≤ safeZ)
    (deep : operation.depth ≤ z) (cutter : Cutter α) (clearing : Clearing α) :
    cutter.Leads operation (clearing.cut safeZ z cutter) := by
  cases clearing with
  | raster rows => exact cutRows_leads below safe deep rows none cutter
  | nested rings =>
      have each (state : Cutter α × Bool) : state.1.Leads operation
          (rings.foldl (cutRing safeZ z) state).1 := by
        induction rings generalizing state with
        | nil => exact .refl state.1
        | cons ring rings ih =>
            exact (cutRing_leads below safe deep state ring).trans (ih _)
      exact each (cutter, true)

end Clearing

namespace Pocket

/-- A pocket that has a toolpath is cleared level by level, by helices whose segments 32
bits count. -/
theorem exists_of_toolpath {α : Type} [Scalar α] {pocket : Pocket α} {offsetter : Offsetter α}
    {path : Toolpath α} (made : pocket.toolpath offsetter = .ok path) :
    let levels := depthLevels pocket.depth pocket.stepDown
    ∃ clearing start center, pocket.clearing offsetter = .ok clearing ∧
      clearing.start? = some start ∧ pocket.boundary.centroid? = some center ∧
      pocket.overwinds levels = false ∧
      path = (((0 :: levels).zip levels).foldl
        (fun cutter pass => pocket.cutLevel clearing start center cutter pass.1 pass.2)
        (Cutter.start pocket.cut)).toolpath := by
  simp only [toolpath] at made
  cases found : pocket.clearing offsetter with
  | error error =>
      rw [found] at made
      cases made
  | ok clearing =>
      rw [found] at made
      simp only [bind, Except.bind] at made
      split at made
      · cases made
      · cases made
      · rename_i start center isStart isCenter
        split at made
        · cases made
        · rename_i fits
          exact ⟨clearing, start, center, rfl, isStart, isCenter, Bool.eq_false_iff.mpr fits,
            (Except.ok.inj made).symm⟩

theorem overwinds_eq_false_iff {α : Type} [Scalar α] {pocket : Pocket α} {levels : List α} :
    pocket.overwinds levels = false ↔
      (pocket.ramp = .helical → ∀ level ∈ levels, pocket.helixSegments level < 2 ^ 32) := by
  unfold overwinds
  cases pocket.ramp with
  | plunge => simp
  | helical => simp [List.any_eq_false]

theorem helixPoint_z (center : PlanePoint α) (radius start level : α)
    (total perTurn segment : Nat) :
    (helixPoint center radius start level total perTurn segment).z =
      start + (level - start) * (segment : α) / (total : α) := by
  simp only [helixPoint, ExactScalar.ofInt_cast, Int.cast_natCast]

theorem helixPoint_deep {depth start level : α} (deepStart : depth ≤ start)
    (deepLevel : depth ≤ level) {total segment : Nat} (within : segment ≤ total)
    (center : PlanePoint α) (radius : α) (perTurn : Nat) :
    depth ≤ (helixPoint center radius start level total perTurn segment).z := by
  rw [helixPoint_z, mul_div_assoc]
  have part : (0 : α) ≤ (segment : α) / (total : α) := by positivity
  have whole : (segment : α) / (total : α) ≤ 1 :=
    div_le_one_of_le₀ (Nat.cast_le.mpr within) (Nat.cast_nonneg total)
  rcases le_total start level with rising | falling
  · have up := mul_nonneg (sub_nonneg.mpr rising) part
    linarith
  · have down := mul_le_mul_of_nonneg_left whole (sub_nonneg.mpr falling)
    linarith

theorem helixPoint_last (center : PlanePoint α) (radius start level : α) {total : Nat}
    (positive : 0 < total) (perTurn : Nat) :
    (helixPoint center radius start level total perTurn total).z = level := by
  have nonzero : (total : α) ≠ 0 := Nat.cast_ne_zero.mpr positive.ne'
  rw [helixPoint_z, mul_div_cancel_right₀ _ nonzero]
  ring

theorem revolutions_pos (level pitch : α) : 0 < revolutions level pitch :=
  Nat.lt_of_lt_of_le Nat.zero_lt_one (Nat.le_max_right _ 1)

variable {pocket : Pocket α}

theorem revolutions_eq {level : α} (below : level ≤ 0) (pitch : α) :
    revolutions level pitch = max (min (Scalar.ceil (-level / pitch)).toNat (2 ^ 32 - 1)) 1 := by
  rw [revolutions, ExactScalar.finite, if_pos rfl, ExactScalar.magnitude_of_nonpos below]
  rfl

theorem helixSegments_pos (turns : 0 < pocket.helix.segments) (level : α) :
    0 < pocket.helixSegments level :=
  Nat.mul_pos (revolutions_pos level pocket.helix.pitch) turns

/-- The helix goes down from the level before and reaches its own. -/
theorem enterTurning_leads (below : pocket.depth ≤ 0) (safe : 0 ≤ pocket.cut.safeZ)
    (turns : 0 < pocket.helix.segments) {start level : α} (deepStart : pocket.depth ≤ start)
    (deepLevel : pocket.depth ≤ level) (center : PlanePoint α) {cutter : Cutter α}
    (above : 0 ≤ cutter.position.z) :
    cutter.Leads (.pocket pocket) (pocket.enterTurning center cutter start level) ∧
      (pocket.enterTurning center cutter start level).HasCut level := by
  have total : 0 < pocket.helixSegments level := helixSegments_pos turns level
  simp only [enterTurning]
  generalize pocket.helixSegments level = count at total ⊢
  generalize pocket.cut.tool.diameter * helixRadiusFactor = radius
  have approached : cutter.Leads (.pocket pocket)
      (cutter.rapid (center.x + radius) center.y pocket.cut.safeZ) :=
    rapid_leads below safe above (center.x + radius) center.y
  have lowered (cutter : Cutter α) : cutter.Leads (.pocket pocket)
      (cutter.linear (center.x + radius) center.y start) :=
    linear_leads cutter (center.x + radius) center.y deepStart
  constructor
  · refine (approached.trans (lowered _)).trans
      (Leads.foldl (fun segment isSegment cutter => ?_) _)
    have within : segment + 1 ≤ count := List.mem_range.mp isSegment
    exact linear_leads cutter _ _
      (helixPoint_deep deepStart deepLevel within center radius pocket.helix.segments)
  · obtain ⟨before, rfl⟩ := Nat.exists_eq_add_one.mpr total
    rw [List.range_succ, List.foldl_append, List.foldl_cons, List.foldl_nil]
    simp only [helixPoint_last center radius start level total pocket.helix.segments]
    exact linear_hasCut _ _ _ level

theorem enterStraight_leads (below : pocket.depth ≤ 0) (safe : 0 ≤ pocket.cut.safeZ)
    (plunging : pocket.ramp = .plunge) {level : α} (deep : pocket.depth ≤ level)
    (start : PlanePoint α) {cutter : Cutter α} (above : 0 ≤ cutter.position.z) :
    cutter.Leads (.pocket pocket) (pocket.enterStraight start cutter level) := by
  have approached : cutter.Leads (.pocket pocket)
      (cutter.rapid start.x start.y pocket.cut.safeZ) :=
    rapid_leads below safe above start.x start.y
  refine approached.trans (push_leads fun isCut before isBefore _ => ?_)
  obtain rfl := Option.some.inj isBefore
  exact
    { tool := by rw [isCut]; rfl
      spindle := by rw [isCut]
      feed := fun _ => .inr
        { plunging := plunging
          rapid := rfl
          height := rfl
          down := ⟨rfl, rfl⟩
          feed := by simp only [ExactScalar.literal, Nat.cast_ofNat]; rfl }
      deep := deep
      rapid := fun motion => nomatch motion
      across := fun motion => nomatch motion }

theorem cutLevel_round (below : pocket.depth ≤ 0) (safe : 0 ≤ pocket.cut.safeZ)
    (turns : 0 < pocket.helix.segments) {previous level : α}
    (deepPrevious : pocket.depth ≤ previous) (deep : pocket.depth ≤ level)
    (clearing : Clearing α) (start center : PlanePoint α) {cutter : Cutter α}
    (above : 0 ≤ cutter.position.z) :
    cutter.Round (.pocket pocket) level
      (pocket.cutLevel clearing start center cutter previous level) := by
  have entry (entered : Cutter α) (enters : cutter.Leads (.pocket pocket) entered)
      (cuts : entered.HasCut level) :
      cutter.Round (.pocket pocket) level
        ((clearing.cut pocket.cut.safeZ level entered).rapidHeight pocket.cut.safeZ) := by
    have cleared : entered.Leads (.pocket pocket)
        (clearing.cut pocket.cut.safeZ level entered) :=
      Clearing.cut_leads below safe deep entered clearing
    have left := cleared.trans (rapidHeight_leads _ below safe)
    exact
      { leads := enters.trans left
        cuts := left.hasCut cuts
        ends := rapidHeight_endsAt _ pocket.cut.safeZ }
  simp only [cutLevel]
  cases ramp : pocket.ramp with
  | helical =>
      obtain ⟨enters, cuts⟩ :=
        enterTurning_leads below safe turns deepPrevious deep center above
      exact entry _ enters cuts
  | plunge =>
      exact entry _ (enterStraight_leads below safe ramp deep start above)
        (linearAt_hasCut _ start.x start.y level _)

theorem toolpath_safe {offsetter : Offsetter α} {path : Toolpath α}
    (below : pocket.depth ≤ 0) (turns : 0 < pocket.helix.segments)
    (travels : (Operation.pocket pocket).TravelsAbove)
    (made : pocket.toolpath offsetter = .ok path) :
    (Operation.pocket pocket).Safe path := by
  obtain ⟨clearing, start, center, _, _, _, _, rfl⟩ := exists_of_toolpath made
  have isDepth : pocket.depth ∈
      ((0 :: depthLevels pocket.depth pocket.stepDown).zip
        (depthLevels pocket.depth pocket.stepDown)).map Prod.snd := by
    rw [List.map_snd_zip (Nat.le_succ _)]
    exact depth_mem_depthLevels below pocket.stepDown
  obtain ⟨deepest, isItem, atDepth⟩ := List.mem_map.mp isDepth
  rw [← ExactScalar.literal_zero] at isItem
  refine safe_of_rounds Prod.snd below travels travels.safe
    (fun item isItem cutter above => ?_) isItem atDepth
  have top : pocket.depth ≤ @OfNat.ofNat α 0 (Scalar.instOfNat 0) := by
    rw [ExactScalar.literal_zero]
    exact below
  obtain ⟨deepPrevious, deep⟩ := depth_le_of_mem_zip below top isItem
  exact cutLevel_round below travels.safe turns deepPrevious deep clearing start center above

end Pocket

end Milling
