import Mathlib
import Milling.Proofs.Machining.Check
import Milling.Proofs.Machining.Clearing
import Milling.Proofs.Machining.Legs
import Milling.Proofs.Machining.Levels
import Milling.Proofs.Machining.Wall

/-!
# The way down a helix

A helix makes a revolution for each pitch of its depth and at least one, so the deepest
level asks for the most of them.  It goes down from the height of the level before, by as
much in every segment as in any other.  How steep it is depends on the number of its
revolutions, and these are counted for the whole way from the top, not just from the level
before.
-/

namespace Milling

namespace Pocket

section Definitions

variable {α : Type} [Scalar α]

/-- The number of segments of the helix to a level, counted in 32 bits. -/
def helixSegmentsByWord (pocket : Pocket α) (level : α) : UInt32 :=
  .ofNat (revolutions level pocket.helix.pitch) * .ofNat pocket.helix.segments

/-- Counting segments in 32 bits is right exactly if there are few enough. -/
theorem toNat_helixSegmentsByWord_eq_iff (pocket : Pocket α) (level : α) :
    (pocket.helixSegmentsByWord level).toNat = pocket.helixSegments level ↔
      pocket.helixSegments level < 2 ^ 32 := by
  rw [helixSegmentsByWord, UInt32.toNat_mul, UInt32.toNat_ofNat', UInt32.toNat_ofNat',
    ← Nat.mul_mod, ← helixSegments]
  constructor
  · intro same
    rw [← same]
    exact Nat.mod_lt _ (by decide)
  · exact Nat.mod_eq_of_lt

end Definitions

variable {α : Type} [ExactScalar α] {pocket : Pocket α} {depth level pitch : α}

/-- The segments can be counted in 32 bits exactly if there are few enough of them without
a bound on the revolutions. -/
theorem helixSegments_lt_iff (below : level ≤ 0)
    (enough : HelixSettings.fewestSegments ≤ pocket.helix.segments) :
    pocket.helixSegments level < 2 ^ 32 ↔
      max (Scalar.ceil (-level / pocket.helix.pitch)).toNat 1 * pocket.helix.segments < 2 ^ 32 := by
  have several : 3 ≤ pocket.helix.segments := enough
  rw [helixSegments, revolutions_eq below]
  generalize (Scalar.ceil (-level / pocket.helix.pitch)).toNat = count
  rcases le_or_gt count (2 ^ 32 - 1) with few | many
  · rw [min_eq_left few]
  · -- As many revolutions as 32 bits count are too many segments, and so are more.
    have capped : 2 ^ 32 ≤ max (min count (2 ^ 32 - 1)) 1 * pocket.helix.segments := by
      rw [min_eq_right many.le]
      exact (by decide : 2 ^ 32 ≤ (2 ^ 32 - 1) * 3).trans (Nat.mul_le_mul_left _ several)
    have uncapped : 2 ^ 32 ≤ max count 1 * pocket.helix.segments := by
      have most : 2 ^ 32 ≤ max count 1 := by omega
      exact most.trans (Nat.le_mul_of_pos_right _ (by omega))
    exact iff_of_false (not_lt.mpr capped) (not_lt.mpr uncapped)

theorem revolutions_le (positive : 0 < pitch) (deeper : depth ≤ level) (below : level ≤ 0) :
    revolutions level pitch ≤ revolutions depth pitch := by
  have further : -level / pitch ≤ -depth / pitch :=
    div_le_div_of_nonneg_right (neg_le_neg deeper) positive.le
  rw [revolutions_eq below, revolutions_eq (deeper.trans below)]
  exact max_le_max_right 1 (min_le_min_right _ (Int.toNat_le_toNat (ExactScalar.ceil_mono further)))

/-- No helix of a pocket has more segments than the one to its depth. -/
theorem segments_fit_iff (passed : pocket.check = .ok ()) :
    (∀ level ∈ depthLevels pocket.depth pocket.stepDown, pocket.helixSegments level < 2 ^ 32) ↔
      pocket.helixSegments pocket.depth < 2 ^ 32 := by
  have below := depth_nonpos passed
  constructor
  · intro all
    exact all _ (depth_mem_depthLevels below pocket.stepDown)
  · intro deepest level isLevel
    obtain ⟨deeper, top⟩ := depthLevels_between below isLevel
    exact (Nat.mul_le_mul_right _ (revolutions_le (pitch_pos passed) deeper top)).trans_lt deepest

/-- If the segments can be counted, the revolutions make up for the depth. -/
theorem neg_le_revolutions_mul (positive : 0 < pitch) (below : level ≤ 0)
    (fits : revolutions level pitch < 2 ^ 32 - 1) : -level ≤ revolutions level pitch * pitch := by
  rw [← div_le_iff₀ positive]
  rw [revolutions_eq below] at fits ⊢
  have whole : Scalar.ceil (-level / pitch) ≤
      ((max (min (Scalar.ceil (-level / pitch)).toNat (2 ^ 32 - 1)) 1 : ℕ) : ℤ) := by
    omega
  exact_mod_cast ExactScalar.ceil_le_iff.mp whole

/-- Generating fails for the number of segments exactly if those of the deepest level are
too many. -/
theorem toolpath_eq_overflow_iff (passed : pocket.check = .ok ()) {offsetter : Offsetter α}
    {clearing : Clearing α} (found : pocket.clearing offsetter = .ok clearing)
    {start : PlanePoint α} (isStart : clearing.start? = some start) :
    (Operation.pocket pocket).toolpath offsetter = .error .overflow ↔
      pocket.ramp = .helical ∧ 2 ^ 32 ≤ pocket.helixSegments pocket.depth := by
  obtain ⟨center, isCenter⟩ := exists_centroid passed
  have generated : (Operation.pocket pocket).toolpath offsetter = .error .overflow ↔
      pocket.overwinds (depthLevels pocket.depth pocket.stepDown) = true := by
    simp only [Operation.toolpath, Operation.check, passed, Operation.toolpathUnchecked, toolpath,
      found, isStart, isCenter, bind, Except.bind]
    split
    · rename_i many
      exact iff_of_true rfl many
    · rename_i fits
      refine iff_of_false (fun failed => ?_) fits
      cases failed
  rw [generated, ← Bool.not_eq_false, overwinds_eq_false_iff, segments_fit_iff passed,
    Classical.not_imp, not_lt]

/-- A helix has the revolutions that its pitch asks for, up to as many as 32 bits count.  The
segments of all helices of a checked pocket can be counted in 32 bits exactly if those of the
deepest one can, and generating fails otherwise. -/
theorem helixSegments_fit_iff (passed : pocket.check = .ok ()) :
    let levels := depthLevels pocket.depth pocket.stepDown
    let deepest := (Scalar.ceil (-pocket.depth / pocket.helix.pitch)).toNat
    (∀ level ∈ levels, revolutions level pocket.helix.pitch =
        min (max (Scalar.ceil (-level / pocket.helix.pitch)).toNat 1) (2 ^ 32 - 1)) ∧
      ((∀ level ∈ levels, pocket.helixSegments level < 2 ^ 32) ↔
        max deepest 1 * pocket.helix.segments < 2 ^ 32) ∧
      (∀ level ∈ levels,
        (pocket.helixSegmentsByWord level).toNat = pocket.helixSegments level ↔
          pocket.helixSegments level < 2 ^ 32) ∧
      ∀ offsetter clearing start, pocket.clearing offsetter = .ok clearing →
        clearing.start? = some start →
        ((Operation.pocket pocket).toolpath offsetter = .error .overflow ↔
          pocket.ramp = .helical ∧ 2 ^ 32 ≤ max deepest 1 * pocket.helix.segments) := by
  have below := depth_nonpos passed
  have deepest := helixSegments_lt_iff below (fewest_le_segments passed)
  refine ⟨fun level isLevel => ?_, ?_, fun level _ => toNat_helixSegmentsByWord_eq_iff pocket level,
    fun offsetter clearing start found isStart => ?_⟩
  · rw [revolutions_eq (depthLevels_between below isLevel).2, max_min_distrib_right]
    rfl
  · rw [segments_fit_iff passed, deepest]
  · rw [toolpath_eq_overflow_iff passed found isStart, ← not_lt, deepest, not_lt]

theorem helixSegments_fit_iff_square :
    (rectangular 16 16).check = .ok () ∧
      let levels := depthLevels (rectangular 16 16).depth (rectangular 16 16).stepDown
      let deepest := (Scalar.ceil
        (-(rectangular 16 16).depth / (rectangular 16 16).helix.pitch)).toNat
      (∀ level ∈ levels, revolutions level (rectangular 16 16).helix.pitch =
          min (max (Scalar.ceil (-level / (rectangular 16 16).helix.pitch)).toNat 1)
            (2 ^ 32 - 1)) ∧
        ((∀ level ∈ levels, (rectangular 16 16).helixSegments level < 2 ^ 32) ↔
          max deepest 1 * (rectangular 16 16).helix.segments < 2 ^ 32) ∧
        (∀ level ∈ levels,
          ((rectangular 16 16).helixSegmentsByWord level).toNat =
              (rectangular 16 16).helixSegments level ↔
            (rectangular 16 16).helixSegments level < 2 ^ 32) ∧
        ((Operation.pocket (rectangular 16 16)).toolpath (.rectangular 16 16) =
            .error .overflow ↔
          (rectangular 16 16).ramp = .helical ∧
            2 ^ 32 ≤ max deepest 1 * (rectangular 16 16).helix.segments) := by
  obtain ⟨counted, fit, byWord, failing⟩ := helixSegments_fit_iff (@rectangular_check 16 16)
  exact ⟨rectangular_check, counted, fit, byWord, failing _ _ _
    (rectangular_clearing (by norm_num) (by norm_num) (by norm_num)) rfl⟩

/-- A pocket whose helix has so many segments in a turn that 32 bits do not count two turns. -/
noncomputable def overwound : Pocket ℝ :=
  { rectangular 16 16 with helix := { pitch := 1 / 2, segments := 2 ^ 31 } }

/-- The pocket passes its check, but the two turns down to its only level have more segments
than 32 bits count, and none at all when they are counted in 32 bits: it has no toolpath. -/
theorem overwound_uncounted :
    overwound.check = .ok () ∧
      (∃ level ∈ depthLevels overwound.depth overwound.stepDown,
        2 ^ 32 ≤ overwound.helixSegments level ∧ overwound.helixSegmentsByWord level = 0) ∧
      (Operation.pocket overwound).toolpath (.rectangular 16 16) = .error .overflow := by
  have passed : overwound.check = .ok () :=
    check_withHelix rectangular_check (by norm_num) (by decide)
  have level : overwound.depth = -1 := rfl
  have turns : revolutions overwound.depth overwound.helix.pitch = 2 := by
    have ratio : -overwound.depth / overwound.helix.pitch = ((2 : ℤ) : ℝ) := by
      norm_num [overwound, rectangular]
    rw [revolutions_eq (by rw [level]; norm_num), ratio, ceil_eq, Int.ceil_intCast]
    rfl
  have many : 2 ^ 32 ≤ overwound.helixSegments overwound.depth := by
    rw [helixSegments, turns]
    decide
  have found : overwound.clearing (.rectangular 16 16) =
      .ok (.nested [[(Offsetter.insetRectangle 16 16 3).toPath]]) :=
    rectangular_clearing (by norm_num) (by norm_num) (by norm_num)
  refine ⟨passed, ⟨overwound.depth, depth_mem_depthLevels (depth_nonpos passed) _, many, ?_⟩,
    (toolpath_eq_overflow_iff passed found rfl).mpr ⟨rfl, many⟩⟩
  rw [helixSegmentsByWord, turns]
  rfl

end Pocket

open Cutter

variable {α : Type}

/-- Straight cuts from place to place. -/
theorem Cutter.foldl_linear {β : Type} (position : β → Position α) (items : List β)
    (cutter : Cutter α) :
    items.foldl
        (fun cutter item => cutter.linear (position item).x (position item).y (position item).z)
        cutter =
      (items.map fun item => MotionPoint.cutTo cutter.cut.feed
        ⟨(position item).x, (position item).y⟩ (position item).z).foldl push cutter := by
  induction items generalizing cutter with
  | nil => rfl
  | cons item items ih => exact ih (cutter.linear _ _ _)

theorem Cutter.exists_rounds {β : Type} {cut : CutSettings α} {step : Cutter α → β → Cutter α}
    {items : List β} (IsRound : β → List (MotionPoint α) → Prop)
    (each : ∀ item ∈ items, ∀ cutter : Cutter α, cutter.cut = cut →
      ∃ moves : List (MotionPoint α),
        step cutter item = moves.foldl push cutter ∧ IsRound item (moves.map (stamped cut)))
    {cutter : Cutter α} (isCut : cutter.cut = cut) :
    ∃ rounds, (items.foldl step cutter).passed.reverse = cutter.passed.reverse ++ rounds.flatten ∧
      List.Forall₂ IsRound items rounds := by
  induction items generalizing cutter with
  | nil => exact ⟨[], (List.append_nil _).symm, .nil⟩
  | cons item items ih =>
      obtain ⟨moves, stepped, isRound⟩ := each item List.mem_cons_self cutter isCut
      have stays : (step cutter item).cut = cut := by
        rw [stepped, cut_foldl_push, isCut]
      obtain ⟨rounds, passed, areRounds⟩ :=
        ih (fun other isOther => each other (List.mem_cons_of_mem item isOther)) stays
      refine ⟨moves.map (stamped cut) :: rounds, ?_, .cons isRound areRounds⟩
      rw [List.foldl_cons, passed, stepped, passed_foldl_push, isCut, List.reverse_append,
        List.reverse_reverse, List.flatten_cons, List.append_assoc]

namespace Pocket

section Moves

variable [Scalar α]

/-- The straight cuts of a helix: down to where it starts, and then its segments. -/
def turningMoves (pocket : Pocket α) (center : PlanePoint α) (start level : α) :
    List (MotionPoint α) :=
  .cutTo pocket.cut.feed ⟨center.x + pocket.helixRadius, center.y⟩ start ::
    (List.range (pocket.helixSegments level)).map fun segment =>
      let point := helixPoint center pocket.helixRadius start level (pocket.helixSegments level)
        pocket.helix.segments (segment + 1)
      .cutTo pocket.cut.feed ⟨point.x, point.y⟩ point.z

def entryMoves (pocket : Pocket α) (center : PlanePoint α) (start level : α) :
    List (MotionPoint α) :=
  .rapid (center.x + pocket.helixRadius) center.y pocket.cut.safeZ ::
    pocket.turningMoves center start level

variable {pocket : Pocket α} {cutter : Cutter α}

theorem enterTurning_eq_foldl (isCut : cutter.cut = pocket.cut) (center : PlanePoint α)
    (start level : α) :
    pocket.enterTurning center cutter start level =
      (pocket.entryMoves center start level).foldl push cutter := by
  simp only [enterTurning]
  rw [foldl_linear, entryMoves, turningMoves, helixRadius, List.foldl_cons, List.foldl_cons,
    ← isCut]
  rfl

theorem exists_cutLevel_eq (helical : pocket.ramp = .helical) (isCut : cutter.cut = pocket.cut)
    (clearing : Clearing α) (start center : PlanePoint α) (previous level : α) :
    ∃ rest, pocket.cutLevel clearing start center cutter previous level =
      (pocket.entryMoves center previous level ++ rest).foldl push cutter := by
  simp only [cutLevel, helical]
  rw [enterTurning_eq_foldl isCut, Clearing.cut_eq_foldl, Clearing.cutLegs_eq_foldl,
    ← List.foldl_append]
  generalize Clearing.legMoves pocket.cut.safeZ level _ _ clearing.legs = cuts
  generalize isCleared : (pocket.entryMoves center previous level ++ cuts).foldl push cutter =
    cleared
  exact ⟨cuts ++ [.rapid cleared.position.x cleared.position.y pocket.cut.safeZ], by
    rw [← List.append_assoc, List.foldl_append, isCleared]; rfl⟩

end Moves

variable [ExactScalar α] {pocket : Pocket α} {start level : α}

section Heights

/-- The heights of a way down in segments. -/
structure WindsDown (pocket : Pocket α) (start level : α) (heights : List α) : Prop where
  count : heights.length = pocket.helixSegments level + 1
  starts : heights.head? = some start
  ends : heights.getLast? = some level
  falls : level < start → heights.Pairwise (· > ·)
  /-- In a revolution the way down is a pitch at most. -/
  gentle : ∀ index before after, heights[index]? = some before →
    heights[index + pocket.helix.segments]? = some after → before - after ≤ pocket.helix.pitch

def turningHeight (pocket : Pocket α) (start level : α) (segment : ℕ) : α :=
  start + (level - start) * segment / pocket.helixSegments level

theorem turningHeight_zero : pocket.turningHeight start level 0 = start := by
  rw [turningHeight, Nat.cast_zero, mul_zero, zero_div, add_zero]

theorem heights_turningMoves (pocket : Pocket α) (center : PlanePoint α) (start level : α) :
    (pocket.turningMoves center start level).map (·.position.z) =
      (List.range (pocket.helixSegments level + 1)).map (pocket.turningHeight start level) := by
  rw [List.range_succ_eq_map, List.map_cons, turningHeight_zero, turningMoves, List.map_cons,
    List.map_map, List.map_map]
  refine congrArg (start :: ·) (List.map_congr_left fun segment _ => ?_)
  exact helixPoint_z center _ start level _ _ (segment + 1)

theorem turningHeight_last (several : 0 < pocket.helixSegments level) :
    pocket.turningHeight start level (pocket.helixSegments level) = level := by
  have nonzero : (pocket.helixSegments level : α) ≠ 0 := Nat.cast_ne_zero.mpr several.ne'
  rw [turningHeight, mul_div_cancel_right₀ _ nonzero, add_sub_cancel]

theorem turningHeight_lt (falls : level < start) (several : 0 < pocket.helixSegments level)
    {first second : ℕ} (later : first < second) :
    pocket.turningHeight start level second < pocket.turningHeight start level first := by
  have positive : (0 : α) < pocket.helixSegments level := Nat.cast_pos.mpr several
  have further : (level - start) * (second : α) < (level - start) * (first : α) :=
    mul_lt_mul_of_neg_left (Nat.cast_lt.mpr later) (sub_neg.mpr falls)
  exact add_lt_add_right (div_lt_div_of_pos_right further positive) start

/-- If its segments can be counted, the revolutions of a helix make up for its way down. -/
theorem turningHeight_sub_le (passed : pocket.check = .ok ())
    (fits : pocket.helixSegments level < 2 ^ 32) (top : start ≤ 0) (below : level ≤ 0)
    (segment : ℕ) :
    pocket.turningHeight start level segment -
        pocket.turningHeight start level (segment + pocket.helix.segments) ≤
      pocket.helix.pitch := by
  have several : 3 ≤ pocket.helix.segments := fewest_le_segments passed
  have few : revolutions level pocket.helix.pitch < 2 ^ 32 - 1 := by
    have product : revolutions level pocket.helix.pitch * 3 ≤ pocket.helixSegments level :=
      Nat.mul_le_mul_left _ several
    omega
  have down := neg_le_revolutions_mul (pitch_pos passed) below few
  have turns : (0 : α) < revolutions level pocket.helix.pitch :=
    Nat.cast_pos.mpr (revolutions_pos level _)
  have segments : (pocket.helix.segments : α) ≠ 0 :=
    Nat.cast_ne_zero.mpr (segments_pos passed).ne'
  have drop : pocket.turningHeight start level segment -
      pocket.turningHeight start level (segment + pocket.helix.segments) =
        (start - level) / revolutions level pocket.helix.pitch := by
    rw [turningHeight, turningHeight, helixSegments]
    push_cast
    field_simp
    ring
  rw [drop, div_le_iff₀' turns]
  linarith

theorem windsDown_turningHeights (passed : pocket.check = .ok ())
    (fits : pocket.helixSegments level < 2 ^ 32) (top : start ≤ 0) (below : level ≤ 0) :
    pocket.WindsDown start level
      ((List.range (pocket.helixSegments level + 1)).map (pocket.turningHeight start level)) := by
  have several := helixSegments_pos (segments_pos passed) level
  refine
    { count := by rw [List.length_map, List.length_range]
      starts := ?starts
      ends := ?ends
      falls := fun falls => ?falls
      gentle := fun index before after isBefore isAfter => ?gentle }
  case starts =>
    rw [List.range_succ_eq_map, List.map_cons, List.head?_cons, turningHeight_zero]
  case ends =>
    rw [List.range_succ, List.map_append, List.map_singleton, List.getLast?_concat,
      turningHeight_last several]
  case falls =>
    exact List.pairwise_map.mpr (List.pairwise_lt_range.imp (turningHeight_lt falls several))
  case gentle =>
    have height {index : ℕ} {height : α}
        (isHeight : ((List.range (pocket.helixSegments level + 1)).map
          (pocket.turningHeight start level))[index]? = some height) :
        height = pocket.turningHeight start level index := by
      rw [List.getElem?_map] at isHeight
      obtain ⟨segment, isSegment, rfl⟩ := Option.map_eq_some_iff.mp isHeight
      obtain ⟨within, rfl⟩ := List.getElem?_eq_some_iff.mp isSegment
      rw [List.getElem_range]
    rw [height isBefore, height isAfter]
    exact turningHeight_sub_le passed fits top below index

end Heights

/-- A round of a pocket begins with a rapid at safe height and a way down in straight cuts. -/
def IsEntered (pocket : Pocket α) (start level : α) (round : List (MotionPoint α)) : Prop :=
  ∃ approach cuts rest, round = approach :: (cuts ++ rest) ∧
    (approach.motion = .rapid ∧ approach.position.z = pocket.cut.safeZ) ∧
    (∀ point ∈ cuts, point.motion = .linear) ∧
    pocket.WindsDown start level (cuts.map (·.position.z))

theorem isEntered_entryMoves (passed : pocket.check = .ok ())
    (fits : pocket.helixSegments level < 2 ^ 32) (top : start ≤ 0) (below : level ≤ 0)
    (center : PlanePoint α) (rest : List (MotionPoint α)) :
    pocket.IsEntered start level
      ((pocket.entryMoves center start level ++ rest).map (stamped pocket.cut)) := by
  refine ⟨_, (pocket.turningMoves center start level).map (stamped pocket.cut), _,
    by rw [entryMoves, List.cons_append, List.map_cons, List.map_append], ⟨rfl, rfl⟩, ?_, ?_⟩
  · intro point isPoint
    obtain ⟨move, isMove, rfl⟩ := List.mem_map.mp isPoint
    rcases List.mem_cons.mp isMove with rfl | isSegment
    · rfl
    · obtain ⟨segment, -, rfl⟩ := List.mem_map.mp isSegment
      rfl
  · have heights : ((pocket.turningMoves center start level).map (stamped pocket.cut)).map
        (·.position.z) = (pocket.turningMoves center start level).map (·.position.z) :=
      List.map_map
    rw [heights, heights_turningMoves]
    exact windsDown_turningHeights passed fits top below

theorem exists_round (passed : pocket.check = .ok ()) (helical : pocket.ramp = .helical)
    {pass : α × α}
    (isPass : pass ∈ (@OfNat.ofNat α 0 (Scalar.instOfNat 0) ::
      depthLevels pocket.depth pocket.stepDown).zip (depthLevels pocket.depth pocket.stepDown))
    {cutter : Cutter α} (isCut : cutter.cut = pocket.cut) (clearing : Clearing α)
    (first center : PlanePoint α) :
    ∃ moves : List (MotionPoint α),
      pocket.cutLevel clearing first center cutter pass.1 pass.2 = moves.foldl push cutter ∧
        (pocket.helixSegments pass.2 < 2 ^ 32 →
          pocket.IsEntered pass.1 pass.2 (moves.map (stamped pocket.cut))) := by
  have below := depth_nonpos passed
  obtain ⟨isPrevious, isLevel⟩ := List.of_mem_zip isPass
  have top : pass.1 ≤ 0 := by
    rcases List.mem_cons.mp isPrevious with isTop | earlier
    · exact (isTop.trans ExactScalar.literal_zero).le
    · exact (depthLevels_between below earlier).2
  obtain ⟨rest, isMoves⟩ := exists_cutLevel_eq helical isCut clearing first center pass.1 pass.2
  exact ⟨_, isMoves, fun fits => isEntered_entryMoves passed fits top
    (depthLevels_between below isLevel).2 center rest⟩

/-- A toolpath with helical entries is a first rapid and one round for each level, which
winds down from the level before to its own as gently as the pitch says, if its segments
can be counted in 32 bits. -/
theorem toolpath_windsDown {offsetter : Offsetter α} {path : Toolpath α}
    (helical : pocket.ramp = .helical)
    (made : (Operation.pocket pocket).toolpath offsetter = .ok path) :
    let levels := depthLevels pocket.depth pocket.stepDown
    ∃ first rounds, path.points = first :: rounds.flatten ∧ first.motion = .rapid ∧
      List.Forall₂
        (fun pass round => pocket.helixSegments pass.2 < 2 ^ 32 →
          pocket.IsEntered pass.1 pass.2 round)
        ((0 :: levels).zip levels) rounds := by
  intro levels
  rw [Operation.toolpath] at made
  cases checked : (Operation.pocket pocket).check with
  | error error =>
      rw [checked] at made
      cases made
  | ok passed =>
      rw [checked] at made
      obtain ⟨clearing, start, center, _, _, _, _, rfl⟩ := exists_of_toolpath made
      rw [← ExactScalar.literal_zero]
      obtain ⟨rounds, isPassed, areRounds⟩ := exists_rounds
        (fun pass round => pocket.helixSegments pass.2 < 2 ^ 32 →
          pocket.IsEntered pass.1 pass.2 round)
        (fun pass isPass cutter isCut =>
          exists_round checked helical isPass isCut clearing start center)
        (rfl : (Cutter.start pocket.cut).cut = pocket.cut)
      exact ⟨_, rounds, isPassed, rfl, areRounds⟩

theorem toolpath_windsDown_square :
    (rectangular 16 16).ramp = .helical ∧
      ∃ path, (Operation.pocket (rectangular 16 16)).toolpath (.rectangular 16 16) = .ok path ∧
        let levels := depthLevels (rectangular 16 16).depth (rectangular 16 16).stepDown
        (∀ level ∈ levels, (rectangular 16 16).helixSegments level < 2 ^ 32) ∧
        ∃ first rounds, path.points = first :: rounds.flatten ∧ first.motion = .rapid ∧
          List.Forall₂
            (fun pass round => (rectangular 16 16).helixSegments pass.2 < 2 ^ 32 →
              (rectangular 16 16).IsEntered pass.1 pass.2 round)
            ((0 :: levels).zip levels) rounds := by
  obtain ⟨path, made⟩ := @exists_toolpath_rectangular 16 16 (by norm_num) (by norm_num)
    (by norm_num)
  have fits := overwinds_eq_false_iff.mp (@overwinds_rectangular 16 16) rfl
  exact ⟨rfl, path, made, fits, toolpath_windsDown rfl made⟩

end Pocket

end Milling
