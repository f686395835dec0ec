import Mathlib
import Milling.Proofs.Scalar.Real
import Milling.Toolpath.Basic

/-!
# Waits in toolpaths

A wait without a feed of its own costs its seconds and nothing else: the box around a path,
its length and the rest of its running time are those of the path without it, wherever the
wait stands and whatever position it stores.
-/

namespace Milling

namespace Toolpath

variable {α : Type}

/-- A list of points with waits put in, none of which gives a feed; the seconds of the
waits are listed in order. -/
inductive IsPaused : List (MotionPoint α) → List α → List (MotionPoint α) → Prop
  | nil : IsPaused [] [] []
  | keep {points waits paused} (point : MotionPoint α) (isPaused : IsPaused points waits paused) :
      IsPaused (point :: points) waits (point :: paused)
  | pause {points waits paused} {dwell : MotionPoint α} {seconds : α}
      (waitsFor : dwell.motion = .dwell seconds) (noFeed : dwell.feed = none)
      (isPaused : IsPaused points waits paused) :
      IsPaused points (seconds :: waits) (dwell :: paused)

namespace IsPaused

variable {points paused : List (MotionPoint α)} {waits : List α}

theorem filter_isDwell (isPaused : IsPaused points waits paused) :
    paused.filter (fun point => !point.isDwell) = points.filter fun point => !point.isDwell := by
  induction isPaused with
  | nil => rfl
  | keep point _ ih => rw [List.filter_cons, List.filter_cons, ih]
  | @pause _ _ _ dwell _ waitsFor _ _ ih =>
      have isDwell : dwell.isDwell = true := by
        rw [MotionPoint.isDwell, waitsFor]
        rfl
      rw [List.filter_cons_of_neg (by simp [isDwell]), ih]

end IsPaused

section Scalar

variable [Scalar α] {path paused : Toolpath α}

theorem bounds?_of_spatial (spatial : paused.spatial = path.spatial) :
    paused.bounds? = path.bounds? := by
  rw [bounds?, bounds?, spatial]

theorem length_of_spatial (spatial : paused.spatial = path.spatial) :
    paused.length = path.length := by
  rw [length, length, spatial]

/-- Units a second that a motion runs at under a feed in units a minute. -/
def speed (feed : α) : Motion α → α
  | .rapid => feed / 60 * rapidFactor
  | _ => feed / 60

theorem div_speed (distance feed : α) (motion : Motion α) :
    distance / speed feed motion =
      match motion with
      | .rapid => distance / (feed / 60 * rapidFactor)
      | _ => distance / (feed / 60) := by
  cases motion <;> rfl

end Scalar

variable [ExactScalar α]

theorem defaultFeed_pos : (0 : α) < defaultFeed := by
  rw [defaultFeed, ExactScalar.literal]
  norm_num

theorem rapidFactor_pos : (0 : α) < rapidFactor := by
  rw [rapidFactor, ExactScalar.literal]
  norm_num

theorem feedAfter_pos {feed : α} (positive : 0 < feed) (point : MotionPoint α) :
    0 < feedAfter feed point := by
  unfold feedAfter
  rw [ExactScalar.literal_zero]
  split
  · split
    · assumption
    · exact positive
  · exact positive

theorem speed_pos {feed : α} (positive : 0 < feed) (motion : Motion α) : 0 < speed feed motion := by
  have minute : (0 : α) < @OfNat.ofNat α 60 (Scalar.instOfNat 60) := by
    rw [ExactScalar.literal]
    norm_num
  have perSecond := div_pos positive minute
  cases motion with
  | rapid => exact mul_pos perSecond rapidFactor_pos
  | linear | arc | drill | dwell => exact perSecond

/-- Seconds that a point waits; a negative wait is none. -/
def waiting (point : MotionPoint α) : α :=
  match point.dwellSeconds? with
  | some seconds => max seconds 0
  | none => 0

theorem waiting_nonneg (point : MotionPoint α) : 0 ≤ waiting point := by
  unfold waiting
  split
  · exact le_max_right _ _
  · exact le_rfl

namespace Clock

/-- Seconds that the way to a point takes. -/
def moving (clock : Clock α) (point : MotionPoint α) : α :=
  if point.isDwell then 0
  else clock.position.distance point.position / speed (feedAfter clock.feed point) point.motion

theorem after_eq (clock : Clock α) (point : MotionPoint α) :
    clock.after point =
      { position := if point.isDwell then clock.position else point.position
        feed := feedAfter clock.feed point
        seconds := clock.seconds + waiting point + clock.moving point } := by
  unfold after waiting moving
  simp only [div_speed, ExactScalar.greater_eq_max, ExactScalar.literal_zero]
  cases point.dwellSeconds? with
  | none =>
      rw [add_zero]
      split
      · rw [add_zero]
      · rfl
  | some seconds =>
      split
      · rw [add_zero]
      · rfl

/-- The clock of a path begun with some delay. -/
def delayed (clock : Clock α) (delay : α) : Clock α :=
  { clock with seconds := clock.seconds + delay }

theorem delayed_zero (clock : Clock α) : clock.delayed 0 = clock := by
  rw [delayed, add_zero]

theorem delayed_delayed (clock : Clock α) (first second : α) :
    (clock.delayed first).delayed second = clock.delayed (first + second) := by
  rw [delayed, delayed, delayed, add_assoc]

theorem after_delayed (clock : Clock α) (delay : α) (point : MotionPoint α) :
    (clock.delayed delay).after point = (clock.after point).delayed delay := by
  have seconds : clock.seconds + delay + waiting point + clock.moving point =
      clock.seconds + waiting point + clock.moving point + delay := by
    ring
  rw [after_eq, after_eq]
  exact congrArg (Clock.mk _ _) seconds

theorem foldl_delayed (points : List (MotionPoint α)) (clock : Clock α) (delay : α) :
    points.foldl after (clock.delayed delay) = (points.foldl after clock).delayed delay := by
  induction points generalizing clock with
  | nil => rfl
  | cons point points ih => rw [List.foldl_cons, after_delayed, ih, List.foldl_cons]

/-- A wait without a feed only delays the clock. -/
theorem after_wait (clock : Clock α) {dwell : MotionPoint α} {seconds : α}
    (waitsFor : dwell.motion = .dwell seconds) (noFeed : dwell.feed = none) :
    clock.after dwell = clock.delayed (max seconds 0) := by
  have isDwell : dwell.isDwell = true := by
    rw [MotionPoint.isDwell, waitsFor]
    rfl
  have waited : waiting dwell = max seconds 0 := by
    rw [waiting, MotionPoint.dwellSeconds?, waitsFor]
    rfl
  have feed : feedAfter clock.feed dwell = clock.feed := by
    rw [feedAfter, noFeed]
  rw [after_eq, moving, waited, feed, if_pos isDwell, if_pos isDwell, add_zero]
  rfl

end Clock

theorem IsPaused.foldl_after {points paused : List (MotionPoint α)} {waits : List α}
    (isPaused : IsPaused points waits paused) (clock : Clock α) :
    paused.foldl Clock.after clock =
      (points.foldl Clock.after clock).delayed (waits.map fun seconds => max seconds 0).sum := by
  induction isPaused generalizing clock with
  | nil => exact (clock.delayed_zero).symm
  | keep point _ ih => exact ih (clock.after point)
  | pause waitsFor noFeed _ ih =>
      rw [List.foldl_cons, Clock.after_wait clock waitsFor noFeed, ih, Clock.foldl_delayed,
        Clock.delayed_delayed, List.map_cons, List.sum_cons]

/-- What a point adds to a clock: the feed in effect is positive and so is the divisor of
the way to the point, and neither the wait nor the way takes time off. -/
structure Clock.Advances (clock : Clock α) (point : MotionPoint α) : Prop where
  feed_pos : 0 < feedAfter clock.feed point
  speed_pos : 0 < speed (feedAfter clock.feed point) point.motion
  waiting_nonneg : 0 ≤ waiting point
  moving_nonneg : 0 ≤ clock.moving point
  seconds : (clock.after point).seconds = clock.seconds + waiting point + clock.moving point

theorem foldl_after_feed_pos (points : List (MotionPoint α)) {clock : Clock α}
    (positive : 0 < clock.feed) : 0 < (points.foldl Clock.after clock).feed := by
  induction points generalizing clock with
  | nil => exact positive
  | cons point points ih =>
      apply ih
      rw [Clock.after_eq]
      exact feedAfter_pos positive point

theorem Clock.advances {clock : Clock α} (positive : 0 < clock.feed)
    (nonneg : ∀ start stop : Position α, 0 ≤ start.distance stop) (point : MotionPoint α) :
    clock.Advances point := by
  have feed := feedAfter_pos positive point
  have speed := speed_pos feed point.motion
  constructor
  · exact feed
  · exact speed
  · exact waiting_nonneg point
  · unfold moving
    split
    · exact le_rfl
    · exact div_nonneg (nonneg _ _) speed.le
  · rw [after_eq]

/-- Waits without a feed, put in anywhere, leave the bounds and the length of a path and
add their seconds to its time, where a negative wait counts as none.  Every point of a path
divides by a positive speed and takes no time off, so that no point behind a path does. -/
theorem seconds_paused (nonneg : ∀ start stop : Position α, 0 ≤ start.distance stop)
    {path paused : Toolpath α} {waits : List α}
    (isPaused : IsPaused path.points waits paused.points) :
    paused.bounds? = path.bounds? ∧ paused.length = path.length ∧
      paused.seconds = path.seconds + (waits.map fun seconds => max seconds 0).sum ∧
      (∀ front point, front ++ [point] <+: path.points →
        (front.foldl Clock.after Clock.start).Advances point) ∧
      ∀ point, path.seconds ≤ (path.extend [point]).seconds := by
  have spatial : paused.spatial = path.spatial := isPaused.filter_isDwell
  have advances (front : List (MotionPoint α)) (point : MotionPoint α) :
      (front.foldl Clock.after Clock.start).Advances point :=
    Clock.advances (foldl_after_feed_pos front defaultFeed_pos) nonneg point
  refine ⟨bounds?_of_spatial spatial, length_of_spatial spatial, ?_, ?_, ?_⟩
  · rw [seconds, isPaused.foldl_after]
    rfl
  · intro front point _
    exact advances front point
  · intro point
    have step := advances path.points point
    rw [seconds, seconds, extend, List.foldl_append, List.foldl_cons, List.foldl_nil,
      step.seconds, add_assoc]
    exact le_add_of_nonneg_right (add_nonneg step.waiting_nonneg step.moving_nonneg)

section Instance

/-- A rapid, a hole with a wait at its bottom, and a cut. -/
noncomputable def boredPath : Toolpath ℝ :=
  { points := [.rapid 1 5 0,
      { position := ⟨1, 5, -2⟩, motion := .drill { cycle := 82, dwell := some 0.5 } },
      .linear 3 5 0] }

/-- The same path with a wait in front that stores a place far off, and a negative wait
between its moves. -/
noncomputable def heldPath : Toolpath ℝ :=
  { points := [{ position := ⟨90, 90, 90⟩, motion := .dwell 2 }, .rapid 1 5 0,
      { position := ⟨0, 0, 0⟩, motion := .dwell (-1) },
      { position := ⟨1, 5, -2⟩, motion := .drill { cycle := 82, dwell := some 0.5 } },
      .linear 3 5 0] }

theorem isPaused_heldPath : IsPaused boredPath.points [2, -1] heldPath.points := by
  apply IsPaused.pause rfl rfl
  apply IsPaused.keep
  apply IsPaused.pause rfl rfl
  apply IsPaused.keep
  apply IsPaused.keep
  exact .nil

theorem seconds_paused_held :
    (∀ start stop : Position ℝ, 0 ≤ start.distance stop) ∧
      IsPaused boredPath.points [2, -1] heldPath.points ∧
      heldPath.bounds? = boredPath.bounds? ∧ heldPath.length = boredPath.length ∧
      heldPath.seconds = boredPath.seconds + 2 := by
  have nonneg (start stop : Position ℝ) : 0 ≤ start.distance stop := Real.sqrt_nonneg _
  obtain ⟨bounds, length, time, _⟩ := seconds_paused nonneg isPaused_heldPath
  have waited : ([2, -1].map fun seconds : ℝ => max seconds 0).sum = 2 := by norm_num
  rw [waited] at time
  exact ⟨nonneg, isPaused_heldPath, bounds, length, time⟩

end Instance

end Toolpath

end Milling
