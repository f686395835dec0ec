import Mathlib
import Milling.Proofs.Geometry.Steps
import Milling.Proofs.Machining.Spacing

/-!
# Inside by the even-odd rule

An edge crosses a height if it changes sides: from at or below it to above it, or back.
Around closed outlines the crossings are even in number, so taken in pairs from left to
right they bound stretches without one being left over.  A place off the crossings is on a
stretch exactly when an odd number of crossings lie to its left.
-/

namespace Milling.Raster

section Pairs

variable {β : Type}

def ends (stretches : List (β × β)) : List β :=
  stretches.flatMap fun stretch => [stretch.1, stretch.2]

/-- Evenly many places are no pair and a rest only if there are none. -/
theorem eq_nil_of_even_of_short {places : List β} (even : Even places.length)
    (short : ∀ first second rest, places ≠ first :: second :: rest) : places = [] := by
  cases places with
  | nil => rfl
  | cons first places =>
      cases places with
      | nil => exact absurd even Nat.not_even_one
      | cons second rest => exact absurd rfl (short first second rest)

/-- Pairs drop none of an even number of places. -/
theorem ends_pairs {places : List β} (even : Even places.length) :
    ends (pairs places) = places := by
  induction places using pairs.induct with
  | case1 first second rest ih =>
      rw [List.length_cons, List.length_cons, Nat.even_add_one, Nat.even_add_one, not_not] at even
      rw [pairs, ends, List.flatMap_cons, ← ends, ih even]
      rfl
  | case2 places short =>
      obtain rfl := eq_nil_of_even_of_short even short
      rfl

variable [LinearOrder β]

theorem forward_of_mem_pairs {places : List β} (sorted : places.Pairwise (· ≤ ·))
    {stretch : β × β} (member : stretch ∈ pairs places) : stretch.1 ≤ stretch.2 := by
  induction places using pairs.induct with
  | case1 first second rest ih =>
      obtain ⟨ahead, later⟩ := List.pairwise_cons.mp sorted
      rcases List.mem_cons.mp member with rfl | isLater
      · exact ahead second List.mem_cons_self
      · exact ih (List.pairwise_cons.mp later).2 isLater
  | case2 places short =>
      rw [pairs] at member
      · cases member
      · exact short

/-- How many places lie to the left of another one. -/
def countLeft (places : List β) (x : β) : Nat := places.countP fun place => decide (place < x)

/-- A place is in a pair of sorted places exactly if an odd number of them lie to its left. -/
theorem exists_mem_pairs_iff {places : List β} (even : Even places.length)
    (sorted : places.Pairwise (· ≤ ·)) {x : β} (off : x ∉ places) :
    (∃ stretch ∈ pairs places, stretch.1 ≤ x ∧ x ≤ stretch.2) ↔ Odd (countLeft places x) := by
  induction places using pairs.induct with
  | case1 first second rest ih =>
      rw [List.length_cons, List.length_cons, Nat.even_add_one, Nat.even_add_one, not_not] at even
      obtain ⟨ahead, later⟩ := List.pairwise_cons.mp sorted
      obtain ⟨beyond, later⟩ := List.pairwise_cons.mp later
      have ordered := ahead second List.mem_cons_self
      simp only [List.mem_cons, not_or] at off
      obtain ⟨notFirst, notSecond, notRest⟩ := off
      have counted : countLeft (first :: second :: rest) x =
          countLeft rest x + (if second < x then 1 else 0) + (if first < x then 1 else 0) := by
        simp only [countLeft, List.countP_cons, decide_eq_true_eq]
      rw [pairs, List.exists_mem_cons_iff, counted]
      rcases lt_or_gt_of_ne notSecond with before | after
      · -- no later place is to the left either
        have none : countLeft rest x = 0 := by
          refine List.countP_eq_zero.mpr fun place isLater => ?_
          rw [decide_eq_true_eq, not_lt]
          exact before.le.trans (beyond place isLater)
        have noLater : ¬∃ stretch ∈ pairs rest, stretch.1 ≤ x ∧ x ≤ stretch.2 := by
          rintro ⟨stretch, isStretch, start, _⟩
          exact absurd (before.trans_le (beyond _ (mem_pairs isStretch).1)) (not_lt.mpr start)
        rw [none, if_neg (not_lt.mpr before.le), or_iff_left noLater]
        rcases lt_or_gt_of_ne notFirst with left | right
        · simp [left, not_lt.mpr left.le]
        · simp [right, right.le, before.le]
      · have passed : first < x := ordered.trans_lt after
        have notHere : ¬(first ≤ x ∧ x ≤ second) := fun here => absurd after (not_lt.mpr here.2)
        rw [if_pos after, if_pos passed, or_iff_right notHere, ih even later notRest,
          Nat.odd_add_one, Nat.odd_add_one, not_not]
  | case2 places short =>
      obtain rfl := eq_nil_of_even_of_short even short
      simp [pairs, countLeft]

end Pairs

variable {α : Type} [ExactScalar α]

section Crossings

def crossings (edges : List (Edge α)) (y : α) : List α :=
  (edges.filter (crosses y)).map (crossingAt y)

theorem crosses_eq_changes (y : α) :
    crosses y = Polyline.changes fun point : PlanePoint α => decide (point.y ≤ y) := by
  funext edge
  rw [Bool.eq_iff_iff, crosses, Polyline.changes, Bool.or_eq_true, Bool.and_eq_true,
    Bool.and_eq_true, bne_iff_ne, ne_eq, decide_eq_decide]
  simp only [decide_eq_true_eq, ← not_le]
  tauto

/-- What divides the rise of a crossing edge is not zero. -/
theorem rise_ne_zero_of_crosses {y : α} {edge : Edge α} (crossed : crosses y edge = true) :
    edge.2.y - edge.1.y ≠ 0 := by
  rw [crosses, Bool.or_eq_true, Bool.and_eq_true, Bool.and_eq_true] at crossed
  simp only [decide_eq_true_eq] at crossed
  rcases crossed with ⟨below, above⟩ | ⟨below, above⟩
  · exact (sub_pos.mpr (below.trans_lt above)).ne'
  · exact (sub_neg.mpr (below.trans_lt above)).ne

theorem even_countP_segments {outline : Polyline α} (closed : outline.closed = true)
    (enough : 3 ≤ outline.points.length) (y : α) :
    Even (outline.segments.countP (crosses y)) := by
  rw [Polyline.segments, if_pos ⟨closed, enough⟩, crosses_eq_changes]
  exact Polyline.even_countP_cyclicSteps _ _

/-- Closed outlines cross a height an even number of times together. -/
theorem even_countP_edges {outlines : List (Polyline α)}
    (closed : ∀ outline ∈ outlines, outline.closed = true ∧ 3 ≤ outline.points.length) (y : α) :
    Even ((outlines.flatMap Polyline.segments).countP (crosses y)) := by
  induction outlines with
  | nil => exact Even.zero
  | cons outline outlines ih =>
      obtain ⟨isClosed, enough⟩ := closed outline List.mem_cons_self
      rw [List.flatMap_cons, List.countP_append]
      exact (even_countP_segments isClosed enough y).add
        (ih fun other isOther => closed other (List.mem_cons_of_mem outline isOther))

/-- Stretches cover what is inside by the even-odd rule: every crossing is an end of one of
them, none reaches into the next, and a place off the crossings is on one of them exactly if
an odd number of crossings lie to its left. -/
structure EvenOdd (crossings : List α) (stretches : List (α × α)) : Prop where
  all : (ends stretches).Perm crossings
  forward : ∀ stretch ∈ stretches, stretch.1 ≤ stretch.2
  apart : stretches.Pairwise fun stretch next => stretch.2 ≤ next.1
  inside : ∀ x, x ∉ crossings →
    ((∃ stretch ∈ stretches, stretch.1 ≤ x ∧ x ≤ stretch.2) ↔ Odd (countLeft crossings x))

theorem evenOdd_intervals {edges : List (Edge α)} {y : α}
    (even : Even (edges.countP (crosses y))) :
    EvenOdd (crossings edges y) (intervals edges y) := by
  obtain ⟨places, isPairs, same, sorted⟩ := exists_intervals_eq_pairs edges y
  rw [isPairs]
  have evenPlaces : Even places.length := by
    rwa [same.length_eq, List.length_map, ← List.countP_eq_length_filter]
  have same : places.Perm (crossings edges y) := same
  constructor
  · rw [ends_pairs evenPlaces]
    exact same
  · exact fun stretch isStretch => forward_of_mem_pairs sorted isStretch
  · exact pairwise_pairs sorted
  · intro x off
    rw [exists_mem_pairs_iff evenPlaces sorted (fun on => off (same.mem_iff.mp on))]
    rw [countLeft, countLeft, same.countP_eq]

end Crossings

/-- The stretches of a height between the edges of closed outlines, whatever their shape, are
what is inside by the even-odd rule. -/
theorem intervals_evenOdd {outlines : List (Polyline α)}
    (closed : ∀ outline ∈ outlines, outline.closed = true ∧ 3 ≤ outline.points.length) (y : α) :
    Even ((outlines.flatMap Polyline.segments).countP (crosses y)) ∧
      (∀ edge ∈ outlines.flatMap Polyline.segments, crosses y edge = true →
        edge.2.y - edge.1.y ≠ 0) ∧
      EvenOdd (crossings (outlines.flatMap Polyline.segments) y)
        (intervals (outlines.flatMap Polyline.segments) y) := by
  have even := even_countP_edges closed y
  exact ⟨even, fun edge _ crossed => rise_ne_zero_of_crosses crossed, evenOdd_intervals even⟩

/-- A channel with two arms, its inner floor at ten. -/
noncomputable def channel : Polyline ℝ :=
  { points := [⟨0, 0⟩, ⟨30, 0⟩, ⟨30, 30⟩, ⟨20, 30⟩, ⟨20, 10⟩, ⟨10, 10⟩, ⟨10, 30⟩, ⟨0, 30⟩]
    closed := true }

theorem crossings_channel :
    crossings ([channel].flatMap Polyline.segments) 10 = [30, 20, 10, 0] := by
  norm_num [crossings, channel, Polyline.segments, Polyline.cyclicSteps, Polyline.steps, crosses,
    crossingAt]

/-- At the height of its inner floor the channel is not cut between its arms. -/
theorem intervals_evenOdd_channel :
    (∀ outline ∈ [channel], outline.closed = true ∧ 3 ≤ outline.points.length) ∧
      EvenOdd (crossings ([channel].flatMap Polyline.segments) 10)
        (intervals ([channel].flatMap Polyline.segments) 10) ∧
      ¬∃ stretch ∈ intervals ([channel].flatMap Polyline.segments) 10,
        stretch.1 ≤ 15 ∧ 15 ≤ stretch.2 := by
  have closed : ∀ outline ∈ [channel], outline.closed = true ∧ 3 ≤ outline.points.length := by
    simp [channel]
  obtain ⟨_, _, evenOdd⟩ := intervals_evenOdd closed 10
  refine ⟨closed, evenOdd, ?_⟩
  have off : (15 : ℝ) ∉ crossings ([channel].flatMap Polyline.segments) 10 := by
    rw [crossings_channel]
    norm_num
  have left : countLeft (crossings ([channel].flatMap Polyline.segments) 10) 15 = 2 := by
    rw [crossings_channel]
    norm_num [countLeft, List.countP_cons]
  rw [evenOdd.inside 15 off, left]
  decide

end Milling.Raster
