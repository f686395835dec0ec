import Mathlib
import Milling.Proofs.Scalar.Comparison
import Milling.Shop.Limits
import Milling.Toolpath.Basic

/-!
# Least boxes

The bounds of a toolpath are the least box around the points that move the tool.  A box
is told by the boxes that it lies in, so that the laws of unions follow from the one law
that a union lies where both of its parts do.
-/

namespace Milling

variable {α : Type}

def Position.along (position : Position α) : Axis → α
  | .x => position.x
  | .y => position.y
  | .z => position.z

variable [Scalar α]

def Position.IsFinite (position : Position α) : Prop :=
  ∀ axis, Scalar.isFinite (position.along axis) = true

namespace Bounds

/-- One box lies in another. -/
def Within (inner outer : Bounds α) : Prop :=
  ∀ axis, outer.low.along axis ≤ inner.low.along axis ∧
    inner.high.along axis ≤ outer.high.along axis

/-- Boxes with equal faces; a zero may have either sign. -/
def Same (first second : Bounds α) : Prop :=
  ∀ axis, (first.low.along axis == second.low.along axis) = true ∧
    (first.high.along axis == second.high.along axis) = true

/-- A box with finite faces in order. -/
structure IsBox (box : Bounds α) : Prop where
  lowFinite : box.low.IsFinite
  highFinite : box.high.IsFinite
  ordered : ∀ axis, box.low.along axis ≤ box.high.along axis

@[simp] theorem along_low_grow (box : Bounds α) (position : Position α) (axis : Axis) :
    (box.grow position).low.along axis =
      Scalar.lesser (box.low.along axis) (position.along axis) := by
  cases axis <;> rfl

@[simp] theorem along_high_grow (box : Bounds α) (position : Position α) (axis : Axis) :
    (box.grow position).high.along axis =
      Scalar.greater (box.high.along axis) (position.along axis) := by
  cases axis <;> rfl

theorem contains_iff {box : Bounds α} {position : Position α} :
    box.contains position = true ↔
      ∀ axis, box.low.along axis ≤ position.along axis ∧
        position.along axis ≤ box.high.along axis := by
  simp only [contains, Bool.and_eq_true, decide_eq_true_eq]
  constructor
  · rintro ⟨⟨onX, onY⟩, onZ⟩ axis
    cases axis with
    | x => exact onX
    | y => exact onY
    | z => exact onZ
  · intro inside
    exact ⟨⟨inside .x, inside .y⟩, inside .z⟩

theorem within_of_iff {position : Position α} {other : Bounds α} :
    (of position).Within other ↔ other.contains position = true :=
  contains_iff.symm

variable [ComparableScalar α]

open ComparableScalar

theorem Within.trans {first second third : Bounds α} (lower : first.Within second)
    (upper : second.Within third) : first.Within third := by
  intro axis
  constructor
  · exact le_trans _ _ _ (upper axis).1 (lower axis).1
  · exact le_trans _ _ _ (lower axis).2 (upper axis).2

theorem Within.contains {inner outer : Bounds α} (within : inner.Within outer)
    {position : Position α} (inside : inner.contains position = true) :
    outer.contains position = true :=
  within_of_iff.mp ((within_of_iff.mpr inside).trans within)

theorem same_iff {first second : Bounds α} :
    first.Same second ↔ first.Within second ∧ second.Within first := by
  constructor
  · intro same
    constructor
    · intro axis
      obtain ⟨low, high⟩ := same axis
      exact ⟨((beq_iff _ _).mp low).2, ((beq_iff _ _).mp high).1⟩
    · intro axis
      obtain ⟨low, high⟩ := same axis
      exact ⟨((beq_iff _ _).mp low).1, ((beq_iff _ _).mp high).2⟩
  · rintro ⟨within, around⟩ axis
    constructor
    · exact (beq_iff _ _).mpr ⟨(around axis).1, (within axis).1⟩
    · exact (beq_iff _ _).mpr ⟨(within axis).2, (around axis).2⟩

namespace IsBox

theorem within_self {box : Bounds α} (isBox : box.IsBox) : box.Within box := by
  intro axis
  exact ⟨le_refl (isBox.lowFinite axis), le_refl (isBox.highFinite axis)⟩

theorem of {position : Position α} (finite : position.IsFinite) : (of position).IsBox := by
  constructor
  · exact finite
  · exact finite
  · intro axis
    exact le_refl (finite axis)

variable {box : Bounds α} (isBox : box.IsBox)

include isBox

/-- A grown box lies where the box and the position do. -/
theorem within_grow_iff {position : Position α} (finite : position.IsFinite)
    {other : Bounds α} :
    (box.grow position).Within other ↔ box.Within other ∧ other.contains position = true := by
  have lower (axis : Axis) (bound : α) :
      bound ≤ Scalar.lesser (box.low.along axis) (position.along axis) ↔
        bound ≤ box.low.along axis ∧ bound ≤ position.along axis :=
    le_lesser_iff (isBox.lowFinite axis) (finite axis)
  have upper (axis : Axis) (bound : α) :
      Scalar.greater (box.high.along axis) (position.along axis) ≤ bound ↔
        box.high.along axis ≤ bound ∧ position.along axis ≤ bound :=
    greater_le_iff (isBox.highFinite axis) (finite axis)
  simp only [Within, along_low_grow, along_high_grow, lower, upper, contains_iff]
  constructor
  · intro grown
    constructor
    · intro axis
      exact ⟨(grown axis).1.1, (grown axis).2.1⟩
    · intro axis
      exact ⟨(grown axis).1.2, (grown axis).2.2⟩
  · rintro ⟨within, inside⟩ axis
    exact ⟨⟨(within axis).1, (inside axis).1⟩, ⟨(within axis).2, (inside axis).2⟩⟩

theorem grow {position : Position α} (finite : position.IsFinite) :
    (box.grow position).IsBox := by
  have lowFinite : (box.grow position).low.IsFinite := by
    intro axis
    rw [along_low_grow]
    exact isFinite_lesser (isBox.lowFinite axis) (finite axis)
  have highFinite : (box.grow position).high.IsFinite := by
    intro axis
    rw [along_high_grow]
    exact isFinite_greater (isBox.highFinite axis) (finite axis)
  have grown : (box.grow position).Within (box.grow position) := by
    intro axis
    exact ⟨le_refl (lowFinite axis), le_refl (highFinite axis)⟩
  have within := ((isBox.within_grow_iff finite).mp grown).1
  constructor
  · exact lowFinite
  · exact highFinite
  · intro axis
    exact le_trans _ _ _ (within axis).1 (le_trans _ _ _ (isBox.ordered axis) (within axis).2)

/-- A box grown by many positions lies where the box and all of them do. -/
theorem foldl_grow {positions : List (Position α)}
    (finite : ∀ position ∈ positions, position.IsFinite) :
    (positions.foldl Bounds.grow box).IsBox ∧
      ∀ other, (positions.foldl Bounds.grow box).Within other ↔
        box.Within other ∧ ∀ position ∈ positions, other.contains position = true := by
  induction positions generalizing box with
  | nil => simpa using isBox
  | cons position positions ih =>
      obtain ⟨here, later⟩ := List.forall_mem_cons.mp finite
      obtain ⟨isGrown, within⟩ := ih (isBox.grow here) later
      constructor
      · exact isGrown
      · intro other
        rw [List.foldl_cons, within, isBox.within_grow_iff here, List.forall_mem_cons, and_assoc]

/-- A union lies where both of its parts do. -/
theorem within_union_iff {part : Bounds α} (isPart : part.IsBox) {other : Bounds α} :
    (box.union part).Within other ↔ box.Within other ∧ part.Within other := by
  rw [union, (isBox.grow isPart.lowFinite).within_grow_iff isPart.highFinite,
    isBox.within_grow_iff isPart.lowFinite, and_assoc, contains_iff, contains_iff]
  apply and_congr_right
  intro _
  constructor
  · rintro ⟨low, high⟩ axis
    exact ⟨(low axis).1, (high axis).2⟩
  · intro within
    constructor
    · intro axis
      exact ⟨(within axis).1, le_trans _ _ _ (isPart.ordered axis) (within axis).2⟩
    · intro axis
      exact ⟨le_trans _ _ _ (within axis).1 (isPart.ordered axis), (within axis).2⟩

theorem union {part : Bounds α} (isPart : part.IsBox) : (box.union part).IsBox :=
  (isBox.grow isPart.lowFinite).grow isPart.highFinite

/-- Boxes that lie in the same boxes are the same. -/
theorem same_of_within_iff {second : Bounds α} (isSecond : second.IsBox)
    (within : ∀ other, box.Within other ↔ second.Within other) : box.Same second := by
  rw [same_iff]
  constructor
  · exact (within second).mpr isSecond.within_self
  · exact (within box).mp isBox.within_self

theorem union_comm {part : Bounds α} (isPart : part.IsBox) :
    (box.union part).Same (part.union box) := by
  apply (isBox.union isPart).same_of_within_iff (isPart.union isBox)
  intro other
  rw [isBox.within_union_iff isPart, isPart.within_union_iff isBox, and_comm]

theorem union_assoc {second third : Bounds α} (isSecond : second.IsBox)
    (isThird : third.IsBox) :
    ((box.union second).union third).Same (box.union (second.union third)) := by
  have isFront := isBox.union isSecond
  have isBack := isSecond.union isThird
  apply (isFront.union isThird).same_of_within_iff (isBox.union isBack)
  intro other
  rw [isFront.within_union_iff isThird, isBox.within_union_iff isSecond,
    isBox.within_union_iff isBack, isSecond.within_union_iff isThird, and_assoc]

theorem union_self : (box.union box).Same box := by
  apply (isBox.union isBox).same_of_within_iff isBox
  intro other
  rw [isBox.within_union_iff isBox, and_self_iff]

end IsBox

/-- A box is the least one around some positions. -/
structure IsLeast (positions : List (Position α)) (box : Bounds α) : Prop where
  isBox : box.IsBox
  within_iff : ∀ other, box.Within other ↔
    ∀ position ∈ positions, other.contains position = true

theorem isLeast_of_ofList? {positions : List (Position α)} {box : Bounds α}
    (finite : ∀ position ∈ positions, position.IsFinite)
    (isList : ofList? positions = some box) : IsLeast positions box := by
  cases positions with
  | nil => cases isList
  | cons first rest =>
      obtain ⟨firstFinite, restFinite⟩ := List.forall_mem_cons.mp finite
      obtain rfl := Option.some.inj isList
      obtain ⟨isBox, within⟩ := (IsBox.of firstFinite).foldl_grow restFinite
      constructor
      · exact isBox
      · intro other
        rw [within, within_of_iff, List.forall_mem_cons]

namespace IsLeast

variable {positions others : List (Position α)} {box : Bounds α}

theorem contains (least : IsLeast positions box) :
    ∀ position ∈ positions, box.contains position = true :=
  (least.within_iff box).mp least.isBox.within_self

/-- The least box around two lists is the union of the least boxes around each. -/
theorem same_union {other whole : Bounds α} (least : IsLeast positions box)
    (leastOther : IsLeast others other) (leastWhole : IsLeast (positions ++ others) whole) :
    whole.Same (box.union other) := by
  apply leastWhole.isBox.same_of_within_iff (least.isBox.union leastOther.isBox)
  intro around
  rw [leastWhole.within_iff, List.forall_mem_append, least.isBox.within_union_iff leastOther.isBox,
    least.within_iff, leastOther.within_iff]

end IsLeast

end Bounds

namespace Toolpath

def IsFinite (path : Toolpath α) : Prop := ∀ point ∈ path.points, point.position.IsFinite

/-- A box holds all points that move the tool, and nothing that is not in every box that
does so. -/
structure IsBoundedBy (path : Toolpath α) (box : Bounds α) : Prop where
  contains : ∀ point ∈ path.points, point.isDwell = false → box.contains point.position = true
  least : ∀ other : Bounds α,
    (∀ point ∈ path.points, point.isDwell = false → other.contains point.position = true) →
      ∀ position, box.contains position = true → other.contains position = true

omit [Scalar α] in
theorem forall_mem_spatial {path : Toolpath α} {holds : Position α → Prop} :
    (∀ position ∈ path.spatial.map MotionPoint.position, holds position) ↔
      ∀ point ∈ path.points, point.isDwell = false → holds point.position := by
  rw [List.forall_mem_map]
  simp [spatial]

theorem bounds?_eq_none_iff {path : Toolpath α} :
    path.bounds? = none ↔ ∀ point ∈ path.points, point.isDwell = true := by
  have empty : path.bounds? = none ↔ path.spatial = [] := by
    unfold bounds?
    cases path.spatial with
    | nil => exact iff_of_true rfl rfl
    | cons first rest => exact iff_of_false nofun nofun
  rw [empty, spatial, List.filter_eq_nil_iff]
  simp

variable [ComparableScalar α]

theorem isLeast_bounds? {path : Toolpath α} (finite : path.IsFinite) {box : Bounds α}
    (isBounds : path.bounds? = some box) :
    Bounds.IsLeast (path.spatial.map MotionPoint.position) box := by
  apply Bounds.isLeast_of_ofList? _ isBounds
  rw [forall_mem_spatial]
  intro point isPoint _
  exact finite point isPoint

theorem isBoundedBy_bounds? {path : Toolpath α} (finite : path.IsFinite) {box : Bounds α}
    (isBounds : path.bounds? = some box) : path.IsBoundedBy box := by
  have least := isLeast_bounds? finite isBounds
  constructor
  · exact forall_mem_spatial.mp least.contains
  · intro other around position inside
    have within := (least.within_iff other).mpr (forall_mem_spatial.mpr around)
    exact within.contains inside

/-- The bounds of a path and another behind it. -/
theorem bounds?_extend {path other : Toolpath α} (finite : path.IsFinite)
    (finite' : other.IsFinite) {box part : Bounds α} (isBounds : path.bounds? = some box)
    (isPart : other.bounds? = some part) :
    ∃ whole, (path.extend other.points).bounds? = some whole ∧ whole.Same (box.union part) := by
  have spatial : (path.extend other.points).spatial = path.spatial ++ other.spatial :=
    List.filter_append ..
  have wholeFinite : (path.extend other.points).IsFinite := by
    intro point isPoint
    rcases List.mem_append.mp isPoint with own | later
    · exact finite point own
    · exact finite' point later
  have moves : (path.extend other.points).bounds? ≠ none := by
    rw [Ne, bounds?_eq_none_iff]
    intro still
    have none : path.bounds? = none := bounds?_eq_none_iff.mpr fun point isPoint =>
      still point (List.mem_append_left _ isPoint)
    rw [none] at isBounds
    cases isBounds
  obtain ⟨whole, isWhole⟩ := Option.ne_none_iff_exists'.mp moves
  have leastWhole := isLeast_bounds? wholeFinite isWhole
  rw [spatial, List.map_append] at leastWhole
  exact ⟨whole, isWhole, (isLeast_bounds? finite isBounds).same_union
    (isLeast_bounds? finite' isPart) leastWhole⟩

/-- A path has bounds if it moves the tool.  They are the least box around where it does,
and the bounds of paths one behind the other are the union of theirs; unions have the laws
of the joins that they are. -/
theorem bounds?_least {first second third : Toolpath α} (finite : first.IsFinite)
    (finite' : second.IsFinite) (finite'' : third.IsFinite) :
    (first.bounds? = none ↔ ∀ point ∈ first.points, point.isDwell = true) ∧
      ∀ box, first.bounds? = some box →
        first.IsBoundedBy box ∧ (box.union box).Same box ∧
          ∀ part, second.bounds? = some part →
            (∃ whole, (first.extend second.points).bounds? = some whole ∧
                whole.Same (box.union part)) ∧
              (box.union part).Same (part.union box) ∧
              ∀ last, third.bounds? = some last →
                ((box.union part).union last).Same (box.union (part.union last)) := by
  constructor
  · exact bounds?_eq_none_iff
  · intro box isBounds
    have isBox := (isLeast_bounds? finite isBounds).isBox
    refine ⟨isBoundedBy_bounds? finite isBounds, isBox.union_self, ?_⟩
    intro part isPart
    have isSecond := (isLeast_bounds? finite' isPart).isBox
    refine ⟨bounds?_extend finite finite' isBounds isPart, isBox.union_comm isSecond, ?_⟩
    intro last isLast
    exact isBox.union_assoc isSecond (isLeast_bounds? finite'' isLast).isBox

section Instance

/-- A move, a wait far off, and a move to a lower corner. -/
def pausedPath : Toolpath Float :=
  { points := [.linear 1 5 0, { position := ⟨90, 90, 90⟩, motion := .dwell 2 },
      .rapid (-3) 0 2] }

/-- A wait, and a plunge from the far side of the origin. -/
def plungedPath : Toolpath Float :=
  { points := [{ position := ⟨0, 0, 0⟩, motion := .dwell 1 }, .linear 7 (-0.0) (-4)] }

theorem isFinite_pausedPath : pausedPath.IsFinite := by
  intro point isPoint axis
  simp only [pausedPath, List.mem_cons, List.not_mem_nil, or_false] at isPoint
  rcases isPoint with rfl | rfl | rfl <;> cases axis <;> decide +kernel

theorem isFinite_plungedPath : plungedPath.IsFinite := by
  intro point isPoint axis
  simp only [plungedPath, List.mem_cons, List.not_mem_nil, or_false] at isPoint
  rcases isPoint with rfl | rfl <;> cases axis <;> decide +kernel

theorem bounds?_least_paused :
    (pausedPath.IsFinite ∧ plungedPath.IsFinite) ∧
      ∃ box part, pausedPath.bounds? = some box ∧ plungedPath.bounds? = some part ∧
        pausedPath.IsBoundedBy box ∧
        ∃ whole, (pausedPath.extend plungedPath.points).bounds? = some whole ∧
          whole.Same (box.union part) := by
  have isBounds : pausedPath.bounds? = some ⟨⟨-3, 0, 0⟩, ⟨1, 5, 2⟩⟩ := by decide +kernel
  have isPart : plungedPath.bounds? = some ⟨⟨7, -0.0, -4⟩, ⟨7, -0.0, -4⟩⟩ := by decide +kernel
  obtain ⟨bounded, _, later⟩ := (bounds?_least isFinite_pausedPath isFinite_plungedPath
    isFinite_pausedPath).2 _ isBounds
  exact ⟨⟨isFinite_pausedPath, isFinite_plungedPath⟩, _, _, isBounds, isPart, bounded,
    (later _ isPart).1⟩

end Instance

end Toolpath

end Milling
