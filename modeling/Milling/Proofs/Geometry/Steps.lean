import Mathlib
import Milling.Geometry.Polyline
import Milling.Proofs.Scalar.Exact

/-!
# Ways along and around lists

The steps of a way that passes an element are those up to it and those from it on.  Hence
a way around a list has the same steps wherever it starts, and backwards it has each of
them the other way.  Around a list one changes sides as often to leave one as to come back
to it.

Each step around an outline has its part in the shoelace area, so the area does not depend
on the vertex at which the outline starts or on whether it comes back to that vertex, and
it changes its sign when the steps are taken the other way.
-/

namespace Milling.Polyline

variable {β : Type}

section Along

theorem steps_cons_cons (first second : β) (rest : List β) :
    steps (first :: second :: rest) = (first, second) :: steps (second :: rest) := rfl

theorem steps_append_cons (before : List β) (middle : β) (after : List β) :
    steps (before ++ middle :: after) = steps (before ++ [middle]) ++ steps (middle :: after) := by
  induction before with
  | nil => rfl
  | cons first before ih =>
      cases before with
      | nil => rfl
      | cons second before => exact congrArg ((first, second) :: ·) ih

/-- The steps of a list through to a last element lead from its elements to the ones
after them. -/
theorem steps_append_singleton (first : β) (rest : List β) (last : β) :
    steps (first :: rest ++ [last]) = (first :: rest).zip (rest ++ [last]) := by
  induction rest generalizing first with
  | nil => rfl
  | cons second rest ih =>
      rw [List.cons_append, List.cons_append, steps_cons_cons, ← List.cons_append, ih]
      rfl

theorem mem_steps_append_cons {before after : List β} {middle : β} {step : β × β}
    (member : step ∈ steps (before ++ middle :: after)) :
    step ∈ steps (before ++ [middle]) ∨ step ∈ steps (middle :: after) := by
  rwa [steps_append_cons, List.mem_append] at member

/-- Elements that follow each other in a list. -/
theorem mem_steps_iff {items : List β} {before next : β} :
    (before, next) ∈ steps items ↔
      ∃ front back, items = front ++ before :: next :: back := by
  induction items using steps.induct with
  | case1 first second rest ih =>
      rw [steps, List.mem_cons, ih]
      constructor
      · rintro (same | ⟨front, back, split⟩)
        · obtain ⟨rfl, rfl⟩ := Prod.mk.inj same
          exact ⟨[], rest, rfl⟩
        · exact ⟨first :: front, back, congrArg (first :: ·) split⟩
      · rintro ⟨front, back, split⟩
        cases front with
        | nil =>
            obtain ⟨rfl, tail⟩ := List.cons.inj split
            obtain ⟨rfl, _⟩ := List.cons.inj tail
            exact .inl rfl
        | cons head front => exact .inr ⟨front, back, (List.cons.inj split).2⟩
  | case2 items short =>
      rw [steps]
      · constructor
        · intro member
          cases member
        · rintro ⟨front, back, rfl⟩
          cases front with
          | nil => exact absurd rfl (short before next back)
          | cons head front =>
              cases front with
              | nil => exact absurd rfl (short head before (next :: back))
              | cons second front =>
                  exact absurd rfl (short head second (front ++ before :: next :: back))
      · exact short

theorem mem_steps_append {items : List β} {step : β × β} (member : step ∈ steps items)
    (after : List β) : step ∈ steps (items ++ after) := by
  obtain ⟨front, back, rfl⟩ := mem_steps_iff.mp member
  exact mem_steps_iff.mpr ⟨front, back ++ after, by simp⟩

theorem mem_steps_map {γ : Type} (image : β → γ) {items : List β} {step : β × β}
    (member : step ∈ steps items) :
    (image step.1, image step.2) ∈ steps (items.map image) := by
  obtain ⟨front, back, rfl⟩ := mem_steps_iff.mp member
  exact mem_steps_iff.mpr ⟨front.map image, back.map image, by simp⟩

/-- The steps of numbered items lead from each number to the next. -/
theorem mem_steps_range {item : Nat → β} {count : Nat} {step : β × β}
    (member : step ∈ steps ((List.range (count + 1)).map item)) :
    ∃ index < count, step = (item index, item (index + 1)) := by
  induction count with
  | zero => cases member
  | succ count ih =>
      rw [List.range_succ, List.map_append, List.range_succ, List.map_append, List.append_assoc]
        at member
      rcases mem_steps_append_cons member with earlier | last
      · rw [List.range_succ, List.map_append] at ih
        obtain ⟨index, below, isStep⟩ := ih earlier
        exact ⟨index, by omega, isStep⟩
      · exact ⟨count, by omega, List.mem_singleton.mp last⟩

theorem steps_reverse (items : List β) :
    steps items.reverse = ((steps items).map Prod.swap).reverse := by
  induction items using steps.induct with
  | case1 first second rest ih =>
      have last : (first :: second :: rest).reverse = rest.reverse ++ second :: [first] := by
        rw [List.reverse_cons, List.reverse_cons, List.append_assoc, List.singleton_append]
      rw [last, steps_append_cons, ← List.reverse_cons, ih, steps_cons_cons first, List.map_cons,
        List.reverse_cons]
      rfl
  | case2 items short =>
      match items with
      | [] => rfl
      | [_] => rfl
      | first :: second :: rest => exact absurd rfl (short first second rest)

/-- The sides of a step's ends differ. -/
def changes (side : β → Bool) (step : β × β) : Bool := side step.1 != side step.2

/-- On the way from the first element to the last one the side changes an even number of
times exactly if both are on the same side. -/
theorem even_countP_steps (side : β → Bool) (first : β) (rest : List β) (last : β) :
    Even ((steps (first :: rest ++ [last])).countP (changes side)) ↔ side first = side last := by
  induction rest generalizing first with
  | nil =>
      have only : steps ([first] ++ [last]) = [(first, last)] := rfl
      rw [only, List.countP_singleton]
      by_cases same : side first = side last <;> simp [changes, same]
  | cons second rest ih =>
      rw [List.cons_append, List.cons_append, steps_cons_cons, ← List.cons_append,
        List.countP_cons]
      by_cases same : side first = side second
      · have still : changes side (first, second) = false := by simp [changes, same]
        rw [still, if_neg Bool.false_ne_true, Nat.add_zero, ih, same]
      · have crossed : changes side (first, second) = true := by simp [changes, same]
        rw [crossed, if_pos rfl, Nat.even_add_one, ih]
        revert same
        cases side first <;> cases side second <;> cases side last <;> decide

end Along

section Around

theorem even_countP_cyclicSteps (side : β → Bool) (items : List β) :
    Even ((cyclicSteps items).countP (changes side)) := by
  cases items with
  | nil => exact Even.zero
  | cons first rest => exact (even_countP_steps side first rest first).mpr rfl

theorem cyclicSteps_cons_append (first : β) (front : List β) (second : β) (back : List β) :
    cyclicSteps (first :: front ++ second :: back) =
      steps (first :: front ++ [second]) ++ steps (second :: back ++ [first]) := by
  have around : first :: front ++ second :: back ++ [first] =
      first :: front ++ second :: (back ++ [first]) := List.append_assoc _ _ _
  exact (congrArg steps around).trans (steps_append_cons (first :: front) second _)

/-- It does not matter where a way around starts. -/
theorem cyclicSteps_append_perm (front back : List β) :
    (cyclicSteps (back ++ front)).Perm (cyclicSteps (front ++ back)) := by
  cases front with
  | nil => rw [List.append_nil, List.nil_append]
  | cons first front =>
      cases back with
      | nil => rw [List.append_nil, List.nil_append]
      | cons second back =>
          rw [cyclicSteps_cons_append, cyclicSteps_cons_append]
          exact List.perm_append_comm

/-- The way around backwards, from the same start. -/
theorem cyclicSteps_cons_reverse (first : β) (rest : List β) :
    cyclicSteps (first :: rest.reverse) =
      ((cyclicSteps (first :: rest)).map Prod.swap).reverse := by
  have turned : first :: rest.reverse ++ [first] = (first :: rest ++ [first]).reverse := by
    rw [List.reverse_append, List.reverse_singleton, List.singleton_append, List.reverse_cons]
    rfl
  rw [cyclicSteps, cyclicSteps, turned, steps_reverse]

theorem cyclicSteps_reverse_perm (items : List β) :
    (cyclicSteps items.reverse).Perm ((cyclicSteps items).map Prod.swap) := by
  cases items with
  | nil => exact .nil
  | cons first rest =>
      have start := cyclicSteps_append_perm [first] rest.reverse
      rw [List.singleton_append, cyclicSteps_cons_reverse] at start
      rw [List.reverse_cons]
      exact start.trans (List.reverse_perm _)

end Around

section Areas

variable {α : Type} [ExactScalar α]

/-- The part of a step in twice the area. -/
def doubleArea (step : PlanePoint α × PlanePoint α) : α :=
  step.1.x * step.2.y - step.2.x * step.1.y

theorem doubleArea_swap (step : PlanePoint α × PlanePoint α) :
    doubleArea step.swap = -doubleArea step :=
  (neg_sub _ _).symm

theorem doubleArea_self (point : PlanePoint α) : doubleArea (point, point) = 0 :=
  sub_self _

/-- An outline of fewer than three vertices comes back on the steps by which it left. -/
theorem sum_doubleArea_of_few {points : List (PlanePoint α)} (few : points.length < 3) :
    ((cyclicSteps points).map doubleArea).sum = 0 := by
  match points with
  | [] => rfl
  | [point] =>
      have steps : cyclicSteps [point] = [(point, point)] := rfl
      rw [steps, List.map_singleton, List.sum_singleton, doubleArea_self]
  | [first, second] =>
      have steps : cyclicSteps [first, second] = [(first, second), (first, second).swap] := rfl
      rw [steps, List.map_cons, List.map_singleton, List.sum_cons, List.sum_singleton,
        doubleArea_swap, add_neg_cancel]
  | _ :: _ :: _ :: rest => exact absurd few (by simp)

theorem signedArea_eq (outline : Polyline α) :
    outline.signedArea = ((cyclicSteps outline.points).map doubleArea).sum / 2 := by
  unfold signedArea
  split
  · rename_i few
    rw [sum_doubleArea_of_few few, zero_div, ExactScalar.literal_zero]
  · rw [ExactScalar.literal_zero, List.sum_eq_foldl, List.foldl_map]
    rfl

/-- Outlines with the same steps in any order have the same area. -/
theorem signedArea_of_perm {outline other : Polyline α}
    (same : (cyclicSteps outline.points).Perm (cyclicSteps other.points)) :
    outline.signedArea = other.signedArea := by
  rw [signedArea_eq, signedArea_eq, (same.map doubleArea).sum_eq]

/-- Outlines with opposite steps in any order have opposite areas. -/
theorem signedArea_of_perm_swap {outline other : Polyline α}
    (opposite : (cyclicSteps outline.points).Perm ((cyclicSteps other.points).map Prod.swap)) :
    outline.signedArea = -other.signedArea := by
  have negated : doubleArea ∘ Prod.swap = (fun part : α => -part) ∘ doubleArea :=
    funext doubleArea_swap
  rw [signedArea_eq, signedArea_eq, (opposite.map doubleArea).sum_eq, List.map_map, negated,
    ← List.map_map, ← List.sum_neg, neg_div]

theorem signedArea_append_first (first : PlanePoint α) (rest : List (PlanePoint α))
    (closed other : Bool) :
    signedArea { points := first :: rest ++ [first], closed } =
      signedArea { points := first :: rest, closed := other } := by
  have steps : cyclicSteps (first :: rest ++ [first]) =
      cyclicSteps (first :: rest) ++ [(first, first)] := cyclicSteps_cons_append first rest first []
  rw [signedArea_eq, signedArea_eq, steps, List.map_append, List.map_singleton, List.sum_append,
    List.sum_singleton, doubleArea_self, add_zero]

end Areas

end Milling.Polyline
