import Mathlib
import Milling.Machining.Generation
import Milling.Machining.Holes
import Milling.Proofs.Machining.Check
import Milling.Proofs.Machining.Hole
import Milling.Proofs.Scalar.Exact
import Milling.Scalar.Double

/-!
# Holes in another order

A tour takes every point once, so drilling along it passes the points of the
same holes in another order, and what is checked of holes holds in any order.
-/

namespace Milling

variable {α : Type}

namespace Tour

/-- What is chosen from a list one after the other has an index of the list. -/
theorem fst_foldl_lt {β : Type} {bound : Nat} {choose : Nearest α → β × Nat → Nearest α}
    (chosen : ∀ best item, (choose best item).1 = best.1 ∨ (choose best item).1 = item.2)
    {items : List (β × Nat)} (inside : ∀ item ∈ items, item.2 < bound) {best : Nearest α}
    (start : best.1 < bound) : (items.foldl choose best).1 < bound := by
  induction items generalizing best with
  | nil => exact start
  | cons item items ih =>
      refine ih (fun other later => inside other (List.mem_cons_of_mem item later)) ?_
      rcases chosen best item with kept | taken
      · rwa [kept]
      · rw [taken]
        exact inside item List.mem_cons_self

variable [Scalar α]

/-- The nearest of some points is one of them. -/
theorem nearestIndex_lt (place : PlanePoint α) {points : List (PlanePoint α)}
    (nonempty : points ≠ []) : nearestIndex place points < points.length := by
  refine fst_foldl_lt (fun best item => ?_) (fun item isItem => ?_)
    (List.length_pos_iff.mpr nonempty)
  · obtain ⟨index, least⟩ := best
    cases least with
    | none =>
        dsimp only
        split
        · exact .inr rfl
        · exact .inl rfl
    | some least =>
        dsimp only
        split
        · exact .inr rfl
        · exact .inl rfl
  · simpa using List.snd_lt_of_mem_zipIdx isItem

theorem through_perm (place : PlanePoint α) (points : List (PlanePoint α)) :
    (through place points.length points).Perm points := by
  generalize steps : points.length = count
  induction count generalizing place points with
  | zero =>
      obtain rfl := List.eq_nil_of_length_eq_zero steps
      exact .nil
  | succ count ih =>
      have nonempty : points ≠ [] := by
        rintro rfl
        cases steps
      have inside := nearestIndex_lt place nonempty
      have fewer : (points.eraseIdx (nearestIndex place points)).length = count := by
        rw [List.length_eraseIdx_of_lt inside, steps, Nat.add_sub_cancel]
      rw [through]
      simp only [List.getElem?_eq_getElem inside]
      exact ((ih _ _ fewer).cons _).trans (List.getElem_cons_eraseIdx_perm inside)

/-- A tour takes every point once. -/
theorem ofPoints_perm (points : List (PlanePoint α)) : (ofPoints points).Perm points := by
  cases points with
  | nil => exact .nil
  | cons first rest => exact (through_perm first rest).cons first

end Tour

open Require

variable [Scalar α]

/-- The order of the holes does not matter to their check. -/
theorem Drilling.check_of_perm {drilling : Drilling α} {points : List (PlanePoint α)}
    (reordered : points.Perm drilling.points) (passed : drilling.check = .ok ()) :
    ({ drilling with points } : Drilling α).check = .ok () := by
  simp only [Drilling.check, bind_eq_ok, ensure_eq_ok] at passed ⊢
  obtain ⟨cut, depth, peckDepth, pecks, clearance, retract, dwell, listed, bounded⟩ := passed
  refine ⟨cut, depth, peckDepth, pecks, clearance, retract, dwell, ?_, ?_⟩
  · rw [reordered.isEmpty_eq]
    exact listed
  · have all : ∀ point ∈ drilling.points, (!point.isFinite) = false := by
      refine List.findIdx?_eq_none_iff.mp ?_
      cases found : drilling.points.findIdx? fun point => !point.isFinite with
      | none => rfl
      | some index =>
          rw [found] at bounded
          cases bounded
    have none : (points.findIdx? fun point => !point.isFinite) = none :=
      List.findIdx?_eq_none_iff.mpr fun point isPoint => all point (reordered.mem_iff.mp isPoint)
    rw [none]

theorem Operation.toolpath_drill (offsetter : Offsetter α) {holes : Drilling α}
    (passed : (Operation.drill holes).check = .ok ()) :
    (Operation.drill holes).toolpath offsetter = .ok holes.toolpath := by
  rw [Operation.toolpath, passed]
  rfl

/-- Holes in tour order are the same holes, drilled as they were: after the first
rapid come the same points for each hole, those that it takes to drill it alone.
Only holes have a tour. -/
theorem Operation.inTourOrder_permutes (offsetter : Offsetter α) :
    (∀ holes : Drilling α, (Operation.drill holes).check = .ok () →
      ∃ (points : List (PlanePoint α)) (path : Toolpath α) (first : MotionPoint α)
          (block : PlanePoint α → List (MotionPoint α)),
        points.Perm holes.points ∧
        (Operation.drill holes).inTourOrder = .ok (.drill { holes with points }) ∧
        (Operation.drill { holes with points }).check = .ok () ∧
        first.motion = .rapid ∧ first.position = { x := 0, y := 0, z := holes.cut.clearanceZ } ∧
        (∀ target, ({ holes with points := [target] } : Drilling α).toolpath =
          { path with points := first :: block target }) ∧
        (Operation.drill holes).toolpath offsetter =
          .ok { path with points := first :: holes.points.flatMap block } ∧
        (Operation.drill { holes with points }).toolpath offsetter =
          .ok { path with points := first :: points.flatMap block }) ∧
    (∀ profile : Contour α, (Operation.contour profile).inTourOrder =
      .error (.notHoles (Operation.contour profile).name)) ∧
    ∀ cavity : Pocket α, (Operation.pocket cavity).inTourOrder =
      .error (.notHoles (Operation.pocket cavity).name) := by
  refine ⟨fun holes passed => ?_, fun profile => rfl, fun cavity => rfl⟩
  have reordered := Tour.ofPoints_perm holes.points
  have rechecked := Drilling.check_of_perm reordered passed
  refine ⟨Tour.ofPoints holes.points, holes.toolpath, holes.firstPoint, holes.holePath,
    reordered, rfl, rechecked, rfl, rfl, fun target => ?_, ?_, ?_⟩
  · rw [Drilling.toolpath_withPoints, List.flatMap_singleton]
  · rw [Operation.toolpath_drill offsetter passed, Drilling.toolpath_eq]
  · rw [Operation.toolpath_drill offsetter rechecked, Drilling.toolpath_withPoints]

/-- A plate in which one hole is drilled twice. -/
def plate : Drilling Float :=
  { cut := {
      tool := {
        number := 4, kind := .drill, diameter := 6, flutes := 2, material := .carbide
        surfaceSpeed := 90, feedPerTooth := 0.05, description := "6 mm drill" }
      feed := 200, spindle := 1500, safeZ := 5, clearanceZ := 50 }
    points := [{ x := 10, y := 0 }, { x := 1, y := 0 }, { x := 10, y := 0 }, { x := 5, y := 0 }]
    depth := -15
    peckDepth := 4
    clearance := 5
    retract := 1
    dwell := 0.5 }

theorem Operation.inTourOrder_permutes_plate :
    (Operation.drill plate).check = .ok () ∧
      ∃ (points : List (PlanePoint Float)) (path : Toolpath Float) (first : MotionPoint Float)
          (block : PlanePoint Float → List (MotionPoint Float)),
        points.Perm plate.points ∧
        (Operation.drill plate).inTourOrder = .ok (.drill { plate with points }) ∧
        (Operation.drill { plate with points }).check = .ok () ∧
        first.motion = .rapid ∧ first.position = { x := 0, y := 0, z := plate.cut.clearanceZ } ∧
        (∀ target, ({ plate with points := [target] } : Drilling Float).toolpath =
          { path with points := first :: block target }) ∧
        (Operation.drill plate).toolpath (fun _ _ => none) =
          .ok { path with points := first :: plate.points.flatMap block } ∧
        (Operation.drill { plate with points }).toolpath (fun _ _ => none) =
          .ok { path with points := first :: points.flatMap block } :=
  ⟨rfl, (Operation.inTourOrder_permutes fun _ _ => none).1 plate rfl⟩

end Milling

/-!
## Nearest neighbours

A tour goes on to the nearest point that is left, and of equally near ones to the
earliest of the list.  Taking a point away leaves the others in their order, so the
first of the nearest is the earliest of them at every step.  The rule leaves no
choice, equal points included: exactly one order of the points obeys it.
-/

namespace Milling.Tour

variable {α : Type}

/-- A point of a list with its index. -/
abbrev Stop (α : Type) := PlanePoint α × Nat

variable [ExactScalar α]

/-- Seen from a place, a stop is nearer than another one, or as near and earlier. -/
def Precedes (place : PlanePoint α) (first second : Stop α) : Prop :=
  place.distance first.1 < place.distance second.1 ∨
    (place.distance first.1 = place.distance second.1 ∧ first.2 < second.2)

/-- Seen from the one before it, each stop precedes all later ones. -/
inductive Greedy : PlanePoint α → List (Stop α) → Prop where
  | nil (place : PlanePoint α) : Greedy place []
  | cons {place : PlanePoint α} {next : Stop α} {later : List (Stop α)}
      (nearest : ∀ other ∈ later, Precedes place next other)
      (rest : Greedy next.1 later) : Greedy place (next :: later)

/-- The points of a list in an order that starts with the first one and always goes
on to the nearest one that is left. -/
structure VisitsNearest (points : List (PlanePoint α)) (stops : List (Stop α)) : Prop where
  all : stops.Perm points.zipIdx
  first : stops.head? = points.zipIdx.head?
  nearest : ∀ front here next later, stops = front ++ here :: next :: later →
    ∀ other ∈ later, Precedes here.1 next other

namespace Precedes

variable {place : PlanePoint α} {first second third : Stop α}

theorem trans (front : Precedes place first second) (back : Precedes place second third) :
    Precedes place first third := by
  rcases front with nearer | ⟨near, earlier⟩
  · rcases back with further | ⟨same, _⟩
    · exact .inl (nearer.trans further)
    · exact .inl (nearer.trans_eq same)
  · rcases back with further | ⟨same, later⟩
    · exact .inl (near.trans_lt further)
    · exact .inr ⟨near.trans same, earlier.trans later⟩

theorem asymm (front : Precedes place first second) : ¬Precedes place second first := by
  intro back
  rcases front.trans back with nearer | ⟨_, earlier⟩
  · exact lt_irrefl _ nearer
  · exact Nat.lt_irrefl _ earlier

end Precedes

section Choice

variable {place : PlanePoint α}

/-- What is chosen from numbered points, comparing one after the other, precedes all
the others. -/
theorem foldl_precedes {choose : Nearest α → Stop α → Nearest α}
    (chosen : ∀ index least (stop : Stop α), choose (index, some least) stop =
      if place.distance stop.1 < least then (stop.2, some (place.distance stop.1))
      else (index, some least))
    {stop : Stop α} {items : List (Stop α)}
    (ordered : (stop :: items).Pairwise fun earlier later => earlier.2 < later.2) :
    ∃ found ∈ stop :: items,
      (items.foldl choose (stop.2, some (place.distance stop.1))).1 = found.2 ∧
      ∀ other ∈ stop :: items, other ≠ found → Precedes place found other := by
  induction items generalizing stop with
  | nil =>
      refine ⟨stop, List.mem_cons_self, rfl, ?_⟩
      intro other isOther different
      exact absurd (List.mem_singleton.mp isOther) different
  | cons item items ih =>
      obtain ⟨kept, lost, isPair, taken, precedes, numbered⟩ : ∃ kept lost,
          (stop :: item :: items).Perm (lost :: kept :: items) ∧
          choose (stop.2, some (place.distance stop.1)) item =
            (kept.2, some (place.distance kept.1)) ∧
          Precedes place kept lost ∧
          (kept :: items).Pairwise fun earlier later => earlier.2 < later.2 := by
        rw [chosen]
        split
        · rename_i nearer
          exact ⟨item, stop, .refl _, rfl, .inl nearer, (List.pairwise_cons.mp ordered).2⟩
        · rename_i further
          refine ⟨stop, item, .swap item stop items, rfl, ?_, ?_⟩
          · rcases (not_lt.mp further).lt_or_eq with nearer | same
            · exact .inl nearer
            · exact .inr ⟨same, List.rel_of_pairwise_cons ordered List.mem_cons_self⟩
          · exact ordered.sublist ((List.sublist_cons_self item items).cons_cons stop)
      rw [List.foldl_cons, taken]
      obtain ⟨found, isFound, folded, nearest⟩ := ih numbered
      refine ⟨found, isPair.mem_iff.mpr (List.mem_cons_of_mem lost isFound), folded, ?_⟩
      intro other isOther different
      rcases List.mem_cons.mp (isPair.mem_iff.mp isOther) with rfl | later
      · by_cases same : kept = found
        · rwa [← same]
        · exact (nearest kept List.mem_cons_self same).trans precedes
      · exact nearest other later different

omit [ExactScalar α] in
theorem pairwise_zipIdx (points : List (PlanePoint α)) (number : Nat) :
    (points.zipIdx number).Pairwise fun earlier later => earlier.2 < later.2 := by
  rw [← List.pairwise_map (f := Prod.snd), List.zipIdx_map_snd]
  exact List.pairwise_lt_range'

theorem nearestIndex_precedes (place : PlanePoint α) {points : List (PlanePoint α)}
    (nonempty : points ≠ []) :
    ∃ found ∈ points.zipIdx, nearestIndex place points = found.2 ∧
      ∀ other ∈ points.zipIdx, other ≠ found → Precedes place found other := by
  cases points with
  | nil => exact absurd rfl nonempty
  | cons first rest =>
      have ordered := pairwise_zipIdx (first :: rest) 0
      rw [nearestIndex, List.zipIdx_cons, List.foldl_cons]
      rw [List.zipIdx_cons] at ordered
      dsimp only
      rw [ExactScalar.finite, if_pos rfl]
      apply foldl_precedes _ ordered
      intro index least stop
      simp only [decide_eq_true_eq]

/-- Numbers that rise along a list tell as well which of its points comes first. -/
theorem nearestIndex_map_fst (place : PlanePoint α) {stops : List (Stop α)}
    (ordered : stops.Pairwise fun earlier later => earlier.2 < later.2)
    (nonempty : stops ≠ []) :
    ∃ inside : nearestIndex place (stops.map Prod.fst) < stops.length,
      ∀ other ∈ stops.eraseIdx (nearestIndex place (stops.map Prod.fst)),
        Precedes place stops[nearestIndex place (stops.map Prod.fst)] other := by
  have remain : stops.map Prod.fst ≠ [] := mt List.map_eq_nil_iff.mp nonempty
  obtain ⟨⟨point, index⟩, isFound, same, precedes⟩ := nearestIndex_precedes place remain
  dsimp only at same
  obtain ⟨inside, isPoint⟩ :=
    List.getElem?_eq_some_iff.mp (List.mk_mem_zipIdx_iff_getElem?.mp isFound)
  rw [List.length_map] at inside
  rw [List.getElem_map] at isPoint
  simp only [same]
  refine ⟨inside, ?_⟩
  intro other isOther
  obtain ⟨position, different, isPlaced⟩ := List.mem_eraseIdx_iff_getElem?.mp isOther
  have member : (other.1, position) ∈ (stops.map Prod.fst).zipIdx := by
    rw [List.mk_mem_zipIdx_iff_getElem?, List.getElem?_map, isPlaced]
    rfl
  rcases precedes _ member (fun equal => different (congrArg Prod.snd equal)) with
    nearer | ⟨near, earlier⟩
  · left
    rwa [isPoint]
  · right
    obtain ⟨within, rfl⟩ := List.getElem?_eq_some_iff.mp isPlaced
    rw [isPoint]
    exact ⟨near, List.pairwise_iff_getElem.mp ordered _ _ inside within earlier⟩

end Choice

theorem exists_greedy (place : PlanePoint α) {stops : List (Stop α)}
    (ordered : stops.Pairwise fun earlier later => earlier.2 < later.2) :
    ∃ tour, tour.Perm stops ∧ Greedy place tour ∧
      through place stops.length (stops.map Prod.fst) = tour.map Prod.fst := by
  generalize steps : stops.length = count
  induction count generalizing place stops with
  | zero =>
      obtain rfl := List.eq_nil_of_length_eq_zero steps
      exact ⟨[], .nil, .nil place, rfl⟩
  | succ count ih =>
      have nonempty : stops ≠ [] := by
        rintro rfl
        cases steps
      obtain ⟨inside, precedes⟩ := nearestIndex_map_fst place ordered nonempty
      rw [through]
      generalize nearestIndex place (stops.map Prod.fst) = index at inside precedes ⊢
      have fewer : (stops.eraseIdx index).length = count := by
        rw [List.length_eraseIdx_of_lt inside, steps, Nat.add_sub_cancel]
      obtain ⟨tour, isRest, greedy, walked⟩ := ih stops[index].1
        (ordered.sublist (List.eraseIdx_sublist stops index)) fewer
      refine ⟨stops[index] :: tour, ?_, ?_, ?_⟩
      · exact (isRest.cons stops[index]).trans (List.getElem_cons_eraseIdx_perm inside)
      · exact .cons (fun other isOther => precedes other (isRest.mem_iff.mp isOther)) greedy
      · rw [List.getElem?_map, List.getElem?_eq_getElem inside, List.eraseIdx_map,
          List.map_cons, ← walked]
        rfl

/-- The same stops leave only one greedy order. -/
theorem Greedy.eq_of_perm {place : PlanePoint α} {tour other : List (Stop α)}
    (first : Greedy place tour) (second : Greedy place other) (same : tour.Perm other) :
    tour = other := by
  induction first generalizing other with
  | nil place => exact same.nil_eq
  | @cons place next later nearest rest ih =>
      cases second with
      | nil => exact absurd same.length_eq (Nat.succ_ne_zero _)
      | @cons _ head tail nearer others =>
          have isHead : next = head := by
            by_contra different
            have isLater := (List.mem_cons.mp (same.mem_iff.mpr List.mem_cons_self)).resolve_left
              (Ne.symm different)
            have inTail := (List.mem_cons.mp (same.mem_iff.mp List.mem_cons_self)).resolve_left
              different
            exact (nearest head isLater).asymm (nearer next inTail)
          subst isHead
          rw [ih others same.cons_inv]

/-- A tour is greedy if each of its stops precedes all later ones, seen from the one
before it. -/
theorem greedy_iff {here : Stop α} {tour : List (Stop α)} :
    Greedy here.1 tour ↔
      ∀ front before next later, here :: tour = front ++ before :: next :: later →
        ∀ other ∈ later, Precedes before.1 next other := by
  induction tour generalizing here with
  | nil =>
      constructor
      · intro _ front before next later split
        have length := congrArg List.length split
        simp only [List.length_append, List.length_cons, List.length_nil] at length
        omega
      · intro _
        exact .nil here.1
  | cons head tail ih =>
      constructor
      · intro greedy front before next later split
        cases greedy with
        | cons nearest rest =>
            cases front with
            | nil =>
                obtain ⟨rfl, rest⟩ := List.cons.inj split
                obtain ⟨rfl, rfl⟩ := List.cons.inj rest
                exact nearest
            | cons first front => exact ih.mp rest front before next later (List.cons.inj split).2
      · intro nearest
        apply Greedy.cons
        · exact nearest [] here head tail rfl
        · apply ih.mpr
          intro front before next later split
          exact nearest (here :: front) before next later (congrArg (here :: ·) split)

theorem visitsNearest_cons_iff {first : PlanePoint α} {rest : List (PlanePoint α)}
    {stops : List (Stop α)} :
    VisitsNearest (first :: rest) stops ↔
      ∃ tour, stops = (first, 0) :: tour ∧ tour.Perm (rest.zipIdx 1) ∧ Greedy first tour := by
  constructor
  · intro visits
    obtain ⟨tour, rfl⟩ := List.head?_eq_some_iff.mp visits.first
    exact ⟨tour, rfl, visits.all.cons_inv, greedy_iff.mpr visits.nearest⟩
  · rintro ⟨tour, rfl, all, greedy⟩
    exact ⟨all.cons _, rfl, greedy_iff.mp greedy⟩

/-- There is one way to start at the first point and go on to the nearest one left, the
earliest of equally near ones, until no point is left; and this is the tour. -/
theorem ofPoints_visitsNearest (points : List (PlanePoint α)) :
    ∃ stops, (∀ other, VisitsNearest points other ↔ other = stops) ∧
      ofPoints points = stops.map Prod.fst := by
  cases points with
  | nil =>
      refine ⟨[], fun other => ?_, rfl⟩
      constructor
      · intro visits
        exact visits.all.eq_nil
      · rintro rfl
        exact ⟨.nil, rfl, fun front here next later split => by simp at split⟩
  | cons first rest =>
      obtain ⟨tour, all, greedy, walked⟩ := exists_greedy first (pairwise_zipIdx rest 1)
      rw [List.length_zipIdx, List.zipIdx_map_fst] at walked
      refine ⟨(first, 0) :: tour, fun other => ?_, ?_⟩
      · rw [visitsNearest_cons_iff]
        constructor
        · rintro ⟨same, rfl, isAll, isGreedy⟩
          rw [isGreedy.eq_of_perm greedy (isAll.trans all.symm)]
        · rintro rfl
          exact ⟨tour, rfl, all, greedy⟩
      · rw [ofPoints, walked, List.map_cons]

end Milling.Tour
