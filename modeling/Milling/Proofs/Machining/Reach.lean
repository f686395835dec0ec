import Mathlib
import Milling.Machining.Clearing
import Milling.Proofs.Machining.Raster

/-!
# Where a tool cuts

Moves through the air are free, and a cut leads to one more place.  A pocket
cuts at the places of its clearing and at those of its entry.
-/

namespace Milling

variable {α : Type}

def MotionPoint.place (point : MotionPoint α) : PlanePoint α :=
  { x := point.position.x, y := point.position.y }

/-- A tool has cut at allowed places only. -/
def Cutter.CutsIn (allowed : PlanePoint α → Prop) (cutter : Cutter α) : Prop :=
  ∀ point ∈ cutter.passed, point.isCutting = true → allowed point.place

namespace Cutter.CutsIn

variable {allowed : PlanePoint α → Prop} {cutter : Cutter α}

theorem push (within : cutter.CutsIn allowed) {point : MotionPoint α}
    (isAllowed : point.isCutting = true → allowed point.place) :
    (cutter.push point).CutsIn allowed := by
  intro passed isPassed cuts
  rcases List.mem_cons.mp isPassed with rfl | earlier
  · exact isAllowed cuts
  · exact within passed earlier cuts

theorem rapid (within : cutter.CutsIn allowed) (x y z : α) :
    (cutter.rapid x y z).CutsIn allowed :=
  within.push fun cuts => nomatch cuts

theorem rapidHeight (within : cutter.CutsIn allowed) (z : α) :
    (cutter.rapidHeight z).CutsIn allowed :=
  within.rapid cutter.position.x cutter.position.y z

theorem linearAt (within : cutter.CutsIn allowed) {x y : α} (isAllowed : allowed ⟨x, y⟩)
    (z feed : α) : (cutter.linearAt x y z feed).CutsIn allowed :=
  within.push fun _ => isAllowed

theorem linear (within : cutter.CutsIn allowed) {x y : α} (isAllowed : allowed ⟨x, y⟩) (z : α) :
    (cutter.linear x y z).CutsIn allowed :=
  within.linearAt isAllowed z cutter.cut.feed

theorem foldl {β : Type} {step : Cutter α → β → Cutter α} {items : List β}
    (each : ∀ item ∈ items, ∀ cutter, CutsIn allowed cutter → CutsIn allowed (step cutter item))
    (within : cutter.CutsIn allowed) : (items.foldl step cutter).CutsIn allowed := by
  induction items generalizing cutter with
  | nil => exact within
  | cons item items ih =>
      exact ih (fun other isOther => each other (List.mem_cons_of_mem item isOther))
        (each item List.mem_cons_self cutter within)

variable [Scalar α]

theorem start (allowed : PlanePoint α → Prop) (cut : CutSettings α) :
    (Cutter.start cut).CutsIn allowed := by
  unfold Cutter.start
  have unmoved : ({ cut, position := { x := 0, y := 0, z := cut.clearanceZ }, passed := [] } :
      Cutter α).CutsIn allowed := fun _ isPassed => by cases isPassed
  exact unmoved.rapid 0 0 cut.clearanceZ

theorem followOne (within : cutter.CutsIn allowed) {vertex : PathVertex α}
    (isAllowed : allowed vertex.point) (z : α) :
    (Cutter.followOne z cutter vertex).CutsIn allowed := by
  cases turning : vertex.arc with
  | none =>
      simp only [Cutter.followOne, turning]
      exact within.linear isAllowed z
  | some arc =>
      simp only [Cutter.followOne, turning]
      exact within.push fun _ => isAllowed

theorem follow (within : cutter.CutsIn allowed) {path : List (PathVertex α)}
    (isAllowed : ∀ vertex ∈ path, allowed vertex.point) (z : α) :
    (cutter.follow path z).CutsIn allowed :=
  foldl (fun vertex isVertex _ within => within.followOne (isAllowed vertex isVertex) z) within

end Cutter.CutsIn

namespace Clearing

/-- The cuts of a clearing lead to allowed places. -/
inductive Within (allowed : PlanePoint α → Prop) : Clearing α → Prop where
  | raster {rows : List (List (RasterPass α))}
      (ends : ∀ row ∈ rows, ∀ pass ∈ row, Raster.RasterPassEnds allowed pass) :
      Within allowed (.raster rows)
  | nested {rings : List (List (List (PathVertex α)))}
      (vertices : ∀ ring ∈ rings, ∀ path ∈ ring, ∀ vertex ∈ path, allowed vertex.point) :
      Within allowed (.nested rings)

variable {allowed : PlanePoint α → Prop}

theorem Within.start {clearing : Clearing α} (within : clearing.Within allowed)
    {start : PlanePoint α} (isStart : clearing.start? = some start) : allowed start := by
  cases within with
  | raster ends =>
      obtain ⟨pass, isPass, rfl⟩ := Option.map_eq_some_iff.mp isStart
      obtain ⟨row, isRow, isMember⟩ := List.mem_flatten.mp (List.mem_of_head? isPass)
      exact (ends row isRow pass isMember).start
  | nested vertices =>
      obtain ⟨path, isPath, isVertex⟩ := Option.bind_eq_some_iff.mp isStart
      obtain ⟨vertex, isHead, rfl⟩ := Option.map_eq_some_iff.mp isVertex
      obtain ⟨ring, isRing, isMember⟩ := List.mem_flatten.mp (List.mem_of_head? isPath)
      exact vertices ring isRing path isMember vertex (List.mem_of_head? isHead)

variable [Scalar α] {cutter : Cutter α}

theorem link_cutsIn (within : cutter.CutsIn allowed) {target : PlanePoint α}
    (isAllowed : allowed target) (safeZ z : α) (lift : Bool) :
    (link safeZ cutter target z lift).CutsIn allowed := by
  simp only [link]
  split
  · exact within
  · cases lift with
    | false => exact within.linear isAllowed z
    | true =>
        have above := (within.rapidHeight safeZ).rapid target.x target.y safeZ
        exact above.linear isAllowed z

theorem cutRow_cutsIn (within : cutter.CutsIn allowed) {row : List (RasterPass α)}
    (ends : ∀ pass ∈ row, Raster.RasterPassEnds allowed pass) (safeZ z : α)
    (previous : Option Nat) : (cutRow safeZ z cutter previous row).CutsIn allowed := by
  refine Cutter.CutsIn.foldl (fun item isItem cutter within => ?_) within
  obtain ⟨pass, index⟩ := item
  obtain ⟨isStart, isStop⟩ := ends pass (List.fst_mem_of_mem_zipIdx isItem)
  exact (link_cutsIn within isStart safeZ z _).linear isStop z

theorem cutRows_cutsIn (within : cutter.CutsIn allowed) {rows : List (List (RasterPass α))}
    (ends : ∀ row ∈ rows, ∀ pass ∈ row, Raster.RasterPassEnds allowed pass) (safeZ z : α)
    (previous : Option Nat) : (cutRows safeZ z previous cutter rows).CutsIn allowed := by
  induction rows generalizing previous cutter with
  | nil => exact within
  | cons row rows ih =>
      have rest := fun other isOther => ends other (List.mem_cons_of_mem row isOther)
      simp only [cutRows]
      split
      · exact ih within rest previous
      · exact ih (cutRow_cutsIn within (ends row List.mem_cons_self) safeZ z previous) rest _

theorem cutRing_cutsIn {cutter : Cutter α × Bool} (within : cutter.1.CutsIn allowed)
    {ring : List (List (PathVertex α))}
    (vertices : ∀ path ∈ ring, ∀ vertex ∈ path, allowed vertex.point) (safeZ z : α) :
    (cutRing safeZ z cutter ring).1.CutsIn allowed := by
  rw [cutRing]
  have each : ∀ item ∈ ring.zipIdx, ∀ vertex ∈ item.1, allowed vertex.point :=
    fun item isItem => vertices item.1 (List.fst_mem_of_mem_zipIdx isItem)
  generalize ring.zipIdx = items at each ⊢
  induction items generalizing cutter with
  | nil => exact within
  | cons item items ih =>
      obtain ⟨path, index⟩ := item
      have here := each (path, index) List.mem_cons_self
      have later := fun other isOther => each other (List.mem_cons_of_mem _ isOther)
      rw [List.foldl_cons]
      cases path with
      | nil => exact ih within later
      | cons start rest =>
          refine ih ?_ later
          have linked := link_cutsIn within (here start List.mem_cons_self) safeZ z
            (!cutter.2 && decide (0 < index))
          exact linked.follow (fun vertex isVertex =>
            here vertex (List.mem_cons_of_mem start isVertex)) z

theorem cut_cutsIn (inside : cutter.CutsIn allowed) {clearing : Clearing α}
    (within : clearing.Within allowed) (safeZ z : α) :
    (clearing.cut safeZ z cutter).CutsIn allowed := by
  cases within with
  | raster ends => exact cutRows_cutsIn inside ends safeZ z none
  | @nested rings vertices =>
      have each (state : Cutter α × Bool) (inside : state.1.CutsIn allowed) :
          (rings.foldl (cutRing safeZ z) state).1.CutsIn allowed := by
        induction rings generalizing state with
        | nil => exact inside
        | cons ring rings ih =>
            exact ih (fun other isOther => vertices other (List.mem_cons_of_mem ring isOther)) _
              (cutRing_cutsIn inside (vertices ring List.mem_cons_self) safeZ z)
      exact each (cutter, true) inside

end Clearing

end Milling
