import Mathlib
import Milling.Proofs.Posting.Frame
import Milling.Proofs.Scalar.Real

/-!
# Written programs read back

A path that is written as a program, compacted and read again gives its points
between the moves to safety and the moves back, rounded to the decimals of the
dialect.
-/

namespace Milling

namespace Posting

open Program (LineEffect ReadingState readLines readProgram)

variable {α : Type} [Scalar α]

section Statement

/-- The feed of the latest cutting point that has a positive one. -/
def cuttingFeed? (points : List (MotionPoint α)) : Option α :=
  points.reverse.findSome? fun point => if point.isCutting then positive? point.feed else none

/-- The points read from the program of a path: rapids to the height of safety
and over the origin, the points of the path, and the same rapids again. -/
structure RoundTrips (dialect : Dialect) (safeZ : α) (source given : List (MotionPoint α)) :
    Prop where
  length : given.length = source.length + 4
  safety : ∃ up across, given.take 2 = [up, across] ∧
    IsRapidTo { x := 0, y := 0, z := dialect.rounded safeZ } up ∧
    IsRapidTo (dialect.roundedPosition { x := 0, y := 0, z := safeZ }) across
  body : ∀ index point, source[index]? = some point →
    ∃ read, given[index + 2]? = some read ∧
      ReadsBack dialect (cuttingFeed? (source.take (index + 1))) point read
  back : ∃ last up home, given.drop (source.length + 1) = [last, up, home] ∧
    IsRapidTo { last.position with z := dialect.rounded safeZ } up ∧
    IsRapidTo (dialect.roundedPosition { x := 0, y := 0, z := safeZ }) home

theorem foldl_latestFeed (points : List (MotionPoint α)) (feed : Option α) :
    points.foldl latestFeed feed = (cuttingFeed? points).or feed := by
  induction points generalizing feed with
  | nil => rfl
  | cons point points ih =>
      rw [List.foldl_cons, ih]
      simp [cuttingFeed?, latestFeed, List.findSome?_append, Option.or_assoc]

end Statement

section Draft

variable {calculate : String → Except String α} {dialect : Dialect}

theorem builtIn_frame : ∀ dialect ∈ Dialect.builtIn,
    dialect.programStart ∈ [[], ["%", "O1000"], ["%", "O1000 (PROGRAM NAME)"]] ∧
      dialect.programEnd ∈ [["M30"], ["M30", "%"]] := by
  decide

/-- The start of a program sets the modes and nothing else. -/
theorem passes_preamble (starts : dialect.programStart ∈
      [[], ["%", "O1000"], ["%", "O1000 (PROGRAM NAME)"]])
    (units : Units) {date : String} (oneLine : '\n' ∉ date.toList) (tool : Nat) :
    Passes calculate (dialect.preamble units date)
      { inForce := {}, reading := .start tool }
      { inForce := { motion := some 80 }, reading := (readyToMove units tool : ReadingState α) }
      (· = []) := by
  have stamp : Passes calculate
      (if dialect.dateStamp then [dialect.comment ("File created: " ++ date).toList] else [])
      { inForce := {}, reading := (.start tool : ReadingState α) }
      { inForce := {}, reading := .start tool } (· = []) := by
    split
    · apply passes_comment
      simp [oneLine]
    · exact Passes.nil _
  have frame : Passes calculate (dialect.programStart.map String.toList)
      { inForce := {}, reading := (.start tool : ReadingState α) }
      { inForce := {}, reading := .start tool } (· = []) := passes_programStart starts _
  exact (frame.append_silent stamp).append_silent (passes_modeLine units tool)

theorem follows_readyToMove (dialect : Dialect) (units : Units) (tool : Nat) :
    Follows dialect ({} : Emitted α) none
      { inForce := { motion := some 80 }, reading := readyToMove units tool } where
  motion := rfl
  absolute := rfl
  tool := by simp
  finite := by simp
  written := rfl
  read := rfl
  latest := rfl

theorem RoundTrips.around {safeZ : α} {source body : List (MotionPoint α)}
    {start stop : Position α} (nonempty : source ≠ [])
    (path : ReadsPath dialect none source start stop body) {up across back home : MotionPoint α}
    (isUp : IsRapidTo { x := 0, y := 0, z := dialect.rounded safeZ } up)
    (isAcross : IsRapidTo (dialect.roundedPosition { x := 0, y := 0, z := safeZ }) across)
    (isBack : IsRapidTo { stop with z := dialect.rounded safeZ } back)
    (isHome : IsRapidTo (dialect.roundedPosition { x := 0, y := 0, z := safeZ }) home) :
    RoundTrips dialect safeZ source ([up, across] ++ (body ++ [back, home])) where
  length := by
    simp [path.length]
  safety := ⟨up, across, rfl, isUp, isAcross⟩
  body := by
    intro index point isPoint
    have inside : index < body.length := by
      rw [path.length]
      exact (List.getElem?_eq_some_iff.mp isPoint).1
    have isRead : body[index]? = some body[index] := List.getElem?_eq_getElem inside
    have reads := path.point index point body[index] isPoint isRead
    rw [foldl_latestFeed, Option.or_none] at reads
    refine ⟨body[index], ?_, reads⟩
    simp [List.getElem?_append_left inside, isRead]
  back := by
    obtain ⟨last, isLast⟩ : ∃ last, body.getLast? = some last := by
      have hasBody : body ≠ [] := by
        intro empty
        have short := path.length
        rw [empty] at short
        exact nonempty (List.eq_nil_of_length_eq_zero short.symm)
      exact ⟨body.getLast hasBody, List.getLast?_eq_some_getLast hasBody⟩
    obtain ⟨front, rfl⟩ := List.getLast?_eq_some_iff.mp isLast
    refine ⟨last, back, home, ?_, ?_, isHome⟩
    · have sameLength : source.length = front.length + 1 := by
        rw [← path.length, List.length_append, List.length_singleton]
      rw [sameLength]
      simp
    · have stops := path.stop
      rw [isLast, Option.map_some, Option.getD_some] at stops
      rw [← stops]
      exact isBack

variable [DecimalScalar α]

/-- The whole draft of a program reads back. -/
theorem passes_draft {poster : Poster α} {date : String} {operations : List (Operation α)}
    {points : List (MotionPoint α)} (builtIn :
      dialect.programStart ∈ [[], ["%", "O1000"], ["%", "O1000 (PROGRAM NAME)"]] ∧
      dialect.programEnd ∈ [["M30"], ["M30", "%"]])
    (safe : Scalar.isFinite poster.safeZ = true) (dated : '\n' ∉ date.toList)
    (described : ∀ operation ∈ operations, '\n' ∉ operation.tool.description.toList)
    (nonempty : points ≠ []) (writable : ∀ point ∈ points, point.Writable) (tool : Nat) :
    ∃ after, Passes calculate (poster.draft date dialect operations points)
      { inForce := {}, reading := .start tool } after
      (RoundTrips dialect poster.safeZ points) := by
  let modes : Stage α :=
    { inForce := { motion := some 80 }, reading := readyToMove poster.units tool }
  have preamble : Passes calculate (dialect.preamble poster.units date)
      { inForce := {}, reading := .start tool } modes (· = []) :=
    passes_preamble builtIn.1 poster.units dated tool
  have table : Passes calculate (toolTable dialect operations) modes modes (· = []) :=
    passes_toolTable dialect described modes
  have raising : TravelsTo calculate dialect [dialect.heightMove poster.safeZ] {} none modes
      { x := 0, y := 0, z := dialect.rounded poster.safeZ } :=
    (follows_readyToMove dialect poster.units tool).height safe
  obtain ⟨raised, raises, raisedFollows, height, _⟩ := raising
  have crossing : TravelsTo calculate dialect [dialect.originMove (α := α)] {} none raised
      { raised.reading.position with x := dialect.rounded 0, y := dialect.rounded 0 } :=
    raisedFollows.origin
  obtain ⟨ready, crosses, readyFollows, _⟩ := crossing
  rw [height] at crosses
  have tracing : ∃ arrived, ∃ last : Emitted α,
      Passes calculate (pathLines dialect {} points) ready arrived
        (ReadsPath dialect none points ready.reading.position arrived.reading.position) ∧
      Follows dialect last (points.foldl latestFeed none) arrived :=
    readyFollows.writesPath writable
  obtain ⟨arrived, last, path, pathFollows⟩ := tracing
  have ending : ∃ after, Passes calculate (dialect.footer poster.safeZ) arrived after
      (fun given => ∃ up home, given = [up, home] ∧
        IsRapidTo { arrived.reading.position with z := dialect.rounded poster.safeZ } up ∧
        IsRapidTo (dialect.roundedPosition { x := 0, y := 0, z := poster.safeZ }) home) :=
    pathFollows.footer builtIn.2 safe
  obtain ⟨after, footer⟩ := ending
  have lines : poster.draft date dialect operations points =
      (((dialect.preamble poster.units date ++ toolTable dialect operations) ++
        [dialect.heightMove poster.safeZ]) ++ [dialect.originMove (α := α)]) ++
        (pathLines dialect {} points ++ dialect.footer poster.safeZ) := by
    simp [Poster.draft]
  rw [lines]
  have before := (preamble.append_silent table).append_silent raises
  refine ⟨after, ((before.andThen crosses).andThen (path.andThen footer)).mono ?_⟩
  rintro given ⟨front, rest, rfl, ⟨_, _, rfl, ⟨up, rfl, isUp⟩, ⟨across, rfl, isAcross⟩⟩,
    body, _, rfl, reads, back, home, rfl, isBack, isHome⟩
  exact RoundTrips.around nonempty reads isUp isAcross isBack isHome

end Draft

section Program

def checkedNumbers (point : MotionPoint α) : List α :=
  [point.position.x, point.position.y, point.position.z] ++ point.rotary.toList ++
    point.feed.toList ++ point.spindle.toList

/-- A path is let through exactly when its places, feeds and speeds are finite. -/
theorem pointError?_eq_none_iff {points : List (MotionPoint α)} :
    pointError? points = none ↔
      ∀ point ∈ points, ∀ value ∈ checkedNumbers point, Scalar.isFinite value = true := by
  have here (point : MotionPoint α) : infiniteWord? point = none ↔
      ∀ value ∈ checkedNumbers point, Scalar.isFinite value = true := by
    have passes (value : Option α) : value.any (fun number => !Scalar.isFinite number) = false ↔
        ∀ number, value = some number → Scalar.isFinite number = true := by
      cases value <;> simp
    simp [infiniteWord?, checkedNumbers, or_imp, forall_and, passes]
  rw [pointError?, List.findSome?_eq_none_iff]
  constructor
  · intro passed point member
    obtain ⟨index, isAt⟩ := List.mem_iff_getElem?.mp member
    have unstopped := passed (point, index) (List.mem_zipIdx_iff_getElem?.mpr isAt)
    exact (here point).mp (Option.map_eq_none_iff.mp unstopped)
  · rintro finite ⟨point, index⟩ member
    exact Option.map_eq_none_iff.mpr
      ((here point).mpr (finite point (List.fst_mem_of_mem_zipIdx member)))

theorem pointError?_of_writable {points : List (MotionPoint α)}
    (writable : ∀ point ∈ points, point.Writable) : pointError? points = none :=
  pointError?_eq_none_iff.mpr fun point member value isChecked =>
    (writable point member).finite value (List.mem_append_left _ isChecked)

omit [Scalar α] in
theorem Poster.dialect_frame (poster : Poster α) {id : String}
    (builtIn : poster.registry.resolve id ∈ Dialect.builtIn) :
    (poster.dialect id).programStart ∈ [[], ["%", "O1000"], ["%", "O1000 (PROGRAM NAME)"]] ∧
      (poster.dialect id).programEnd ∈ [["M30"], ["M30", "%"]] := by
  have facts := builtIn_frame _ builtIn
  unfold Poster.dialect
  cases poster.decimals with
  | none => exact facts
  | some decimals => exact facts

/-- Lines that pass are read from the text that they make. -/
theorem Passes.readProgram {calculate : String → Except String α} {tool : Nat}
    {lines : List Line} {after : Stage α} {given : List (MotionPoint α) → Prop}
    (passes : Passes calculate lines { inForce := {}, reading := .start tool } after given) :
    given (Program.readProgram calculate tool
      (String.ofList ((compact lines).flatMap fun line => line ++ ['\n']))).toolpath.points := by
  obtain ⟨written, compacted, oneLine, read⟩ := passes
  have isCompact : compact lines = written := by
    have whole := compacted []
    rw [List.append_nil, compactFrom, List.append_nil] at whole
    exact whole
  obtain ⟨effects, reads, holds⟩ := read 1
  rw [isCompact]
  have split := Program.textLines_flatMap oneLine
  unfold Program.readProgram
  rw [String.toList_ofList, split, readLines_append, reads]
  have last : readLines calculate (1 + written.length) after.reading [[]] =
      ([{}], after.reading) := by
    simp [readLines, Program.readLine_empty]
  have points : (effects ++ [({} : LineEffect α)]).filterMap LineEffect.point =
      effects.filterMap LineEffect.point := by
    simp
  simp only [last, points, Program.wholePath_points]
  exact holds

variable [DecimalScalar α]

/-- A path is written in every built-in dialect, and its program reads back. -/
theorem readProgram_program (poster : Poster α) {id : String}
    (builtIn : poster.registry.resolve id ∈ Dialect.builtIn)
    (safe : Scalar.isFinite poster.safeZ = true) {date : String}
    (dated : '\n' ∉ date.toList) {operations : List (Operation α)}
    (described : ∀ operation ∈ operations, '\n' ∉ operation.tool.description.toList)
    {path : Toolpath α} (nonempty : path.points ≠ [])
    (writable : ∀ point ∈ path.points, point.Writable)
    (calculate : String → Except String α) (tool : Nat) :
    ∃ text, poster.program date path operations id = .ok text ∧
      RoundTrips (poster.dialect id) poster.safeZ path.points
        (readProgram calculate tool text).toolpath.points := by
  have frame := poster.dialect_frame builtIn
  have drafted : ∃ after, Passes calculate
      (poster.draft date (poster.dialect id) operations path.points)
      { inForce := {}, reading := .start tool } after
      (RoundTrips (poster.dialect id) poster.safeZ path.points) :=
    passes_draft frame safe dated described nonempty writable tool
  obtain ⟨after, passes⟩ := drafted
  refine ⟨_, ?_, passes.readProgram⟩
  have hasPoints : path.points.isEmpty = false := by simpa using nonempty
  simp only [Poster.program, Poster.lines, hasPoints, pointError?_of_writable writable]
  rfl

/-- Without dialects of its own a poster has a built-in one for every name. -/
theorem resolve_mem_builtIn (id : String) :
    ({} : Registry).resolve id ∈ Dialect.builtIn := by
  have found : ∀ name dialect, ({} : Registry).get? name = some dialect →
      dialect ∈ Dialect.builtIn := fun name dialect isFound =>
    List.mem_of_find?_eq_some isFound
  unfold Registry.resolve
  cases named : ({} : Registry).get? id with
  | some dialect => exact found id dialect named
  | none =>
      cases standard : ({} : Registry).get? Dialect.generic.id with
      | some dialect => exact found _ dialect standard
      | none => exact List.mem_cons_self

/-- A slot with a rapid, a plunge, an arc, a hole and a wait. -/
noncomputable def slot : Toolpath ℝ :=
  { points := [
      { MotionPoint.rapid 0 0 5 with tool := 3, spindle := some 8000 },
      { MotionPoint.linear 0 0 (-1) with
        tool := 3, feed := some 120, spindle := some 8000, comment := some "down" },
      { position := { x := 10, y := 0, z := -1 }
        motion := .arc (.around .clockwise 5 0)
        tool := 3, feed := some 300, spindle := some 8000 },
      { position := { x := 20, y := 0, z := -4 }
        motion := .drill { cycle := 81, retract := some 2 }
        tool := 7, feed := some 90, spindle := some 3000 },
      { position := { x := 20, y := 0, z := 2 }, motion := .dwell 1, tool := 7 }] }

theorem slot_writable : ∀ point ∈ slot.points, point.Writable := by
  intro point member
  simp only [slot, List.mem_cons, List.not_mem_nil, or_false] at member
  rcases member with rfl | rfl | rfl | rfl | rfl
  · exact ⟨fun _ _ => rfl, by decide, by decide, fun _ isComment => by cases isComment⟩
  · exact ⟨fun _ _ => rfl, by decide, by decide, by simp⟩
  · exact ⟨fun _ _ => rfl, by decide, by decide, by simp⟩
  · exact ⟨fun _ _ => rfl, by decide, by decide, by simp⟩
  · exact ⟨fun _ _ => rfl, by decide, by decide, by simp⟩

theorem readProgram_program_slot :
    ∃ text, (Poster.standard : Poster ℝ).program "2026-01-31" slot [] "fanuc" = .ok text ∧
      RoundTrips ((Poster.standard : Poster ℝ).dialect "fanuc") Poster.standardSafeZ
        slot.points (readProgram (fun _ => .error "") 1 text).toolpath.points :=
  readProgram_program Poster.standard (resolve_mem_builtIn "fanuc") rfl (by decide) (by simp)
    (List.cons_ne_nil _ _) slot_writable (fun _ => .error "") 1

end Program

end Posting

end Milling
