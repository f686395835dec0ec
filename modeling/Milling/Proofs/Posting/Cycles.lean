import Mathlib
import Milling.Proofs.Posting.Numeric

/-!
# Holes of written programs

A program has one code for all drill cycles, and of their numbers it has the
retract height alone, which stays in force.  Its holes are read back as plain
ones, each with the latest retract height that a hole has had so far.
-/

namespace Milling

variable {α : Type}

def Motion.cycle? : Motion α → Option (DrillCycle α)
  | .drill cycle => some cycle
  | _ => none

namespace Posting

open Program (IsPlainWord ReadingState joined noted readProgram)

section Cycles

def drillCycles (points : List (MotionPoint α)) : List (DrillCycle α) :=
  points.filterMap fun point => point.motion.cycle?

theorem drillCycles_cons (point : MotionPoint α) (points : List (MotionPoint α)) :
    drillCycles (point :: points) = point.motion.cycle?.toList ++ drillCycles points := by
  unfold drillCycles
  cases cycle : point.motion.cycle? with
  | none => exact List.filterMap_cons_none cycle
  | some found => exact List.filterMap_cons_some cycle

theorem drillCycles_append (first second : List (MotionPoint α)) :
    drillCycles (first ++ second) = drillCycles first ++ drillCycles second :=
  List.filterMap_append

def latestRetract? (cycles : List (DrillCycle α)) : Option α :=
  cycles.reverse.findSome? DrillCycle.retract

theorem latestRetract?_cons (cycle : DrillCycle α) (cycles : List (DrillCycle α)) :
    latestRetract? (cycle :: cycles) = (latestRetract? cycles).or cycle.retract := by
  simp [latestRetract?, List.findSome?_append]

/-- A cycle that only drills. -/
structure IsPlainCycle (cycle : DrillCycle α) : Prop where
  number : cycle.cycle = 81
  noDwell : cycle.dwell = none
  noPeck : cycle.peck = none

/-- Plain cycles of which none leaves its retract height out behind one that has one. -/
structure ArePlainCycles (cycles : List (DrillCycle α)) : Prop where
  plain : ∀ cycle ∈ cycles, IsPlainCycle cycle
  steady : cycles.Pairwise fun earlier later => earlier.retract.isSome → later.retract.isSome

theorem arePlainCycles_cons {cycle : DrillCycle α} {cycles : List (DrillCycle α)} :
    ArePlainCycles (cycle :: cycles) ↔
      IsPlainCycle cycle ∧
        (cycle.retract.isSome → ∀ later ∈ cycles, later.retract.isSome) ∧
        ArePlainCycles cycles := by
  constructor
  · rintro ⟨plain, steady⟩
    rw [List.forall_mem_cons] at plain
    rw [List.pairwise_cons] at steady
    exact ⟨plain.1, fun has later member => steady.1 later member has, plain.2, steady.2⟩
  · rintro ⟨here, above, plain, steady⟩
    exact ⟨List.forall_mem_cons.mpr ⟨here, plain⟩,
      List.pairwise_cons.mpr ⟨fun later member has => above has later member, steady⟩⟩

variable [Scalar α]

def Dialect.roundedCycle (dialect : Dialect) (cycle : DrillCycle α) : DrillCycle α :=
  { cycle := cycle.cycle
    retract := cycle.retract.map dialect.rounded
    dwell := cycle.dwell.map dialect.rounded
    peck := cycle.peck.map dialect.rounded }

/-- What is left of the cycles of a path in those read from its program. -/
structure KeepsHoles (dialect : Dialect) (source given : List (DrillCycle α)) : Prop where
  length : given.length = source.length
  plain : ∀ index < source.length, given[index]? =
    some { cycle := 81
           retract := (latestRetract? (source.take (index + 1))).map dialect.rounded }
  rounded_iff : given = source.map dialect.roundedCycle ↔ ArePlainCycles source

/-- Cycles as they are read back one after the other where a retract height is in
force. -/
def Dialect.readCycles (dialect : Dialect) (retract : Option α) :
    List (DrillCycle α) → List (DrillCycle α)
  | [] => []
  | cycle :: cycles =>
      let read := dialect.readCycle retract cycle
      read :: dialect.readCycles read.retract cycles

theorem length_readCycles (dialect : Dialect) (retract : Option α)
    (cycles : List (DrillCycle α)) :
    (dialect.readCycles retract cycles).length = cycles.length := by
  induction cycles generalizing retract with
  | nil => rfl
  | cons cycle cycles ih => simp [Dialect.readCycles, ih]

theorem getElem?_readCycles (dialect : Dialect) (retract : Option α)
    {cycles : List (DrillCycle α)} {index : Nat} (inside : index < cycles.length) :
    (dialect.readCycles retract cycles)[index]? =
      some { cycle := 81
             retract := ((latestRetract? (cycles.take (index + 1))).map dialect.rounded).or
               retract } := by
  induction cycles generalizing retract index with
  | nil => cases inside
  | cons cycle cycles ih =>
      cases index with
      | zero => simp [Dialect.readCycles, Dialect.readCycle, latestRetract?]
      | succ index =>
          have later := ih (dialect.readCycle retract cycle).retract
            (Nat.lt_of_succ_lt_succ inside)
          rw [Dialect.readCycles, List.getElem?_cons_succ, later, List.take_succ_cons,
            latestRetract?_cons, Option.map_or, Option.or_assoc]
          rfl

/-- A cycle is read back as it is rounded if it is plain and has a retract height
where one is in force. -/
theorem readCycle_eq_roundedCycle_iff (dialect : Dialect) (retract : Option α)
    (cycle : DrillCycle α) :
    dialect.readCycle retract cycle = dialect.roundedCycle cycle ↔
      IsPlainCycle cycle ∧ (retract.isSome → cycle.retract.isSome) := by
  obtain ⟨number, height, dwell, peck⟩ := cycle
  have heights : (height.map dialect.rounded).or retract = height.map dialect.rounded ↔
      (retract.isSome → height.isSome) := by
    cases height <;> cases retract <;> simp
  simp only [Dialect.readCycle, Dialect.roundedCycle, DrillCycle.mk.injEq, heights]
  constructor
  · rintro ⟨same, kept, noDwell, noPeck⟩
    exact ⟨⟨same.symm, Option.map_eq_none_iff.mp noDwell.symm,
      Option.map_eq_none_iff.mp noPeck.symm⟩, kept⟩
  · rintro ⟨⟨same, noDwell, noPeck⟩, kept⟩
    dsimp only at same noDwell noPeck
    subst same noDwell noPeck
    exact ⟨rfl, kept, rfl, rfl⟩

theorem readCycles_eq_map_iff (dialect : Dialect) (retract : Option α)
    (cycles : List (DrillCycle α)) :
    dialect.readCycles retract cycles = cycles.map dialect.roundedCycle ↔
      ArePlainCycles cycles ∧ (retract.isSome → ∀ cycle ∈ cycles, cycle.retract.isSome) := by
  induction cycles generalizing retract with
  | nil => simp [Dialect.readCycles, ArePlainCycles.mk]
  | cons cycle cycles ih =>
      have height : (dialect.readCycle retract cycle).retract.isSome ↔
          cycle.retract.isSome ∨ retract.isSome := by
        simp [Dialect.readCycle]
      rw [Dialect.readCycles, List.map_cons, List.cons.injEq, readCycle_eq_roundedCycle_iff, ih,
        height, arePlainCycles_cons, List.forall_mem_cons]
      tauto

theorem keepsHoles_readCycles (dialect : Dialect) (cycles : List (DrillCycle α)) :
    KeepsHoles dialect cycles (dialect.readCycles none cycles) where
  length := length_readCycles dialect none cycles
  plain := by
    intro index inside
    rw [getElem?_readCycles dialect none inside, Option.or_none]
  rounded_iff := by
    rw [readCycles_eq_map_iff]
    simp

theorem readCycles_drillCycles_cons (dialect : Dialect) (retract : Option α)
    (point : MotionPoint α) (points : List (MotionPoint α)) :
    dialect.readCycles retract (drillCycles (point :: points)) =
      (dialect.readMotion retract point.motion).cycle?.toList ++
        dialect.readCycles (retractAfter dialect point.motion retract) (drillCycles points) := by
  rw [drillCycles_cons]
  cases point.motion <;> rfl

end Cycles

section Lines

variable [Scalar α] {calculate : String → Except String α} {dialect : Dialect}
  {state : Emitted α} {feed : Option α} {stage : Stage α}

/-- Lines without a hole, after which the agreement still holds and the retract
height is what it was. -/
def DrillsNothing (calculate : String → Except String α) (dialect : Dialect)
    (lines : List Line) (state : Emitted α) (feed : Option α) (stage : Stage α) : Prop :=
  ∃ after, Passes calculate lines stage after (drillCycles · = []) ∧
    Follows dialect state feed after ∧ after.reading.retract = stage.reading.retract

theorem DrillsNothing.append {first second : List Line}
    (front : DrillsNothing calculate dialect first state feed stage)
    (back : ∀ middle, Follows dialect state feed middle →
      DrillsNothing calculate dialect second state feed middle) :
    DrillsNothing calculate dialect (first ++ second) state feed stage := by
  obtain ⟨middle, firstPasses, follows, sameRetract⟩ := front
  obtain ⟨after, secondPasses, finally_, retract⟩ := back middle follows
  refine ⟨after, firstPasses.append secondPasses ?_, finally_, retract.trans sameRetract⟩
  intro left right noneLeft noneRight
  rw [drillCycles_append, noneLeft, noneRight, List.append_nil]

theorem Settles.drillsNothing {lines : List Line}
    (settles : Settles calculate dialect lines state feed stage) :
    DrillsNothing calculate dialect lines state feed stage := by
  obtain ⟨after, passes, follows, _, retract⟩ := settles
  refine ⟨after, passes.mono ?_, follows, retract⟩
  rintro given rfl
  rfl

theorem TravelsTo.drillsNothing {lines : List Line} {position : Position α}
    (travels : TravelsTo calculate dialect lines state feed stage position) :
    DrillsNothing calculate dialect lines state feed stage := by
  obtain ⟨after, passes, follows, _, retract⟩ := travels
  refine ⟨after, passes.mono ?_, follows, retract⟩
  rintro given ⟨point, rfl, isRapid⟩
  have kind := isRapid.kind
  unfold MotionPoint.kind at kind
  rw [drillCycles_cons]
  cases motion : point.motion with
  | drill cycle => simp [motion, Motion.kind] at kind
  | _ => rfl

variable [TextScalar α]

theorem isSpelled_word (dialect : Dialect) {letter : Char} (spelled : Program.IsSpelled letter)
    {value : α} (unbounded : Scalar.isFinite value = false) :
    ∀ character ∈ dialect.word letter value, Program.IsSpelled character := by
  have inName : ∀ character ∈ dialect.numberText value,
      (!character.isDigit && character != '[' && character != '#') = true :=
    dialect.numberText_unbounded_all unbounded (by decide)
  intro character member
  rcases List.mem_cons.mp member with rfl | inText
  · exact spelled
  · simpa [Program.IsSpelled, and_assoc] using inName character inText

omit [TextScalar α] in
theorem Passes.spelled {inForce : InForce} {reading next : ReadingState α}
    {words : List Line} (plain : ∀ word ∈ words, Program.IsWord word) {name : Line}
    (isPlain : IsPlainWord name) (stays : Stays name)
    (spelled : ∀ character ∈ name, Program.IsSpelled character)
    {codes : List Program.Code} {entries : List (Char × α)}
    (gathers : Program.Gathers (keepWords inForce words).2 codes entries)
    {given : List (MotionPoint α) → Prop}
    (obeyed : ∀ line comment,
      (Program.obey line comment codes (Program.Parameters.insertAll {} entries) reading).2 =
          next ∧
        given (Program.obey line comment codes (Program.Parameters.insertAll {} entries)
          reading).1.toList) :
    Passes calculate [noted (words ++ [name]) none] { inForce, reading }
      { inForce := (keepWords inForce words).1, reading := next } given := by
  let kept := (keepWords inForce words).2
  have allPlain : ∀ word ∈ words ++ [name], IsPlainWord word := by
    intro word member
    rcases List.mem_append.mp member with inWords | isName
    · exact (plain word inWords).isPlain
    · rwa [List.mem_singleton.mp isName]
  have allKept : keepWords inForce (words ++ [name]) =
      ((keepWords inForce words).1, kept ++ [name]) := by
    obtain ⟨letter, rest, rfl, facts⟩ := stays
    rw [keepWords_append, keepWords_others]
    intro word member
    exact ⟨letter, rest, List.mem_singleton.mp member, facts⟩
  have keptPlain : ∀ word ∈ kept ++ [name], IsPlainWord word := by
    have both := fun word member => allPlain word (@mem_of_mem_keepWords inForce _ word member)
    rwa [allKept] at both
  obtain ⟨compacted, nonempty⟩ := compactLine_plain allPlain
    ⟨name, List.mem_append_right words (List.mem_singleton_self name), stays⟩
    (by simp : ∀ remark ∈ (none : Option Line), IsShortNote remark) inForce
  rw [allKept] at compacted nonempty
  have tokens : ∀ count, Program.tokenize (α := α)
      (joined (kept ++ [name]) ++ List.replicate count ' ') =
        kept.map Program.tokenOf ++ Program.tokenize name := by
    intro count
    have ofWords : Program.tokenize (α := α) (joined kept ++ List.replicate 0 ' ') =
        kept.map Program.tokenOf :=
      Program.tokenize_joined (fun word member => plain word (mem_of_mem_keepWords member)) 0
    rw [Program.tokenize_joined_plain
      fun word member => keptPlain word (List.mem_append_left _ member)] at ofWords
    rw [Program.tokenize_joined_plain keptPlain, List.flatMap_append, ofWords]
    simp
  refine Passes.line compacted (Program.newline_notMem_noted keptPlain (by simp)) ?_
  intro number
  obtain ⟨raw, count, comment, read⟩ := Program.readLine_plain calculate number reading
    nonempty keptPlain (by simp : ∀ remark ∈ (none : Option Line), Program.IsNote remark)
    (by simp)
  have results := Program.readWords_bare calculate gathers
    (fun token => Program.isBare_of_mem_tokenize spelled) number raw comment reading
    (tokens count)
  obtain ⟨reached, holds⟩ := obeyed number comment
  rw [← results] at reached holds
  exact ⟨_, by rw [← reached]; exact read, holds⟩

/-- A rapid to a height that is no number moves nothing. -/
theorem Follows.heightUnread (follows : Follows dialect state feed stage) {z : α}
    (unbounded : Scalar.isFinite z = false) :
    Settles calculate dialect [dialect.heightMove z] state feed stage := by
  obtain ⟨codes, gathers, modal, noDwell⟩ :=
    isMotionWord_rapid.gathers (α := α) follows.motion
  have kept := isMotionWord_rapid.keepWords stage.inForce
  have passes : Passes calculate [noted (["G0".toList] ++ [dialect.word 'Z' z]) none] stage
      { inForce := (keepWords stage.inForce ["G0".toList]).1
        reading := { stage.reading with modal := { stage.reading.modal with motion := 0 } } }
      (· = []) := by
    refine Passes.spelled (by simpa using isMotionWord_rapid.plain)
      (dialect.isPlainWord_word (by decide) z)
      ⟨'Z', dialect.numberText z, rfl, by decide, by decide, by decide, by decide⟩
      (isSpelled_word dialect ⟨by decide, by decide, by decide⟩ unbounded)
      (by rw [kept]; exact gathers) ?_
    intro line comment
    simp [Program.obey, Program.ReadingState.prepared, Program.selectTool, noDwell, modal,
      Program.Parameters.insertAll, Program.Parameters.has]
  rw [kept] at passes
  rw [heightMove_eq]
  exact ⟨_, passes, { follows with motion := rfl }, rfl, rfl⟩

variable [DecimalScalar α]

theorem Follows.heightDrillsNothing (follows : Follows dialect state feed stage) (z : α) :
    DrillsNothing calculate dialect [dialect.heightMove z] state feed stage := by
  cases finite : Scalar.isFinite z with
  | true =>
      have travels : TravelsTo calculate dialect [dialect.heightMove z] state feed stage
          { stage.reading.position with z := dialect.rounded z } := follows.height finite
      exact travels.drillsNothing
  | false => exact (follows.heightUnread finite).drillsNothing

omit [TextScalar α] in
theorem Follows.originDrillsNothing (follows : Follows dialect state feed stage) :
    DrillsNothing calculate dialect [dialect.originMove (α := α)] state feed stage := by
  have travels : TravelsTo calculate dialect [dialect.originMove (α := α)] state feed stage
      { stage.reading.position with x := dialect.rounded 0, y := dialect.rounded 0 } :=
    follows.origin
  exact travels.drillsNothing

theorem Follows.footerDrillsNothing (follows : Follows dialect state feed stage)
    (builtIn : dialect.programEnd ∈ [["M30"], ["M30", "%"]]) (safeZ : α) :
    DrillsNothing calculate dialect (dialect.footer safeZ) state feed stage := by
  have stops : Settles calculate dialect ["M5".toList] state feed stage := follows.stopsSpindle
  have ends (home : Stage α) (homeFollows : Follows dialect state feed home) :
      Settles calculate dialect (dialect.programEnd.map String.toList) state feed home :=
    ⟨home, passes_programEnd builtIn home, homeFollows, rfl, rfl⟩
  have lines : dialect.footer safeZ =
      (["M5".toList] ++ [dialect.heightMove safeZ] ++ [dialect.originMove (α := α)]) ++
        dialect.programEnd.map String.toList := rfl
  rw [lines]
  exact ((stops.drillsNothing.append fun _ stopped =>
    stopped.heightDrillsNothing safeZ).append fun _ raised => raised.originDrillsNothing).append
      fun home atHome => (ends home atHome).drillsNothing

omit [TextScalar α] in
theorem Follows.drillsPath {points : List (MotionPoint α)}
    (follows : Follows dialect state feed stage)
    (postable : ∀ point ∈ points, point.Postable) :
    ∃ after, ∃ last : Emitted α,
      Passes calculate (pathLines dialect state points) stage after
        (fun given => drillCycles given =
          dialect.readCycles stage.reading.retract (drillCycles points)) ∧
      Follows dialect last (points.foldl latestFeed feed) after := by
  induction points generalizing state feed stage with
  | nil =>
      obtain ⟨after, passes, holds, _⟩ :
          Settles calculate dialect (pathLines dialect state []) state feed stage :=
        follows.endsPath
      refine ⟨after, state, passes.mono ?_, holds⟩
      rintro given rfl
      rfl
  | cons point points ih =>
      obtain ⟨ready, middle, here, _, holds, readyRetract, retract⟩ : ∃ ready middle,
          Passes calculate (pointLines dialect state point).1 stage middle
            (GivesPoint dialect (latestFeed feed point) point ready middle) ∧
          Follows dialect (readyState state point) feed ready ∧
          Follows dialect (pointLines dialect state point).2 (latestFeed feed point) middle ∧
          ready.reading.retract = stage.reading.retract ∧
          middle.reading.retract = retractAfter dialect point.motion stage.reading.retract :=
        follows.writesPoint (postable point List.mem_cons_self)
      obtain ⟨after, last, later, finally_⟩ :=
        ih holds fun other member => postable other (List.mem_cons_of_mem point member)
      refine ⟨after, last, here.append later ?_, finally_⟩
      rintro left right ⟨read, rfl, isRead, _⟩ rest
      rw [List.singleton_append, drillCycles_cons, rest, readCycles_drillCycles_cons,
        isRead.motion, readyRetract, retract]

end Lines

section Program

variable [Scalar α] [DecimalScalar α] [TextScalar α] {calculate : String → Except String α}

theorem drills_draft {poster : Poster α} {date : String} {dialect : Dialect}
    {operations : List (Operation α)} {points : List (MotionPoint α)} (builtIn :
      dialect.programStart ∈ [[], ["%", "O1000"], ["%", "O1000 (PROGRAM NAME)"]] ∧
      dialect.programEnd ∈ [["M30"], ["M30", "%"]])
    (dated : '\n' ∉ date.toList)
    (described : ∀ operation ∈ operations, '\n' ∉ operation.tool.description.toList)
    (postable : ∀ point ∈ points, point.Postable) (tool : Nat) :
    ∃ after, Passes calculate (poster.draft date dialect operations points)
      { inForce := {}, reading := .start tool } after
      (fun given => drillCycles given = dialect.readCycles none (drillCycles points)) := by
  let modes : Stage α :=
    { inForce := { motion := some 80 }, reading := readyToMove poster.units tool }
  have preamble : Passes calculate (dialect.preamble poster.units date)
      { inForce := {}, reading := .start tool } modes (· = []) :=
    passes_preamble builtIn.1 poster.units dated tool
  have table : Passes calculate (toolTable dialect operations) modes modes (· = []) :=
    passes_toolTable dialect described modes
  have approach : DrillsNothing calculate dialect
      ([dialect.heightMove poster.safeZ] ++ [dialect.originMove (α := α)]) {} none modes :=
    ((follows_readyToMove dialect poster.units tool).heightDrillsNothing poster.safeZ).append
      fun _ raised => raised.originDrillsNothing
  obtain ⟨ready, approaches, readyFollows, readyRetract⟩ := approach
  have noRetract : ready.reading.retract = none := readyRetract
  obtain ⟨arrived, last, drills, arrivedFollows⟩ : ∃ arrived, ∃ last : Emitted α,
      Passes calculate (pathLines dialect {} points) ready arrived
        (fun given => drillCycles given =
          dialect.readCycles ready.reading.retract (drillCycles points)) ∧
      Follows dialect last (points.foldl latestFeed none) arrived :=
    readyFollows.drillsPath postable
  obtain ⟨after, leaves, _⟩ : DrillsNothing calculate dialect (dialect.footer poster.safeZ)
      last (points.foldl latestFeed none) arrived :=
    arrivedFollows.footerDrillsNothing builtIn.2 poster.safeZ
  have lines : poster.draft date dialect operations points =
      (dialect.preamble poster.units date ++ toolTable dialect operations) ++
        (([dialect.heightMove poster.safeZ] ++ [dialect.originMove (α := α)]) ++
          (pathLines dialect {} points ++ dialect.footer poster.safeZ)) := by
    simp [Poster.draft]
  rw [lines]
  have moves := approaches.andThen (drills.andThen leaves)
  refine ⟨after, (preamble.append_silent table).append_silent (moves.mono ?_)⟩
  rintro given ⟨front, rest, rfl, noFront, body, back, rfl, read, noBack⟩
  rw [drillCycles_append, drillCycles_append, noFront, noBack, read, noRetract,
    List.nil_append, List.append_nil]

/-- Posting keeps the retract heights of holes and makes all of them plain. -/
theorem drillCycles_readProgram (poster : Poster α) {id : String}
    (starts : (poster.dialect id).programStart ∈ Dialect.builtIn.map Dialect.programStart)
    (ends : (poster.dialect id).programEnd ∈ Dialect.builtIn.map Dialect.programEnd)
    {date : String} (dated : '\n' ∉ date.toList) {operations : List (Operation α)}
    (described : ∀ operation ∈ operations, '\n' ∉ operation.tool.description.toList)
    {path : Toolpath α} (nonempty : path.points ≠ [])
    (postable : ∀ point ∈ path.points, point.Postable)
    (calculate : String → Except String α) (tool : Nat) :
    ∃ text, poster.program date path operations id = .ok text ∧
      KeepsHoles (poster.dialect id) (drillCycles path.points)
        (drillCycles (readProgram calculate tool text).toolpath.points) := by
  let dialect := poster.dialect id
  have frame : dialect.programStart ∈ [[], ["%", "O1000"], ["%", "O1000 (PROGRAM NAME)"]] ∧
      dialect.programEnd ∈ [["M30"], ["M30", "%"]] := by
    obtain ⟨starter, isStarter, sameStart⟩ := List.mem_map.mp starts
    obtain ⟨ender, isEnder, sameEnd⟩ := List.mem_map.mp ends
    rw [← sameStart, ← sameEnd]
    exact ⟨(builtIn_frame starter isStarter).1, (builtIn_frame ender isEnder).2⟩
  obtain ⟨after, passes⟩ : ∃ after,
      Passes calculate (poster.draft date dialect operations path.points)
        { inForce := {}, reading := .start tool } after
        (fun given => drillCycles given = dialect.readCycles none (drillCycles path.points)) :=
    drills_draft frame dated described postable tool
  have checked : ∀ point ∈ path.points, ∀ value ∈ checkedNumbers point,
      Scalar.isFinite value = true := fun point member value isChecked =>
    (postable point member).finite value (List.mem_append_left _ isChecked)
  refine ⟨_, program_of_checked poster date operations id nonempty checked, ?_⟩
  rw [passes.readProgram]
  exact keepsHoles_readCycles dialect _

def peckedHole : MotionPoint α :=
  { position := { x := 1, y := 0, z := -1 }
    motion := .drill { cycle := 83, retract := some 2, peck := some 1 } }

/-- A plate with a pecked hole, a wait over it, a hole behind it and one to a height
of its own. -/
def drilledPlate : Toolpath α :=
  { points := [
      peckedHole,
      { position := { x := 1, y := 0, z := 2 }, motion := .dwell 1 },
      { position := { x := 5, y := 0, z := -1 }
        motion := .drill { cycle := 81 }, feed := some 90, spindle := some 3000 },
      { position := { x := 9, y := 0, z := -4 }
        motion := .drill { cycle := 82, retract := some 3, dwell := some 1 }
        tool := 7, comment := some "deep" }] }

theorem drilledPlate_postable : ∀ point ∈ (drilledPlate : Toolpath ℝ).points,
    point.Postable := by
  intro point member
  simp only [drilledPlate, List.mem_cons, List.not_mem_nil, or_false] at member
  rcases member with rfl | rfl | rfl | rfl
  · exact ⟨fun _ _ => rfl, by decide, by simp [peckedHole]⟩
  · exact ⟨fun _ _ => rfl, by decide, by simp⟩
  · exact ⟨fun _ _ => rfl, by decide, by simp⟩
  · exact ⟨fun _ _ => rfl, by decide, by simp⟩

theorem drillCycles_readProgram_plate :
    ∃ text, (Poster.standard : Poster ℝ).program "2026-01-31" drilledPlate [] "grbl" =
        .ok text ∧
      KeepsHoles ((Poster.standard : Poster ℝ).dialect "grbl")
        (drillCycles (drilledPlate : Toolpath ℝ).points)
        (drillCycles (readProgram (fun _ => .error "") 1 text).toolpath.points) :=
  drillCycles_readProgram Poster.standard (by decide) (by decide) (by decide) (by simp)
    (List.cons_ne_nil _ _) drilledPlate_postable (fun _ => .error "") 1

/-- A hole that is drilled in pecks is read back as one that is drilled in one go. -/
theorem peckedHole_unpecked :
    ∃ text, (Poster.standard : Poster Float).program "2026-01-31" { points := [peckedHole] } []
        "grbl" = .ok text ∧
      drillCycles (readProgram (fun _ => .error "") 1 text).toolpath.points ≠
        (drillCycles [(peckedHole : MotionPoint Float)]).map
          ((Poster.standard : Poster Float).dialect "grbl").roundedCycle := by
  let calculate : String → Except String Float := fun _ => .error ""
  have read : ((Poster.standard : Poster Float).program "2026-01-31" { points := [peckedHole] } []
      "grbl").toOption.map (fun text =>
        (drillCycles (readProgram calculate 1 text).toolpath.points).map DrillCycle.cycle) =
      some [81] := by
    decide +kernel
  cases written : (Poster.standard : Poster Float).program "2026-01-31"
      { points := [peckedHole] } [] "grbl" with
  | error reason => simp [written, Except.toOption] at read
  | ok text =>
      rw [written, Except.toOption, Option.map_some, Option.some.injEq] at read
      refine ⟨text, rfl, ?_⟩
      intro same
      rw [same] at read
      cases read

end Program

end Posting

end Milling
