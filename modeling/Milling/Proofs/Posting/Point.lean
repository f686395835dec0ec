import Milling.Proofs.Posting.Setting

/-!
# The line of a point

A point that is written behind what was set for it reads back: the same kind of
motion with the same tool, at the rounded place, with its rounded arc or its
rounded wait, and at the rounded feed of the latest cutting point with one.
-/

namespace Milling

variable {α : Type}

section Written

def Motion.written : Motion α → List α
  | .arc shape => shape.i.toList ++ shape.j.toList ++ shape.k.toList ++ shape.radius.toList
  | .drill cycle => cycle.retract.toList
  | .dwell seconds => [seconds]
  | _ => []

def MotionPoint.written (point : MotionPoint α) : List α :=
  [point.position.x, point.position.y, point.position.z] ++ point.rotary.toList ++
    point.feed.toList ++ point.spindle.toList ++ point.motion.written

/-- A point that a program can carry. -/
structure MotionPoint.Writable [Scalar α] (point : MotionPoint α) : Prop where
  finite : ∀ value ∈ point.written, Scalar.isFinite value = true
  nonzero : point.tool ≠ 0
  bounded : point.tool ≤ Program.ToolChange.greatestTool
  oneLine : ∀ comment ∈ point.comment, '\n' ∉ comment.toList

/-- A point that a program can carry but for its tool, which may be none. -/
structure MotionPoint.Postable [Scalar α] (point : MotionPoint α) : Prop where
  finite : ∀ value ∈ point.written, Scalar.isFinite value = true
  bounded : point.tool ≤ Program.ToolChange.greatestTool
  oneLine : ∀ comment ∈ point.comment, '\n' ∉ comment.toList

theorem MotionPoint.Writable.postable [Scalar α] {point : MotionPoint α}
    (writable : point.Writable) : point.Postable :=
  ⟨writable.finite, writable.bounded, writable.oneLine⟩

end Written

namespace Posting

open Program (IsNote Parameters ReadingState noted)

variable [Scalar α]

section Rounding

def Dialect.roundedPosition (dialect : Dialect) (position : Position α) : Position α :=
  { x := dialect.rounded position.x
    y := dialect.rounded position.y
    z := dialect.rounded position.z }

/-- An arc at the decimals of a dialect, with the words that it had. -/
def Dialect.roundedArc (dialect : Dialect) (shape : Arc α) : Arc α :=
  { rotation := shape.rotation
    i := shape.i.map dialect.rounded
    j := shape.j.map dialect.rounded
    k := shape.k.map dialect.rounded
    radius := shape.radius.map dialect.rounded }

/-- A drill cycle as it is read back: a plain one, to the retract height in force. -/
def Dialect.readCycle (dialect : Dialect) (retract : Option α) (cycle : DrillCycle α) :
    DrillCycle α :=
  { cycle := 81, retract := (cycle.retract.map dialect.rounded).or retract }

/-- A motion as it is read back where a retract height is in force. -/
def Dialect.readMotion (dialect : Dialect) (retract : Option α) : Motion α → Motion α
  | .rapid => .rapid
  | .linear => .linear
  | .arc shape => .arc (dialect.roundedArc shape)
  | .drill cycle => .drill (dialect.readCycle retract cycle)
  | .dwell seconds => .dwell (dialect.rounded seconds)

@[simp] theorem kind_readMotion (dialect : Dialect) (retract : Option α) (motion : Motion α) :
    (dialect.readMotion retract motion).kind = motion.kind := by
  cases motion <;> rfl

/-- The positive feed of a cutting point, or else the one before it. -/
def latestFeed (feed : Option α) (point : MotionPoint α) : Option α :=
  (if point.isCutting then positive? point.feed else none).or feed

/-- How a point reads back, where `feed` is that of the latest cutting point
with a positive feed. -/
structure ReadsBack (dialect : Dialect) (feed : Option α)
    (source given : MotionPoint α) : Prop where
  kind : given.kind = source.kind
  tool : given.tool = source.tool
  position : source.isDwell = false →
    given.position = dialect.roundedPosition source.position
  arc : ∀ shape, source.motion = .arc shape →
    given.motion = .arc (dialect.roundedArc shape)
  dwell : ∀ seconds, source.motion = .dwell seconds →
    given.motion = .dwell (dialect.rounded seconds)
  feed : source.isCutting = true → given.feed = feed.map dialect.rounded

end Rounding

section Line

omit [Scalar α] in
def motionNumber : Motion α → Nat
  | .rapid => 0
  | .linear => 1
  | .arc shape =>
      match shape.rotation with
      | .clockwise => 2
      | .counterclockwise => 3
  | .drill _ => 81
  | .dwell _ => 4

omit [Scalar α] in
theorem isMotionWord_motionWord {motion : Motion α} (moves : motion.isDwell = false) :
    IsMotionWord (motionWord motion) (motionNumber motion) := by
  cases motion with
  | rapid => exact isMotionWord_rapid
  | linear => exact isMotionWord_linear
  | arc shape =>
      cases rotation : shape.rotation with
      | clockwise => simpa [motionWord, motionNumber, rotation] using isMotionWord_clockwise
      | counterclockwise =>
          simpa [motionWord, motionNumber, rotation] using isMotionWord_counterclockwise
  | drill cycle => exact isMotionWord_drill
  | dwell seconds => simp [Motion.isDwell] at moves

/-- The numbered letters that belong to a motion. -/
def payloadEntries : Motion α → List (Char × α)
  | .arc shape =>
      entry 'I' shape.i ++ entry 'J' shape.j ++ entry 'K' shape.k ++ entry 'R' shape.radius
  | .drill cycle => entry 'R' cycle.retract
  | _ => []

/-- The numbered letters of a point, its feed aside. -/
def pointEntries (point : MotionPoint α) : List (Char × α) :=
  entry 'X' (some point.position.x) ++ entry 'Y' (some point.position.y) ++
    entry 'Z' (some point.position.z) ++ entry 'A' point.rotary ++
    payloadEntries point.motion

def newFeed (state : Emitted α) (point : MotionPoint α) : Option α :=
  (positive? point.feed).filter fun feed => point.isCutting && isNew state.feed feed

/-- The remark behind a point. -/
def noteOf (dialect : Dialect) (point : MotionPoint α) : Option Line :=
  (point.comment.filter fun comment => !comment.isEmpty).map fun comment =>
    dialect.comment comment.toList

theorem feedWords_eq (dialect : Dialect) (state : Emitted α) (point : MotionPoint α) :
    feedWords dialect state point =
      (dialect.entryWords (entry 'F' (newFeed state point)),
        { state with feed := (newFeed state point).or state.feed }) := by
  unfold feedWords newFeed
  cases positive? point.feed with
  | none => rfl
  | some feed =>
      by_cases writes : (point.isCutting && isNew state.feed feed) = true
      · rw [Option.filter_some, if_pos writes, entryWords_entry]
        exact if_pos writes
      · rw [Option.filter_some, if_neg writes, entryWords_entry]
        exact if_neg writes

theorem payloadWords_eq (dialect : Dialect) (motion : Motion α) :
    payloadWords dialect motion = dialect.entryWords (payloadEntries motion) := by
  cases motion with
  | arc shape =>
      simp only [payloadWords, payloadEntries, entryWords_append, entryWords_entry]
  | drill cycle => simp only [payloadWords, payloadEntries, entryWords_entry]
  | _ => rfl

theorem pointWords_of_moves (dialect : Dialect) (state : Emitted α)
    {point : MotionPoint α} (moves : point.isDwell = false) :
    pointWords dialect state point =
      (motionWord point.motion ::
          (dialect.entryWords (pointEntries point) ++
            dialect.entryWords (entry 'F' (newFeed state point))),
        { state with feed := (newFeed state point).or state.feed }) := by
  have words : ∀ motion : Motion α, dialect.entryWords
      (entry 'X' (some point.position.x) ++ entry 'Y' (some point.position.y) ++
        entry 'Z' (some point.position.z) ++ entry 'A' point.rotary ++
        payloadEntries motion) =
      [dialect.word 'X' point.position.x, dialect.word 'Y' point.position.y,
        dialect.word 'Z' point.position.z] ++
          (point.rotary.map (dialect.word 'A')).toList ++ payloadWords dialect motion := by
    intro motion
    rw [payloadWords_eq, ← entryWords_entry, entryWords_append, entryWords_append]
    rfl
  cases motion : point.motion with
  | dwell seconds => simp [MotionPoint.isDwell, motion, Motion.isDwell] at moves
  | _ => simp only [pointWords, motion, feedWords_eq, pointEntries, words]

omit [Scalar α] in
theorem withComment_eq (dialect : Dialect) (words : List Line) (nonempty : words ≠ [])
    (point : MotionPoint α) :
    withComment dialect (joinWords words) point = noted words (noteOf dialect point) := by
  unfold withComment noteOf
  cases point.comment with
  | none => exact (Program.noted_none words).symm
  | some comment =>
      by_cases empty : comment.isEmpty = true
      · simp only [Option.filter_some, empty]
        exact (Program.noted_none words).symm
      · simp only [Option.filter_some, empty]
        exact (Program.noted_some nonempty (dialect.comment comment.toList)).symm

theorem isNote_comment (dialect : Dialect) (text : Line) : IsNote (dialect.comment text) := by
  unfold Dialect.comment
  cases dialect.commentStyle with
  | semicolon => exact .semicolon (' ' :: text)
  | parentheses => exact .parentheses _ (by simp)

theorem newline_notMem_comment (dialect : Dialect) {text : Line} (oneLine : '\n' ∉ text) :
    '\n' ∉ dialect.comment text := by
  unfold Dialect.comment
  cases dialect.commentStyle with
  | semicolon => simp [oneLine]
  | parentheses => simp [oneLine]

end Line

section Reading

variable {dialect : Dialect} {point : MotionPoint α} {parameters : Parameters α}
  {state : ReadingState α}

/-- The retract height in force after a motion. -/
def retractAfter (dialect : Dialect) (motion : Motion α) (retract : Option α) : Option α :=
  match motion with
  | .drill cycle => (cycle.retract.map dialect.rounded).or retract
  | _ => retract

/-- The parameters hold the rounded numbers of a point. -/
def Carries (dialect : Dialect) (point : MotionPoint α) (parameters : Parameters α) : Prop :=
  ∀ wanted ∈ plainLetters, parameters.get? wanted =
    (dialect.roundedEntries (pointEntries point)).reverse.lookup wanted

theorem Carries.place (carries : Carries dialect point parameters) :
    parameters.get? 'X' = some (dialect.rounded point.position.x) ∧
      parameters.get? 'Y' = some (dialect.rounded point.position.y) ∧
      parameters.get? 'Z' = some (dialect.rounded point.position.z) ∧
      parameters.get? 'A' = point.rotary.map dialect.rounded := by
  have noPayload : ∀ wanted ∈ ['X', 'Y', 'Z', 'A'],
      (dialect.roundedEntries (payloadEntries point.motion)).reverse.lookup wanted = none := by
    intro wanted member
    simp only [List.mem_cons, List.not_mem_nil, or_false] at member
    cases point.motion with
    | arc shape => rcases member with rfl | rfl | rfl | rfl <;>
        simp [payloadEntries, List.lookup_append]
    | drill cycle => rcases member with rfl | rfl | rfl | rfl <;> simp [payloadEntries]
    | _ => rfl
  have read : ∀ wanted ∈ ['X', 'Y', 'Z', 'A'], parameters.get? wanted =
      (dialect.roundedEntries (entry 'X' (some point.position.x) ++
        entry 'Y' (some point.position.y) ++ entry 'Z' (some point.position.z) ++
        entry 'A' point.rotary)).reverse.lookup wanted := by
    intro wanted member
    have letter : wanted ∈ plainLetters := 
      List.mem_append_left ['I', 'J', 'K', 'R', 'P', 'Q'] member
    rw [carries wanted letter, pointEntries, roundedEntries_append, List.reverse_append,
      List.lookup_append, noPayload wanted member, Option.none_or]
  refine ⟨?_, ?_, ?_, ?_⟩
  · rw [read 'X' (by decide)]
    simp [List.lookup_append]
  · rw [read 'Y' (by decide)]
    simp [List.lookup_append]
  · rw [read 'Z' (by decide)]
    simp [List.lookup_append]
  · rw [read 'A' (by decide)]
    simp [List.lookup_append]

theorem Carries.payload (carries : Carries dialect point parameters) :
    ∀ wanted ∈ ['I', 'J', 'K', 'R', 'P', 'Q'], parameters.get? wanted =
      (dialect.roundedEntries (payloadEntries point.motion)).reverse.lookup wanted := by
  intro wanted member
  have letter : wanted ∈ plainLetters :=
    List.mem_append_right ['X', 'Y', 'Z', 'A'] member
  have noPlace : (dialect.roundedEntries (entry 'X' (some point.position.x) ++
        entry 'Y' (some point.position.y) ++ entry 'Z' (some point.position.z) ++
        entry 'A' point.rotary)).reverse.lookup wanted = none := by
    simp only [List.mem_cons, List.not_mem_nil, or_false] at member
    rcases member with rfl | rfl | rfl | rfl | rfl | rfl <;> simp [List.lookup_append]
  rw [carries wanted letter, pointEntries, roundedEntries_append, List.reverse_append,
    List.lookup_append, noPlace, Option.or_none]

theorem Carries.motionOf? (carries : Carries dialect point parameters)
    (moves : point.isDwell = false)
    (inForce : state.modal.motion = motionNumber point.motion) :
    Program.motionOf? state parameters =
      some (dialect.readMotion state.retract point.motion,
        retractAfter dialect point.motion state.retract) := by
  have payload := carries.payload
  cases motion : point.motion with
  | rapid =>
      rw [motion] at inForce
      simp [Program.motionOf?, inForce, motionNumber, Dialect.readMotion, retractAfter]
  | linear =>
      rw [motion] at inForce
      simp [Program.motionOf?, inForce, motionNumber, Dialect.readMotion, retractAfter]
  | arc shape =>
      rw [motion] at inForce payload
      have words : ∀ rotation, Program.arcOf rotation parameters =
          { dialect.roundedArc shape with rotation } := by
        intro rotation
        rw [Program.arcOf, payload 'I' (by decide), payload 'J' (by decide),
          payload 'K' (by decide), payload 'R' (by decide)]
        simp [payloadEntries, Dialect.roundedArc, List.lookup_append]
      cases rotation : shape.rotation with
      | clockwise =>
          have number : state.modal.motion = 2 := by
            rw [inForce, motionNumber, rotation]
          simp [Program.motionOf?, number, words, Dialect.readMotion, retractAfter,
            Dialect.roundedArc, rotation]
      | counterclockwise =>
          have number : state.modal.motion = 3 := by
            rw [inForce, motionNumber, rotation]
          simp [Program.motionOf?, number, words, Dialect.readMotion, retractAfter,
            Dialect.roundedArc, rotation]
  | drill cycle =>
      rw [motion] at inForce payload
      have number : state.modal.motion = 81 := inForce
      have retract : parameters.get? 'R' = cycle.retract.map dialect.rounded := by
        rw [payload 'R' (by decide)]
        simp [payloadEntries]
      have noDwell : parameters.get? 'P' = none := by
        rw [payload 'P' (by decide)]
        simp [payloadEntries]
      have noPeck : parameters.get? 'Q' = none := by
        rw [payload 'Q' (by decide)]
        simp [payloadEntries]
      simp [Program.motionOf?, number, retract, noDwell, noPeck, retractAfter,
        Program.ModalState.isDrillCycle, Dialect.readMotion, Dialect.readCycle]
  | dwell seconds => simp [MotionPoint.isDwell, motion, Motion.isDwell] at moves

end Reading

end Posting

end Milling
