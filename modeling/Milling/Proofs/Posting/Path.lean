import Milling.Proofs.Posting.Point

/-!
# The lines of a path

Every point adds its lines, which keep the agreement between writer, compaction
and reading, and the last of them reads back as the point.  By induction the
lines of a path read back point by point.
-/

namespace Milling

variable {α : Type}

theorem Motion.isCutting_of_kind {first second : Motion α} (same : first.kind = second.kind) :
    first.isCutting = second.isCutting := by
  cases first <;> cases second <;> first | rfl | cases same

namespace Posting

open Program (Parameters ReadingState noted)

variable [Scalar α] {dialect : Dialect} {state : Emitted α} {feed : Option α}
  {point : MotionPoint α}

section Move

variable {parameters : Parameters α} {reading : ReadingState α}

/-- What the reading has reached after the move of a point. -/
def movedTo (dialect : Dialect) (point : MotionPoint α) (reading : ReadingState α) :
    ReadingState α :=
  { reading with
    position := dialect.roundedPosition point.position
    rotary := (point.rotary.map dialect.rounded).or reading.rotary
    retract := retractAfter dialect point.motion reading.retract }

/-- How a point is read from a state on, where `feed` is the latest of a cutting
point. -/
structure IsReadFrom (dialect : Dialect) (feed : Option α) (reading : ReadingState α)
    (source given : MotionPoint α) : Prop where
  motion : given.motion = dialect.readMotion reading.retract source.motion
  tool : given.tool = reading.tool
  position : source.isDwell = false →
    given.position = dialect.roundedPosition source.position
  feed : source.isCutting = true → given.feed = feed.map dialect.rounded

theorem IsReadFrom.readsBack {given : MotionPoint α}
    (isRead : IsReadFrom dialect feed reading point given) (sameTool : reading.tool = point.tool) :
    ReadsBack dialect feed point given where
  kind := by
    rw [MotionPoint.kind, isRead.motion, kind_readMotion]
    rfl
  tool := isRead.tool.trans sameTool
  position := isRead.position
  arc := by
    intro shape isArc
    rw [isRead.motion, isArc]
    rfl
  dwell := by
    intro seconds waits
    rw [isRead.motion, waits]
    rfl
  feed := isRead.feed

theorem Carries.moveTo (carries : Carries dialect point parameters)
    (moves : point.isDwell = false) (absolute : reading.modal.distance = 90)
    (inForce : reading.modal.motion = motionNumber point.motion)
    (fed : reading.feed = feed.map dialect.rounded) (line : Nat) (comment : Option String) :
    (Program.moveTo line parameters comment reading).1 = movedTo dialect point reading ∧
      ∃ given, (Program.moveTo line parameters comment reading).2.1 = some given ∧
        IsReadFrom dialect feed reading point given ∧
        given.position = dialect.roundedPosition point.position := by
  have reads := carries.motionOf? moves inForce
  obtain ⟨readX, readY, readZ, readA⟩ := carries.place
  have notIncremental : reading.modal.isIncremental = false := by
    simp [Program.ModalState.isIncremental, absolute]
  have position : Program.targetPosition reading parameters =
      dialect.roundedPosition point.position := by
    simp [Program.targetPosition, Program.targetAlong, notIncremental, readX, readY, readZ,
      Dialect.roundedPosition]
  have rotary : Program.targetRotary reading parameters =
      (point.rotary.map dialect.rounded).or reading.rotary := by
    rw [Program.targetRotary, readA]
    cases point.rotary with
    | none => rfl
    | some angle => simp [notIncremental]
  have cutting : (dialect.readMotion reading.retract point.motion).isCutting =
      point.isCutting := Motion.isCutting_of_kind (kind_readMotion dialect _ point.motion)
  simp only [Program.moveTo, reads, position, rotary]
  refine ⟨rfl, _, rfl, { motion := rfl, tool := rfl, position := fun _ => rfl, feed := ?_ }, rfl⟩
  intro cuts
  simp only [cutting, cuts, if_true, fed]

end Move

section Feed

theorem mem_of_positive? {value : Option α} {number : α}
    (positive : positive? value = some number) :
    number ∈ value := (Option.mem_filter_iff.mp positive).1

theorem mem_of_newFeed {number : α} (new : newFeed state point = some number) :
    number ∈ point.feed :=
  mem_of_positive? (Option.mem_filter_iff.mp new).1

theorem rounded_newFeed [DecimalScalar α]
    (latest : state.feed.map dialect.rounded = feed.map dialect.rounded) :
    ((newFeed state point).or state.feed).map dialect.rounded =
      (latestFeed feed point).map dialect.rounded := by
  unfold newFeed latestFeed
  by_cases cuts : point.isCutting = true
  · rw [if_pos cuts]
    cases positive? point.feed with
    | none => simpa using latest
    | some value =>
        by_cases new : isNew state.feed value = true
        · simp [Option.filter_some, cuts, new]
        · cases current : state.feed with
          | none => simp [isNew, current] at new
          | some old =>
              have equal : (old == value) = true := by simpa [isNew, current] using new
              simp [Option.filter_some, cuts, isNew, equal,
                dialect.rounded_congr equal]
  · rw [if_neg cuts, Option.none_or]
    cases positive? point.feed with
    | none => simpa using latest
    | some value => simpa [Option.filter_some, cuts] using latest

end Feed

section Step

variable [DecimalScalar α] {calculate : String → Except String α} {stage : Stage α}

/-- A line that gives one point, which is read from a stage on, and where the
reading is then. -/
def GivesPoint (dialect : Dialect) (feed : Option α) (point : MotionPoint α)
    (before after : Stage α) (given : List (MotionPoint α)) : Prop :=
  ∃ read, given = [read] ∧ IsReadFrom dialect feed before.reading point read ∧
    after.reading.position = read.position

/-- Lines that give a point, after which the three agree about the next state of the
writer and the retract height is that of the point. -/
def Writes (calculate : String → Except String α) (dialect : Dialect) (lines : List Line)
    (next : Emitted α) (feed : Option α) (point : MotionPoint α) (stage : Stage α) : Prop :=
  ∃ after, Passes calculate lines stage after (GivesPoint dialect feed point stage after) ∧
    Follows dialect next feed after ∧
    after.reading.retract = retractAfter dialect point.motion stage.reading.retract

omit [Scalar α] [DecimalScalar α] in
theorem noteOf_facts (oneLine : ∀ comment ∈ point.comment, '\n' ∉ comment.toList) :
    ∀ remark ∈ noteOf dialect point, Program.IsNote remark ∧ '\n' ∉ remark := by
  intro remark member
  obtain ⟨comment, isComment, rfl⟩ := Option.map_eq_some_iff.mp member
  have inComment := oneLine comment (Option.mem_filter_iff.mp isComment).1
  exact ⟨isNote_comment dialect comment.toList, newline_notMem_comment dialect inComment⟩

omit [DecimalScalar α] in
theorem plainEntries_pointEntries (postable : point.Postable) :
    PlainEntries (pointEntries point) := by
  have finite := postable.finite
  simp only [MotionPoint.written, List.mem_append] at finite
  have place : PlainEntries (entry 'X' (some point.position.x) ++
      entry 'Y' (some point.position.y) ++ entry 'Z' (some point.position.z)) := by
    intro written member
    simp [entry] at member
    rcases member with rfl | rfl | rfl
    · exact ⟨by simp [plainLetters], finite _ (by simp)⟩
    · exact ⟨by simp [plainLetters], finite _ (by simp)⟩
    · exact ⟨by simp [plainLetters], finite _ (by simp)⟩
  have rotary : PlainEntries (entry 'A' point.rotary) :=
    .entry (by decide) fun value member => finite value (by simp [Option.mem_def.mp member])
  have payload : PlainEntries (payloadEntries point.motion) := by
    have given : ∀ value ∈ point.motion.written, Scalar.isFinite value = true :=
      fun value member => finite value (.inr member)
    cases motion : point.motion with
    | arc shape =>
        simp only [motion, Motion.written, List.mem_append, Option.mem_toList] at given
        refine (((PlainEntries.entry (by decide) ?_).append
          (.entry (by decide) ?_)).append (.entry (by decide) ?_)).append
            (.entry (by decide) ?_)
        · exact fun value member => given value (.inl (.inl (.inl member)))
        · exact fun value member => given value (.inl (.inl (.inr member)))
        · exact fun value member => given value (.inl (.inr member))
        · exact fun value member => given value (.inr member)
    | drill cycle =>
        simp only [motion, Motion.written, Option.mem_toList] at given
        exact .entry (by decide) given
    | _ => exact .nil
  exact (place.append rotary).append payload

theorem Follows.feed_read (follows : Follows dialect state feed stage) {value : α}
    (finite : Scalar.isFinite value = true)
    (inForce : stage.inForce.feed = some (dialect.numberText value)) :
    stage.reading.feed = some (dialect.rounded value) := by
  rw [follows.written, Option.map_eq_some_iff] at inForce
  obtain ⟨old, isOld, alike⟩ := inForce
  rw [follows.read, isOld, Option.map_some,
    dialect.rounded_eq_of_numberText_eq (follows.finite old isOld) finite alike]

theorem Follows.move (follows : Follows dialect state feed stage) (postable : point.Postable)
    (moves : point.isDwell = false) :
    Writes calculate dialect
      [withComment dialect (joinWords (pointWords dialect state point).1) point]
      (pointWords dialect state point).2 (latestFeed feed point) point stage := by
  rw [pointWords_of_moves dialect state moves]
  rw [withComment_eq dialect _ (List.cons_ne_nil _ _)]
  have finite : ∀ value ∈ newFeed state point, Scalar.isFinite value = true := by
    intro value isNewFeed
    apply postable.finite
    have given := mem_of_newFeed isNewFeed
    simp [MotionPoint.written, Option.mem_def.mp given]
  have feedAgrees : ∀ value ∈ newFeed state point,
      stage.inForce.feed = some (dialect.numberText value) →
        stage.reading.feed = some (dialect.rounded value) :=
    fun value isNewFeed => follows.feed_read (finite value isNewFeed)
  have axis : ∃ written ∈ pointEntries point, written.1 ∈ ['X', 'Y', 'Z', 'A'] :=
    ⟨('X', point.position.x), by simp [pointEntries, entry], by simp⟩
  let number := motionNumber point.motion
  let moving : ReadingState α :=
    inMotion dialect stage.reading number (newFeed state point)
  have absolute : moving.modal.distance = 90 := follows.absolute
  have inForce : moving.modal.motion = motionNumber point.motion := rfl
  have fed : moving.feed = (latestFeed feed point).map dialect.rounded := by
    rw [← rounded_newFeed follows.latest, Option.map_or, ← follows.read]
    rfl
  let after : Stage α :=
    { inForce := { stage.inForce with
        motion := some number
        feed := ((newFeed state point).map dialect.numberText).or stage.inForce.feed }
      reading := movedTo dialect point moving }
  refine ⟨after, ?_, ?_, rfl⟩
  · refine Passes.move dialect (isMotionWord_motionWord moves) follows.motion
      (plainEntries_pointEntries postable) axis finite feedAgrees
      (fun remark member => (noteOf_facts postable.oneLine remark member).1)
      (fun remark member => (noteOf_facts postable.oneLine remark member).2) ?_
    intro line comment parameters carries
    obtain ⟨reached, given, gives, isRead, position⟩ :=
      Carries.moveTo carries moves absolute inForce fed line comment
    refine ⟨reached, given, ?_, { isRead with }, position.symm⟩
    rw [gives]
    rfl
  · refine
      { motion := rfl
        absolute
        tool := follows.tool
        finite := ?_
        written := ?_
        read := ?_
        latest := rounded_newFeed follows.latest }
    · intro value member
      rcases Option.or_eq_some_iff.mp member with isNewFeed | ⟨_, old⟩
      · exact finite value isNewFeed
      · exact follows.finite value old
    · rw [Option.map_or, ← follows.written]
    · rw [Option.map_or, ← follows.read]
      rfl

section Pause

omit [DecimalScalar α] in
theorem pointWords_of_dwell {seconds : α} (motion : point.motion = .dwell seconds) :
    pointWords dialect state point = (["G4".toList, dialect.word 'P' seconds], state) := by
  simp only [pointWords, motion]
  rfl

omit [DecimalScalar α] in
theorem keepWords_pause (dialect : Dialect) (inForce : InForce) (seconds : α) :
    keepWords inForce ["G4".toList, dialect.word 'P' seconds] =
      (inForce, ["G4".toList, dialect.word 'P' seconds]) := by
  have hold : keepWord inForce "G4".toList = (inForce, some "G4".toList) := rfl
  have pause : keepWord inForce (dialect.word 'P' seconds) =
      (inForce, some (dialect.word 'P' seconds)) :=
    keepWord_other (by decide) (by decide) inForce (dialect.numberText seconds)
  rw [keepWords_cons, hold, keepWords_cons, pause]
  rfl

variable {seconds : α} (finite : Scalar.isFinite seconds = true)

include finite

omit [DecimalScalar α] in
theorem isWord_pause : ∀ word ∈ ["G4".toList, dialect.word 'P' seconds], Program.IsWord word := by
  intro word member
  simp only [List.mem_cons, List.not_mem_nil, or_false] at member
  rcases member with rfl | rfl
  · decide
  · exact dialect.isWord_word (by decide) finite

theorem gathers_pause : Program.Gathers ["G4".toList, dialect.word 'P' seconds] [Program.Code.g 4]
    [('P', dialect.rounded seconds)] :=
  .numbered (.inl rfl) (by decide) (by decide)
    (.parameter (by decide) (dialect.numberValue_numberText finite) .nil)

end Pause

theorem Follows.wait (follows : Follows dialect state feed stage) (postable : point.Postable)
    (waits : point.isDwell = true) :
    Writes calculate dialect
      [withComment dialect (joinWords (pointWords dialect state point).1) point]
      (pointWords dialect state point).2 (latestFeed feed point) point stage := by
  obtain ⟨seconds, motion⟩ : ∃ seconds, point.motion = .dwell seconds := by
    cases motion : point.motion with
    | dwell seconds => exact ⟨seconds, rfl⟩
    | _ => simp [MotionPoint.isDwell, motion, Motion.isDwell] at waits
  have finite : Scalar.isFinite seconds = true :=
    postable.finite seconds (by simp [MotionPoint.written, motion, Motion.written])
  have notCutting : point.isCutting = false := by
    simp [MotionPoint.isCutting, motion, Motion.isCutting]
  have sameFeed : latestFeed feed point = feed := by
    simp [latestFeed, notCutting]
  have kept := keepWords_pause dialect stage.inForce seconds
  have gathers : Program.Gathers
      (keepWords stage.inForce ["G4".toList, dialect.word 'P' seconds]).2 [Program.Code.g 4]
      [('P', dialect.rounded seconds)] := by
    rw [kept]
    exact gathers_pause finite
  have noteKept : (keepWords stage.inForce ["G4".toList, dialect.word 'P' seconds]).2 = [] →
      noteOf dialect point = none := by
    rw [kept]
    intro empty
    cases empty
  have prepared : ∀ line, stage.reading.prepared line [Program.Code.g 4]
      (Parameters.insertAll {} [('P', dialect.rounded seconds)]) = stage.reading :=
    fun line => rfl
  have passes : Passes calculate
      [noted ["G4".toList, dialect.word 'P' seconds] (noteOf dialect point)] stage
      { inForce := (keepWords stage.inForce ["G4".toList, dialect.word 'P' seconds]).1
        reading := stage.reading }
      (GivesPoint dialect feed point stage stage) := by
    refine Passes.words (List.cons_ne_nil _ _) (isWord_pause finite)
      (fun remark member => (noteOf_facts postable.oneLine remark member).1)
      (fun remark member => (noteOf_facts postable.oneLine remark member).2)
      noteKept gathers ?_
    intro line comment
    have isHeld : [Program.Code.g 4].any (· == Program.Code.g 4) = true := by decide
    rw [Program.obey, if_pos isHeld, prepared]
    refine ⟨rfl, _, rfl, ?_, rfl⟩
    exact
      { motion := by
          rw [motion]
          rfl
        tool := rfl
        position := by simp [waits]
        feed := by simp [notCutting] }
  have keepsRetract : stage.reading.retract =
      retractAfter dialect point.motion stage.reading.retract := by
    rw [motion]
    rfl
  rw [pointWords_of_dwell motion, sameFeed]
  refine ⟨stage, ?_, follows, keepsRetract⟩
  rw [withComment_eq dialect _ (List.cons_ne_nil _ _)]
  rw [kept] at passes
  exact passes

omit [DecimalScalar α] in
theorem spindleLines_tool (state : Emitted α) (point : MotionPoint α) :
    (spindleLines state point).2.tool = state.tool := by
  unfold spindleLines
  cases positive? point.spindle with
  | none => rfl
  | some speed =>
      dsimp only
      split <;> rfl

/-- What is set when the line of a point itself is written. -/
def readyState (state : Emitted α) (point : MotionPoint α) : Emitted α :=
  (cycleLines (spindleLines (toolLines state point).2 point).2 point).2

omit [DecimalScalar α] in
theorem readyState_tool (state : Emitted α) (nonzero : point.tool ≠ 0) :
    (readyState state point).tool = some point.tool := by
  have kept : (readyState state point).tool = (toolLines state point).2.tool :=
    spindleLines_tool _ point
  rw [kept, toolLines_snd state nonzero]

/-- All lines of a point: what it sets, and the point itself, which is read from
what is set then. -/
theorem Follows.writesPoint (follows : Follows dialect state feed stage)
    (postable : point.Postable) :
    ∃ ready after,
      Passes calculate (pointLines dialect state point).1 stage after
        (GivesPoint dialect (latestFeed feed point) point ready after) ∧
      Follows dialect (readyState state point) feed ready ∧
      Follows dialect (pointLines dialect state point).2 (latestFeed feed point) after ∧
      ready.reading.retract = stage.reading.retract ∧
      after.reading.retract = retractAfter dialect point.motion stage.reading.retract := by
  have tools : Settles calculate dialect (toolLines state point).1
      (toolLines state point).2 feed stage := follows.setsTool postable.bounded
  obtain ⟨tooled, toolPasses, toolFollows, _, toolRetract⟩ := tools
  have spindles : Settles calculate dialect (spindleLines (toolLines state point).2 point).1
      (spindleLines (toolLines state point).2 point).2 feed tooled :=
    toolFollows.setsSpindle point
  obtain ⟨spun, spindlePasses, spindleFollows, _, spindleRetract⟩ := spindles
  have cycles : Settles calculate dialect
      (cycleLines (spindleLines (toolLines state point).2 point).2 point).1
      (readyState state point) feed spun := spindleFollows.endsCycle point
  obtain ⟨ready, cyclePasses, readyFollows, _, cycleRetract⟩ := cycles
  obtain ⟨after, passes, holds, retract⟩ : Writes calculate dialect
      [withComment dialect (joinWords (pointWords dialect (readyState state point) point).1) point]
      (pointWords dialect (readyState state point) point).2 (latestFeed feed point) point
      ready := by
    cases waits : point.isDwell with
    | false => exact readyFollows.move postable waits
    | true => exact readyFollows.wait postable waits
  have settings := (toolPasses.append_silent spindlePasses).append_silent cyclePasses
  have sameRetract : ready.reading.retract = stage.reading.retract :=
    cycleRetract.trans (spindleRetract.trans toolRetract)
  refine ⟨ready, after, settings.append_silent passes, readyFollows, holds, sameRetract, ?_⟩
  rw [retract, sameRetract]

end Step

section Run

variable [DecimalScalar α] {calculate : String → Except String α} {stage : Stage α}

/-- Points that read back one for one, each with the latest feed up to it, and the
position after them. -/
structure ReadsPath (dialect : Dialect) (feed : Option α) (points : List (MotionPoint α))
    (start stop : Position α) (given : List (MotionPoint α)) : Prop where
  length : given.length = points.length
  point : ∀ index source read, points[index]? = some source → given[index]? = some read →
    ReadsBack dialect ((points.take (index + 1)).foldl latestFeed feed) source read
  stop : stop = (given.getLast?.map MotionPoint.position).getD start

omit [DecimalScalar α] in
theorem ReadsPath.cons {points rest : List (MotionPoint α)} {read : MotionPoint α}
    {start stop : Position α} (here : ReadsBack dialect (latestFeed feed point) point read)
    (later : ReadsPath dialect (latestFeed feed point) points read.position stop rest) :
    ReadsPath dialect feed (point :: points) start stop (read :: rest) where
  length := by
    rw [List.length_cons, List.length_cons, later.length]
  point := by
    intro index source given isSource isGiven
    cases index with
    | zero =>
        cases isSource
        cases isGiven
        exact here
    | succ index => exact later.point index source given isSource isGiven
  stop := by
    rw [later.stop, List.getLast?_cons]
    cases rest.getLast? <;> rfl

omit [DecimalScalar α] in
theorem Follows.endsPath (follows : Follows dialect state feed stage) :
    Settles calculate dialect (pathLines dialect state []) state feed stage := by
  rw [pathLines]
  split
  · exact ⟨_, passes_cancel follows.motion, { follows with motion := rfl }, rfl, rfl⟩
  · exact follows.settles

/-- The lines of a path read back point by point, whatever was set before. -/
theorem Follows.writesPath {points : List (MotionPoint α)}
    (follows : Follows dialect state feed stage)
    (writable : ∀ point ∈ points, point.Writable) :
    ∃ after, ∃ last : Emitted α,
      Passes calculate (pathLines dialect state points) stage after
        (ReadsPath dialect feed points stage.reading.position after.reading.position) ∧
      Follows dialect last (points.foldl latestFeed feed) after := by
  induction points generalizing state feed stage with
  | nil =>
      obtain ⟨after, passes, holds, position, _⟩ :
          Settles calculate dialect (pathLines dialect state []) state feed stage :=
        follows.endsPath
      refine ⟨after, state, passes.mono ?_, holds⟩
      rintro given rfl
      exact ⟨rfl, by simp, position⟩
  | cons point points ih =>
      have isWritable := writable point List.mem_cons_self
      obtain ⟨ready, middle, here, readyFollows, holds, _⟩ : ∃ ready middle,
          Passes calculate (pointLines dialect state point).1 stage middle
            (GivesPoint dialect (latestFeed feed point) point ready middle) ∧
          Follows dialect (readyState state point) feed ready ∧
          Follows dialect (pointLines dialect state point).2 (latestFeed feed point) middle ∧
          ready.reading.retract = stage.reading.retract ∧
          middle.reading.retract = retractAfter dialect point.motion stage.reading.retract :=
        follows.writesPoint isWritable.postable
      have sameTool : ready.reading.tool = point.tool :=
        readyFollows.tool _ (readyState_tool state isWritable.nonzero)
      obtain ⟨after, last, later, finally_⟩ :=
        ih holds fun other member => writable other (List.mem_cons_of_mem point member)
      refine ⟨after, last, ?_, finally_⟩
      refine here.append later ?_
      rintro left right ⟨read, rfl, isRead, position⟩ rest
      rw [position] at rest
      exact .cons (isRead.readsBack sameTool) rest

end Run

end Posting

end Milling
