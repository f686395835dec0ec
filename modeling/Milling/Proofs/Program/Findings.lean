import Milling.Expression.Evaluation
import Milling.Program.Check
import Milling.Proofs.Machining.Trail
import Milling.Proofs.Program.ToolReport
import Milling.Proofs.Program.Snapshot

/-!
# Warnings about points and about commands

The points of a program are checked under the motion that is in force, and its
commands under the last code of their line.  A warning about a point is
therefore also one about the command of its line exactly where that code is the
one for the motion in force: not where another code follows it, and not where
the motion is inherited from an earlier line.
-/

namespace Milling

variable {α : Type}

section Reports

theorem Report.mem_warnings_concat {reports : List (Report α)} {fault : Fault α} :
    fault ∈ (Report.concat reports).warnings ↔ ∃ report ∈ reports, fault ∈ report.warnings :=
  List.mem_flatMap

theorem Report.warnings_errorIf (condition : Bool) (fault : Fault α) :
    (Report.errorIf condition fault).warnings = [] := by
  cases condition <;> rfl

end Reports

theorem MotionPoint.kind_eq_rapid_iff (point : MotionPoint α) :
    point.kind = .rapid ↔ point.motion = .rapid := by
  unfold MotionPoint.kind
  cases point.motion <;> simp [Motion.kind]

variable [Scalar α]

theorem Arc.form?_eq_none_iff {arc : Arc α} :
    arc.form? = none ↔ arc.i = none ∧ arc.j = none ∧ arc.k = none ∧ arc.radius = none := by
  unfold Arc.form?
  cases arc.i <;> cases arc.j <;> cases arc.k <;> simp

namespace Program

section Checks

theorem warnings_checkAxis (line : Nat) (axis : Char) (value : Option α) :
    (checkAxis line axis value).warnings = [] := by
  cases value with
  | none => rfl
  | some value => exact Report.warnings_errorIf _ _

theorem warnings_checkFeed (line : Nat) (feed : Option α) :
    (checkFeed line feed).warnings = [] := by
  cases feed with
  | none => rfl
  | some feed => exact Report.warnings_errorIf _ _

theorem warnings_checkSpindle (line : Nat) (speed : Option α) :
    (checkSpindle line speed).warnings = [] := by
  cases speed with
  | none => rfl
  | some speed => exact Report.warnings_errorIf _ _

theorem mem_warnings_checkPoint {line : Nat} {point : MotionPoint α} {fault : Fault α} :
    fault ∈ (checkPoint line point).warnings ↔
      (fault = .feedOnRapid line ∧ point.motion = .rapid ∧ point.feed.isSome = true) ∨
        (fault = .missingArcCenter line ∧
          ∃ shape, point.motion = .arc shape ∧ shape.form? = none) := by
  rw [← MotionPoint.kind_eq_rapid_iff]
  cases motion : point.motion <;>
    simp [checkPoint, Report.concat, warnings_checkAxis, warnings_checkFeed,
      warnings_checkSpindle, Report.mem_warningIf, motion, and_comm]

theorem mem_warnings_checkCommand {command : Command α} {fault : Fault α} :
    fault ∈ (checkCommand command).warnings ↔
      (fault = .feedOnRapid command.line ∧ command.code? = some (Code.g 0) ∧
          command.has 'F' = true) ∨
        (fault = .missingArcCenter command.line ∧
          (command.code? = some (Code.g 2) ∨ command.code? = some (Code.g 3)) ∧
          ∀ letter ∈ ['I', 'J', 'K', 'R'], command.has letter = false) := by
  have silent {reports : List (Report α)} (each : ∀ report ∈ reports, report.warnings = []) :
      reports.flatMap Report.warnings = [] := List.flatMap_eq_nil_iff.mpr each
  have warnings : (checkCommand command).warnings =
      (Report.warningIf (command.code? == some (Code.g 0) && command.has 'F')
        (.feedOnRapid command.line)).warnings ++
      (Report.warningIf ((command.code? == some (Code.g 2) || command.code? == some (Code.g 3)) &&
        ['I', 'J', 'K', 'R'].all (!command.has ·)) (.missingArcCenter command.line)).warnings := by
    simp only [checkCommand, Report.concat, List.flatMap_append]
    rw [@silent (command.parameters.entries.map _)]
    · simp [warnings_checkFeed, warnings_checkSpindle]
    · intro report member
      obtain ⟨⟨letter, value⟩, _, rfl⟩ := List.mem_map.mp member
      dsimp only
      split
      · exact warnings_checkAxis _ _ _
      · rfl
  rw [warnings, List.mem_append, Report.mem_warningIf, Report.mem_warningIf]
  simp [and_comm]

end Checks

section Points

omit [Scalar α] in
theorem motion_of_motionOf?_rapid {state : ReadingState α} {parameters : Parameters α}
    {retract : Option α} (given : motionOf? state parameters = some (.rapid, retract)) :
    state.modal.motion = 0 := by
  unfold motionOf? at given
  split at given
  · assumption
  · cases given
  · cases given
  · cases given
  · dsimp only at given
    split at given <;> cases given

omit [Scalar α] in
theorem motion_of_motionOf?_arc {state : ReadingState α} {parameters : Parameters α}
    {shape : Arc α} {retract : Option α}
    (given : motionOf? state parameters = some (.arc shape, retract)) :
    (state.modal.motion = 2 ∨ state.modal.motion = 3) ∧
      shape = arcOf shape.rotation parameters := by
  unfold motionOf? at given
  split at given
  · cases given
  · cases given
  · cases given
    exact ⟨.inl ‹_›, rfl⟩
  · cases given
    exact ⟨.inr ‹_›, rfl⟩
  · dsimp only at given
    split at given <;> cases given

/-- A point is what the words of a command make of the motion in force. -/
structure Command.Gives (command : Command α) (point : MotionPoint α) : Prop where
  line : point.line = some command.line
  rapid : point.motion = .rapid → command.modal.motion = 0 ∧ point.feed = command.get? 'F'
  arc : ∀ shape, point.motion = .arc shape →
    (command.modal.motion = 2 ∨ command.modal.motion = 3) ∧
      shape = arcOf shape.rotation command.parameters

theorem gives_of_moveTo {line : Nat} {parameters : Parameters α} {comment : Option String}
    {state : ReadingState α} {point : MotionPoint α}
    (moved : (moveTo line parameters comment state).2.1 = some point) {command : Command α}
    (sameLine : command.line = line) (sameParameters : command.parameters = parameters)
    (sameModal : command.modal = state.modal) : command.Gives point := by
  unfold moveTo at moved
  dsimp only at moved
  split at moved
  · cases moved
  · rename_i motion retract given
    obtain rfl := Option.some.inj moved
    refine ⟨by rw [sameLine], ?_, ?_⟩
    · intro isRapid
      dsimp only at isRapid
      subst isRapid
      rw [sameModal, Command.get?, sameParameters]
      exact ⟨motion_of_motionOf?_rapid given, rfl⟩
    · intro shape isArc
      dsimp only at isArc
      subst isArc
      rw [sameModal, sameParameters]
      exact motion_of_motionOf?_arc given

variable (calculate : String → Except String α)

theorem readWords_gives (line : Nat) (raw : String) (code : List Char)
    (comment : Option String) (state : ReadingState α) :
    ∀ point ∈ (readWords calculate line raw code comment state).1.point,
      ∃ command ∈ (readWords calculate line raw code comment state).1.command,
        command.Gives point := by
  intro point isPoint
  refine ⟨_, rfl, ?_⟩
  simp only [readWords] at isPoint ⊢
  split at isPoint
  · obtain rfl := Option.some.inj isPoint
    refine ⟨rfl, ?_, ?_⟩
    · intro isRapid
      cases isRapid
    · intro shape isArc
      cases isArc
  · split at isPoint
    · exact gives_of_moveTo isPoint rfl rfl (by rw [(selectTool_modal _ _ _).1])
    · cases isPoint

theorem readLine_gives (line : Nat) (written : List Char) (state : ReadingState α) :
    ∀ point ∈ (readLine calculate line written state).1.point,
      ∃ command ∈ (readLine calculate line written state).1.command, command.Gives point := by
  intro point isPoint
  simp only [readLine] at isPoint ⊢
  split at isPoint
  · cases isPoint
  · split at isPoint
    · cases isPoint
    · rename_i shown _ _
      rw [if_neg shown]
      exact readWords_gives calculate line _ _ _ state point isPoint

omit [Scalar α] in
/-- The last code of a line is in force after it where it is one of the codes for
straight and circular motion. -/
theorem motion_of_code? {command : Command α} {before : ModalState}
    (follows : command.modal = command.codes.foldl ModalState.apply before) {number : Nat}
    (moves : number ≤ 3) (last : command.code? = some (Code.g number)) :
    command.modal.motion = number := by
  obtain ⟨earlier, split⟩ := List.getLast?_eq_some_iff.mp last
  have filed : ModalGroup.of? (Code.g number) = some .motion := by
    simp [ModalGroup.of?, ModalGroup.ofG?, Code.g, moves]
  rw [follows, split, List.foldl_append, List.foldl_cons, List.foldl_nil,
    ModalState.apply_of_filed filed]
  rfl

end Points

section Agreement

variable (calculate : String → Except String α)

theorem exists_gives (tool : Nat) (text : String) {point : MotionPoint α}
    (member : point ∈ (readProgram calculate tool text).toolpath.points) :
    ∃ command ∈ (readProgram calculate tool text).commands, command.Gives point := by
  have isRead : point ∈ (readLines calculate 1 (.start tool) (textLines text.toList)).1.filterMap
      LineEffect.point := by
    simpa [readProgram] using member
  obtain ⟨effect, isEffect, isPoint⟩ := List.mem_filterMap.mp isRead
  obtain ⟨index, isAt⟩ := List.mem_iff_getElem?.mp isEffect
  obtain ⟨written, before, _, rfl⟩ := exists_of_getElem?_readLines calculate isAt
  obtain ⟨command, isCommand, gives⟩ := readLine_gives calculate _ written before point isPoint
  exact ⟨command, List.mem_filterMap.mpr ⟨_, isEffect, isCommand⟩, gives⟩

/-- Commands of one line are the same. -/
theorem command_unique (tool : Nat) (text : String) {first second : Command α}
    (isFirst : first ∈ (readProgram calculate tool text).commands)
    (isSecond : second ∈ (readProgram calculate tool text).commands)
    (sameLine : first.line = second.line) : first = second := by
  have sorted : (readProgram calculate tool text).commands.Pairwise
      fun first second => first.line < second.line :=
    (readLines_runs calculate 1 (.start tool) (textLines text.toList)).commands_sorted
  have distinct : ((readProgram calculate tool text).commands.map Command.line).Nodup :=
    List.pairwise_map.mpr (sorted.imp Nat.ne_of_lt)
  exact List.inj_on_of_nodup_map distinct isFirst isSecond sameLine

theorem exists_modal_before (tool : Nat) (text : String) {command : Command α}
    (member : command ∈ (readProgram calculate tool text).commands) :
    ∃ before, command.modal = command.codes.foldl ModalState.apply before := by
  obtain ⟨earlier, later, split⟩ := List.append_of_mem member
  have chained : Chained {} (readProgram calculate tool text).commands :=
    readLines_chained calculate 1 (.start tool) (textLines text.toList)
  rw [split] at chained
  refine ⟨(earlier.flatMap Command.codes).foldl ModalState.apply {}, ?_⟩
  rw [chained.modal_eq, List.flatMap_append, List.foldl_append, List.flatMap_singleton]

/-- A warning about a point is also one about its command where the last code of the line
is that of the motion in force. -/
theorem Command.Gives.warned_iff {command : Command α} {point : MotionPoint α}
    (gives : command.Gives point) {before : ModalState}
    (follows : command.modal = command.codes.foldl ModalState.apply before) {fault : Fault α}
    (warned : fault ∈ (checkPoint command.line point).warnings) :
    fault ∈ (checkCommand command).warnings ↔
      command.code? = some (Code.g command.modal.motion) := by
  rcases mem_warnings_checkPoint.mp warned with ⟨rfl, isRapid, fed⟩ | ⟨rfl, shape, isArc, formless⟩
  · obtain ⟨motion, feed⟩ := gives.rapid isRapid
    have hasFeed : command.has 'F' = true := by
      rw [feed] at fed
      exact fed
    simp [mem_warnings_checkCommand, motion, hasFeed]
  · obtain ⟨motion, isShape⟩ := gives.arc shape isArc
    have bare : ∀ letter ∈ ['I', 'J', 'K', 'R'], command.has letter = false := by
      rw [isShape, Arc.form?_eq_none_iff] at formless
      obtain ⟨noI, noJ, noK, noRadius⟩ := formless
      dsimp only [arcOf] at noI noJ noK noRadius
      simp [Command.has, Parameters.has, noI, noJ, noK, noRadius]
    have motionCode : (command.code? = some (Code.g 2) ∨ command.code? = some (Code.g 3)) ↔
        command.code? = some (Code.g command.modal.motion) := by
      constructor
      · rintro (last | last)
        · rw [motion_of_code? follows (by decide) last, last]
        · rw [motion_of_code? follows (by decide) last, last]
      · rcases motion with inForce | inForce
        · rw [inForce]
          exact .inl
        · rw [inForce]
          exact .inr
    rw [mem_warnings_checkCommand, motionCode]
    simp [bare]

theorem line?_of_mem_checkPoint {line : Nat} {point : MotionPoint α} {fault : Fault α}
    (warned : fault ∈ (checkPoint line point).warnings) : fault.line? = some line := by
  rcases mem_warnings_checkPoint.mp warned with ⟨rfl, _⟩ | ⟨rfl, _⟩ <;> rfl

theorem line?_of_mem_checkCommand {command : Command α} {fault : Fault α}
    (warned : fault ∈ (checkCommand command).warnings) : fault.line? = some command.line := by
  rcases mem_warnings_checkCommand.mp warned with ⟨rfl, _⟩ | ⟨rfl, _⟩ <;> rfl

/-- A warning about the points of a program is given about its commands too exactly where
the last code of the line is that of the motion in force. -/
theorem mem_warnings_checkCommands_iff (tool : Nat) (text : String) {fault : Fault α}
    (warned : fault ∈ (checkToolpath (readProgram calculate tool text).toolpath).warnings) :
    fault ∈ (checkCommands (readProgram calculate tool text).commands).warnings ↔
      ∃ command ∈ (readProgram calculate tool text).commands,
        fault.line? = some command.line ∧
          command.code? = some (Code.g command.modal.motion) := by
  obtain ⟨report, isReport, inReport⟩ := Report.mem_warnings_concat.mp warned
  obtain ⟨⟨point, index⟩, indexed, rfl⟩ := List.mem_map.mp isReport
  obtain ⟨command, isCommand, gives⟩ :=
    exists_gives calculate tool text (List.fst_mem_of_mem_zipIdx indexed)
  obtain ⟨before, follows⟩ := exists_modal_before calculate tool text isCommand
  dsimp only at gives inReport
  rw [gives.line, Option.getD_some] at inReport
  have lined : fault.line? = some command.line := line?_of_mem_checkPoint inReport
  have same (other : Command α)
      (isOther : other ∈ (readProgram calculate tool text).commands)
      (onLine : fault.line? = some other.line) : other = command :=
    command_unique calculate tool text isOther isCommand
      (Option.some.inj (onLine.symm.trans lined))
  have here := gives.warned_iff follows inReport
  constructor
  · intro listed
    obtain ⟨_, isListed, inListed⟩ := Report.mem_warnings_concat.mp listed
    obtain ⟨other, isOther, rfl⟩ := List.mem_map.mp isListed
    obtain rfl := same other isOther (line?_of_mem_checkCommand inListed)
    exact ⟨other, isOther, lined, here.mp inListed⟩
  · rintro ⟨other, isOther, onLine, inForce⟩
    obtain rfl := same other isOther onLine
    exact Report.mem_warnings_concat.mpr
      ⟨_, List.mem_map.mpr ⟨other, isOther, rfl⟩, here.mpr inForce⟩

/-- A rapid move with a feed and an arc without a centre, each under its own code. -/
def loudText : String := "G0 X5 F300\nM3 G2 X9"

theorem mem_warnings_checkCommands_iff_loud :
    let outcome := readProgram Expression.number 1 loudText
    .missingArcCenter 2 ∈ (checkToolpath outcome.toolpath).warnings ∧
      (.missingArcCenter 2 ∈ (checkCommands outcome.commands).warnings ↔
        ∃ command ∈ outcome.commands, some 2 = some command.line ∧
          command.code? = some (Code.g command.modal.motion)) := by
  have warned : .missingArcCenter 2 ∈
      (checkToolpath (readProgram Expression.number 1 loudText).toolpath).warnings := by
    decide +kernel
  exact ⟨warned, mem_warnings_checkCommands_iff Expression.number 1 loudText warned⟩

/-- A code for the coolant behind the one for the motion hides the rapid move. -/
theorem warnings_hidden :
    let outcome := readProgram Expression.number 1 "G0 X10 F300 M8"
    (checkToolpath outcome.toolpath).warnings = [.feedOnRapid 1] ∧
      (checkCommands outcome.commands).warnings = [] := by
  decide +kernel

end Agreement

end Program

end Milling
