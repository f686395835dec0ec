import Mathlib
import Milling.Proofs.Program.Optimization
import Milling.Proofs.Program.Performance

/-!
# Writing programs again

The commands of a program, written one to a line, make a program of their own.
Comments, line numbers, expressions and assignments are left out of it.  Where
the numbers read back as they are, it leads to the same points by the same
commands.
-/

namespace Milling

variable {α : Type}

/-- A point without the place in the program that it came from. -/
def MotionPoint.unplaced (point : MotionPoint α) : MotionPoint α :=
  { point with line := none, comment := none }

namespace Program

namespace Parameters

theorem mem_entries_iff {parameters : Parameters α} (isRead : parameters.IsRead)
    (entry : Char × α) :
    entry ∈ parameters.entries ↔ parameters.get? entry.1 = some entry.2 :=
  isRead.ordered.mem_iff

/-- Parameters that give each letter the same number are the same. -/
theorem eq_of_get? {first second : Parameters α} (isFirst : first.IsRead)
    (isSecond : second.IsRead) (same : ∀ letter, first.get? letter = second.get? letter) :
    first = second := by
  have nodup {parameters : Parameters α} (isRead : parameters.IsRead) :
      parameters.entries.Nodup :=
    isRead.ordered.imp fun below equal => absurd (congrArg Prod.fst equal) below.ne
  have members (entry : Char × α) : entry ∈ first.entries ↔ entry ∈ second.entries := by
    rw [mem_entries_iff isFirst, mem_entries_iff isSecond, same]
  have permuted := (List.perm_ext_iff_of_nodup (nodup isFirst) (nodup isSecond)).mpr members
  have entries : first.entries = second.entries :=
    permuted.eq_of_pairwise
      (fun entry other _ _ below above => absurd (below.trans above) (lt_irrefl entry.1))
      isFirst.ordered isSecond.ordered
  cases first
  cases second
  exact congrArg Parameters.mk entries

theorem IsRead.insertAll {parameters : Parameters α} (isRead : parameters.IsRead)
    {entries : List (Char × α)} (known : ∀ entry ∈ entries, entry.1 ∈ parameterLetters) :
    (parameters.insertAll entries).IsRead := by
  induction entries generalizing parameters with
  | nil => exact isRead
  | cons entry rest ih =>
      exact ih (isRead.insert (known entry List.mem_cons_self) entry.2)
        fun other member => known other (List.mem_cons_of_mem entry member)

end Parameters

/-- What a command says, wherever it stands. -/
def Command.content (command : Command α) : List Code × Parameters α × ModalState :=
  (command.codes, command.parameters, command.modal)

/-- The state but for the variables, which only expressions read. -/
def ReadingState.unassigned (state : ReadingState α) : ReadingState α :=
  { state with assigned := {} }

variable [Scalar α]

/-- All numbers of the command read back as they are once they are written.  A
negative zero does not: it is written without its sign. -/
def Command.Survives (command : Command α) : Prop :=
  ∀ entry ∈ command.parameters.entries, reread entry.2 = entry.2

section Obeying

theorem selectTool_assigned (table : Variables α) (line : Nat) (word : Option α)
    (state : ReadingState α) :
    (selectTool line word { state with assigned := table }).1 =
      { (selectTool line word state).1 with assigned := table } := by
  unfold selectTool
  split
  · rfl
  · split
    · rfl
    · dsimp only
      split <;> rfl

theorem selectTool_line (line other : Nat) (word : Option α) (state : ReadingState α) :
    (selectTool line word state).1 = (selectTool other word state).1 := by
  unfold selectTool
  split
  · rfl
  · split
    · rfl
    · split <;> rfl

theorem prepared_assigned (table : Variables α) (line other : Nat) (codes : List Code)
    (parameters : Parameters α) (state : ReadingState α) :
    ({ state with assigned := table } : ReadingState α).prepared line codes parameters =
      { state.prepared other codes parameters with assigned := table } := by
  rw [ReadingState.prepared, ReadingState.prepared, selectTool_line line other]
  exact selectTool_assigned table other (parameters.get? 'T')
    { state with
      modal := codes.foldl ModalState.apply state.modal
      feed := (parameters.get? 'F').or state.feed
      spindle := (parameters.get? 'S').or state.spindle }

theorem moveTo_assigned (table : Variables α) (line other : Nat) (parameters : Parameters α)
    (comment otherComment : Option String) (state : ReadingState α) :
    (moveTo line parameters comment { state with assigned := table }).1 =
        { (moveTo other parameters otherComment state).1 with assigned := table } ∧
      (moveTo line parameters comment { state with assigned := table }).2.1.map
          MotionPoint.unplaced =
        (moveTo other parameters otherComment state).2.1.map MotionPoint.unplaced := by
  have motion : motionOf? { state with assigned := table } parameters =
      motionOf? state parameters := rfl
  unfold moveTo
  rw [motion]
  cases motionOf? state parameters with
  | none => exact ⟨rfl, rfl⟩
  | some found => exact ⟨rfl, rfl⟩

/-- What codes and numbers do depends neither on the variables nor on where they stand. -/
theorem obey_unassigned {first second : ReadingState α}
    (same : first.unassigned = second.unassigned) (line other : Nat)
    (comment otherComment : Option String) (codes : List Code) (parameters : Parameters α) :
    (obey line comment codes parameters first).2.unassigned =
        (obey other otherComment codes parameters second).2.unassigned ∧
      (obey line comment codes parameters first).1.map MotionPoint.unplaced =
        (obey other otherComment codes parameters second).1.map MotionPoint.unplaced := by
  obtain ⟨table, rfl⟩ : ∃ table, first = { second with assigned := table } := by
    refine ⟨first.assigned, ?_⟩
    cases first
    cases second
    simp only [ReadingState.unassigned, ReadingState.mk.injEq] at same ⊢
    exact ⟨same.1, trivial, same.2.2⟩
  have prepared := prepared_assigned table line other codes parameters second
  unfold obey
  simp only [prepared]
  split
  · exact ⟨rfl, rfl⟩
  · split
    · obtain ⟨next, point⟩ := moveTo_assigned table line other parameters comment otherComment
        (second.prepared other codes parameters)
      exact ⟨by rw [next]; rfl, point⟩
    · exact ⟨rfl, rfl⟩

end Obeying

section Lines

variable (calculate : String → Except String α)

theorem readLine_obeyed (line : Nat) (written : List Char) (state : ReadingState α) :
    ((readLine calculate line written state).1.command = none ∧
        (readLine calculate line written state).1.point = none ∧
        (readLine calculate line written state).2.unassigned = state.unassigned) ∨
      ∃ command comment, (readLine calculate line written state).1.command = some command ∧
        command.IsRead ∧ command.modal = command.codes.foldl ModalState.apply state.modal ∧
        ((readLine calculate line written state).1.point,
            (readLine calculate line written state).2) =
          obey line comment command.codes command.parameters state := by
  have found := readLine_command calculate line written state
  simp only [readLine] at found ⊢
  split
  · exact .inl ⟨rfl, rfl, rfl⟩
  · rename_i read
    rw [if_neg read] at found
    split
    · exact .inl ⟨rfl, rfl, rfl⟩
    · rename_i noAssignment
      rw [noAssignment] at found
      dsimp only at found
      right
      rcases found with ⟨silent, _⟩ | ⟨command, isCommand, isRead, follows, _⟩
      · cases silent
      · refine ⟨command, (comment? (Text.trim (Text.dropEndWhile (· == '\r') written))).filter
          (· ≠ ""), isCommand, isRead, follows, ?_⟩
        obtain rfl := Option.some.inj isCommand
        exact readWords_obeyed calculate line _ _ _ state

theorem Command.Survives.numbers {command : Command α} (survives : command.Survives)
    (isRead : command.IsRead) (letter : Char) :
    command.numbers letter = command.parameters.get? letter := by
  rw [Command.numbers, Command.get?]
  cases given : command.parameters.get? letter with
  | none => rfl
  | some value =>
      have member := (Parameters.mem_entries_iff isRead.parameters (letter, value)).mpr given
      rw [Option.map_some, survives _ member]

/-- The numbers of the written command are those of the command. -/
theorem Command.Survives.insertAll {command : Command α} (survives : command.Survives)
    (isRead : command.IsRead) :
    Parameters.insertAll {} (writtenOrder.filterMap fun letter =>
      (command.numbers letter).map (letter, ·)) = command.parameters := by
  refine Parameters.eq_of_get? (Parameters.IsRead.empty.insertAll ?_) isRead.parameters ?_
  · intro entry member
    obtain ⟨letter, known, given⟩ := List.mem_filterMap.mp member
    obtain ⟨number, _, rfl⟩ := Option.map_eq_some_iff.mp given
    exact known
  · intro letter
    rw [Command.get?_insertAll isRead, survives.numbers isRead]

theorem Command.text_eq_empty_iff {command : Command α} (isRead : command.IsRead)
    (isFinite : command.IsFinite) : command.text = "" ↔ command.words = [] := by
  rw [← String.toList_eq_nil_iff, Command.toList_text isRead]
  constructor
  · intro empty
    cases words : command.words with
    | nil => rfl
    | cons word words' =>
        have isWord := Command.isWord_of_mem_words isRead isFinite word (by simp [words])
        rw [words, joined_cons, List.append_eq_nil_iff] at empty
        exact absurd empty.1 isWord.isPlain.ne_nil
  · intro empty
    rw [empty]
    rfl

theorem readWords_command {words : List (List Char)} {codes : List Code}
    {entries : List (Char × α)} (gathers : Gathers words codes entries)
    (line : Nat) (raw : String) {code : List Char} (comment : Option String)
    (state : ReadingState α) (tokenized : tokenize (α := α) code = words.map tokenOf) :
    (readWords calculate line raw code comment state).1.command.map Command.content =
      some (codes, Parameters.insertAll {} entries,
        codes.foldl ModalState.apply state.modal) := by
  have collected := foldl_add_of_gathers calculate gathers state.assigned line {}
  simp only [List.nil_append] at collected
  simp only [readWords, tokenized, collected, Option.map_some, Command.content]

/-- A command that is written again is obeyed as it was, and kept if anything of it
is written. -/
theorem readLine_restated {command : Command α} (isRead : command.IsRead)
    (isFinite : command.IsFinite) (survives : command.Survives) (line : Nat)
    (state : ReadingState α)
    (follows : command.modal = command.codes.foldl ModalState.apply state.modal) :
    (readLine calculate line command.text.toList state).1.command.map Command.content =
        (if command.text = "" then none else some command.content) ∧
      ∃ comment, ((readLine calculate line command.text.toList state).1.point,
          (readLine calculate line command.text.toList state).2) =
        obey line comment command.codes command.parameters state := by
  have gathers := Command.gathers_words isRead isFinite
  have numbers := survives.insertAll isRead
  have nonempty := Command.text_eq_empty_iff isRead isFinite
  by_cases empty : command.words = []
  · rw [empty] at gathers
    generalize (writtenOrder.filterMap fun letter =>
      (command.numbers letter).map (letter, ·)) = entries at gathers numbers
    generalize command.codes = codes at gathers ⊢
    cases gathers
    rw [nonempty.mpr empty, ← numbers, String.toList_empty, readLine_empty, if_pos rfl]
    exact ⟨rfl, none, (obey_nothing line none state).symm⟩
  · obtain ⟨raw, code, comment, read, tokenized⟩ := @readLine_noted _ _ calculate line state
      _ empty (Command.isWord_of_mem_words isRead isFinite) none (by simp) (by simp)
    have kept := readWords_command calculate gathers line raw comment state tokenized
    have obeyed := readWords_of_gathers calculate gathers line raw comment state tokenized
    rw [noted_none, ← Command.toList_text isRead] at read
    rw [numbers] at kept obeyed
    rw [read, kept, if_neg (nonempty.not.mpr empty), ← follows]
    exact ⟨rfl, comment, obeyed⟩

end Lines

section Programs

variable (calculate : String → Except String α)

/-- Commands that are written again lead to the points and the state that they led to. -/
theorem readLines_restated (written : List (List Char)) (line other : Nat)
    {first second : ReadingState α} (same : first.unassigned = second.unassigned)
    (finite : ∀ command ∈
      (readLines calculate line first written).1.filterMap LineEffect.command, command.IsFinite)
    (survives : ∀ command ∈
      (readLines calculate line first written).1.filterMap LineEffect.command,
        command.Survives) :
    let read := readLines calculate line first written
    let commands := read.1.filterMap LineEffect.command
    let again := readLines calculate other second (commands.map fun command =>
      command.text.toList)
    again.2.unassigned = read.2.unassigned ∧
      (again.1.filterMap LineEffect.point).map MotionPoint.unplaced =
        (read.1.filterMap LineEffect.point).map MotionPoint.unplaced ∧
      (again.1.filterMap LineEffect.command).map Command.content =
        (commands.filter fun command => command.text ≠ "").map Command.content := by
  induction written generalizing line other first second with
  | nil => exact ⟨same.symm, rfl, rfl⟩
  | cons here rest ih =>
      simp only [readLines] at finite survives ⊢
      rcases readLine_obeyed calculate line here first with
        ⟨noCommand, noPoint, silent⟩ | ⟨command, comment, isCommand, isRead, follows, obeyed⟩
      · rw [List.filterMap_cons_none noCommand] at finite survives ⊢
        rw [List.filterMap_cons_none noPoint]
        exact ih (line + 1) other (silent.trans same) finite survives
      · rw [List.filterMap_cons_some isCommand] at finite survives ⊢
        obtain ⟨isFinite, restFinite⟩ := List.forall_mem_cons.mp finite
        obtain ⟨isStable, restSurvives⟩ := List.forall_mem_cons.mp survives
        -- The state of the written commands lags behind in the variables alone.
        have modal : first.unassigned.modal = second.unassigned.modal :=
          congrArg ReadingState.modal same
        replace follows := follows.trans (congrArg (command.codes.foldl ModalState.apply) modal)
        obtain ⟨kept, otherComment, obeyedAgain⟩ :=
          readLine_restated calculate isRead isFinite isStable other second follows
        obtain ⟨next, point⟩ := obey_unassigned same line other comment otherComment
          command.codes command.parameters
        rw [← obeyed, ← obeyedAgain] at next point
        dsimp only at next point
        obtain ⟨final, points, commands⟩ := ih (line + 1) (other + 1) next restFinite restSurvives
        rw [List.map_cons]
        simp only [readLines]
        refine ⟨final, ?_, ?_⟩
        · simp only [List.map_filterMap] at points ⊢
          rw [List.filterMap_cons, List.filterMap_cons, points, point]
        · simp only [List.map_filterMap] at commands ⊢
          rw [List.filterMap_cons, kept, commands]
          by_cases empty : command.text = "" <;> simp [empty]

/-- Rendering commands loses no motion: the program of the written commands has the
same points, the same commands but for those of which nothing is written, and ends in the
same units. -/
theorem readProgram_restated (tool : Nat) (text : String)
    (finite : ∀ command ∈ (readProgram calculate tool text).commands, command.IsFinite)
    (survives : ∀ command ∈ (readProgram calculate tool text).commands, command.Survives) :
    let outcome := readProgram calculate tool text
    let again := readProgram calculate tool (rendered outcome.commands)
    again.toolpath.points.map MotionPoint.unplaced =
        outcome.toolpath.points.map MotionPoint.unplaced ∧
      again.commands.map Command.content =
        (outcome.commands.filter fun command => command.text ≠ "").map Command.content ∧
      again.units = outcome.units := by
  intro outcome again
  have areRead : ∀ command ∈ outcome.commands, command.IsRead :=
    (readLines_chained calculate 1 (.start tool) (textLines text.toList)).isRead
  have lines := textLines_rendered areRead finite
  obtain ⟨final, points, commands⟩ := readLines_restated calculate (textLines text.toList) 1 1
    (rfl : (ReadingState.start tool).unassigned = _) finite survives
  simp only [again, outcome, readProgram, wholePath_points] at lines final points commands ⊢
  rw [lines]
  split
  · rename_i empty
    rw [empty] at final points commands ⊢
    simp only [readLines, readLine_empty, List.map_nil] at final points commands ⊢
    exact ⟨points, commands, congrArg (fun state => state.modal.unitsInForce) final⟩
  · exact ⟨points, commands, congrArg (fun state => state.modal.unitsInForce) final⟩

end Programs

section Instance

instance [DecidableEq α] (command : Command α) : Decidable command.Survives :=
  inferInstanceAs (Decidable (∀ entry ∈ command.parameters.entries, reread entry.2 = entry.2))

/-- A program with remarks, a variable, increments, an arc and words out of order. -/
def notchText : String :=
  "%\nO12 (notch)\nG21 G91 ; increments\n#1 = 2.5\nN10 T2 M6\n" ++
    "X[#1 * 2] G1 F120 (in)\nG90 G2 Y4 X9 J2 I0\nN20\nG4 P0.5"

/-- Calculates the expressions of the program alone. -/
def calculateNotch (expression : String) : Except String Float :=
  if expression = "2.5" then .ok 2.5
  else if expression = "(2.5) * 2.0" then .ok 5
  else .error "not an expression of the program"

theorem readProgram_restated_notch :
    let outcome := readProgram calculateNotch 1 notchText
    let again := readProgram calculateNotch 1 (rendered outcome.commands)
    ((∀ command ∈ outcome.commands, command.IsFinite) ∧
        ∀ command ∈ outcome.commands, command.Survives) ∧
      again.toolpath.points.map MotionPoint.unplaced =
          outcome.toolpath.points.map MotionPoint.unplaced ∧
        again.commands.map Command.content =
          (outcome.commands.filter fun command => command.text ≠ "").map Command.content ∧
        again.units = outcome.units := by
  have finite : ∀ command ∈ (readProgram calculateNotch 1 notchText).commands,
      command.IsFinite := by
    decide +kernel
  have survives : ∀ command ∈ (readProgram calculateNotch 1 notchText).commands,
      command.Survives := by
    decide +kernel
  exact ⟨⟨finite, survives⟩, readProgram_restated calculateNotch 1 notchText finite survives⟩

end Instance

end Program

end Milling
