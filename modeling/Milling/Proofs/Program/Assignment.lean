import Mathlib
import Milling.Proofs.Posting.Passage
import Milling.Proofs.Program.Redundancy
import Milling.Proofs.Program.Reference

/-!
# What variables hold

A variable holds what the last line to assign it has given it.  Every expression is
calculated with what the variables hold before its line, the right-hand side of an
assignment too, and nothing but an assignment changes them.
-/

namespace Milling

variable {α : Type}

def Fault.isOfExpression : Fault α → Bool
  | .unresolvedVariable .. => true
  | .expressionFailed .. => true
  | _ => false

namespace Program

section Lines

/-- The code of a line; none if there is nothing on it to be read. -/
def codeOf? (written : List Char) : Option (List Char) :=
  let text := Text.trim written
  if text.isEmpty || text.head? == some ';' || text.head? == some '(' || text == ['%'] ||
      (Text.trim (stripComments text)).isEmpty then
    none
  else some (stripComments text)

/-- The assignment that a line is: the variable and the expression. -/
def assignmentOf? (written : List Char) : Option (Nat × String) :=
  (codeOf? written).bind assignment?

/-- The expression of a token, if it is evaluated. -/
def Token.evaluated? : Token α → Option String
  | .expression text => some text
  | .word letter (.expression text) _ => if letter ∈ parameterLetters then some text else none
  | _ => none

/-- The expressions that are evaluated on a line, from left to right. -/
def expressionsOf (α : Type) [Scalar α] (written : List Char) : List String :=
  match codeOf? written with
  | none => []
  | some code =>
      match assignment? code with
      | some (_, expression) => [expression]
      | none => (tokenize (α := α) code).filterMap Token.evaluated?

end Lines

variable [Scalar α] (calculate : String → Except String α)

section Specification

/-- What variables hold after a line. -/
def assign (held : Nat → Option α) (written : List Char) : Nat → Option α :=
  match assignmentOf? written with
  | some (number, expression) =>
      Function.update held number (some (valueOf calculate held expression))
  | none => held

/-- What variables hold after some lines, nothing before the first one. -/
def heldAfter (lines : List (List Char)) : Nat → Option α :=
  lines.foldl (assign calculate) fun _ => none

/-- What a variable holds after some lines is the value that the last of them to assign it
gave it. -/
inductive LastAssigned (lines : List (List Char)) (number : Nat) : Option α → Prop where
  | never (unassigned : ∀ written ∈ lines, ∀ expression,
      assignmentOf? written ≠ some (number, expression)) : LastAssigned lines number none
  | last {before after : List (List Char)} {written : List Char} {expression : String}
      (lines_eq : lines = before ++ written :: after)
      (assigns : assignmentOf? written = some (number, expression))
      (unassigned : ∀ other ∈ after, ∀ expression,
        assignmentOf? other ≠ some (number, expression)) :
      LastAssigned lines number (some (valueOf calculate (heldAfter calculate before) expression))

/-- The letter and the number that a token gives. -/
def Token.letterValue? (held : Nat → Option α) : Token α → Option (Char × α)
  | .word letter (.number value) _ =>
      if letter ∈ parameterLetters then some (letter, value) else none
  | .word letter (.expression text) _ =>
      if letter ∈ parameterLetters then some (letter, valueOf calculate held text) else none
  | _ => none

/-- The effect of a line is calculated with what the variables hold. -/
structure LineEffect.IsCalculated (held : Nat → Option α) (line : Nat) (written : List Char)
    (effect : LineEffect α) : Prop where
  warnings : effect.warnings.filter Fault.isOfExpression =
    (expressionsOf α written).flatMap (expressionFaults calculate held line)
  command : ∀ command ∈ effect.command, ∃ code, codeOf? written = some code ∧
    assignment? code = none ∧ command.line = line ∧ command.tokens = tokenize code ∧
    command.parameters =
      Parameters.insertAll {} (command.tokens.filterMap (Token.letterValue? calculate held))

end Specification

theorem heldAfter_concat (front : List (List Char)) (written : List Char) :
    heldAfter calculate (front ++ [written]) =
      assign calculate (heldAfter calculate front) written := by
  rw [heldAfter, List.foldl_append, List.foldl_cons, List.foldl_nil, ← heldAfter]

theorem lastAssigned_heldAfter (lines : List (List Char)) (number : Nat) :
    LastAssigned calculate lines number (heldAfter calculate lines number) := by
  induction lines using List.reverseRecOn with
  | nil => exact .never fun written isLine => nomatch isLine
  | append_singleton front written ih =>
      rw [heldAfter_concat, assign]
      -- The last line assigns the variable, or leaves it as the lines before have left it.
      have skipped (other : ∀ expression, assignmentOf? written ≠ some (number, expression)) :
          LastAssigned calculate (front ++ [written]) number
            (heldAfter calculate front number) := by
        generalize heldAfter calculate front number = value at ih
        cases ih with
        | never unassigned =>
            refine .never fun line isLine => ?_
            rcases List.mem_append.mp isLine with earlier | isLast
            · exact unassigned line earlier
            · rwa [List.mem_singleton.mp isLast]
        | @last before after assigning expression lines_eq assigns unassigned =>
            have stillSplit : front ++ [written] = before ++ assigning :: (after ++ [written]) := by
              rw [lines_eq, List.append_assoc, List.cons_append]
            refine .last stillSplit assigns fun line isLine => ?_
            rcases List.mem_append.mp isLine with earlier | isLast
            · exact unassigned line earlier
            · rwa [List.mem_singleton.mp isLast]
      cases assigns : assignmentOf? written with
      | none =>
          exact skipped fun expression isAssignment => by
            rw [assigns] at isAssignment
            cases isAssignment
      | some assignment =>
          obtain ⟨other, expression⟩ := assignment
          dsimp only
          by_cases same : number = other
          · subst same
            rw [Function.update_self]
            exact .last rfl assigns fun line isLine => nomatch isLine
          · rw [Function.update_of_ne same]
            refine skipped fun expression isAssignment => same ?_
            rw [assigns] at isAssignment
            exact (Prod.mk.inj (Option.some.inj isAssignment)).1.symm

section Tables

omit [Scalar α] in
theorem Variables.get?_set (table : Variables α) (number : Nat) (value : α) :
    (table.set number value).get? = Function.update table.get? number (some value) := by
  funext wanted
  by_cases same : wanted = number
  · subst same
    rw [Function.update_self, Variables.get?, Variables.set, List.lookup_cons_self]
  · have kept : (table.assignments.filter fun entry => entry.1 != number).lookup wanted =
        table.assignments.lookup wanted := by
      induction table.assignments with
      | nil => rfl
      | cons entry entries ih =>
          by_cases replaced : entry.1 = number
          · rw [List.filter_cons_of_neg (by simp [replaced]), ih, List.lookup_cons, replaced,
              beq_false_of_ne same]
          · rw [List.filter_cons_of_pos (by simp [replaced]), List.lookup_cons, List.lookup_cons,
              ih]
    rw [Function.update_of_ne same, Variables.get?, Variables.set,
      List.lookup_cons, beq_false_of_ne same, kept]
    rfl

theorem readWords_assigned (line : Nat) (raw : String) (code : List Char)
    (comment : Option String) (state : ReadingState α) :
    (readWords calculate line raw code comment state).2.assigned = state.assigned := by
  have tooled (word : Option α) (given : ReadingState α) :
      (selectTool line word given).1.assigned = given.assigned := by
    have same := congrArg ReadingState.assigned (selectTool_assigned given.assigned line word given)
    exact same
  have moved (parameters : Parameters α) (given : ReadingState α) :
      (moveTo line parameters comment given).1.assigned = given.assigned := by
    have same := congrArg ReadingState.assigned
      (moveTo_assigned given.assigned line line parameters comment comment given).1
    exact same
  simp only [readWords]
  split
  · exact tooled _ _
  · split
    · exact (moved _ _).trans (tooled _ _)
    · exact tooled _ _

theorem readLine_cases (line : Nat) (written : List Char) (state : ReadingState α) :
    (codeOf? written = none ∧ readLine calculate line written state = ({}, state)) ∨
      (∃ code number expression, codeOf? written = some code ∧
        assignment? code = some (number, expression) ∧
        readLine calculate line written state =
          ({ warnings := expressionFaults calculate state.assigned.get? line expression },
            { state with
              assigned := state.assigned.set number
                (valueOf calculate state.assigned.get? expression) })) ∨
      ∃ code raw comment, codeOf? written = some code ∧ assignment? code = none ∧
        readLine calculate line written state =
          readWords calculate line raw code comment state := by
  simp only [readLine, codeOf?, Text.trim_dropReturns, evaluateOn_eq]
  split
  · exact .inl ⟨rfl, rfl⟩
  · right
    cases assigns : assignment? (stripComments (Text.trim written)) with
    | none => exact .inr ⟨_, _, _, rfl, assigns, rfl⟩
    | some assignment => exact .inl ⟨_, _, _, rfl, assigns, rfl⟩

theorem readLine_assigned (line : Nat) (written : List Char) (state : ReadingState α) :
    (readLine calculate line written state).2.assigned.get? =
      assign calculate state.assigned.get? written := by
  rw [assign, assignmentOf?]
  rcases readLine_cases calculate line written state with
    ⟨isCode, reads⟩ | ⟨code, number, expression, isCode, assigns, reads⟩ |
      ⟨code, raw, comment, isCode, assigns, reads⟩
  · rw [reads, isCode]
    rfl
  · rw [reads, isCode, Option.bind_some, assigns]
    exact Variables.get?_set _ _ _
  · rw [reads, isCode, Option.bind_some, assigns, readWords_assigned]

theorem readLines_assigned (line : Nat) (state : ReadingState α) (lines : List (List Char)) :
    (readLines calculate line state lines).2.assigned.get? =
      lines.foldl (assign calculate) state.assigned.get? := by
  induction lines generalizing line state with
  | nil => rfl
  | cons written lines ih =>
      rw [readLines]
      dsimp only
      rw [ih, List.foldl_cons, readLine_assigned]

end Tables

section Effects

theorem expressionFaults_filter (held : Nat → Option α) (line : Nat) (expression : String) :
    (expressionFaults calculate held line expression).filter Fault.isOfExpression =
      expressionFaults calculate held line expression := by
  refine List.filter_eq_self.mpr fun fault isFault => ?_
  rcases List.mem_append.mp isFault with unresolved | failed
  · obtain ⟨number, -, rfl⟩ := List.mem_map.mp unresolved
    rfl
  · split at failed
    · cases failed
    · rw [List.mem_singleton.mp failed]
      rfl

theorem notMem_parameterLetters {letter : Char} (group : letter = 'G' ∨ letter = 'M') :
    letter ∉ parameterLetters := by
  rcases group with rfl | rfl <;> decide

theorem Token.given_eq (table : Variables α) (token : Token α) :
    (token.given calculate table).2 = (token.letterValue? calculate table.get?).toList := by
  cases token with
  | expression text => rfl
  | word letter value raw =>
      by_cases group : letter = 'G' ∨ letter = 'M'
      · have unknown := notMem_parameterLetters group
        have nothing : (Token.word letter value raw).letterValue? calculate table.get? = none := by
          cases value <;> simp [Token.letterValue?, unknown]
        rw [nothing]
        simp only [Token.given, if_pos group]
        split <;> rfl
      · by_cases known : letter ∈ parameterLetters <;> cases value <;>
          simp [Token.given, Token.letterValue?, group, known, resolve, evaluateOn_eq]

theorem WordReading.add_warnings (words : WordReading α) (table : Variables α) (line : Nat)
    (token : Token α) :
    (words.add calculate table line token).warnings.filter Fault.isOfExpression =
      words.warnings.filter Fault.isOfExpression ++
        token.evaluated?.toList.flatMap (expressionFaults calculate table.get? line) := by
  cases token with
  | expression text =>
      rw [add, evaluateOn_eq, List.filter_append, expressionFaults_filter, Token.evaluated?,
        Option.toList_some, List.flatMap_singleton]
  | word letter value raw =>
      by_cases group : letter = 'G' ∨ letter = 'M'
      · have unknown := notMem_parameterLetters group
        have nothing : (Token.word letter value raw).evaluated? = none := by
          cases value <;> simp [Token.evaluated?, unknown]
        rw [nothing]
        simp only [add, if_pos group]
        split <;> simp [Fault.isOfExpression]
      · by_cases known : letter ∈ parameterLetters <;> cases value <;>
          simp [add, Token.evaluated?, group, known, resolve, evaluateOn_eq,
            expressionFaults_filter, Fault.isOfExpression]

theorem WordReading.foldl_add_warnings (tokens : List (Token α)) (words : WordReading α)
    (table : Variables α) (line : Nat) :
    (tokens.foldl (WordReading.add calculate table line) words).warnings.filter
        Fault.isOfExpression =
      words.warnings.filter Fault.isOfExpression ++
        (tokens.filterMap Token.evaluated?).flatMap
          (expressionFaults calculate table.get? line) := by
  induction tokens generalizing words with
  | nil => exact (List.append_nil _).symm
  | cons token tokens ih =>
      rw [List.foldl_cons, ih, add_warnings, List.append_assoc, ← List.flatMap_append,
        List.filterMap_cons]
      cases token.evaluated? <;> rfl

theorem WordReading.foldl_add_parameters (tokens : List (Token α)) (words : WordReading α)
    (table : Variables α) (line : Nat) :
    (tokens.foldl (WordReading.add calculate table line) words).parameters =
      words.parameters.insertAll (tokens.filterMap (Token.letterValue? calculate table.get?)) := by
  induction tokens generalizing words with
  | nil => rfl
  | cons token tokens ih =>
      rw [List.foldl_cons, ih, (words.add_given calculate table line token).2, Token.given_eq,
        List.filterMap_cons]
      cases token.letterValue? calculate table.get? <;> rfl

theorem selectTool_noExpression (line : Nat) (word : Option α) (state : ReadingState α) :
    (selectTool line word state).2.2.filter Fault.isOfExpression = [] := by
  unfold selectTool
  split
  · rfl
  · split
    · rfl
    · split <;> rfl

theorem moveTo_noExpression (line : Nat) (parameters : Parameters α) (comment : Option String)
    (state : ReadingState α) :
    (moveTo line parameters comment state).2.2.filter Fault.isOfExpression = [] := by
  unfold moveTo
  dsimp only
  split
  · rfl
  · dsimp only
    split
    · split <;> rfl
    · rfl

theorem readWords_isCalculated (line : Nat) (raw : String) (code : List Char)
    (comment : Option String) (state : ReadingState α) :
    let effect := (readWords calculate line raw code comment state).1
    effect.warnings.filter Fault.isOfExpression =
        ((tokenize (α := α) code).filterMap Token.evaluated?).flatMap
          (expressionFaults calculate state.assigned.get? line) ∧
      ∀ command ∈ effect.command, command.line = line ∧ command.tokens = tokenize code ∧
        command.parameters = Parameters.insertAll {}
          (command.tokens.filterMap (Token.letterValue? calculate state.assigned.get?)) := by
  simp only [readWords]
  constructor
  · have gathered := WordReading.foldl_add_warnings calculate (tokenize code) {} state.assigned line
    rw [List.filter_append, List.filter_append, selectTool_noExpression, List.append_nil, gathered]
    -- Where the tool goes is no matter of expressions.
    split
    · exact List.append_nil _
    · split
      · rw [moveTo_noExpression]
        exact List.append_nil _
      · exact List.append_nil _
  · intro command isCommand
    obtain rfl := Option.some.inj isCommand
    exact ⟨rfl, rfl, WordReading.foldl_add_parameters calculate _ {} state.assigned line⟩

theorem readLine_isCalculated (line : Nat) (written : List Char) (state : ReadingState α) :
    (readLine calculate line written state).1.IsCalculated calculate state.assigned.get? line
      written := by
  rcases readLine_cases calculate line written state with
    ⟨isCode, reads⟩ | ⟨code, number, expression, isCode, assigns, reads⟩ |
      ⟨code, raw, comment, isCode, assigns, reads⟩
  · rw [reads]
    refine ⟨?_, fun command isCommand => nomatch isCommand⟩
    rw [expressionsOf, isCode]
    rfl
  · rw [reads]
    refine ⟨?_, fun command isCommand => nomatch isCommand⟩
    simp only [expressionsOf, isCode, assigns, expressionFaults_filter, List.flatMap_singleton]
  · rw [reads]
    obtain ⟨warnings, commands⟩ := readWords_isCalculated calculate line raw code comment state
    refine ⟨?_, fun command isCommand => ⟨code, isCode, assigns, commands command isCommand⟩⟩
    simp only [expressionsOf, isCode, assigns]
    exact warnings

omit [Scalar α] in
/-- Whatever is listed on the right belongs to something on the left. -/
theorem exists_of_forall₂ {β γ : Type} {related : β → γ → Prop} {lefts : List β}
    {rights : List γ} (areRelated : List.Forall₂ related lefts rights) {right : γ}
    (isRight : right ∈ rights) : ∃ left ∈ lefts, related left right := by
  induction areRelated with
  | nil => cases isRight
  | @cons left other lefts rights here _ ih =>
      rcases List.mem_cons.mp isRight with rfl | later
      · exact ⟨left, List.mem_cons_self, here⟩
      · obtain ⟨found, isLeft, isRelated⟩ := ih later
        exact ⟨found, List.mem_cons_of_mem left isLeft, isRelated⟩

/-- Behind some lines, each line is calculated with what the lines before it have assigned. -/
theorem readLines_areCalculated (front lines : List (List Char)) {state : ReadingState α}
    (held : state.assigned.get? = heldAfter calculate front) :
    List.Forall₂
      (fun item effect => effect.IsCalculated calculate
        (heldAfter calculate ((front ++ lines).take item.2)) (item.2 + 1) item.1)
      (lines.zipIdx front.length) (readLines calculate (front.length + 1) state lines).1 := by
  induction lines generalizing front state with
  | nil => exact .nil
  | cons written lines ih =>
      have next : (readLine calculate (front.length + 1) written state).2.assigned.get? =
          heldAfter calculate (front ++ [written]) := by
        rw [readLine_assigned, held, heldAfter_concat]
      have later := ih (front ++ [written]) next
      rw [List.append_assoc, List.singleton_append, List.length_append, List.length_singleton]
        at later
      have here := readLine_isCalculated calculate (front.length + 1) written state
      rw [held] at here
      refine .cons ?_ later
      rwa [List.take_left]

end Effects

/-- A program is calculated with its variables: each expression with what the lines before
its own have assigned last, or else with zero and a warning for each such reference.  A
calculation that fails gives zero and one more warning, and expressions give no other
warnings. -/
theorem readProgram_isCalculated (tool : Nat) (text : String) :
    let lines := textLines text.toList
    let held (index : Nat) : Nat → Option α := heldAfter calculate (lines.take index)
    let outcome := readProgram calculate tool text
    (∀ index number, LastAssigned calculate (lines.take index) number (held index number)) ∧
      (∀ index, (readLines calculate 1 (.start tool) (lines.take index)).2.assigned.get? =
        held index) ∧
      outcome.warnings.filter Fault.isOfExpression =
        lines.zipIdx.flatMap (fun (written, index) =>
          (expressionsOf α written).flatMap (expressionFaults calculate (held index) (index + 1))) ∧
      ∀ command ∈ outcome.commands, ∃ index written code, lines[index]? = some written ∧
        codeOf? written = some code ∧ assignment? code = none ∧ command.line = index + 1 ∧
        command.tokens = tokenize code ∧
        command.parameters = Parameters.insertAll {}
          (command.tokens.filterMap (Token.letterValue? calculate (held index))) := by
  intro lines held outcome
  have areCalculated : List.Forall₂
      (fun item effect => effect.IsCalculated calculate (held item.2) (item.2 + 1) item.1)
      lines.zipIdx (readLines calculate 1 (.start tool) lines).1 :=
    readLines_areCalculated calculate [] lines rfl
  refine ⟨fun index => lastAssigned_heldAfter calculate (lines.take index),
    fun index => readLines_assigned calculate 1 _ (lines.take index), ?_, ?_⟩
  · have eachLine : lines.zipIdx.map (fun (written, index) =>
          (expressionsOf α written).flatMap
            (expressionFaults calculate (held index) (index + 1))) =
        (readLines calculate 1 (.start tool) lines).1.map fun effect =>
          effect.warnings.filter Fault.isOfExpression := by
      rw [← List.forall₂_eq_eq_eq, List.forall₂_map_left_iff, List.forall₂_map_right_iff]
      exact areCalculated.imp fun item effect isCalculated => isCalculated.warnings.symm
    rw [List.flatMap_def, eachLine, ← List.flatMap_def, ← List.filter_flatMap]
    rfl
  · intro command isListed
    obtain ⟨effect, isEffect, isCommand⟩ := List.mem_filterMap.mp isListed
    obtain ⟨⟨written, index⟩, isItem, isCalculated⟩ := exists_of_forall₂ areCalculated isEffect
    obtain ⟨code, isCode, reads⟩ := isCalculated.command command isCommand
    exact ⟨index, written, code, List.mem_zipIdx_iff_getElem?.mp isItem, isCode, reads⟩

end Program

end Milling
