import Mathlib
import Milling.Proofs.Program.Gathering

/-!
# Commands as they are read

The codes of a command that was read have letters and numbers that codes can
have, its parameters are in order, and its modal state follows from the one
before it.
-/

namespace Milling

namespace Decimal

theorem le_of_boundedNatural? {bound value : Nat} {text : List Char}
    (read : boundedNatural? bound text = some value) : value ≤ bound := by
  have kept := Option.filter_eq_some_iff.mp read
  simpa using kept.2

end Decimal

namespace Program

namespace Code

/-- A code as it can be read. -/
structure IsRead (code : Code) : Prop where
  letter : code.letter = 'G' ∨ code.letter = 'M'
  major : code.major ≤ greatest
  minor : ∀ minor ∈ code.minor, minor ≤ greatest

theorem isRead_of_read? {letter : Char} {raw : List Char} {code : Code}
    (read : read? letter raw = some code) : code.IsRead := by
  unfold read? at read
  dsimp only at read
  split at read
  · cases read
  · rename_i known
    have group : letter.toUpper = 'G' ∨ letter.toUpper = 'M' := by
      by_contra other
      exact known (not_or.mp other)
    simp only [Option.bind_eq_bind] at read
    obtain ⟨major, isMajor, rest⟩ := Option.bind_eq_some_iff.mp read
    split at rest
    · obtain rfl := Option.some.inj rest
      exact ⟨group, Decimal.le_of_boundedNatural? isMajor, by simp⟩
    · obtain ⟨minor, isMinor, equation⟩ := Option.bind_eq_some_iff.mp rest
      obtain rfl := Option.some.inj equation
      refine ⟨group, Decimal.le_of_boundedNatural? isMajor, ?_⟩
      rintro other ⟨⟩
      exact Decimal.le_of_boundedNatural? isMinor

end Code

variable {α : Type}

namespace Parameters

/-- Parameters as they can be read. -/
structure IsRead (parameters : Parameters α) : Prop where
  known : ∀ entry ∈ parameters.entries, entry.1 ∈ parameterLetters
  ordered : Entries.IsSorted parameters.entries

theorem IsRead.empty : IsRead ({} : Parameters α) := ⟨by simp, List.Pairwise.nil⟩

theorem IsRead.insert {parameters : Parameters α} (isRead : parameters.IsRead) {letter : Char}
    (known : letter ∈ parameterLetters) (value : α) :
    (parameters.insert letter value).IsRead where
  known entry member := by
    rw [Parameters.insert, insertEntry_eq] at member
    rcases Entries.mem_insert member with rfl | inside
    · exact known
    · exact isRead.known entry inside
  ordered := by
    rw [Parameters.insert, insertEntry_eq]
    exact isRead.ordered.insert

theorem IsRead.filter {parameters : Parameters α} (isRead : parameters.IsRead)
    (keeps : Char → α → Bool) : (parameters.filter keeps).IsRead where
  known entry member := isRead.known entry (List.mem_of_mem_filter member)
  ordered := isRead.ordered.filter _

/-- Letters increase, so the first one does not come again. -/
theorem lookup_eq_none_of_above {letter : Char} {rest : List (Char × α)}
    (above : ∀ entry ∈ rest, letter < entry.1) : rest.lookup letter = none := by
  rw [List.lookup_eq_none_iff]
  intro entry member
  simpa using (above entry member).ne

/-- A number is found among the kept ones if it is kept. -/
theorem get?_filter {parameters : Parameters α} (isRead : parameters.IsRead)
    (keeps : Char → α → Bool) (wanted : Char) :
    (parameters.filter keeps).get? wanted = (parameters.get? wanted).filter (keeps wanted) := by
  obtain ⟨entries⟩ := parameters
  have ordered := isRead.ordered
  simp only [get?, Parameters.filter] at ordered ⊢
  clear isRead
  induction entries with
  | nil => rfl
  | cons first rest ih =>
      obtain ⟨letter, value⟩ := first
      obtain ⟨above, restOrdered⟩ := List.pairwise_cons.mp ordered
      have restCase := ih restOrdered
      by_cases kept : keeps letter value = true
      · rw [List.filter_cons, if_pos kept, Entries.lookup_cons, Entries.lookup_cons, restCase]
        by_cases same : wanted = letter
        · subst same
          simp [Option.filter, kept]
        · simp [same]
      · rw [List.filter_cons, if_neg kept, Entries.lookup_cons, restCase]
        by_cases same : wanted = letter
        · subst same
          simp [Option.filter, kept, lookup_eq_none_of_above above]
        · simp [same]

end Parameters

/-- A command as it can be read. -/
structure Command.IsRead (command : Command α) : Prop where
  codes : ∀ code ∈ command.codes, code.IsRead
  parameters : command.parameters.IsRead

/-- Commands as they are read one after the other with a modal state in force. -/
inductive Chained : ModalState → List (Command α) → Prop where
  | nil (modal : ModalState) : Chained modal []
  | cons {modal : ModalState} {command : Command α} {rest : List (Command α)}
      (isRead : command.IsRead)
      (follows : command.modal = command.codes.foldl ModalState.apply modal)
      (later : Chained command.modal rest) : Chained modal (command :: rest)

theorem Chained.isRead {modal : ModalState} {commands : List (Command α)}
    (chained : Chained modal commands) : ∀ command ∈ commands, command.IsRead := by
  induction chained with
  | nil => exact fun command member => nomatch member
  | cons isRead _ _ ih =>
      intro command member
      rcases List.mem_cons.mp member with rfl | later
      · exact isRead
      · exact ih command later

variable [Scalar α] (calculate : String → Except String α)

/-- Words gathered so far as they can be read. -/
structure WordReading.IsRead (reading : WordReading α) : Prop where
  codes : ∀ code ∈ reading.codes, code.IsRead
  parameters : reading.parameters.IsRead

theorem WordReading.IsRead.add {reading : WordReading α} (isRead : reading.IsRead)
    (table : Variables α) (line : Nat) (token : Token α) :
    (reading.add calculate table line token).IsRead := by
  cases token with
  | expression text => exact ⟨isRead.codes, isRead.parameters⟩
  | word letter value raw =>
      unfold WordReading.add
      dsimp only
      split
      · split
        · rename_i code read
          refine ⟨?_, isRead.parameters⟩
          intro other member
          rcases List.mem_append.mp member with before | last
          · exact isRead.codes other before
          · rw [List.mem_singleton.mp last]
            exact Code.isRead_of_read? read
        · exact ⟨isRead.codes, isRead.parameters⟩
      · split
        · rename_i known
          refine ⟨isRead.codes, ?_⟩
          dsimp only
          split
          · exact isRead.parameters.insert known _
          · exact isRead.parameters
        · exact isRead

theorem WordReading.IsRead.foldl {reading : WordReading α} (isRead : reading.IsRead)
    (table : Variables α) (line : Nat) (tokens : List (Token α)) :
    (tokens.foldl (WordReading.add calculate table line) reading).IsRead := by
  induction tokens generalizing reading with
  | nil => exact isRead
  | cons token tokens ih => exact ih (isRead.add calculate table line token)

theorem selectTool_modal (line : Nat) (word : Option α) (state : ReadingState α) :
    (selectTool line word state).1.modal = state.modal ∧
      (selectTool line word state).1.position = state.position := by
  unfold selectTool
  split
  · exact ⟨rfl, rfl⟩
  · split
    · exact ⟨rfl, rfl⟩
    · split <;> exact ⟨rfl, rfl⟩

theorem moveTo_modal (line : Nat) (parameters : Parameters α) (comment : Option String)
    (state : ReadingState α) :
    (moveTo line parameters comment state).1.modal = state.modal := by
  unfold moveTo
  dsimp only
  split <;> rfl

theorem readWords_modal (line : Nat) (raw : String) (code : List Char) (comment : Option String)
    (state : ReadingState α) :
    (readWords calculate line raw code comment state).2.modal =
      ((tokenize code).foldl (WordReading.add calculate state.assigned line) {}).codes.foldl
        ModalState.apply state.modal := by
  simp only [readWords]
  split
  · exact (selectTool_modal line _ _).1
  · split
    · exact (moveTo_modal line _ _ _).trans (selectTool_modal line _ _).1
    · exact (selectTool_modal line _ _).1

/-- A line either leaves the modal state or has a command that leads to it. -/
theorem readLine_command (line : Nat) (written : List Char) (state : ReadingState α) :
    ((readLine calculate line written state).1.command = none ∧
        (readLine calculate line written state).2.modal = state.modal) ∨
      ∃ command, (readLine calculate line written state).1.command = some command ∧
        command.IsRead ∧ command.modal = command.codes.foldl ModalState.apply state.modal ∧
        (readLine calculate line written state).2.modal = command.modal := by
  simp only [readLine]
  split
  · exact .inl ⟨rfl, rfl⟩
  · split
    · exact .inl ⟨rfl, rfl⟩
    · right
      generalize stripComments (Text.trim (Text.dropEndWhile (· == '\r') written)) = code
      have start : WordReading.IsRead ({} : WordReading α) := ⟨by simp, .empty⟩
      have isRead := start.foldl calculate state.assigned line (tokenize code)
      exact ⟨_, rfl, ⟨isRead.codes, isRead.parameters⟩, rfl, readWords_modal calculate ..⟩

theorem readLines_chained (line : Nat) (state : ReadingState α) (written : List (List Char)) :
    Chained state.modal
      ((readLines calculate line state written).1.filterMap LineEffect.command) := by
  induction written generalizing line state with
  | nil => exact .nil _
  | cons first rest ih =>
      have later := ih (line + 1) (readLine calculate line first state).2
      simp only [readLines]
      rcases readLine_command calculate line first state with
        ⟨silent, unchanged⟩ | ⟨command, isCommand, isRead, follows, next⟩
      · rw [List.filterMap_cons_none silent, ← unchanged]
        exact later
      · rw [List.filterMap_cons_some isCommand]
        rw [next] at later
        exact .cons isRead follows later

end Program

end Milling
