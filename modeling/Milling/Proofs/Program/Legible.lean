import Mathlib
import Milling.Proofs.Program.Gathering
import Milling.Proofs.Program.Line

/-!
# Words that carry numbers

A word whose number is written out is read without complaint.  A word with
something else in its place is complained about, whatever stands around it.
-/

namespace Milling

variable {α : Type}

/-- A fault of a word that carries no number, or a number that it cannot have. -/
def Fault.isInvalidParameter : Fault α → Bool
  | .invalidParameter .. => true
  | _ => false

namespace Program

variable [Scalar α]

/-- A letter with a number that it can have. -/
structure IsLegible (α : Type) [Scalar α] (letter : Char) (number : List Char) : Prop where
  code : letter = 'G' ∨ letter = 'M' → (Code.read? letter number).isSome = true
  numeric : letter = 'G' ∨ letter = 'M' ∨ letter ∈ parameterLetters →
    (Decimal.Numeral.read? number).isSome = true
  tool : letter = 'T' → ∀ value : α, numberValue number = .number value →
    (selectedTool? value).isSome = true

/-- A token of a parameter without a number. -/
def Token.IsIllegible (token : Token α) : Prop :=
  ∃ letter text raw, token = .word letter (.invalid text) raw ∧
    ¬(letter = 'G' ∨ letter = 'M') ∧ letter ∈ parameterLetters

theorem numberValue_of_isSome {number : List Char}
    (numeric : (Decimal.Numeral.read? number).isSome = true) :
    ∃ value : α, numberValue number = .number value := by
  obtain ⟨numeral, isNumeral⟩ := Option.isSome_iff_exists.mp numeric
  exact ⟨_, by rw [numberValue, isNumeral]⟩

variable (calculate : String → Except String α)

section Legible

/-- Words read so far without an invalid one, their tool accepted. -/
structure WordReading.Clear (reading : WordReading α) : Prop where
  warnings : ∀ fault ∈ reading.warnings, fault.isInvalidParameter = false
  tool : ∀ value ∈ reading.parameters.get? 'T', (selectedTool? value).isSome = true

theorem WordReading.Clear.add {reading : WordReading α} (clear : reading.Clear)
    {letter : Char} {number : List Char} (legible : IsLegible α letter number)
    (table : Variables α) (line : Nat) :
    (reading.add calculate table line (tokenOf (letter :: number))).Clear := by
  by_cases isCode : letter = 'G' ∨ letter = 'M'
  · obtain ⟨code, read⟩ := Option.isSome_iff_exists.mp (legible.code isCode)
    obtain ⟨value, numeric⟩ := numberValue_of_isSome (α := α)
      (legible.numeric (isCode.imp_right .inl))
    have added : reading.add calculate table line (tokenOf (letter :: number)) =
        { reading with codes := reading.codes ++ [code] } := by
      simp [tokenOf, WordReading.add, isCode, numeric, read]
    rw [added]
    exact ⟨clear.warnings, clear.tool⟩
  · by_cases known : letter ∈ parameterLetters
    · obtain ⟨value, numeric⟩ := numberValue_of_isSome (α := α)
        (legible.numeric (.inr (.inr known)))
      have added : reading.add calculate table line (tokenOf (letter :: number)) =
          { reading with parameters := reading.parameters.insert letter value } := by
        simp [tokenOf, WordReading.add, isCode, known, numeric, resolve]
      rw [added]
      refine ⟨clear.warnings, ?_⟩
      intro tool isTool
      rw [Parameters.get?_insert] at isTool
      split at isTool
      · rename_i isToolLetter
        obtain rfl := Option.some.inj isTool
        exact legible.tool isToolLetter.symm value numeric
      · exact clear.tool tool isTool
    · have added : reading.add calculate table line (tokenOf (letter :: number)) = reading := by
        simp [tokenOf, WordReading.add, isCode, known]
      rw [added]
      exact clear

theorem WordReading.Clear.foldl {words : List (List Char)}
    (legible : ∀ word ∈ words, ∃ letter number, word = letter :: number ∧
      IsLegible α letter number)
    (table : Variables α) (line : Nat) {reading : WordReading α} (clear : reading.Clear) :
    ((words.map tokenOf).foldl (WordReading.add calculate table line) reading).Clear := by
  induction words generalizing reading with
  | nil => exact clear
  | cons word words ih =>
      obtain ⟨letter, number, rfl, here⟩ := legible word List.mem_cons_self
      exact ih (fun other member => legible other (List.mem_cons_of_mem _ member))
        (clear.add calculate here table line)

theorem moveTo_faults (line : Nat) (parameters : Parameters α) (comment : Option String)
    (state : ReadingState α) :
    ∀ fault ∈ (moveTo line parameters comment state).2.2,
      fault.isInvalidParameter = false := by
  intro fault member
  unfold moveTo at member
  dsimp only at member
  split at member
  · cases member
  · dsimp only at member
    split at member
    · split at member
      · cases member
      · rw [List.mem_singleton.mp member]
        rfl
    · cases member

theorem selectTool_faults {line : Nat} {word : Option α}
    (accepted : ∀ value ∈ word, (selectedTool? value).isSome = true) (state : ReadingState α) :
    (selectTool line word state).2.2 = [] := by
  cases word with
  | none => rfl
  | some value =>
      obtain ⟨tool, selected⟩ := Option.isSome_iff_exists.mp (accepted value rfl)
      by_cases same : tool = state.tool <;> simp [selectTool, selected, same]

theorem readWords_legible {words : List (List Char)}
    (legible : ∀ word ∈ words, ∃ letter number, word = letter :: number ∧
      IsLegible α letter number)
    {code : List Char} (tokenized : tokenize (α := α) code = words.map tokenOf)
    (line : Nat) (raw : String) (comment : Option String) (state : ReadingState α) :
    ∀ fault ∈ (readWords calculate line raw code comment state).1.warnings,
      fault.isInvalidParameter = false := by
  have start : WordReading.Clear ({} : WordReading α) := ⟨by simp, by simp⟩
  have clear := start.foldl calculate legible state.assigned line
  simp only [readWords, tokenized]
  generalize (words.map tokenOf).foldl (WordReading.add calculate state.assigned line) {} =
    reading at clear
  intro fault member
  rw [List.mem_append, List.mem_append, selectTool_faults clear.tool] at member
  rcases member with (inWords | inTool) | inMove
  · exact clear.warnings fault inWords
  · cases inTool
  · split at inMove
    · cases inMove
    · split at inMove
      · exact moveTo_faults line _ comment _ fault inMove
      · cases inMove

end Legible

section Illegible

theorem warnings_prefix_add (table : Variables α) (line : Nat) (reading : WordReading α)
    (token : Token α) :
    reading.warnings <+: (reading.add calculate table line token).warnings := by
  cases token with
  | expression text => exact List.prefix_append _ _
  | word letter value raw =>
      unfold WordReading.add
      dsimp only
      split
      · split
        · exact List.prefix_refl _
        · exact List.prefix_append _ _
      · split
        · exact List.prefix_append _ _
        · exact List.prefix_refl _

theorem warnings_prefix_foldl (table : Variables α) (line : Nat) (tokens : List (Token α))
    (reading : WordReading α) :
    reading.warnings <+:
      (tokens.foldl (WordReading.add calculate table line) reading).warnings := by
  induction tokens generalizing reading with
  | nil => exact List.prefix_refl _
  | cons token tokens ih =>
      exact (warnings_prefix_add calculate table line reading token).trans (ih _)

/-- A parameter without a number is complained about, whatever stands around it. -/
theorem readWords_illegible {code : List Char}
    (illegible : ∃ token ∈ tokenize (α := α) code, token.IsIllegible)
    (line : Nat) (raw : String) (comment : Option String) (state : ReadingState α) :
    ∃ fault ∈ (readWords calculate line raw code comment state).1.warnings,
      fault.isInvalidParameter = true := by
  obtain ⟨token, member, letter, text, written, rfl, noCode, known⟩ := illegible
  obtain ⟨before, after, split⟩ := List.append_of_mem member
  let reading : WordReading α :=
    before.foldl (WordReading.add calculate state.assigned line) {}
  let fault : Fault α :=
    .invalidParameter line letter.toString ("'" ++ text ++ "' is not a number")
  have complains : fault ∈ (reading.add calculate state.assigned line
      (.word letter (.invalid text) written)).warnings := by
    simp [WordReading.add, noCode, known, resolve, fault]
  have inWords : fault ∈ ((tokenize (α := α) code).foldl
      (WordReading.add calculate state.assigned line) {}).warnings := by
    rw [split, List.foldl_append, List.foldl_cons]
    exact (warnings_prefix_foldl calculate state.assigned line after _).subset complains
  refine ⟨fault, ?_, rfl⟩
  simp only [readWords]
  exact List.mem_append_left _ (List.mem_append_left _ inWords)

end Illegible

section Spelled

/-- A letter without a number behind it. -/
def Token.IsBare (token : Token α) : Prop :=
  ∃ letter text raw, token = .word letter (.invalid text) raw

/-- A character of which no number is made, nor an expression. -/
def IsSpelled (character : Char) : Prop :=
  character.isDigit = false ∧ character ≠ '[' ∧ character ≠ '#'

theorem wordValue_spelled {text : List Char}
    (spelled : ∀ character ∈ text, IsSpelled character) :
    ∃ invalid raw after, wordValue (α := α) text = (.invalid invalid, raw, after) := by
  have unread : Decimal.Numeral.read? (text.takeWhile isNumberChar) = none :=
    Decimal.Numeral.read?_eq_none fun character member =>
      (spelled character ((List.takeWhile_sublist _).subset member)).1
  unfold wordValue
  split
  · exact absurd rfl (spelled '[' List.mem_cons_self).2.1
  · exact absurd rfl (spelled '#' List.mem_cons_self).2.2
  · simp [numberValue, unread]

/-- A text of such characters has only bare letters. -/
theorem isBare_of_mem_tokenize {text : List Char}
    (spelled : ∀ character ∈ text, IsSpelled character)
    {token : Token α} (member : token ∈ tokenize text) : token.IsBare := by
  induction text using tokenize.induct (α := α) with
  | case1 =>
      rw [tokenize] at member
      cases member
  | case2 rest _ => exact absurd rfl (spelled '[' List.mem_cons_self).2.1
  | case3 first rest notBracket alpha _ _ _ _ ih =>
      have later : rest.dropWhile isGap ⊆ first :: rest :=
        List.subset_cons_of_subset _ (List.dropWhile_sublist isGap).subset
      obtain ⟨invalid, raw, after, value⟩ := wordValue_spelled (α := α)
        fun character isIn => spelled character (later isIn)
      have behind := wordValue_subset (α := α) (rest.dropWhile isGap)
      rw [value] at ih behind
      rw [tokenize, if_neg notBracket, if_pos alpha, value] at member
      rcases List.mem_cons.mp member with rfl | inRest
      · exact ⟨_, invalid, raw, rfl⟩
      · exact ih (fun character isIn => spelled character (later (behind isIn))) inRest
  | case4 first rest notBracket notAlpha ih =>
      rw [tokenize, if_neg notBracket, if_neg notAlpha] at member
      exact ih (fun character isIn => spelled character (List.mem_cons_of_mem first isIn)) member

theorem foldl_add_bare {tokens : List (Token α)} (bare : ∀ token ∈ tokens, token.IsBare)
    (table : Variables α) (line : Nat) (reading : WordReading α) :
    ∃ warnings, tokens.foldl (WordReading.add calculate table line) reading =
      { reading with warnings } := by
  induction tokens generalizing reading with
  | nil => exact ⟨reading.warnings, rfl⟩
  | cons token tokens ih =>
      obtain ⟨letter, text, raw, rfl⟩ := bare token List.mem_cons_self
      let added := reading.add calculate table line (.word letter (.invalid text) raw)
      have same : added = { reading with warnings := added.warnings } := by
        by_cases isCode : letter = 'G' ∨ letter = 'M'
        · simp [added, WordReading.add, isCode]
        · by_cases known : letter ∈ parameterLetters <;>
            simp [added, WordReading.add, isCode, known, resolve]
      obtain ⟨warnings, later⟩ :=
        ih (fun other member => bare other (List.mem_cons_of_mem _ member)) added
      refine ⟨warnings, ?_⟩
      rw [List.foldl_cons, later, same]

theorem readWords_bare {words : List (List Char)} {codes : List Code}
    {entries : List (Char × α)} (gathers : Gathers words codes entries)
    {bare : List (Token α)} (isBare : ∀ token ∈ bare, token.IsBare)
    (line : Nat) (raw : String) {code : List Char} (comment : Option String)
    (state : ReadingState α) (tokenized : tokenize code = words.map tokenOf ++ bare) :
    ((readWords calculate line raw code comment state).1.point,
      (readWords calculate line raw code comment state).2) =
        obey line comment codes (Parameters.insertAll {} entries) state := by
  have collected := foldl_add_of_gathers calculate gathers state.assigned line {}
  obtain ⟨warnings, silent⟩ := foldl_add_bare calculate isBare state.assigned line
    { codes := [] ++ codes, parameters := Parameters.insertAll {} entries, warnings := [] }
  simp only [List.nil_append] at collected silent
  simp only [readWords, tokenized, List.foldl_append, collected, silent, obey,
    ReadingState.prepared]
  split
  · rfl
  · split <;> rfl

end Spelled

section Lines

/-- No reading of a line finds an invalid parameter. -/
def IsClean (line : List Char) : Prop :=
  ∀ number state, ∀ fault ∈ (readLine calculate number line state).1.warnings,
    fault.isInvalidParameter = false

/-- Every reading of a line finds an invalid parameter. -/
def IsSpoilt (line : List Char) : Prop :=
  ∀ number state, ∃ fault ∈ (readLine calculate number line state).1.warnings,
    fault.isInvalidParameter = true

theorem isClean_note {note : List Char} (isNote : IsNote note) : IsClean calculate note := by
  intro number state fault member
  rw [readLine_note calculate number state isNote] at member
  cases member

theorem isClean_percent : IsClean calculate ['%'] := by
  intro number state fault member
  rw [readLine_percent] at member
  cases member

theorem isClean_nil : IsClean calculate [] := by
  intro number state fault member
  rw [readLine_empty] at member
  cases member

theorem isClean_noted {words : List (List Char)} (nonempty : words ≠ [])
    (legible : ∀ word ∈ words, IsWord word ∧ ∃ letter number, word = letter :: number ∧
      IsLegible α letter number)
    {note : Option (List Char)} (isNote : ∀ remark ∈ note, IsNote remark)
    (trimmed : ∀ remark ∈ note, ∀ last ∈ remark.getLast?, Text.isBlank last = false) :
    IsClean calculate (noted words note) := by
  intro number state fault member
  obtain ⟨raw, code, comment, read, tokenized⟩ := readLine_noted calculate number state nonempty
    (fun word isWord => (legible word isWord).1) isNote trimmed
  rw [read] at member
  exact readWords_legible calculate (fun word isWord => (legible word isWord).2) tokenized number
    raw comment state fault member

theorem isSpoilt_noted {words : List (List Char)} (plain : ∀ word ∈ words, IsPlainWord word)
    {word : List Char} (isWord : word ∈ words)
    (illegible : ∃ token ∈ tokenize (α := α) word, token.IsIllegible)
    {note : Option (List Char)} (isNote : ∀ remark ∈ note, IsNote remark)
    (trimmed : ∀ remark ∈ note, ∀ last ∈ remark.getLast?, Text.isBlank last = false) :
    IsSpoilt calculate (noted words note) := by
  intro number state
  obtain ⟨raw, count, comment, read⟩ := readLine_plain calculate number state
    (List.ne_nil_of_mem isWord) plain isNote trimmed
  rw [read]
  apply readWords_illegible
  obtain ⟨token, inWord, bad⟩ := illegible
  refine ⟨token, ?_, bad⟩
  rw [tokenize_joined_plain plain]
  exact List.mem_flatMap.mpr ⟨word, isWord, inWord⟩

theorem readLines_clean {lines : List (List Char)}
    (clean : ∀ line ∈ lines, IsClean calculate line) (number : Nat) (state : ReadingState α) :
    ∀ effect ∈ (readLines calculate number state lines).1, ∀ fault ∈ effect.warnings,
      fault.isInvalidParameter = false := by
  induction lines generalizing number state with
  | nil => simp [readLines]
  | cons line lines ih =>
      intro effect member
      rcases List.mem_cons.mp member with rfl | later
      · exact clean line List.mem_cons_self number state
      · exact ih (fun other isLine => clean other (List.mem_cons_of_mem line isLine))
          (number + 1) (readLine calculate number line state).2 effect later

theorem readLines_spoilt {lines : List (List Char)}
    (spoilt : ∃ line ∈ lines, IsSpoilt calculate line) (number : Nat)
    (state : ReadingState α) :
    ∃ effect ∈ (readLines calculate number state lines).1, ∃ fault ∈ effect.warnings,
      fault.isInvalidParameter = true := by
  obtain ⟨line, member, bad⟩ := spoilt
  induction lines generalizing number state with
  | nil => cases member
  | cons first lines ih =>
      rcases List.mem_cons.mp member with rfl | later
      · exact ⟨_, List.mem_cons_self, bad number state⟩
      · obtain ⟨effect, isEffect, found⟩ :=
          ih (number + 1) (readLine calculate number first state).2 later
        exact ⟨effect, List.mem_cons_of_mem _ isEffect, found⟩

theorem readProgram_clean {lines : List (List Char)} (oneLine : ∀ line ∈ lines, '\n' ∉ line)
    (clean : ∀ line ∈ lines, IsClean calculate line) (tool : Nat) :
    ∀ fault ∈ (readProgram calculate tool
        (String.ofList (lines.flatMap fun line => line ++ ['\n']))).warnings,
      fault.isInvalidParameter = false := by
  intro fault member
  simp only [readProgram, String.toList_ofList, textLines_flatMap oneLine,
    List.mem_flatMap] at member
  obtain ⟨effect, isEffect, inEffect⟩ := member
  refine readLines_clean calculate ?_ 1 (.start tool) effect isEffect fault inEffect
  intro line isLine
  rcases List.mem_append.mp isLine with inLines | isLast
  · exact clean line inLines
  · rw [List.mem_singleton.mp isLast]
    exact isClean_nil calculate

theorem readProgram_spoilt {lines : List (List Char)} {line : List Char} (member : line ∈ lines)
    (oneLine : '\n' ∉ line) (spoilt : IsSpoilt calculate line) (tool : Nat) :
    ∃ fault ∈ (readProgram calculate tool
        (String.ofList (lines.flatMap fun line => line ++ ['\n']))).warnings,
      fault.isInvalidParameter = true := by
  obtain ⟨effect, isEffect, fault, inEffect, invalid⟩ := readLines_spoilt calculate
    ⟨line, mem_textLines member oneLine, spoilt⟩ 1 (.start tool)
  refine ⟨fault, ?_, invalid⟩
  simp only [readProgram, String.toList_ofList, List.mem_flatMap]
  exact ⟨effect, isEffect, inEffect⟩

end Lines

end Program

end Milling
