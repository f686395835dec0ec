import Milling.Program.Reading
import Milling.Proofs.Program.Token

/-!
# Reading a line of words

A line of words, with a remark behind it or not, is read as its words are: the
codes in order and the latest number of each letter.
-/

namespace Milling.Program

/-- A remark as it stands behind the words of a line. -/
inductive IsNote : List Char → Prop where
  | semicolon (text : List Char) : IsNote (';' :: text)
  | parentheses (text : List Char) (unclosed : ')' ∉ text) :
      IsNote ('(' :: text ++ [')'])

/-- Words with a remark behind them. -/
def noted (words : List (List Char)) (note : Option (List Char)) : List Char :=
  joined (words ++ note.toList)

theorem noted_none (words : List (List Char)) : noted words none = joined words := by
  simp [noted]

theorem noted_some {words : List (List Char)} (nonempty : words ≠ [])
    (note : List Char) : noted words (some note) = joined words ++ ' ' :: note :=
  joined_append_singleton nonempty note

theorem noted_nil_some (note : List Char) : noted [] (some note) = note := by
  simp [noted, joined, List.intercalate]

/-- The lines of a text of lines that each end in a line feed. -/
theorem textLines_flatMap {lines : List (List Char)} (oneLine : ∀ line ∈ lines, '\n' ∉ line) :
    textLines (lines.flatMap fun line => line ++ ['\n']) = lines ++ [[]] :=
  Text.splitOn_flatMap_concat
    (fun line isLine character member => by
      rw [beq_eq_false_iff_ne]
      rintro rfl
      exact oneLine line isLine member)
    rfl

def textOf (lines : List (List Char)) : String := String.ofList (['\n'].intercalate lines)

theorem textLines_textOf {lines : List (List Char)} (oneLine : ∀ line ∈ lines, '\n' ∉ line) :
    textLines (textOf lines).toList = if lines = [] then [[]] else lines := by
  rw [textOf, String.toList_ofList]
  split
  · rename_i empty
    rw [empty]
    rfl
  · rename_i nonempty
    refine Text.splitOn_intercalate nonempty (fun line isLine character inside => ?_) rfl
    rw [beq_eq_false_iff_ne]
    rintro rfl
    exact oneLine line isLine inside

theorem mem_textLines {lines : List (List Char)} {line : List Char} (member : line ∈ lines)
    (oneLine : '\n' ∉ line) :
    line ∈ textLines (lines.flatMap fun line => line ++ ['\n']) := by
  induction lines with
  | nil => cases member
  | cons first lines ih =>
      have split := @Text.splitOn_append_separator _ (· == '\n') '\n' rfl first
        (lines.flatMap fun line => line ++ ['\n'])
      rw [List.flatMap_cons, List.append_assoc, List.singleton_append, textLines, split,
        List.mem_append]
      rcases List.mem_cons.mp member with rfl | later
      · have whole : Text.splitOn (· == '\n') line = [line] :=
          Text.splitOn_eq_singleton fun character inside => by
            rw [beq_eq_false_iff_ne]
            rintro rfl
            exact oneLine inside
        rw [whole]
        exact .inl (List.mem_singleton_self line)
      · exact .inr (ih later)

section Comments

theorem splitComments_semicolon (rest : List Char) :
    splitComments (';' :: rest) = ([], [Text.trim rest]) := by
  rw [splitComments, if_pos rfl]

theorem splitComments_parenthesis {inside after : List Char}
    (unclosed : ')' ∉ inside) :
    splitComments ('(' :: inside ++ ')' :: after) =
      (' ' :: (splitComments after).1,
        Text.trim inside :: (splitComments after).2) := by
  have runs : ∀ character ∈ inside, (character == ')') = false := by
    intro character member
    rw [beq_eq_false_iff_ne]
    rintro rfl
    exact unclosed member
  have found := Text.cutAt_append_cons runs (beq_self_eq_true ')') after
  rw [List.cons_append, splitComments, if_neg (by decide), if_pos rfl]
  split
  · rename_i before rest equation
    rw [found, Option.some.injEq, Prod.mk.injEq] at equation
    rw [← equation.1, ← equation.2]
  · rename_i equation
    rw [found] at equation
    contradiction

theorem splitComments_unclosed {text : List Char} (unclosed : ')' ∉ text) :
    splitComments ('(' :: text) = ([], [Text.trim text]) := by
  have runs : ∀ character ∈ text, (character == ')') = false := by
    intro character member
    rw [beq_eq_false_iff_ne]
    rintro rfl
    exact unclosed member
  rw [splitComments, if_neg (by decide), if_pos rfl]
  split
  · rename_i found
    rw [Text.cutAt_eq_none runs] at found
    cases found
  · rfl

/-- Code in front of comments stays as it is. -/
theorem splitComments_append {code : List Char}
    (plain : ∀ character ∈ code, character ≠ ';' ∧ character ≠ '(')
    (rest : List Char) :
    splitComments (code ++ rest) =
      (code ++ (splitComments rest).1, (splitComments rest).2) := by
  induction code with
  | nil => rfl
  | cons head tail ih =>
      have tailPlain := ih fun character member =>
        plain character (List.mem_cons_of_mem head member)
      have headPlain := plain head List.mem_cons_self
      rw [List.cons_append, splitComments, if_neg headPlain.1, if_neg headPlain.2, tailPlain]
      rfl

/-- Code without comments stays as it is. -/
theorem splitComments_of_plain {code : List Char}
    (plain : ∀ character ∈ code, character ≠ ';' ∧ character ≠ '(') :
    splitComments code = (code, []) := by
  have alone := splitComments_append plain []
  rwa [List.append_nil, splitComments, List.append_nil] at alone

theorem stripComments_cons {first : Char} (plain : first ≠ ';' ∧ first ≠ '(')
    (rest : List Char) : stripComments (first :: rest) = first :: stripComments rest := by
  rw [stripComments, splitComments, if_neg plain.1, if_neg plain.2]
  rfl

/-- A remark leaves nothing of itself in the code but blanks. -/
theorem splitComments_note {note : List Char} (isNote : IsNote note) :
    ∃ count, (splitComments note).1 = List.replicate count ' ' := by
  cases isNote with
  | semicolon text => exact ⟨0, by rw [splitComments_semicolon]; rfl⟩
  | parentheses text unclosed =>
      refine ⟨1, ?_⟩
      rw [splitComments_parenthesis unclosed]
      simp [splitComments]

end Comments

theorem mem_joined {words : List (List Char)} {character : Char}
    (member : character ∈ joined words) :
    character = ' ' ∨ ∃ word ∈ words, character ∈ word := by
  cases words with
  | nil => simp [joined, List.intercalate] at member
  | cons word words =>
      rw [joined_cons, List.mem_append] at member
      rcases member with inFirst | inOthers
      · exact .inr ⟨word, List.mem_cons_self, inFirst⟩
      · simp only [spaced, List.mem_flatMap] at inOthers
        obtain ⟨other, otherMember, inOther⟩ := inOthers
        rcases List.mem_cons.mp inOther with blank | inside
        · exact .inl blank
        · exact .inr ⟨other, List.mem_cons_of_mem word otherMember, inside⟩

section Words

variable {words : List (List Char)}

theorem joined_range (plain : ∀ word ∈ words, IsPlainWord word) :
    ∀ character ∈ joined words, character ≠ ';' ∧ character ≠ '(' ∧ character ≠ '\n' := by
  intro character member
  rcases mem_joined member with rfl | ⟨word, wordMember, inside⟩
  · decide
  · have range := (plain word wordMember).char_range character inside
    refine ⟨range.2.2.1, ?_, ?_⟩
    · rintro rfl
      simp at range
    · rintro rfl
      simp at range

theorem head?_joined_append (nonempty : words ≠ [])
    (plain : ∀ word ∈ words, IsPlainWord word) (after : List Char) :
    ∃ first rest, joined words ++ after = first :: rest ∧ first.isUpper = true := by
  cases words with
  | nil => exact absurd rfl nonempty
  | cons word words =>
      cases plain word List.mem_cons_self with
      | intro letter text capital _ =>
          exact ⟨letter, text ++ (spaced words ++ after), by simp [joined_cons], capital⟩

theorem isBlank_of_isUpper {character : Char} (capital : character.isUpper = true) :
    Text.isBlank character = false := by
  have range := isUpper_iff.mp capital
  exact isBlank_of_range ⟨by omega, by omega⟩

private theorem getLast?_spaced_append (solid : ∀ word ∈ words, Text.IsSolid word)
    {front : List Char} (frontSolid : Text.IsSolid front) :
    ∀ character ∈ (front ++ spaced words).getLast?, Text.isBlank character = false := by
  induction words generalizing front with
  | nil =>
      intro character last
      simp only [spaced_nil, List.append_nil] at last
      exact frontSolid.2 character (List.mem_of_getLast? last)
  | cons word words ih =>
      intro character last
      have wordSolid := solid word List.mem_cons_self
      have inTail : character ∈ (word ++ spaced words).getLast? := by
        rw [spaced_cons, List.cons_append, List.getLast?_append_cons,
          List.getLast?_cons] at last
        have nonempty : word ++ spaced words ≠ [] := by simp [wordSolid.1]
        rw [List.getLast?_eq_some_getLast nonempty] at last ⊢
        simpa using last
      exact ih (fun other member => solid other (List.mem_cons_of_mem word member))
        wordSolid character inTail

/-- A line of words ends in a solid character. -/
theorem getLast?_joined (solid : ∀ word ∈ words, Text.IsSolid word) :
    ∀ character ∈ (joined words).getLast?, Text.isBlank character = false := by
  cases words with
  | nil => simp [joined, List.intercalate]
  | cons word words =>
      rw [joined_cons]
      exact getLast?_spaced_append
        (fun other member => solid other (List.mem_cons_of_mem word member))
        (solid word List.mem_cons_self)

/-- A line of words starts with a solid character. -/
theorem exists_cons_joined_append (nonempty : words ≠ [])
    (solid : ∀ word ∈ words, Text.IsSolid word) (after : List Char) :
    ∃ first rest, joined words ++ after = first :: rest ∧ Text.isBlank first = false := by
  cases words with
  | nil => exact absurd rfl nonempty
  | cons word words =>
      obtain ⟨wordNonempty, solidWord⟩ := solid word List.mem_cons_self
      cases word with
      | nil => exact absurd rfl wordNonempty
      | cons first rest =>
          exact ⟨first, rest ++ (spaced words ++ after), by simp [joined_cons],
            solidWord first List.mem_cons_self⟩

/-- Of words with a remark behind them only the end of the remark is trimmed. -/
theorem trim_noted_solid (solid : ∀ word ∈ words, Text.IsSolid word) {note : Option (List Char)}
    (starts : ∀ remark ∈ note, ∃ first rest, remark = first :: rest ∧
      Text.isBlank first = false) :
    Text.trim (noted words note) = noted words (note.map Text.trimEnd) := by
  cases note with
  | none =>
      rw [Option.map_none, noted_none]
      by_cases nonempty : words = []
      · rw [nonempty]
        rfl
      · obtain ⟨first, rest, start, solidFirst⟩ := exists_cons_joined_append nonempty solid []
        rw [List.append_nil] at start
        exact Text.trim_eq_self (by simp [start, solidFirst]) (getLast?_joined solid)
  | some remark =>
      obtain ⟨first, rest, rfl, solidFirst⟩ := starts remark rfl
      have kept (before : List Char) :
          Text.trimEnd (before ++ first :: rest) = before ++ first :: Text.trimEnd rest :=
        Text.dropEndWhile_append_cons solidFirst before rest
      have alone : Text.trimEnd (first :: rest) = first :: Text.trimEnd rest := kept []
      by_cases nonempty : words = []
      · rw [nonempty, Option.map_some, noted_nil_some, noted_nil_some]
        exact Text.trim_cons solidFirst rest
      · obtain ⟨start, others, shape, solidStart⟩ :=
          exists_cons_joined_append nonempty solid (' ' :: first :: rest)
        have whole := kept (joined words ++ [' '])
        rw [List.append_assoc, List.append_assoc, List.singleton_append,
          List.singleton_append] at whole
        rw [Option.map_some, noted_some nonempty, noted_some nonempty, alone, shape,
          Text.trim_cons solidStart, ← shape, whole]

theorem newline_notMem_noted (plain : ∀ word ∈ words, IsPlainWord word) {note : Option (List Char)}
    (oneLine : ∀ remark ∈ note, '\n' ∉ remark) : '\n' ∉ noted words note := by
  have inWords : ∀ word ∈ words, '\n' ∉ word := by
    intro word wordMember inside
    have range := (plain word wordMember).char_range '\n' inside
    simp at range
  intro member
  rcases mem_joined member with blank | ⟨piece, pieceMember, inside⟩
  · exact absurd blank (by decide)
  · rcases List.mem_append.mp pieceMember with isWord | isRemark
    · exact inWords piece isWord inside
    · exact oneLine piece (by simpa using isRemark) inside

end Words

section Reading

variable {α : Type} [Scalar α] (calculate : String → Except String α)

/-- The code of a line of words is the words, with blanks behind them. -/
theorem stripComments_noted {words : List (List Char)} (nonempty : words ≠ [])
    (plain : ∀ word ∈ words, IsPlainWord word) {note : Option (List Char)}
    (isNote : ∀ remark ∈ note, IsNote remark) :
    ∃ count, stripComments (noted words note) = joined words ++ List.replicate count ' ' := by
  have code : ∀ character ∈ joined words, character ≠ ';' ∧ character ≠ '(' := by
    intro character member
    have range := joined_range plain character member
    exact ⟨range.1, range.2.1⟩
  cases note with
  | none =>
      refine ⟨0, ?_⟩
      simp [noted_none, stripComments, splitComments_of_plain code]
  | some remark =>
      obtain ⟨count, blanks⟩ := splitComments_note (isNote remark rfl)
      refine ⟨count + 1, ?_⟩
      have blank : splitComments ([' '] ++ remark) =
          ([' '] ++ (splitComments remark).1, (splitComments remark).2) :=
        splitComments_append (List.forall_mem_singleton.mpr (by decide)) remark
      rw [List.cons_append, List.nil_append] at blank
      rw [noted_some nonempty, stripComments, splitComments_append code, blank, blanks]
      rfl

private theorem getLast?_noted {words : List (List Char)} (nonempty : words ≠ [])
    (plain : ∀ word ∈ words, IsPlainWord word) {note : Option (List Char)}
    (isNote : ∀ remark ∈ note, IsNote remark)
    (trimmed : ∀ remark ∈ note, ∀ last ∈ remark.getLast?, Text.isBlank last = false) :
    ∀ last ∈ (noted words note).getLast?, Text.isBlank last = false := by
  cases note with
  | none =>
      rw [noted_none]
      exact getLast?_joined fun word member => (plain word member).isSolid
  | some remark =>
      intro last member
      have remarkNonempty : remark ≠ [] := by
        cases isNote remark rfl <;> simp
      rw [noted_some nonempty, List.getLast?_append_cons, List.getLast?_cons] at member
      apply trimmed remark rfl last
      rw [List.getLast?_eq_some_getLast remarkNonempty] at member ⊢
      simpa using member

/-- A line of words starts with a capital letter. -/
theorem exists_cons_noted {words : List (List Char)} (nonempty : words ≠ [])
    (plain : ∀ word ∈ words, IsPlainWord word) (note : Option (List Char)) :
    ∃ first rest, noted words note = first :: rest ∧ first.isUpper = true := by
  cases note with
  | none =>
      rw [noted_none, ← List.append_nil (joined words)]
      exact head?_joined_append nonempty plain []
  | some remark =>
      rw [noted_some nonempty]
      exact head?_joined_append nonempty plain (' ' :: remark)

/-- A line of words has no blanks around it. -/
theorem trim_noted {words : List (List Char)} (nonempty : words ≠ [])
    (plain : ∀ word ∈ words, IsPlainWord word) {note : Option (List Char)}
    (isNote : ∀ remark ∈ note, IsNote remark)
    (trimmed : ∀ remark ∈ note, ∀ last ∈ remark.getLast?, Text.isBlank last = false) :
    Text.trim (noted words note) = noted words note := by
  obtain ⟨first, rest, shape, capital⟩ := exists_cons_noted nonempty plain note
  exact Text.trim_eq_self (by simp [shape, isBlank_of_isUpper capital])
    (getLast?_noted nonempty plain isNote trimmed)

/-- A line whose first character starts a comment is passed over. -/
theorem readLine_remark (line : Nat) (state : ReadingState α) {first : Char}
    (starts : first = ';' ∨ first = '(') (rest : List Char) :
    readLine calculate line (first :: rest) state = ({}, state) := by
  have solid : Text.isBlank first = false ∧ (first == '\r') = false := by
    rcases starts with rfl | rfl <;> decide
  have raw : Text.dropEndWhile (· == '\r') (first :: rest) =
      first :: Text.dropEndWhile (· == '\r') rest :=
    @Text.dropEndWhile_append_cons (· == '\r') _ solid.2 [] rest
  have text : ∀ tail, Text.trim (first :: tail) = first :: Text.trimEnd tail := by
    intro tail
    rw [Text.trim_cons solid.1]
    exact Text.dropEndWhile_append_cons solid.1 [] tail
  unfold readLine
  simp only [raw, text]
  rcases starts with rfl | rfl <;> simp

theorem readLine_percent (line : Nat) (state : ReadingState α) :
    readLine calculate line ['%'] state = ({}, state) := by
  have percent : Text.dropEndWhile (· == '\r') ['%'] = ['%'] ∧ Text.trim ['%'] = ['%'] := by
    decide
  simp [readLine, percent]

theorem readLine_empty (line : Nat) (state : ReadingState α) :
    readLine calculate line [] state = ({}, state) := by
  have trimmed : Text.trim [] = [] := rfl
  simp [readLine, Text.dropEndWhile, trimmed]

theorem assignment?_eq_none {first : Char} (solid : Text.isBlank first = false)
    (other : first ≠ '#') (rest : List Char) : assignment? (first :: rest) = none := by
  have start : (Text.trim (first :: rest)).head? = some first := by
    rw [Text.trim_cons solid]
    exact Text.head?_trimEnd solid rest
  unfold assignment?
  split
  · rename_i reference
    rw [reference, List.head?_cons, Option.some.injEq] at start
    exact absurd start.symm other
  · rfl

theorem readLine_code (line : Nat) (state : ReadingState α) {written : List Char} {first : Char}
    (starts : (Text.trim written).head? = some first) (plain : first ≠ ';' ∧ first ≠ '(')
    (unframed : Text.trim written ≠ ['%'])
    (noAssignment : assignment? (stripComments (Text.trim written)) = none) :
    readLine calculate line written state =
      readWords calculate line (String.ofList (Text.dropEndWhile (· == '\r') written))
        (stripComments (Text.trim written)) ((comment? (Text.trim written)).filter (· ≠ ""))
        state := by
  have solid : Text.isBlank first = false := Text.head?_trim first starts
  obtain ⟨rest, shape⟩ : ∃ rest, Text.trim written = first :: rest :=
    ⟨_, List.eq_cons_of_mem_head? starts⟩
  have filled : (Text.trim (stripComments (Text.trim written))).isEmpty = false := by
    rw [shape, stripComments_cons plain, Text.trim_cons solid]
    have kept := Text.head?_trimEnd solid (stripComments rest)
    cases trimmed : Text.trimEnd (first :: stripComments rest) with
    | nil => simp [trimmed] at kept
    | cons _ _ => rfl
  have notFrame : (Text.trim written == ['%']) = false := beq_eq_false_iff_ne.mpr unframed
  unfold readLine
  simp only [Text.trim_dropReturns, filled, noAssignment, notFrame, starts]
  simp [plain, shape]

/-- A line that is a remark is passed over. -/
theorem readLine_note (line : Nat) (state : ReadingState α) {note : List Char}
    (isNote : IsNote note) : readLine calculate line note state = ({}, state) := by
  cases isNote with
  | semicolon text => exact readLine_remark calculate line state (.inl rfl) text
  | parentheses text _ => exact readLine_remark calculate line state (.inr rfl) (text ++ [')'])

/-- Of a line of plain words its words are read, with blanks behind them and with the
comments of the line. -/
theorem readLine_commented (line : Nat) (state : ReadingState α) {words : List (List Char)}
    (nonempty : words ≠ []) (plain : ∀ word ∈ words, IsPlainWord word)
    {note : Option (List Char)} (isNote : ∀ remark ∈ note, IsNote remark)
    (trimmed : ∀ remark ∈ note, ∀ last ∈ remark.getLast?, Text.isBlank last = false) :
    ∃ raw count,
      readLine calculate line (noted words note) state =
        readWords calculate line raw (joined words ++ List.replicate count ' ')
          ((comment? (noted words note)).filter (· ≠ "")) state := by
  obtain ⟨count, stripped⟩ := stripComments_noted nonempty plain isNote
  obtain ⟨first, rest, shape, capital⟩ := exists_cons_noted nonempty plain note
  have text := trim_noted nonempty plain isNote trimmed
  have other : first ≠ ';' ∧ first ≠ '(' ∧ first ≠ '%' ∧ first ≠ '#' := by
    refine ⟨?_, ?_, ?_, ?_⟩ <;> (rintro rfl; simp at capital)
  have noAssignment : assignment? (stripComments (first :: rest)) = none := by
    rw [stripComments_cons ⟨other.1, other.2.1⟩]
    exact assignment?_eq_none (isBlank_of_isUpper capital) other.2.2.2 _
  have starts : (Text.trim (noted words note)).head? = some first := by
    rw [text, shape]
    rfl
  have read := readLine_code calculate line state starts ⟨other.1, other.2.1⟩
    (by rw [text, shape]; simp [other.2.2.1]) (by rwa [text, shape])
  rw [text, stripped] at read
  exact ⟨_, count, read⟩

theorem readLine_plain (line : Nat) (state : ReadingState α) {words : List (List Char)}
    (nonempty : words ≠ []) (plain : ∀ word ∈ words, IsPlainWord word)
    {note : Option (List Char)} (isNote : ∀ remark ∈ note, IsNote remark)
    (trimmed : ∀ remark ∈ note, ∀ last ∈ remark.getLast?, Text.isBlank last = false) :
    ∃ raw count comment,
      readLine calculate line (noted words note) state =
        readWords calculate line raw (joined words ++ List.replicate count ' ') comment
          state := by
  obtain ⟨raw, count, read⟩ := readLine_commented calculate line state nonempty plain isNote trimmed
  exact ⟨raw, count, _, read⟩

theorem readLine_noted (line : Nat) (state : ReadingState α) {words : List (List Char)}
    (nonempty : words ≠ []) (plain : ∀ word ∈ words, IsWord word)
    {note : Option (List Char)} (isNote : ∀ remark ∈ note, IsNote remark)
    (trimmed : ∀ remark ∈ note, ∀ last ∈ remark.getLast?, Text.isBlank last = false) :
    ∃ raw code comment,
      readLine calculate line (noted words note) state =
        readWords calculate line raw code comment state ∧
      tokenize (α := α) code = words.map tokenOf := by
  obtain ⟨raw, count, comment, read⟩ := readLine_plain calculate line state nonempty
    (fun word member => (plain word member).isPlain) isNote trimmed
  exact ⟨raw, _, comment, read, tokenize_joined plain count⟩

/-- Words without a remark behind them are read without a comment. -/
theorem readLine_joined (line : Nat) (state : ReadingState α) {words : List (List Char)}
    (nonempty : words ≠ []) (plain : ∀ word ∈ words, IsWord word) :
    ∃ raw code,
      readLine calculate line (joined words) state =
        readWords calculate line raw code none state ∧
      tokenize (α := α) code = words.map tokenOf := by
  have plainWords : ∀ word ∈ words, IsPlainWord word := fun word member =>
    (plain word member).isPlain
  have noNote : ∀ remark ∈ (none : Option (List Char)), IsNote remark := by simp
  obtain ⟨raw, count, read⟩ := readLine_commented calculate line state nonempty plainWords
    noNote (by simp)
  have uncommented : comment? (joined words) = none := by
    have code := splitComments_of_plain fun character member =>
      have range := joined_range plainWords character member
      ⟨range.1, range.2.1⟩
    rw [comment?, code]
  rw [noted_none, uncommented] at read
  exact ⟨raw, _, read, tokenize_joined plain count⟩

end Reading

end Milling.Program
