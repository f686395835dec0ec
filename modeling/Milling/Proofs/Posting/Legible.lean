import Milling.Proofs.Posting.Draft
import Milling.Proofs.Posting.RoundTrip
import Milling.Proofs.Program.Legible

/-!
# Lines of plain numbers

A line whose words all have a number keeps them when it is shortened, and one
with the name of something that is no number keeps that.
-/

namespace Milling.Posting

open Program (IsClean IsLegible IsPlainWord IsSpoilt IsWord noted numberValue)

variable {α : Type} [Scalar α]

section Words

/-- A word whose code or number reads back. -/
def Legible (α : Type) [Scalar α] (word : Line) : Prop :=
  IsWord word ∧ ∃ letter number, word = letter :: number ∧ IsLegible α letter number

theorem legible_code {letter : Char} {number : Line} (isWord : IsWord (letter :: number))
    (group : letter = 'G' ∨ letter = 'M')
    (read : (Program.Code.read? letter number).isSome = true)
    (numeric : (Decimal.Numeral.read? number).isSome = true) :
    Legible α (letter :: number) := by
  refine ⟨isWord, letter, number, rfl, fun _ => read, fun _ => numeric, ?_⟩
  rintro rfl
  rcases group with isCode | isCode <;> cases isCode

theorem legible_codes {words : List Line}
    (codes : ∀ word ∈ words, IsWord word ∧ word = 'G' :: word.tail ∧
      (Decimal.Numeral.read? word.tail).isSome = true ∧ (codeOfWord? word).isSome = true) :
    ∀ word ∈ words, Legible α word := by
  intro word member
  obtain ⟨isWord, shape, numeric, isCode⟩ := codes word member
  rw [shape] at isWord ⊢
  exact legible_code isWord (.inl rfl) isCode numeric

theorem legible_parameter {letter : Char} {number : Line} (isWord : IsWord (letter :: number))
    (noCode : letter ≠ 'G' ∧ letter ≠ 'M' ∧ letter ≠ 'T')
    (numeric : (Decimal.Numeral.read? number).isSome = true) :
    Legible α (letter :: number) := by
  refine ⟨isWord, letter, number, rfl, ?_, fun _ => numeric, fun isTool =>
    absurd isTool noCode.2.2⟩
  rintro (isCode | isCode)
  · exact absurd isCode noCode.1
  · exact absurd isCode noCode.2.1

theorem isSome_of_reads {text : Line} {negative : Bool} {coefficient places : Nat}
    (reads : Decimal.Numeral.Reads text negative coefficient places) :
    (Decimal.Numeral.read? text).isSome = true := by
  obtain ⟨short, zeros, fewer, read, _⟩ := reads
  rw [read]
  rfl

theorem legible_word (dialect : Dialect) {letter : Char} {value : α}
    (capital : letter.isUpper = true) (noCode : letter ≠ 'G' ∧ letter ≠ 'M' ∧ letter ≠ 'T')
    (finite : Scalar.isFinite value = true) : Legible α (dialect.word letter value) := by
  refine legible_parameter (dialect.isWord_word capital finite) noCode ?_
  rw [Dialect.numberText_of_finite dialect finite]
  exact isSome_of_reads (Dialect.reads_styled _ _ _)

theorem read?_whole (value : Int) :
    (Decimal.Numeral.read? (toString value).toList).isSome = true := by
  rw [Decimal.toList_toString_whole]
  exact isSome_of_reads (Decimal.Numeral.reads_fixedText 0 value)

/-- The number of a tool word that the reading accepts. -/
def AcceptsTool (α : Type) [Scalar α] (tool : Nat) : Prop :=
  (Program.selectedTool? (Scalar.ofDecimal false tool 0 : α)).isSome = true

theorem acceptsTool [DecimalScalar α] {tool : Nat}
    (bounded : tool ≤ Program.ToolChange.greatestTool) : AcceptsTool α tool := by
  rw [AcceptsTool, DecimalScalar.selectedTool?_ofDecimal bounded]
  rfl

theorem legible_tool {tool : Nat} (accepted : AcceptsTool α tool) :
    Legible α ('T' :: (toString tool).toList) := by
  refine ⟨isWord_whole 'T' (by decide) tool, 'T', (toString tool).toList, rfl, ?_,
    fun _ => read?_whole tool, ?_⟩
  · rintro (isCode | isCode) <;> cases isCode
  · intro _ value isValue
    obtain ⟨short, zeros, fewer, read, whole, places⟩ := Decimal.Numeral.reads_fixedText 0 tool
    have noZeros : zeros = 0 ∧ fewer = 0 := by omega
    rw [Decimal.toList_toString_natural, numberValue, read,
      Program.WordValue.number.injEq] at isValue
    have sameTool : tool = short := by simpa [noZeros] using whole
    have noSign : decide ((tool : Int) < 0) = false := by simp
    rw [← isValue, noSign, noZeros.2, ← sameTool]
    exact accepted

end Words

section Lines

variable (calculate : String → Except String α)

/-- What compaction leaves of legible words reads back without an invalid parameter. -/
theorem IsCompacted.isClean {together : List Line → Prop} {line : Line}
    (compacted : IsCompacted together line)
    (legible : ∀ words, together words → ∀ word ∈ words, Legible α word) :
    IsClean calculate line := by
  cases compacted with
  | remark tidy => exact Program.isClean_note calculate tidy.isNote
  | frame => exact Program.isClean_percent calculate
  | words isTogether fewer nonempty plain tidy =>
      exact Program.isClean_noted calculate nonempty
        (fun word member => legible _ isTogether word (fewer.subset member))
        (fun remark member => (tidy remark member).isNote)
        fun remark member => (tidy remark member).trimmed

theorem wordValue_unbounded (style : NumberStyle) :
    ∀ name ∈ unboundedNames, ∃ text raw after,
      Program.wordValue (α := α)
          ((Dialect.styled style name.toList).dropWhile Program.isGap) =
        (.invalid text, raw, after) := by
  intro name isName
  simp only [unboundedNames, List.mem_cons, List.not_mem_nil, or_false] at isName
  rcases isName with rfl | rfl | rfl <;> cases style <;> exact ⟨_, _, _, rfl⟩

/-- A letter with the name of something that is no number. -/
theorem illegible_word [TextScalar α] (dialect : Dialect) {letter : Char}
    (isPlain : letter ∈ plainLetters) {value : α} (unbounded : Scalar.isFinite value = false) :
    ∃ token ∈ Program.tokenize (α := α) (dialect.word letter value), token.IsIllegible := by
  obtain ⟨capital, known, noCode, _, _, _⟩ := plainLetter_facts isPlain
  obtain ⟨name, isName, isText⟩ := dialect.numberText_unbounded unbounded
  obtain ⟨text, raw, after, invalid⟩ :=
    wordValue_unbounded (α := α) dialect.numberStyle name isName
  have notBracket : letter ≠ '[' := by
    rintro rfl
    cases capital
  have alpha : letter.isAlpha = true := by
    simp [Char.isAlpha, capital]
  have noAuxiliary : letter ≠ 'M' := by
    rintro rfl
    exact absurd isPlain (by decide)
  refine ⟨.word letter (.invalid text) raw, ?_, letter, text, raw, rfl, ?_, known⟩
  · rw [Dialect.word, isText, Program.tokenize, if_neg notBracket, if_pos alpha, invalid,
      Program.toUpper_of_isUpper capital]
    exact List.mem_cons_self
  · rintro (isCode | isCode)
    · exact noCode isCode
    · exact noAuxiliary isCode

theorem compactLine_spoilt [TextScalar α] (dialect : Dialect) {words : List Line}
    (plain : ∀ word ∈ words, IsPlainWord word) {letter : Char} {value : α}
    (isPlain : letter ∈ plainLetters) (isWord : dialect.word letter value ∈ words)
    (unbounded : Scalar.isFinite value = false) {note : Option Line}
    (short : ∀ remark ∈ note, IsShortNote remark) (inForce : InForce) :
    ∃ kept ∈ (compactLine inForce (noted words note)).2,
      '\n' ∉ kept ∧ IsSpoilt calculate kept := by
  obtain ⟨capital, _, noCode, noFeed, noSpeed, _⟩ := plainLetter_facts isPlain
  have stays : Stays (dialect.word letter value) :=
    ⟨letter, dialect.numberText value, rfl, capital, noCode, noFeed, noSpeed⟩
  obtain ⟨compacted, _⟩ := compactLine_plain plain ⟨_, isWord, stays⟩ short inForce
  have tidy : ∀ remark ∈ note.map Text.trimEnd, Program.IsTidyNote remark := by
    intro remark member
    obtain ⟨original, isOriginal, rfl⟩ := Option.map_eq_some_iff.mp member
    exact (short original isOriginal).tidy
  have keptPlain : ∀ word ∈ (keepWords inForce words).2, IsPlainWord word :=
    fun word member => plain word (mem_of_mem_keepWords member)
  rw [compacted]
  refine ⟨_, rfl, Program.newline_notMem_noted keptPlain
    fun remark member => (tidy remark member).oneLine, ?_⟩
  exact Program.isSpoilt_noted calculate keptPlain
    (mem_keepWords_of_stays isWord stays inForce) (illegible_word dialect isPlain unbounded)
    (fun remark member => (tidy remark member).isNote)
    fun remark member => (tidy remark member).trimmed

end Lines

end Milling.Posting
