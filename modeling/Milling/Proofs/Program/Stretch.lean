import Mathlib
import Milling.Proofs.Program.Bracket

/-!
# Stretches of a line

Brackets cut a line into stretches: the characters outside of them, one by one, and
the groups between a bracket and the one that closes it.  There is one way to cut a
line, and its tokens account for every stretch: the letters outside brackets and the
groups turn up once each, in their order.
-/

namespace Milling.Program

open Text

section Nesting

theorem nest?_eq_none_iff {depth : Nat} {character : Char} :
    nest? depth character = none ↔ depth = 0 ∧ character = ']' := by
  constructor
  · intro closesTooMany
    unfold nest? at closesTooMany
    split at closesTooMany
    · cases closesTooMany
    · split at closesTooMany
      · rename_i closing
        split at closesTooMany
        · rename_i outermost
          exact ⟨outermost, closing⟩
        · cases closesTooMany
      · cases closesTooMany
  · rintro ⟨rfl, rfl⟩
    rfl

theorem nesting?_cons (depth : Nat) (character : Char) (text : List Char) :
    nesting? depth (character :: text) =
      (nest? depth character).bind fun next => nesting? next text :=
  List.foldlM_cons

/-- What a bracket encloses goes on until its own level is left. -/
theorem bracketBody_cons (depth : Nat) (character : Char) (rest : List Char) :
    bracketBody depth (character :: rest) =
      match nest? depth character with
      | some next => (character :: (bracketBody next rest).1, (bracketBody next rest).2)
      | none => ([], rest) := by
  by_cases closing : character = ']'
  · subst character
    cases depth with
    | zero => rfl
    | succ inner => rfl
  · by_cases opening : character = '['
    · subst character
      rfl
    · rw [bracketBody.eq_def, nest?]
      simp [closing, opening]

theorem bracketBody_closed {depth : Nat} {body : List Char}
    (balanced : nesting? depth body = some 0) (rest : List Char) :
    bracketBody depth (body ++ ']' :: rest) = (body, rest) := by
  induction body generalizing depth with
  | nil =>
      obtain rfl := Option.some.inj balanced
      rfl
  | cons character body ih =>
      rw [nesting?_cons] at balanced
      rw [List.cons_append, bracketBody_cons]
      cases step : nest? depth character with
      | none => simp [step] at balanced
      | some next =>
          rw [step, Option.bind_some] at balanced
          simp [ih balanced]

theorem bracketBody_unclosed {depth : Nat} {body : List Char}
    (inside : (nesting? depth body).isSome) : bracketBody depth body = (body, []) := by
  induction body generalizing depth with
  | nil => rfl
  | cons character body ih =>
      rw [nesting?_cons] at inside
      rw [bracketBody_cons]
      cases step : nest? depth character with
      | none => simp [step] at inside
      | some next =>
          rw [step, Option.bind_some] at inside
          simp [ih inside]

/-- What a bracket encloses is balanced up to the bracket that closes it, or else it is
the whole text. -/
theorem bracketBody_cases (depth : Nat) (text : List Char) :
    (nesting? depth (bracketBody depth text).1 = some 0 ∧
        text = (bracketBody depth text).1 ++ ']' :: (bracketBody depth text).2) ∨
      ((nesting? depth text).isSome ∧ bracketBody depth text = (text, [])) := by
  induction text generalizing depth with
  | nil => exact .inr ⟨rfl, rfl⟩
  | cons character rest ih =>
      rw [bracketBody_cons, nesting?_cons]
      cases step : nest? depth character with
      | none =>
          obtain ⟨rfl, rfl⟩ := nest?_eq_none_iff.mp step
          exact .inl ⟨rfl, rfl⟩
      | some next =>
          rcases ih next with ⟨balanced, whole⟩ | ⟨inside, whole⟩
          · left
            constructor
            · simp [nesting?_cons, step, balanced]
            · exact congrArg (character :: ·) whole
          · right
            constructor
            · simpa using inside
            · simp [whole]

end Nesting

/-- A stretch of a line. -/
inductive Stretch where
  | plain (character : Char)
  | group (body : List Char)
deriving Repr, DecidableEq

namespace Stretch

def letter? : Stretch → Option Char
  | .plain character => if character.isAlpha then some character.toUpper else none
  | .group _ => none

/-- The expression that stands in brackets. -/
def expression? : Stretch → Option String
  | .plain _ => none
  | .group body => some (String.ofList (trim body))

end Stretch

/-- The stretches of a line.  A group reaches to the bracket that closes it, and to the
end of the line where none does. -/
inductive IsDivided : List Char → List Stretch → Prop where
  | nil : IsDivided [] []
  | plain {character : Char} {rest : List Char} {stretches : List Stretch}
      (outside : character ≠ '[') (later : IsDivided rest stretches) :
      IsDivided (character :: rest) (.plain character :: stretches)
  | group {body rest : List Char} {stretches : List Stretch}
      (balanced : IsBalanced body) (later : IsDivided rest stretches) :
      IsDivided ('[' :: (body ++ ']' :: rest)) (.group body :: stretches)
  | unclosed {body : List Char} (inside : (nesting? 0 body).isSome) :
      IsDivided ('[' :: body) [.group body]

def division : List Char → List Stretch
  | [] => []
  | character :: rest =>
      if character = '[' then
        .group (bracketBody 0 rest).1 :: division (bracketBody 0 rest).2
      else .plain character :: division rest
termination_by text => text.length
decreasing_by
  · have shorter := length_bracketBody 0 rest
    simp only [List.length_cons]
    omega
  · simp

theorem division_nil : division [] = [] := by rw [division]

theorem division_group (rest : List Char) :
    division ('[' :: rest) = .group (bracketBody 0 rest).1 :: division (bracketBody 0 rest).2 := by
  rw [division, if_pos rfl]

theorem division_plain {character : Char} (outside : character ≠ '[') (rest : List Char) :
    division (character :: rest) = .plain character :: division rest := by
  rw [division, if_neg outside]

theorem isDivided_division (text : List Char) : IsDivided text (division text) := by
  induction text using division.induct with
  | case1 =>
      rw [division_nil]
      exact .nil
  | case2 rest ih =>
      rw [division_group]
      rcases bracketBody_cases 0 rest with ⟨balanced, whole⟩ | ⟨inside, whole⟩
      · have divided := IsDivided.group balanced ih
        rwa [← whole] at divided
      · rw [whole, division_nil]
        exact .unclosed inside
  | case3 character rest outside ih =>
      rw [division_plain outside]
      exact .plain outside ih

/-- There is one way to cut a line. -/
theorem isDivided_iff {text : List Char} {stretches : List Stretch} :
    IsDivided text stretches ↔ stretches = division text := by
  constructor
  · intro divided
    induction divided with
    | nil => exact division_nil.symm
    | plain outside later ih => rw [division_plain outside, ih]
    | @group body rest stretches balanced later ih =>
        rw [division_group, bracketBody_closed balanced, ih]
    | unclosed inside => rw [division_group, bracketBody_unclosed inside, division_nil]
  · rintro rfl
    exact isDivided_division text

section Accounts

def outerLetters (text : List Char) : List Char := (division text).filterMap Stretch.letter?

/-- The expressions in brackets that stand in no others. -/
def outerExpressions (text : List Char) : List String :=
  (division text).filterMap Stretch.expression?

theorem outerLetters_group (rest : List Char) :
    outerLetters ('[' :: rest) = outerLetters (bracketBody 0 rest).2 := by
  rw [outerLetters, division_group]
  exact List.filterMap_cons_none rfl

theorem outerExpressions_group (rest : List Char) :
    outerExpressions ('[' :: rest) =
      String.ofList (trim (bracketBody 0 rest).1) :: outerExpressions (bracketBody 0 rest).2 := by
  rw [outerExpressions, division_group]
  exact List.filterMap_cons_some rfl

theorem outerLetters_alpha {letter : Char} (alpha : letter.isAlpha = true) (rest : List Char) :
    outerLetters (letter :: rest) = letter.toUpper :: outerLetters rest := by
  have outside : letter ≠ '[' := by
    rintro rfl
    cases alpha
  rw [outerLetters, division_plain outside]
  exact List.filterMap_cons_some (if_pos alpha)

theorem outerLetters_silent {character : Char} (outside : character ≠ '[')
    (silent : character.isAlpha = false) (rest : List Char) :
    outerLetters (character :: rest) = outerLetters rest := by
  rw [outerLetters, division_plain outside]
  exact List.filterMap_cons_none (if_neg (by simp [silent]))

theorem outerExpressions_plain {character : Char} (outside : character ≠ '[')
    (rest : List Char) : outerExpressions (character :: rest) = outerExpressions rest := by
  rw [outerExpressions, division_plain outside]
  exact List.filterMap_cons_none rfl

/-- Nothing is lost with characters that start neither a word nor a group. -/
theorem outer_dropWhile {drops : Char → Bool}
    (silent : ∀ character, drops character = true →
      character ≠ '[' ∧ character.isAlpha = false) (text : List Char) :
    outerLetters (text.dropWhile drops) = outerLetters text ∧
      outerExpressions (text.dropWhile drops) = outerExpressions text := by
  induction text with
  | nil => exact ⟨rfl, rfl⟩
  | cons character rest ih =>
      by_cases dropped : drops character = true
      · obtain ⟨outside, notAlpha⟩ := silent character dropped
        rw [List.dropWhile_cons_of_pos dropped, outerLetters_silent outside notAlpha,
          outerExpressions_plain outside]
        exact ih
      · rw [List.dropWhile_cons_of_neg dropped]
        exact ⟨rfl, rfl⟩

theorem isGap_silent {character : Char} (gap : isGap character = true) :
    character ≠ '[' ∧ character.isAlpha = false := by
  simp only [isGap, Bool.or_eq_true, beq_iff_eq] at gap
  rcases gap with rfl | rfl
  · decide
  · decide

theorem isNumberChar_silent {character : Char} (numeric : isNumberChar character = true) :
    character ≠ '[' ∧ character.isAlpha = false := by
  have range := numberChar_range numeric
  constructor
  · rintro rfl
    simp at range
  · rw [Bool.eq_false_iff]
    intro alpha
    have letters := isAlpha_range alpha
    omega

theorem isDigit_silent {character : Char} (digit : character.isDigit = true) :
    character ≠ '[' ∧ character.isAlpha = false :=
  isNumberChar_silent (by simp [isNumberChar, digit])

variable {α : Type} [Scalar α]

/-- The expression in brackets that a token holds; a reference is no such expression, but
its own text. -/
def Token.bracketed? : Token α → Option String
  | .expression text => some text
  | .word _ (.expression text) raw => if raw = text then none else some text
  | .word .. => none

theorem ne_bracketed (text : String) : "[" ++ text ++ "]" ≠ text := by
  intro same
  have lengths := congrArg String.length same
  simp only [String.length_append] at lengths
  have bracket : "[".length = 1 := rfl
  omega

theorem bracketed?_numberValue (letter : Char) (number : List Char) (raw : String) :
    (Token.word letter (numberValue (α := α) number) raw).bracketed? = none := by
  unfold numberValue
  split
  · rfl
  · rfl

/-- A value takes from the text its own group, if it is one, and no letter. -/
theorem outer_wordValue (letter : Char) (text : List Char) :
    outerLetters (wordValue (α := α) text).2.2 = outerLetters text ∧
      (Token.word letter (wordValue (α := α) text).1
            (wordValue (α := α) text).2.1).bracketed?.toList ++
          outerExpressions (wordValue (α := α) text).2.2 =
        outerExpressions text := by
  unfold wordValue
  split
  · rename_i rest
    constructor
    · exact (outerLetters_group rest).symm
    · rw [outerExpressions_group]
      simp [Token.bracketed?, ne_bracketed]
  · rename_i rest
    obtain ⟨letters, expressions⟩ := outer_dropWhile (fun _ => isDigit_silent) rest
    constructor
    · rw [outerLetters_silent (by decide) (by decide)]
      exact letters
    · rw [outerExpressions_plain (by decide), ← expressions]
      simp [Token.bracketed?]
  · obtain ⟨letters, expressions⟩ := outer_dropWhile (fun _ => isNumberChar_silent) text
    constructor
    · exact letters
    · simp only [bracketed?_numberValue]
      exact expressions

/-- The tokens have the letters and the expressions of the line. -/
theorem outer_tokenize (text : List Char) :
    (tokenize (α := α) text).filterMap Token.letter? = outerLetters text ∧
      (tokenize (α := α) text).filterMap Token.bracketed? = outerExpressions text := by
  induction text using tokenize.induct (α := α) with
  | case1 =>
      rw [tokenize, outerLetters, outerExpressions, division_nil]
      exact ⟨rfl, rfl⟩
  | case2 rest ih =>
      rw [tokenize, if_pos rfl, outerLetters_group, outerExpressions_group, ← ih.1, ← ih.2]
      constructor
      · exact List.filterMap_cons_none rfl
      · exact List.filterMap_cons_some rfl
  | case3 letter rest outside alpha _ _ _ _ ih =>
      obtain ⟨valueLetters, valueExpressions⟩ :=
        outer_wordValue (α := α) letter.toUpper (rest.dropWhile isGap)
      obtain ⟨gapLetters, gapExpressions⟩ := outer_dropWhile (fun _ => isGap_silent) rest
      rw [tokenize, if_neg outside, if_pos alpha, outerLetters_alpha alpha,
        outerExpressions_plain outside, ← gapLetters, ← gapExpressions, ← valueLetters,
        ← valueExpressions, ← ih.1, ← ih.2]
      constructor
      · exact List.filterMap_cons_some rfl
      · rw [List.filterMap_eq_flatMap_toList, List.flatMap_cons,
          ← List.filterMap_eq_flatMap_toList]
  | case4 character rest outside notAlpha ih =>
      rw [tokenize, if_neg outside, if_neg notAlpha,
        outerLetters_silent outside (Bool.eq_false_iff.mpr notAlpha),
        outerExpressions_plain outside]
      exact ih

end Accounts

section Writing

/-- A word with the blanks in front of it and the gaps between its letter and its number. -/
structure WrittenWord where
  blanks : List Char
  letter : Char
  gaps : List Char
  number : List Char
  areBlank : ∀ gap ∈ blanks, isBlank gap = true
  alpha : letter.isAlpha = true
  areGaps : ∀ gap ∈ gaps, isGap gap = true
  nonempty : number ≠ []
  numeric : ∀ character ∈ number, isNumberChar character = true

namespace WrittenWord

def text (word : WrittenWord) : List Char :=
  word.blanks ++ word.letter :: (word.gaps ++ word.number)

def token {α : Type} [Scalar α] (word : WrittenWord) : Token α :=
  .word word.letter.toUpper (numberValue word.number) (String.ofList word.number)

end WrittenWord

/-- No number goes on in the words behind it. -/
theorem head?_written {words : List WrittenWord} {tail : List Char}
    (blank : ∀ gap ∈ tail, isBlank gap = true) :
    ∀ first ∈ (words.flatMap WrittenWord.text ++ tail).head?, isNumberChar first = false := by
  have ofBlank {gap : Char} (isGap : isBlank gap = true) : isNumberChar gap = false :=
    (isBlank_class isGap).2.2
  intro first isFirst
  cases words with
  | nil => exact ofBlank (blank first (List.mem_of_mem_head? isFirst))
  | cons word words =>
      rw [List.flatMap_cons, WrittenWord.text] at isFirst
      cases blanks : word.blanks with
      | nil =>
          rw [blanks] at isFirst
          obtain rfl : word.letter = first := Option.mem_some_iff.mp isFirst
          rw [Bool.eq_false_iff]
          intro numeric
          exact absurd word.alpha (by simp [(isNumberChar_silent numeric).2])
      | cons gap blanks' =>
          rw [blanks] at isFirst
          obtain rfl : gap = first := Option.mem_some_iff.mp isFirst
          exact ofBlank (word.areBlank gap (by simp [blanks]))

variable {α : Type} [Scalar α]

/-- Words are read back however they are spaced. -/
theorem tokenize_written (words : List WrittenWord) {tail : List Char}
    (blank : ∀ gap ∈ tail, isBlank gap = true) :
    tokenize (α := α) (words.flatMap WrittenWord.text ++ tail) =
      words.map WrittenWord.token := by
  induction words with
  | nil => exact tokenize_of_blank blank
  | cons word words ih =>
      have split : (word :: words).flatMap WrittenWord.text ++ tail =
          word.blanks ++ word.letter :: (word.gaps ++ (word.number ++
            (words.flatMap WrittenWord.text ++ tail))) := by
        simp [WrittenWord.text]
      rw [split, tokenize_blanks_append word.areBlank,
        tokenize_gapped_append word.alpha word.areGaps word.nonempty word.numeric
          (head?_written blank), ih]
      rfl

/-- There is one way to cut a line into stretches.  Its tokens have the letters that stand
outside brackets and the expressions that stand in them, in order; and a line of words is
read as those words. -/
theorem tokenize_accounts (text : List Char) (words : List WrittenWord) {tail : List Char}
    (blank : ∀ gap ∈ tail, isBlank gap = true) :
    (∃ stretches, (∀ others, IsDivided text others ↔ others = stretches) ∧
        (tokenize (α := α) text).filterMap Token.letter? =
          stretches.filterMap Stretch.letter? ∧
        (tokenize (α := α) text).filterMap Token.bracketed? =
          stretches.filterMap Stretch.expression?) ∧
      tokenize (α := α) (words.flatMap WrittenWord.text ++ tail) =
        words.map WrittenWord.token := by
  constructor
  · obtain ⟨letters, expressions⟩ := outer_tokenize (α := α) text
    exact ⟨division text, fun _ => isDivided_iff, letters, expressions⟩
  · exact tokenize_written words blank

/-- Two words with no blank between them. -/
def packedWords : List WrittenWord :=
  [{ blanks := [' '], letter := 'g', gaps := ['\t', ' '], number := ['0', '1']
     areBlank := List.all_eq_true.mp (by decide)
     alpha := by decide
     areGaps := List.all_eq_true.mp (by decide)
     nonempty := by decide
     numeric := List.all_eq_true.mp (by decide) },
   { blanks := [], letter := 'X', gaps := [], number := ['-', '2', '.']
     areBlank := List.forall_mem_nil _
     alpha := by decide
     areGaps := List.forall_mem_nil _
     nonempty := by decide
     numeric := List.all_eq_true.mp (by decide) }]

theorem tokenize_accounts_packed :
    (∀ gap ∈ ['\u2003'], isBlank gap = true) ∧
      (∃ stretches, (∀ others, IsDivided "x[ [1] ]]#2y [#3".toList others ↔ others = stretches) ∧
          (tokenize (α := Float) "x[ [1] ]]#2y [#3".toList).filterMap Token.letter? =
            stretches.filterMap Stretch.letter? ∧
          (tokenize (α := Float) "x[ [1] ]]#2y [#3".toList).filterMap Token.bracketed? =
            stretches.filterMap Stretch.expression?) ∧
      tokenize (α := Float) (packedWords.flatMap WrittenWord.text ++ ['\u2003']) =
        packedWords.map WrittenWord.token := by
  have blank : ∀ gap ∈ ['\u2003'], isBlank gap = true := List.all_eq_true.mp (by decide)
  exact ⟨blank, tokenize_accounts _ packedWords blank⟩

end Writing

end Milling.Program
