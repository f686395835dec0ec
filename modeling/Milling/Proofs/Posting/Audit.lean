import Milling.Proofs.Posting.Codes
import Milling.Proofs.Toolpath.Bounds

/-!
# What an audit finds on a line

An audit passes over remarks and frames, and on a line of words it looks at
their codes and numbers alone.  Blanks around a line change nothing.
-/

namespace Milling

variable {α : Type}

section Reports

theorem Report.concat_eq_empty {reports : List (Report α)}
    (clean : ∀ report ∈ reports, report = {}) : Report.concat reports = {} := by
  have noErrors : reports.flatMap Report.errors = [] :=
    List.flatMap_eq_nil_iff.mpr fun report member => by rw [clean report member]
  have noWarnings : reports.flatMap Report.warnings = [] :=
    List.flatMap_eq_nil_iff.mpr fun report member => by rw [clean report member]
  rw [Report.concat, noErrors, noWarnings]

end Reports

theorem Limits.travel?_letter (limits : Limits α) (axis : Axis) :
    limits.travel? axis.letter = some (limits.along axis) := by
  cases axis <;> rfl

variable [Scalar α]

/-- A number is within the limits of its letter. -/
def Limits.Allows (limits : Limits α) (letter : Char) (value : α) : Prop :=
  (letter = 'F' → ¬limits.maxFeed < value) ∧
    ∀ travel ∈ limits.travel? letter, ¬travel / 2 < Scalar.magnitude value

/-- Letters other than those of a feed and of the linear axes have no limit. -/
theorem Limits.allows_of_notMem (limits : Limits α) {letter : Char}
    (unlimited : letter.toUpper ∉ ['F', 'X', 'Y', 'Z']) (value : α) :
    limits.Allows letter value := by
  simp only [List.mem_cons, List.not_mem_nil, or_false, not_or] at unlimited
  obtain ⟨notFeed, notX, notY, notZ⟩ := unlimited
  refine ⟨fun isFeed => absurd (by rw [isFeed]; rfl) notFeed, ?_⟩
  have noTravel : limits.travel? letter = none := by
    unfold Limits.travel?
    split
    · exact absurd ‹_› notX
    · exact absurd ‹_› notY
    · exact absurd ‹_› notZ
    · rfl
  simp [noTravel]

theorem Limits.allows_letter (limits : Limits α) (axis : Axis) {value : α}
    (inside : ¬limits.along axis / 2 < Scalar.magnitude value) :
    limits.Allows axis.letter value := by
  refine ⟨fun isFeed => ?_, ?_⟩
  · cases axis <;> exact absurd isFeed (by decide)
  · rw [limits.travel?_letter]
    exact fun _ isTravel => Option.some.inj isTravel ▸ inside

namespace Posting

open Program (Code IsNote IsPlainWord IsTidyNote Token joined noted numbersOf tokenize)

variable {limits : Limits α}

section Words

theorem auditWord_eq_empty {token : Token α}
    (allowed : ∀ entry ∈ token.number?, limits.Allows entry.1 entry.2) (line : Nat) :
    auditWord limits line token = {} := by
  unfold auditWord
  split
  · have within := (allowed ('F', _) rfl).1 rfl
    simp [Report.warningIf, within]
  · split
    · rename_i travel isTravel
      have within := (allowed _ rfl).2 travel isTravel
      simp [Report.errorIf, within]
    · rfl
  · rfl

/-- Codes that every controller knows, of which no two move the tool. -/
structure AreKnown (codes : List Code) : Prop where
  supported : ∀ code ∈ codes, code ∉ unsupportedCodes
  noConflict : ¬(.g 0 ∈ codes ∧ .g 1 ∈ codes)

theorem AreKnown.mono {codes others : List Code} (known : AreKnown codes)
    (fewer : others ⊆ codes) : AreKnown others where
  supported code member := known.supported code (fewer member)
  noConflict := fun ⟨rapid, linear⟩ => known.noConflict ⟨fewer rapid, fewer linear⟩

end Words

section Lines

theorem auditLine_skipped {line : Line} (skipped : isSkipped (Text.trim line) = true)
    (number : Nat) : auditLine limits number line = {} := by
  simp [auditLine, skipped]

theorem auditLine_of_trim_eq {line other : Line} (same : Text.trim line = Text.trim other)
    (number : Nat) : auditLine limits number line = auditLine limits number other := by
  rw [auditLine, auditLine, same]

theorem auditLine_note {note : Line} (isNote : IsNote note) (number : Nat) :
    auditLine limits number note = {} := by
  obtain ⟨first, rest, rfl, starts, solid⟩ := isNote_shape isNote
  refine auditLine_skipped ?_ number
  have kept : Text.trimEnd (first :: rest) = first :: Text.trimEnd rest :=
    Text.dropEndWhile_append_cons solid [] rest
  have isStart : startsComment first = true := starts
  rw [Text.trim_cons solid, kept]
  simp_all [isSkipped, startsComment]

theorem auditLine_noted {words : List Line} (nonempty : words ≠ [])
    (plain : ∀ word ∈ words, IsPlainWord word) {note : Option Line}
    (tidy : ∀ remark ∈ note, IsTidyNote remark)
    (allowed : ∀ word ∈ words, ∀ entry ∈ numbersOf α word, limits.Allows entry.1 entry.2)
    (known : AreKnown (words.flatMap (codesOf α))) (number : Nat) :
    auditLine limits number (noted words note) = {} := by
  have isNote : ∀ remark ∈ note, IsNote remark := fun remark member => (tidy remark member).isNote
  have trimmed : Text.trim (noted words note) = noted words note :=
    Program.trim_noted nonempty plain isNote fun remark member => (tidy remark member).trimmed
  obtain ⟨count, code⟩ := Program.stripComments_noted nonempty plain isNote
  have tokens : tokenize (α := α) (joined words ++ List.replicate count ' ') =
      words.flatMap tokenize := Program.tokenize_joined_plain plain count
  have codes : (words.flatMap (tokenize (α := α))).filterMap codeOf? =
      words.flatMap (codesOf α) := List.filterMap_flatMap
  have numbers : Report.concat ((words.flatMap tokenize).map (auditWord limits number)) = {} := by
    refine Report.concat_eq_empty ?_
    intro report member
    obtain ⟨token, isToken, rfl⟩ := List.mem_map.mp member
    obtain ⟨word, isWord, inWord⟩ := List.mem_flatMap.mp isToken
    exact auditWord_eq_empty (fun entry isNumber => allowed word isWord entry
      (List.mem_filterMap.mpr ⟨token, inWord, isNumber⟩)) number
  have unknown : (unsupportedCodes.filter fun code =>
      (words.flatMap (codesOf α)).contains code) = [] := by
    refine List.filter_eq_nil_iff.mpr ?_
    intro code isUnsupported isPresent
    exact known.supported code (List.contains_iff_mem.mp isPresent) isUnsupported
  have conflict : (hasWhole (words.flatMap (codesOf α)) 0 &&
      hasWhole (words.flatMap (codesOf α)) 1) = false := by
    rw [Bool.eq_false_iff]
    intro both
    rw [Bool.and_eq_true] at both
    exact known.noConflict ⟨List.contains_iff_mem.mp both.1, List.contains_iff_mem.mp both.2⟩
  unfold auditLine
  dsimp only
  rw [trimmed, code, tokens, codes, numbers, unknown, conflict]
  split <;> rfl

/-- A program has no fault when none of its lines has one. -/
theorem auditProgram_eq_empty {text : String}
    (clean : ∀ piece ∈ Program.textLines text.toList, ∀ number,
      auditLine limits number piece = {}) :
    auditProgram limits text = {} := by
  refine Report.concat_eq_empty ?_
  intro report member
  obtain ⟨⟨line, index⟩, isLine, rfl⟩ := List.mem_map.mp member
  obtain ⟨piece, isPiece, same⟩ :=
    Text.exists_piece_of_mem_lines (List.fst_mem_of_mem_zipIdx isLine)
  dsimp only
  rw [auditLine_of_trim_eq same]
  exact clean piece isPiece _

end Lines

end Posting

end Milling
