import Milling.Posting.Audit
import Milling.Proofs.Posting.Draft
import Milling.Proofs.Program.Rendering

/-!
# Codes of a draft

Behind the line that sets the modes a line of a draft has one code at most, and
numbers add none, not even those that are written by name.
-/

namespace Milling.Posting

open Program (Code tokenize tokenOf)

variable {α : Type} [Scalar α]

section Words

def codesOf (α : Type) [Scalar α] (text : Line) : List Code :=
  (tokenize (α := α) text).filterMap codeOf?

/-- A code that is written gives itself. -/
theorem codesOf_text {code : Code} (isRead : code.IsRead) :
    codesOf α code.text.toList = [code] := by
  have read : codeOf? (tokenOf (α := α) code.text.toList) = some code := by
    simp [Code.toList_text, tokenOf, codeOf?, isRead.letter, Code.read?_digits isRead]
  rw [codesOf, Program.tokenize_word (Code.isWord_text isRead), List.filterMap_cons_some read,
    List.filterMap_nil]

/-- Not the letter of a code, in either case. -/
def isOrdinary (character : Char) : Bool :=
  character.toUpper != 'G' && character.toUpper != 'M'

theorem codesOf_eq_nil {text : Line}
    (ordinary : ∀ character ∈ text, isOrdinary character = true) : codesOf α text = [] := by
  refine List.filterMap_eq_nil_iff.mpr ?_
  intro token member
  cases token with
  | expression inside => rfl
  | word letter value raw =>
      obtain ⟨character, inText, upper⟩ := Program.exists_mem_of_mem_tokenize member rfl
      have notCode := ordinary character inText
      rw [isOrdinary, upper, Bool.and_eq_true, bne_iff_ne, bne_iff_ne] at notCode
      simp [codeOf?, notCode]

theorem isOrdinary_of_isNumberChar {character : Char}
    (numeric : Program.isNumberChar character = true) : isOrdinary character = true := by
  have range := Program.numberChar_range numeric
  rw [isOrdinary, Program.toUpper_of_lt (by omega), Bool.and_eq_true, bne_iff_ne, bne_iff_ne]
  constructor <;> (rintro rfl; simp at range)

/-- A word with a number gives a code only if its letter is that of one. -/
theorem codesOf_whole {letter : Char} (noCode : isOrdinary letter = true)
    (value : Int) : codesOf α (letter :: (toString value).toList) = [] := by
  refine codesOf_eq_nil (List.forall_mem_cons.mpr ⟨noCode, ?_⟩)
  rw [Decimal.toList_toString_whole]
  exact fun character member =>
    isOrdinary_of_isNumberChar (Decimal.isNumberChar_of_mem_fixedText member)

theorem codesOf_word [TextScalar α] (dialect : Dialect) {letter : Char}
    (noCode : isOrdinary letter = true) (value : α) :
    codesOf α (dialect.word letter value) = [] := by
  refine codesOf_eq_nil (List.forall_mem_cons.mpr ⟨noCode, ?_⟩)
  cases finite : Scalar.isFinite value with
  | true =>
      rw [Dialect.numberText_of_finite dialect finite]
      exact fun character member =>
        isOrdinary_of_isNumberChar (Dialect.isNumberChar_of_mem_styled member)
  | false =>
      exact dialect.numberText_unbounded_all finite (by decide)

end Words

section Modes

def modeCodes (units : Units) : List Code :=
  [.g 17, (match units with
    | .inches => .g 20
    | .millimeters => .g 21), .g 40, .g 49, .g 54, .g 80, .g 90, .g 94]

theorem isRead_of_mem_modeCodes {units : Units} {code : Code} (member : code ∈ modeCodes units) :
    code.IsRead := by
  simp only [modeCodes, List.mem_cons, List.not_mem_nil, or_false] at member
  cases units <;> rcases member with rfl | rfl | rfl | rfl | rfl | rfl | rfl | rfl <;>
    exact ⟨by decide, by decide, by simp [Code.g]⟩

theorem modeWords_eq (units : Units) :
    modeWords units = (modeCodes units).map fun code => code.text.toList := by
  cases units <;> decide

theorem codesOf_modes (units : Units) :
    (modeWords units).flatMap (codesOf α) = modeCodes units := by
  have each (codes : List Code) (areRead : ∀ code ∈ codes, code.IsRead) :
      codes.flatMap (fun code => codesOf α code.text.toList) = codes := by
    induction codes with
    | nil => rfl
    | cons code codes ih =>
        rw [List.flatMap_cons, codesOf_text (areRead code List.mem_cons_self),
          ih fun other member => areRead other (List.mem_cons_of_mem code member)]
        rfl
  rw [modeWords_eq, List.flatMap_map]
  exact each (modeCodes units) fun code member => isRead_of_mem_modeCodes member

end Modes

section Body

/-- The codes that stand in a draft behind the line that sets the modes. -/
def bodyCodes : List Code :=
  [.g 0, .g 1, .g 2, .g 3, .g 4, .g 80, .g 81, .m 3, .m 5, .m 6, .m 30]

theorem isRead_of_mem_bodyCodes {code : Code} (known : code ∈ bodyCodes) : code.IsRead := by
  simp only [bodyCodes, List.mem_cons, List.not_mem_nil, or_false] at known
  rcases known with rfl | rfl | rfl | rfl | rfl | rfl | rfl | rfl | rfl | rfl | rfl <;>
    exact ⟨by decide, by decide, by simp [Code.g, Code.m]⟩

def motionCode (motion : Motion α) : Code := .g (motionNumber motion)

omit [Scalar α] in
theorem motionWord_eq_text (motion : Motion α) :
    motionCode motion ∈ bodyCodes ∧ motionWord motion = (motionCode motion).text.toList := by
  cases motion with
  | arc shape =>
      cases rotation : shape.rotation <;>
        simp only [motionCode, motionNumber, motionWord, rotation] <;> decide
  | _ =>
      simp only [motionCode, motionNumber, motionWord]
      decide

theorem isOrdinary_plainLetter {letter : Char} (isPlain : letter ∈ plainLetters) :
    isOrdinary letter = true := by
  have all : plainLetters.all isOrdinary = true := by decide
  exact List.all_eq_true.mp all letter isPlain

variable [TextScalar α] {dialect : Dialect} {safeZ : α} {points : List (MotionPoint α)}

omit [TextScalar α] in
/-- A line has the one code that is among its words. -/
theorem codesOf_single {code : Code} (known : code ∈ bodyCodes) {word : Line}
    (isText : word = code.text.toList) {front back : List Line}
    (before : ∀ other ∈ front, codesOf α other = [])
    (behind : ∀ other ∈ back, codesOf α other = []) :
    (front ++ word :: back).flatMap (codesOf α) = [code] := by
  rw [List.flatMap_append, List.flatMap_cons, isText,
    codesOf_text (isRead_of_mem_bodyCodes known), List.flatMap_eq_nil_iff.mpr before,
    List.flatMap_eq_nil_iff.mpr behind]
  rfl

theorem BodyWords.codes {words : List Line} (body : BodyWords dialect safeZ points words) :
    words.flatMap (codesOf α) = [] ∨
      ∃ code ∈ bodyCodes, words.flatMap (codesOf α) = [code] := by
  have numbered (letter : Char) (noCode : isOrdinary letter = true) (value : α) :
      codesOf α (dialect.word letter value) = [] := codesOf_word dialect noCode value
  have speedWord (speed : α) : codesOf α (spindleWord speed) = [] :=
    codesOf_whole (by decide) _
  have none : ∀ other ∈ ([] : List Line), codesOf α other = [] := List.forall_mem_nil _
  cases body with
  | height =>
      have height : ∀ other ∈ [dialect.word 'Z' safeZ], codesOf α other = [] :=
        List.forall_mem_singleton.mpr (numbered 'Z' (by decide) safeZ)
      exact .inr ⟨.g 0, by decide, codesOf_single (by decide) (by decide) none height⟩
  | origin =>
      have place : ∀ other ∈ [dialect.word 'X' (0 : α), dialect.word 'Y' (0 : α)],
          codesOf α other = [] :=
        List.forall_mem_cons.mpr ⟨numbered 'X' (by decide) 0,
          List.forall_mem_singleton.mpr (numbered 'Y' (by decide) 0)⟩
      exact .inr ⟨.g 0, by decide, codesOf_single (by decide) (by decide) none place⟩
  | @toolChange point member =>
      have tool : ∀ other ∈ [('T' :: (toString point.tool).toList : Line)],
          codesOf α other = [] :=
        List.forall_mem_singleton.mpr (codesOf_whole (by decide) (point.tool : Int))
      exact .inr ⟨.m 6, by decide, codesOf_single (by decide) (by decide) tool none⟩
  | spindleStart speed =>
      have first : ∀ other ∈ [spindleWord speed], codesOf α other = [] :=
        List.forall_mem_singleton.mpr (speedWord speed)
      exact .inr ⟨.m 3, by decide, codesOf_single (by decide) (by decide) first none⟩
  | spindleSpeed speed =>
      exact .inl (List.flatMap_eq_nil_iff.mpr (List.forall_mem_singleton.mpr (speedWord speed)))
  | cycleEnd => exact .inr ⟨.g 80, by decide, codesOf_single (by decide) (by decide) none none⟩
  | @motion point member state =>
      obtain ⟨known, isText⟩ := motionWord_eq_text point.motion
      rw [pointWords_eq]
      refine .inr ⟨_, known, codesOf_single known isText none ?_⟩
      intro other isOther
      rcases List.mem_append.mp isOther with inEntries | inFeed
      · obtain ⟨written, isWritten, rfl⟩ := List.mem_map.mp inEntries
        exact numbered written.1
          (isOrdinary_plainLetter (plainLetter_of_mem_lineEntries point written isWritten)) _
      · obtain ⟨written, isWritten, rfl⟩ := List.mem_map.mp inFeed
        rw [letter_of_mem_entry isWritten]
        exact numbered 'F' (by decide) _
  | spindleStop => exact .inr ⟨.m 5, by decide, codesOf_single (by decide) (by decide) none none⟩
  | programEnd =>
      exact .inr ⟨.m 30, by decide, codesOf_single (by decide) (by decide) none none⟩

end Body

end Milling.Posting
