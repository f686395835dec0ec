import Milling.Proofs.Posting.Audit
import Milling.Proofs.Posting.Numeric
import Milling.Proofs.Scalar.Order

/-!
# Programs within the envelope

A path that stays within the limits of a machine, in the numbers that its program
gives, has a program that passes the audit against these limits without a fault:
no line of it has two codes that move the tool, a code that controllers may not
know, or a word out of a comment.
-/

namespace Milling

variable {α : Type} [Scalar α]

namespace Posting

open Program (IsWord Token numberValue numbersOf tokenOf)

section Numbers

namespace Dialect

/-- The number that a written one reads back as. -/
def asWritten (dialect : Dialect) (value : α) : α :=
  match numberValue (α := α) (dialect.numberText value) with
  | .number read => read
  | _ => value

/-- Where decimals are exact this is the rounded number. -/
theorem asWritten_eq_rounded [DecimalScalar α] (dialect : Dialect) {value : α}
    (finite : Scalar.isFinite value = true) : dialect.asWritten value = dialect.rounded value := by
  rw [asWritten, dialect.numberValue_numberText finite]

theorem numberValue_asWritten (dialect : Dialect) {value : α}
    (finite : Scalar.isFinite value = true) :
    numberValue (dialect.numberText value) = .number (dialect.asWritten value) := by
  obtain ⟨short, zeros, fewer, read, -⟩ := reads_styled dialect.numberStyle dialect.decimals
    (Scalar.scaled dialect.decimals value)
  rw [← numberText_of_finite dialect finite] at read
  simp only [asWritten, numberValue, read]

theorem asWritten_zero [TextScalar α] [OrderScalar α] (dialect : Dialect) :
    dialect.asWritten (0 : α) = 0 := by
  have finite : Scalar.isFinite (0 : α) = true := TextScalar.isFinite_zero
  obtain ⟨short, zeros, fewer, read, none, -⟩ := reads_styled dialect.numberStyle
    dialect.decimals (Scalar.scaled dialect.decimals (0 : α))
  rw [OrderScalar.scaled_zero] at read none
  obtain rfl : short = 0 := by simpa using none
  have text := numberText_of_finite dialect finite
  rw [OrderScalar.scaled_zero] at text
  simp only [asWritten, numberValue, text, read]
  exact OrderScalar.ofDecimal_zero fewer

theorem eq_of_mem_numbersOf_word [TextScalar α] (dialect : Dialect) {letter : Char}
    (capital : letter.isUpper = true) (noDigit : letter.isDigit = false) {value : α}
    {entry : Char × α} (member : entry ∈ numbersOf α (dialect.word letter value)) :
    entry = (letter, dialect.asWritten value) := by
  cases finite : Scalar.isFinite value with
  | true =>
      rw [Program.numbersOf_word (dialect.isWord_word capital finite), word, tokenOf,
        dialect.numberValue_asWritten finite] at member
      exact List.mem_singleton.mp member
  | false =>
      have noDigits : ∀ character ∈ dialect.numberText value, (!character.isDigit) = true :=
        dialect.numberText_unbounded_all finite (by decide)
      have none : numbersOf α (dialect.word letter value) = [] :=
        Program.numbersOf_eq_nil (List.forall_mem_cons.mpr ⟨noDigit, by simpa using noDigits⟩)
      rw [none] at member
      cases member

end Dialect

end Numbers

/-- A path, with the height of its moves to safety, within the limits of a machine:
in the numbers that are written its places are at most half a travel away from the
middle, and its feeds are not above the greatest. -/
structure InEnvelope (limits : Limits α) (dialect : Dialect) (safeZ : α)
    (points : List (MotionPoint α)) : Prop where
  travel : ∀ axis, 0 ≤ limits.along axis
  height : Scalar.magnitude (dialect.asWritten safeZ) ≤ limits.along .z / 2
  place : ∀ point ∈ points, ∀ axis,
    Scalar.magnitude (dialect.asWritten (point.position.along axis)) ≤ limits.along axis / 2
  feed : ∀ point ∈ points, ∀ feed ∈ point.feed, dialect.asWritten feed ≤ limits.maxFeed

section Words

variable {limits : Limits α} {dialect : Dialect} {safeZ : α} {points : List (MotionPoint α)}

omit [Scalar α] in
/-- The line of a point gives its place to the letters of the axes; its other letters
have no limit. -/
theorem axis_or_unlimited (point : MotionPoint α) :
    ∀ written ∈ lineEntries point,
      (∃ axis, written = (Axis.letter axis, point.position.along axis)) ∨
        written.1.toUpper ∉ ['F', 'X', 'Y', 'Z'] := by
  have place (axis : Axis) : ∀ written ∈ entry axis.letter (some (point.position.along axis)),
      ∃ axis, written = (Axis.letter axis, point.position.along axis) :=
    fun written member => ⟨axis, List.mem_singleton.mp member⟩
  have other (letter : Char) (unlimited : letter.toUpper ∉ ['F', 'X', 'Y', 'Z'])
      (value : Option α) : ∀ written ∈ entry letter value,
        written.1.toUpper ∉ ['F', 'X', 'Y', 'Z'] := by
    intro written member
    rwa [letter_of_mem_entry member]
  have payload : ∀ written ∈ payloadEntries point.motion,
      written.1.toUpper ∉ ['F', 'X', 'Y', 'Z'] := by
    cases point.motion with
    | arc shape =>
        simp only [payloadEntries, List.forall_mem_append]
        exact ⟨⟨⟨other 'I' (by decide) _, other 'J' (by decide) _⟩, other 'K' (by decide) _⟩,
          other 'R' (by decide) _⟩
    | drill cycle => exact other 'R' (by decide) _
    | _ => simp [payloadEntries]
  have moves : ∀ written ∈ pointEntries point,
      (∃ axis, written = (Axis.letter axis, point.position.along axis)) ∨
        written.1.toUpper ∉ ['F', 'X', 'Y', 'Z'] := by
    intro written member
    simp only [pointEntries, List.mem_append] at member
    rcases member with (((inX | inY) | inZ) | inRotary) | inPayload
    · exact .inl (place .x written inX)
    · exact .inl (place .y written inY)
    · exact .inl (place .z written inZ)
    · exact .inr (other 'A' (by decide) _ written inRotary)
    · exact .inr (payload written inPayload)
  intro written member
  cases motion : point.motion with
  | dwell seconds =>
      simp only [lineEntries, motion] at member
      exact .inr (other 'P' (by decide) _ written member)
  | _ =>
      simp only [lineEntries, motion] at member
      exact moves written member

theorem mem_feed_of_mem_lineFeed {state : Emitted α} {point : MotionPoint α} {feed : α}
    (member : feed ∈ lineFeed state point) : feed ∈ point.feed := by
  unfold lineFeed at member
  split at member
  · cases member
  · exact (Option.mem_filter_iff.mp (Option.mem_filter_iff.mp member).1).1

def WithinLimits (limits : Limits α) (word : Line) : Prop :=
  ∀ entry ∈ numbersOf α word, limits.Allows entry.1 entry.2

theorem withinLimits_unlimited {letter : Char} {number : Line} (isWord : IsWord (letter :: number))
    (unlimited : letter.toUpper ∉ ['F', 'X', 'Y', 'Z']) :
    WithinLimits limits (letter :: number) := by
  intro entry member
  rw [Program.numbersOf_word isWord, tokenOf, Option.mem_toList] at member
  unfold Token.number? at member
  split at member
  · rename_i same
    obtain ⟨rfl, -⟩ := Token.word.inj same
    obtain rfl := Option.some.inj member
    exact limits.allows_of_notMem unlimited _
  · cases member

theorem withinLimits_code {code : Program.Code} (isRead : code.IsRead) :
    WithinLimits limits code.text.toList := by
  have isWord := Program.Code.isWord_text isRead
  rw [Program.Code.toList_text] at isWord ⊢
  refine withinLimits_unlimited isWord ?_
  rcases isRead.letter with isG | isM
  · rw [isG]
    decide
  · rw [isM]
    decide

variable [TextScalar α]

theorem withinLimits_word {letter : Char} (capital : letter.isUpper = true)
    (noDigit : letter.isDigit = false) {value : α}
    (allowed : limits.Allows letter (dialect.asWritten value)) :
    WithinLimits limits (dialect.word letter value) := by
  intro entry member
  rw [dialect.eq_of_mem_numbersOf_word capital noDigit member]
  exact allowed

variable [OrderScalar α]

theorem withinLimits_axis (axis : Axis) {value : α}
    (near : Scalar.magnitude (dialect.asWritten value) ≤ limits.along axis / 2) :
    WithinLimits limits (dialect.word axis.letter value) := by
  have allowed : limits.Allows axis.letter (dialect.asWritten value) :=
    limits.allows_letter axis (OrderScalar.not_lt_of_le _ _ near)
  cases axis <;> exact withinLimits_word (by decide) (by decide) allowed

/-- The origin is in every envelope. -/
theorem InEnvelope.withinLimits_origin (inside : InEnvelope limits dialect safeZ points)
    (axis : Axis) : WithinLimits limits (dialect.word axis.letter (0 : α)) := by
  have allowed : limits.Allows axis.letter (dialect.asWritten (0 : α)) := by
    rw [dialect.asWritten_zero]
    exact limits.allows_letter axis (OrderScalar.half_not_lt_zero _ (inside.travel axis))
  cases axis <;> exact withinLimits_word (by decide) (by decide) allowed

theorem InEnvelope.withinLimits_pointWords (inside : InEnvelope limits dialect safeZ points)
    {point : MotionPoint α} (member : point ∈ points) (state : Emitted α) :
    ∀ word ∈ (pointWords dialect state point).1, WithinLimits limits word := by
  intro word isWord
  rw [pointWords_eq, List.mem_cons, List.mem_append] at isWord
  rcases isWord with rfl | inEntries | inFeed
  · obtain ⟨known, isText⟩ := motionWord_eq_text point.motion
    rw [isText]
    exact withinLimits_code (isRead_of_mem_bodyCodes known)
  · obtain ⟨written, isWritten, rfl⟩ := List.mem_map.mp inEntries
    rcases axis_or_unlimited point written isWritten with ⟨axis, rfl⟩ | unlimited
    · exact withinLimits_axis axis (inside.place point member axis)
    · have isPlain := plainLetter_of_mem_lineEntries point written isWritten
      have noDigit : written.1.isDigit = false := by
        have all : plainLetters.all (fun letter => !letter.isDigit) = true := by decide
        simpa using List.all_eq_true.mp all written.1 isPlain
      exact withinLimits_word (plainLetter_facts isPlain).1 noDigit
        (limits.allows_of_notMem unlimited _)
  · obtain ⟨written, isWritten, rfl⟩ := List.mem_map.mp inFeed
    obtain ⟨feed, isFeed, rfl⟩ := Option.map_eq_some_iff.mp (Option.mem_toList.mp isWritten)
    have within := inside.feed point member feed (mem_feed_of_mem_lineFeed isFeed)
    have allowed : limits.Allows 'F' (dialect.asWritten feed) :=
      ⟨fun _ => OrderScalar.not_lt_of_le _ _ within, fun _ isTravel => by cases isTravel⟩
    have capital : ('F').isUpper = true ∧ ('F').isDigit = false := by decide
    exact withinLimits_word capital.1 capital.2 allowed

theorem InEnvelope.withinLimits (inside : InEnvelope limits dialect safeZ points) {units : Units}
    {words : List Line} (drafted : DraftWords units dialect safeZ points words) :
    ∀ word ∈ words, WithinLimits limits word := by
  have whole (letter : Char) (capital : letter.isUpper = true)
      (unlimited : letter.toUpper ∉ ['F', 'X', 'Y', 'Z']) (value : Int) :
      WithinLimits limits (letter :: (toString value).toList) :=
    withinLimits_unlimited (isWord_whole letter capital value) unlimited
  have code (code : Program.Code) (known : code ∈ bodyCodes) :
      WithinLimits limits code.text.toList := withinLimits_code (isRead_of_mem_bodyCodes known)
  cases drafted with
  | programNumber =>
      exact List.forall_mem_singleton.mpr
        (withinLimits_unlimited (by decide : IsWord "O1000".toList) (by decide))
  | modes =>
      intro word member
      rw [modeWords_eq] at member
      obtain ⟨code, isCode, rfl⟩ := List.mem_map.mp member
      exact withinLimits_code (isRead_of_mem_modeCodes isCode)
  | body isBody =>
      cases isBody with
      | height =>
          exact List.forall_mem_cons.mpr ⟨code (.g 0) (by decide),
            List.forall_mem_singleton.mpr (withinLimits_axis .z inside.height)⟩
      | origin =>
          exact List.forall_mem_cons.mpr ⟨code (.g 0) (by decide),
            List.forall_mem_cons.mpr ⟨inside.withinLimits_origin .x,
              List.forall_mem_singleton.mpr (inside.withinLimits_origin .y)⟩⟩
      | @toolChange point member =>
          exact List.forall_mem_cons.mpr ⟨whole 'T' (by decide) (by decide) (point.tool : Int),
            List.forall_mem_singleton.mpr (code (.m 6) (by decide))⟩
      | spindleStart speed =>
          exact List.forall_mem_cons.mpr ⟨whole 'S' (by decide) (by decide) _,
            List.forall_mem_singleton.mpr (code (.m 3) (by decide))⟩
      | spindleSpeed speed =>
          exact List.forall_mem_singleton.mpr (whole 'S' (by decide) (by decide) _)
      | cycleEnd => exact List.forall_mem_singleton.mpr (code (.g 80) (by decide))
      | motion member state => exact inside.withinLimits_pointWords member state
      | spindleStop => exact List.forall_mem_singleton.mpr (code (.m 5) (by decide))
      | programEnd => exact List.forall_mem_singleton.mpr (code (.m 30) (by decide))

omit [OrderScalar α] in
/-- No words that are written together have a code that is unknown, or two that move
the tool. -/
theorem DraftWords.areKnown {units : Units} {words : List Line}
    (drafted : DraftWords units dialect safeZ points words) :
    AreKnown (words.flatMap (codesOf α)) := by
  have none : AreKnown [] := ⟨by simp, by simp⟩
  cases drafted with
  | programNumber =>
      have noCode : codesOf α "O1000".toList = [] :=
        codesOf_eq_nil (List.all_eq_true.mp (by decide))
      rw [List.flatMap_singleton, noCode]
      exact none
  | modes =>
      rw [codesOf_modes]
      cases units <;> exact ⟨by decide, by decide⟩
  | body isBody =>
      rcases isBody.codes with noCode | ⟨code, known, one⟩
      · rw [noCode]
        exact none
      · rw [one]
        refine ⟨List.forall_mem_singleton.mpr ?_, ?_⟩
        · have all : ∀ code ∈ bodyCodes, code ∉ unsupportedCodes := by decide
          exact all code known
        · rintro ⟨rapid, linear⟩
          have same := (List.mem_singleton.mp rapid).trans (List.mem_singleton.mp linear).symm
          exact absurd same (by decide)

end Words

section Program

variable [TextScalar α] [OrderScalar α]

/-- What compaction leaves of a draft in the envelope has no fault. -/
theorem IsCompacted.auditLine_eq_empty {limits : Limits α} {dialect : Dialect} {safeZ : α}
    {points : List (MotionPoint α)} (inside : InEnvelope limits dialect safeZ points)
    {units : Units} {line : Line}
    (compacted : IsCompacted (DraftWords units dialect safeZ points) line) (number : Nat) :
    auditLine limits number line = {} := by
  cases compacted with
  | remark tidy => exact auditLine_note tidy.isNote number
  | frame => exact auditLine_skipped (by decide) number
  | words isTogether fewer nonempty plain tidy =>
      exact auditLine_noted nonempty plain tidy
        (fun word member => inside.withinLimits isTogether word (fewer.subset member))
        (isTogether.areKnown.mono (fewer.flatMap _).subset) number

/-- A path in the envelope is written in every built-in dialect, and an audit of its
program finds no fault. -/
theorem auditProgram_program (poster : Poster α) {id : String}
    (builtIn : poster.registry.resolve id ∈ Dialect.builtIn) {date : String}
    (dated : '\n' ∉ date.toList) {operations : List (Operation α)}
    (described : ∀ operation ∈ operations, '\n' ∉ operation.tool.description.toList)
    {path : Toolpath α} (nonempty : path.points ≠ [])
    (commented : ∀ point ∈ path.points, ∀ comment ∈ point.comment, '\n' ∉ comment.toList)
    (finite : ∀ point ∈ path.points, ∀ value ∈ checkedNumbers point,
      Scalar.isFinite value = true)
    {limits : Limits α}
    (inside : InEnvelope limits (poster.dialect id) poster.safeZ path.points) :
    ∃ text, poster.program date path operations id = .ok text ∧
      auditProgram limits text = {} := by
  refine ⟨_, program_of_checked poster date operations id nonempty finite, ?_⟩
  have compacted : ∀ line ∈ compact (poster.draft date (poster.dialect id) operations path.points),
      IsCompacted (DraftWords poster.units (poster.dialect id) poster.safeZ path.points) line :=
    isCompacted_draft (poster.dialect_frame builtIn) dated described commented
  refine auditProgram_eq_empty fun piece isPiece number => ?_
  rw [String.toList_ofList, Program.textLines_flatMap fun line member =>
    (compacted line member).oneLine] at isPiece
  rcases List.mem_append.mp isPiece with isLine | isEmpty
  · exact (compacted piece isLine).auditLine_eq_empty inside number
  · rw [List.mem_singleton.mp isEmpty]
    exact auditLine_skipped (by decide) number

/-- A cut to a corner of the table, with a comment that looks like faults, and a hole. -/
def corner : Toolpath Float :=
  { points := [
      { MotionPoint.rapid 0 0 5 with tool := 2, spindle := some 8000 },
      { MotionPoint.linear 250 200 (-1) with
        tool := 2, feed := some 300, comment := some "G5 X900 F99999" },
      { position := { x := 20, y := 0, z := -4 }
        motion := .drill { cycle := 81, retract := some 2 }
        tool := 7, feed := some 90 }] }

theorem corner_inEnvelope : InEnvelope (Limits.standard : Limits Float)
    ((Poster.standard : Poster Float).dialect "haas") Poster.standardSafeZ corner.points where
  travel axis := by
    cases axis <;> decide +kernel
  height := by
    decide +kernel
  place := by
    have near : (corner.points.all fun point => [Axis.x, Axis.y, Axis.z].all fun axis =>
        decide (Scalar.magnitude (((Poster.standard : Poster Float).dialect "haas").asWritten
          (point.position.along axis)) ≤ (Limits.standard : Limits Float).along axis / 2)) =
        true := by
      decide +kernel
    intro point member axis
    have each := List.all_eq_true.mp (List.all_eq_true.mp near point member) axis
      (by cases axis <;> decide)
    exact of_decide_eq_true each
  feed := by
    have slow : (corner.points.all fun point => point.feed.toList.all fun feed =>
        decide (((Poster.standard : Poster Float).dialect "haas").asWritten feed ≤
          (Limits.standard : Limits Float).maxFeed)) = true := by
      decide +kernel
    intro point member feed isFeed
    have each := List.all_eq_true.mp (List.all_eq_true.mp slow point member) feed
      (Option.mem_toList.mpr isFeed)
    exact of_decide_eq_true each

theorem auditProgram_program_corner :
    ∃ text, (Poster.standard : Poster Float).program "2026-01-31" corner [] "haas" = .ok text ∧
      auditProgram (Limits.standard : Limits Float) text = {} := by
  have finite : ∀ point ∈ corner.points, ∀ value ∈ checkedNumbers point,
      Scalar.isFinite value = true := by
    have all : (corner.points.all fun point => (checkedNumbers point).all Scalar.isFinite) =
        true := by
      decide +kernel
    exact fun point member => List.all_eq_true.mp (List.all_eq_true.mp all point member)
  exact auditProgram_program Poster.standard (resolve_mem_builtIn "haas") (by decide) (by simp)
    (List.cons_ne_nil _ _) (by simp [corner, MotionPoint.rapid, MotionPoint.linear]) finite
    corner_inEnvelope

end Program

end Posting

end Milling
