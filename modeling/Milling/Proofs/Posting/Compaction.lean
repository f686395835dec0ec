import Milling.Posting.Compaction
import Milling.Proofs.Program.Line

/-!
# Compaction word by word

A line of words is compacted by keeping its new words in order, with its
remark behind them.  Lines that are remarks stay.
-/

namespace Milling.Posting

open Program (IsPlainWord IsNote joined noted spaced)

section Words

theorem afterLetter?_cons {letter first : Char} (capital : first.isUpper = true)
    (rest : Line) :
    afterLetter? letter (first :: rest) = if first = letter then some rest else none := by
  simp [afterLetter?, Program.toUpper_of_isUpper capital]

theorem afterLetter?_eq_some_iff {letter : Char} {word text : Line} :
    afterLetter? letter word = some text ↔
      ∃ first, word = first :: text ∧ first.toUpper = letter := by
  cases word with
  | nil => simp [afterLetter?]
  | cons first rest => simp [afterLetter?, and_comm]

/-- A word of another letter than those that compaction looks at stays. -/
theorem keepWord_other {letter : Char} (capital : letter.isUpper = true)
    (other : letter ≠ 'G' ∧ letter ≠ 'F' ∧ letter ≠ 'S') (inForce : InForce)
    (rest : Line) :
    keepWord inForce (letter :: rest) = (inForce, some (letter :: rest)) := by
  simp [keepWord, motionCode?, afterLetter?_cons capital, other]

theorem afterLetter?_unique {letter other : Char} {word value : Line}
    (follows : afterLetter? letter word = some value) (different : letter ≠ other) :
    afterLetter? other word = none := by
  obtain ⟨first, rfl, isLetter⟩ := afterLetter?_eq_some_iff.mp follows
  exact if_neg (isLetter ▸ different)

theorem motionCode?_of_letter {letter : Char} {word value : Line}
    (follows : afterLetter? letter word = some value) (different : letter ≠ 'G') :
    motionCode? word = none := by
  rw [motionCode?, afterLetter?_unique follows different]
  rfl

/-- A motion code stays unless it is in force, and is in force then. -/
theorem keepWord_motion {word : Line} {code : Nat} (isMotion : motionCode? word = some code)
    (inForce : InForce) :
    keepWord inForce word =
      ({ inForce with motion := some code },
        if inForce.motion = some code then none else some word) := by
  simp only [keepWord, isMotion]
  split
  · rename_i same
    simp [← same]
  · rfl

theorem keepWord_of_feed {word value : Line} (isFeed : afterLetter? 'F' word = some value)
    (inForce : InForce) :
    keepWord inForce word =
      ({ inForce with feed := some value },
        if inForce.feed = some value then none else some word) := by
  simp only [keepWord, motionCode?_of_letter isFeed (by decide), isFeed]
  split
  · rename_i same
    simp [← same]
  · rfl

theorem keepWord_feed (inForce : InForce) (value : Line) :
    keepWord inForce ('F' :: value) =
      ({ inForce with feed := some value },
        if inForce.feed = some value then none else some ('F' :: value)) :=
  keepWord_of_feed rfl inForce

theorem keepWord_of_spindle {word value : Line}
    (isSpindle : afterLetter? 'S' word = some value) (inForce : InForce) :
    keepWord inForce word =
      ({ inForce with spindle := some value },
        if inForce.spindle = some value then none else some word) := by
  simp only [keepWord, motionCode?_of_letter isSpindle (by decide),
    afterLetter?_unique isSpindle (by decide : 'S' ≠ 'F'), isSpindle]
  split
  · rename_i same
    simp [← same]
  · rfl

theorem keepWord_spindle (inForce : InForce) (value : Line) :
    ∃ spindle kept,
      keepWord inForce ('S' :: value) = ({ inForce with spindle }, kept) ∧
        (kept = none ∨ kept = some ('S' :: value)) := by
  refine ⟨some value, _, keepWord_of_spindle rfl inForce, ?_⟩
  split
  · exact .inl rfl
  · exact .inr rfl

/-- What a word says to compaction: a motion code, a feed, a spindle speed, or nothing. -/
theorem keepWord_cases (inForce : InForce) (word : Line) :
    (∃ code, motionCode? word = some code ∧ afterLetter? 'F' word = none ∧
        afterLetter? 'S' word = none ∧
        keepWord inForce word = ({ inForce with motion := some code },
          if inForce.motion = some code then none else some word)) ∨
      (∃ value, motionCode? word = none ∧ afterLetter? 'F' word = some value ∧
        afterLetter? 'S' word = none ∧
        keepWord inForce word = ({ inForce with feed := some value },
          if inForce.feed = some value then none else some word)) ∨
      (∃ value, motionCode? word = none ∧ afterLetter? 'F' word = none ∧
        afterLetter? 'S' word = some value ∧
        keepWord inForce word = ({ inForce with spindle := some value },
          if inForce.spindle = some value then none else some word)) ∨
      (motionCode? word = none ∧ afterLetter? 'F' word = none ∧ afterLetter? 'S' word = none ∧
        keepWord inForce word = (inForce, some word)) := by
  cases motion : motionCode? word with
  | some code =>
      obtain ⟨number, isCode, _⟩ := Option.bind_eq_some_iff.mp motion
      exact .inl ⟨code, rfl, afterLetter?_unique isCode (by decide),
        afterLetter?_unique isCode (by decide), keepWord_motion motion inForce⟩
  | none =>
      cases feed : afterLetter? 'F' word with
      | some value =>
          exact .inr (.inl ⟨value, rfl, rfl, afterLetter?_unique feed (by decide),
            keepWord_of_feed feed inForce⟩)
      | none =>
          cases spindle : afterLetter? 'S' word with
          | some value =>
              exact .inr (.inr (.inl ⟨value, rfl, rfl, rfl, keepWord_of_spindle spindle inForce⟩))
          | none =>
              exact .inr (.inr (.inr ⟨rfl, rfl, rfl, by
                simp only [keepWord, motion, feed, spindle]⟩))

theorem keepWords_cons (inForce : InForce) (word : Line) (rest : List Line) :
    keepWords inForce (word :: rest) =
      ((keepWords (keepWord inForce word).1 rest).1,
        (keepWord inForce word).2.toList ++
          (keepWords (keepWord inForce word).1 rest).2) := rfl

theorem keepWords_append (inForce : InForce) (first second : List Line) :
    keepWords inForce (first ++ second) =
      ((keepWords (keepWords inForce first).1 second).1,
        (keepWords inForce first).2 ++
          (keepWords (keepWords inForce first).1 second).2) := by
  induction first generalizing inForce with
  | nil => rfl
  | cons word first ih =>
      rw [List.cons_append, keepWords_cons, ih, keepWords_cons]
      simp

/-- Words of letters that compaction does not look at all stay. -/
theorem keepWords_others {words : List Line}
    (others : ∀ word ∈ words, ∃ letter rest, word = letter :: rest ∧
      letter.isUpper = true ∧ letter ≠ 'G' ∧ letter ≠ 'F' ∧ letter ≠ 'S')
    (inForce : InForce) : keepWords inForce words = (inForce, words) := by
  induction words with
  | nil => rfl
  | cons word words ih =>
      obtain ⟨letter, rest, rfl, capital, other⟩ := others word List.mem_cons_self
      have tail := ih fun other member => others other (List.mem_cons_of_mem _ member)
      rw [keepWords_cons, keepWord_other capital other, tail]
      rfl

/-- A word that says nothing new goes, and nothing in force changes; another stays as it is. -/
theorem keepWord_goes_or_stays (inForce : InForce) (word : Line) :
    keepWord inForce word = (inForce, none) ∨ (keepWord inForce word).2 = some word := by
  rcases keepWord_cases inForce word with
    ⟨said, _, _, _, kept⟩ | ⟨said, _, _, _, kept⟩ | ⟨said, _, _, _, kept⟩ | ⟨_, _, _, kept⟩
  · by_cases same : inForce.motion = some said
    · exact .inl (by rw [kept, if_pos same, ← same])
    · exact .inr (by rw [kept, if_neg same])
  · by_cases same : inForce.feed = some said
    · exact .inl (by rw [kept, if_pos same, ← same])
    · exact .inr (by rw [kept, if_neg same])
  · by_cases same : inForce.spindle = some said
    · exact .inl (by rw [kept, if_pos same, ← same])
    · exact .inr (by rw [kept, if_neg same])
  · exact .inr (by rw [kept])

/-- Compaction takes words out and leaves the rest in order. -/
theorem sublist_keepWords (inForce : InForce) (words : List Line) :
    (keepWords inForce words).2.Sublist words := by
  induction words generalizing inForce with
  | nil => exact .slnil
  | cons word rest ih =>
      have later := ih (keepWord inForce word).1
      rw [keepWords_cons]
      rcases keepWord_goes_or_stays inForce word with gone | stays
      · rw [gone] at later ⊢
        exact later.cons word
      · rw [stays]
        exact later.cons_cons word

theorem mem_of_mem_keepWords {inForce : InForce} {words : List Line} {word : Line}
    (member : word ∈ (keepWords inForce words).2) : word ∈ words :=
  (sublist_keepWords inForce words).subset member

end Words

section Lines

/-- A run of solid characters none of which starts a comment. -/
structure IsBare (word : Line) : Prop where
  solid : Text.IsSolid word
  code : ∀ character ∈ word, startsComment character = false

theorem isBare_of_isPlainWord {word : Line} (plain : IsPlainWord word) : IsBare word where
  solid := plain.isSolid
  code character member := by
    have range := plain.char_range character member
    have notParenthesis : character ≠ '(' := by
      rintro rfl
      simp at range
    simp [startsComment, range.2.2.1, notParenthesis]

theorem isNote_shape {note : Line} (isNote : IsNote note) :
    ∃ first rest, note = first :: rest ∧ startsComment first = true ∧
      Text.isBlank first = false := by
  cases isNote with
  | semicolon text => exact ⟨';', text, rfl, by decide, by decide⟩
  | parentheses text _ => exact ⟨'(', text ++ [')'], rfl, by decide, by decide⟩

theorem isNote_trimEnd {note : Line} (isNote : IsNote note) :
    IsNote (Text.trimEnd note) := by
  cases isNote with
  | semicolon text =>
      have kept : Text.trimEnd (';' :: text) = ';' :: Text.trimEnd text :=
        Text.dropEndWhile_append_cons (by decide) [] text
      rw [kept]
      exact .semicolon _
  | parentheses text unclosed =>
      have whole : Text.trimEnd ('(' :: text ++ [')']) = '(' :: text ++ [')'] :=
        Text.dropEndWhile_append_cons (by decide) ('(' :: text) []
      rw [whole]
      exact .parentheses text unclosed

def frontWords (line : Line) : List Line :=
  Text.words ((Text.trim line).takeWhile fun character => !startsComment character)

/-- A line from its first comment on, if it has one. -/
def remark? (line : Line) : Option Line :=
  match (Text.trim line).dropWhile fun character => !startsComment character with
  | [] => none
  | first :: rest => some (first :: rest)

/-- A text that starts with a comment. -/
def OpensComment (remark : Line) : Prop :=
  ∃ first rest, remark = first :: rest ∧ startsComment first = true

theorem solid_of_startsComment {first : Char} (starts : startsComment first = true) :
    Text.isBlank first = false := by
  simp only [startsComment, Bool.or_eq_true, beq_iff_eq] at starts
  rcases starts with rfl | rfl <;> decide

theorem opensComment_of_isNote {note : Line} (isNote : IsNote note) : OpensComment note := by
  obtain ⟨first, rest, shape, starts, _⟩ := isNote_shape isNote
  exact ⟨first, rest, shape, starts⟩

theorem isBare_of_mem_frontWords {line word : Line} (member : word ∈ frontWords line) :
    IsBare word where
  solid := Text.isSolid_of_mem_words member
  code character inside := by
    have inCode := List.mem_takeWhile_imp (Text.subset_of_mem_words member inside)
    simpa using inCode

theorem remark?_eq_some_iff {line remark : Line} :
    remark? line = some remark ↔
      (Text.trim line).dropWhile (fun character => !startsComment character) = remark ∧
        remark ≠ [] := by
  unfold remark?
  split
  · rename_i dropped
    rw [dropped]
    simp +contextual [eq_comm]
  · rename_i first rest dropped
    rw [dropped, Option.some.injEq]
    refine ⟨?_, And.left⟩
    rintro rfl
    exact ⟨rfl, List.cons_ne_nil first rest⟩

theorem opensComment_of_mem_remark? {line remark : Line} (isRemark : remark ∈ remark? line) :
    OpensComment remark := by
  obtain ⟨dropped, nonempty⟩ := remark?_eq_some_iff.mp isRemark
  have head := List.head_dropWhile_not (p := fun character => !startsComment character)
    (l := Text.trim line) (by rwa [dropped])
  cases remark with
  | nil => exact absurd rfl nonempty
  | cons first rest => exact ⟨first, rest, rfl, by simpa [dropped] using head⟩

theorem trimEnd_of_mem_remark? {line remark : Line} (isRemark : remark ∈ remark? line) :
    Text.trimEnd remark = remark := by
  obtain ⟨dropped, nonempty⟩ := remark?_eq_some_iff.mp isRemark
  refine Text.dropEndWhile_eq_self fun last isLast => ?_
  have whole : (Text.trim line).getLast? = remark.getLast? := by
    rw [← List.takeWhile_append_dropWhile (p := fun character => !startsComment character)
      (l := Text.trim line), dropped, List.getLast?_append_of_ne_nil _ nonempty]
  exact Text.getLast?_trimEnd last (whole ▸ isLast)

/-- Words and remark of a line are found again. -/
theorem parts_noted {words : List Line} (bare : ∀ word ∈ words, IsBare word)
    {note : Option Line} (opens : ∀ remark ∈ note, OpensComment remark) :
    frontWords (noted words note) = words ∧
      remark? (noted words note) = note.map Text.trimEnd := by
  have solid : ∀ word ∈ words, Text.IsSolid word := fun word member => (bare word member).solid
  have trimmed : Text.trim (noted words note) = noted words (note.map Text.trimEnd) := by
    refine Program.trim_noted_solid solid fun remark member => ?_
    obtain ⟨first, rest, shape, starts⟩ := opens remark member
    exact ⟨first, rest, shape, solid_of_startsComment starts⟩
  have code : ∀ character ∈ joined words, (!startsComment character) = true := by
    intro character member
    rcases Program.mem_joined member with rfl | ⟨word, isWord, inside⟩
    · decide
    · simp [(bare word isWord).code character inside]
  unfold frontWords remark?
  rw [trimmed]
  cases note with
  | none =>
      rw [Option.map_none, Program.noted_none, List.takeWhile_eq_self_iff.mpr code,
        List.dropWhile_eq_nil_iff.mpr code]
      exact ⟨Text.words_intercalate solid, rfl⟩
  | some remark =>
      obtain ⟨first, rest, rfl, starts⟩ := opens remark rfl
      have kept : Text.trimEnd (first :: rest) = first :: Text.trimEnd rest :=
        Text.dropEndWhile_append_cons (solid_of_startsComment starts) [] rest
      obtain ⟨gap, blank, split⟩ : ∃ gap, (∀ character ∈ gap, character = ' ') ∧
          noted words (some (first :: Text.trimEnd rest)) =
            (joined words ++ gap) ++ first :: Text.trimEnd rest := by
        by_cases nonempty : words = []
        · exact ⟨[], by simp, by rw [nonempty, Program.noted_nil_some]; rfl⟩
        · exact ⟨[' '], by simp, by rw [Program.noted_some nonempty]; simp⟩
      have front : ∀ character ∈ joined words ++ gap, (!startsComment character) = true := by
        intro character member
        rcases List.mem_append.mp member with inWords | inGap
        · exact code character inWords
        · rw [blank character inGap]
          decide
      have gapBlank : ∀ character ∈ gap, Text.isBlank character = true := by
        intro character member
        rw [blank character member]
        decide
      rw [Option.map_some, kept, split, List.takeWhile_append_of_pos front,
        List.dropWhile_append_of_pos front, List.takeWhile_cons_of_neg (by simp [starts]),
        List.dropWhile_cons_of_neg (by simp [starts]), List.append_nil,
        Text.words_append_of_blank gapBlank]
      exact ⟨Text.words_intercalate solid, rfl⟩

/-- Of a line some of whose words went, the others and the remark are found again. -/
theorem parts_rest {line : Line} {words : List Line}
    (front : ∀ word ∈ words, word ∈ frontWords line) :
    frontWords (noted words (remark? line)) = words ∧
      remark? (noted words (remark? line)) = remark? line := by
  obtain ⟨found, remark⟩ := parts_noted
    (fun word member => isBare_of_mem_frontWords (front word member))
    fun remark (isRemark : remark ∈ remark? line) => opensComment_of_mem_remark? isRemark
  refine ⟨found, remark.trans ?_⟩
  cases note : remark? line with
  | none => rfl
  | some remark => rw [Option.map_some, trimEnd_of_mem_remark? note]

/-- The line of words and a remark, unless it has neither. -/
def rebuilt? (words : List Line) (note : Option Line) : Option Line :=
  if words = [] ∧ note = none then none else some (noted words note)

theorem remark?_eq_none_iff {line : Line} :
    remark? line = none ↔
      (Text.trim line).dropWhile (fun character => !startsComment character) = [] := by
  unfold remark?
  split
  · rename_i dropped
    simp [dropped]
  · rename_i first rest dropped
    simp [dropped]

/-- A line that is no frame keeps its new words and its remark. -/
theorem compactLine_eq (inForce : InForce) {line : Line}
    (unframed : (Text.trim line).head? ≠ some '%') :
    compactLine inForce line =
      ((keepWords inForce (frontWords line)).1,
        rebuilt? (keepWords inForce (frontWords line)).2 (remark? line)) := by
  cases shape : Text.trim line with
  | nil => simp [compactLine, frontWords, remark?, shape, Text.words_eq_nil, keepWords, rebuilt?]
  | cons first rest =>
      by_cases starts : startsComment first = true
      · simp [compactLine, frontWords, remark?, shape, starts, isRemark, Text.words_eq_nil,
          keepWords, rebuilt?, Program.noted_nil_some]
      · have notFrame : first ≠ '%' := by
          rintro rfl
          exact unframed (by rw [shape]; rfl)
        have notRemark : isRemark (first :: rest) = false := by
          simp [isRemark, starts, notFrame]
        have filled : (first :: rest).isEmpty = false := rfl
        simp only [compactLine, frontWords, shape, notRemark, filled]
        cases note : remark? line with
        | none =>
            have dropped := remark?_eq_none_iff.mp note
            rw [shape] at dropped
            simp [dropped, Text.trim_nil, rebuilt?, noted, joined]
        | some remark =>
            obtain ⟨dropped, nonempty⟩ := remark?_eq_some_iff.mp note
            have trimmed : Text.trim remark = remark := by
              obtain ⟨start, others, rfl, opens⟩ := opensComment_of_mem_remark? note
              rw [Text.trim_cons (solid_of_startsComment opens), trimEnd_of_mem_remark? note]
            rw [shape] at dropped
            simp [dropped, trimmed, nonempty, rebuilt?, noted, joined]

theorem compactLine_noted (inForce : InForce) {words : List Line} (nonempty : words ≠ [])
    (plain : ∀ word ∈ words, IsPlainWord word) {note : Option Line}
    (isNote : ∀ remark ∈ note, IsNote remark) :
    compactLine inForce (noted words note) =
      ((keepWords inForce words).1,
        if (keepWords inForce words).2 = [] ∧ note = none then none
        else some (noted (keepWords inForce words).2 (note.map Text.trimEnd))) := by
  obtain ⟨front, remark⟩ := parts_noted
    (fun word member => isBare_of_isPlainWord (plain word member))
    fun remark member => opensComment_of_isNote (isNote remark member)
  obtain ⟨first, rest, shape, capital⟩ := Program.exists_cons_noted nonempty plain note
  have unframed : (Text.trim (noted words note)).head? ≠ some '%' := by
    have solid := Program.isBlank_of_isUpper capital
    rw [shape, Text.trim_cons solid, Text.head?_trimEnd solid]
    rintro ⟨⟩
    cases capital
  rw [compactLine_eq inForce unframed, front, remark]
  simp [rebuilt?]

theorem compactLine_remark (inForce : InForce) {first : Char} (rest : Line)
    (solid : Text.isBlank first = false)
    (starts : startsComment first = true ∨ first = '%') :
    compactLine inForce (first :: rest) =
      (inForce, some (first :: Text.trimEnd rest)) := by
  have trimmed : Text.trim (first :: rest) = first :: Text.trimEnd rest := by
    rw [Text.trim_cons solid]
    exact Text.dropEndWhile_append_cons solid [] rest
  have remark : isRemark (first :: Text.trimEnd rest) = true := by
    simp [isRemark, starts]
  simp [compactLine, trimmed, remark]

end Lines

end Milling.Posting
