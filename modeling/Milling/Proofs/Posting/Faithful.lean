import Mathlib
import Milling.Proofs.Posting.Memory
import Milling.Proofs.Posting.Passage

/-!
# Compaction and what a program does

Compaction remembers what is in force where a program is read, and a word that
it leaves out does nothing.  That asks two things of a line.  The words behind
its first comment, which compaction does not look at, have to leave in force
what it remembers; and if there are such words one before the comment has to
stay, since a line that starts with a comment is passed over as a whole.
-/

namespace Milling.Posting

open Program (ReadingState LineEffect WordReading Variables IsLettered DoSame capitalized tokenOf
  noted readLine readLines textOf)

variable {α : Type}

section Reading

def backWords (line : Line) : List Line :=
  Text.words (Program.stripComments ((remark? line).getD []))

theorem remark?_getD (line : Line) :
    (remark? line).getD [] =
      (Text.trim line).dropWhile fun character => !startsComment character := by
  unfold remark?
  split
  · rename_i none
    rw [none]
    rfl
  · rename_i first rest some
    rw [some]
    rfl

/-- A comment leaves a blank behind if it leaves anything. -/
theorem stripComments_opening {first : Char} (starts : startsComment first = true) (rest : Line) :
    Program.stripComments (first :: rest) = [] ∨
      ∃ code, Program.stripComments (first :: rest) = ' ' :: code := by
  simp only [startsComment, Bool.or_eq_true, beq_iff_eq] at starts
  unfold Program.stripComments
  rw [Program.splitComments]
  rcases starts with rfl | rfl
  · exact .inl rfl
  · rw [if_neg (by decide), if_pos rfl]
    split
    · exact .inr ⟨_, rfl⟩
    · exact .inl rfl

theorem words_stripComments (line : Line) :
    Text.words (Program.stripComments (Text.trim line)) = frontWords line ++ backWords line := by
  have code : ∀ character ∈ (Text.trim line).takeWhile (fun character => !startsComment character),
      character ≠ ';' ∧ character ≠ '(' := by
    intro character member
    have noStart := List.mem_takeWhile_imp member
    constructor <;> (rintro rfl; cases noStart)
  have split := Program.splitComments_append code
    ((Text.trim line).dropWhile fun character => !startsComment character)
  rw [List.takeWhile_append_dropWhile] at split
  have whole : Program.stripComments (Text.trim line) =
      (Text.trim line).takeWhile (fun character => !startsComment character) ++
        Program.stripComments ((remark? line).getD []) := by
    rw [Program.stripComments, split, remark?_getD]
    rfl
  rw [whole, backWords, frontWords]
  cases remark : remark? line with
  | none => simp [Program.stripComments, Program.splitComments, Text.words]
  | some remark =>
      obtain ⟨first, rest, rfl, starts⟩ := opensComment_of_mem_remark? ‹_›
      rw [Option.getD_some]
      rcases stripComments_opening starts rest with empty | ⟨code, gap⟩
      · rw [empty, List.append_nil]
        exact (List.append_nil _).symm
      · rw [gap, Text.words_append_blank (by decide), Text.words_blank_cons (by decide)]

/-- A line starts with a comment, or is empty, unless it starts with its first word. -/
theorem frontWords_cases (line : Line) :
    (frontWords line = [] ∧ (Text.trim line = [] ∨ ∃ first rest,
        Text.trim line = first :: rest ∧ startsComment first = true)) ∨
      ∃ first rest word words, Text.trim line = first :: rest ∧ startsComment first = false ∧
        Text.isBlank first = false ∧ frontWords line = (first :: word) :: words := by
  cases shape : Text.trim line with
  | nil => exact .inl ⟨by simp [frontWords, shape, Text.words], .inl rfl⟩
  | cons first rest =>
      cases starts : startsComment first with
      | true => exact .inl ⟨by simp [frontWords, shape, starts, Text.words],
          .inr ⟨first, rest, rfl, starts⟩⟩
      | false =>
          have solid : Text.isBlank first = false :=
            Text.head?_trim first (by rw [shape]; rfl)
          obtain ⟨word, after, split, isSolid, stop⟩ := Text.exists_word_append solid
            (rest.takeWhile fun character => !startsComment character)
          cases word with
          | nil => exact absurd rfl isSolid.1
          | cons head tail =>
              obtain ⟨rfl, _⟩ := List.cons.inj split
              refine .inr ⟨first, rest, tail, Text.words after, rfl, starts, solid, ?_⟩
              rw [frontWords, shape, List.takeWhile_cons_of_pos (by simp [starts]), split,
                Text.words_append_of_stop isSolid stop]

variable [Scalar α] (calculate : String → Except String α)

/-- A line without a word before its first comment is passed over. -/
theorem readLine_unworded {written : Line} (none : frontWords written = []) (line : Nat)
    (state : ReadingState α) :
    readLine calculate line written state = ({}, state) := by
  rcases frontWords_cases written with ⟨_, empty | ⟨first, rest, shape, starts⟩⟩ |
    ⟨first, rest, word, words, _, _, _, some⟩
  · simp [readLine, Text.trim_dropReturns, empty]
  · simp only [startsComment, Bool.or_eq_true, beq_iff_eq] at starts
    unfold readLine
    simp only [Text.trim_dropReturns, shape]
    rcases starts with rfl | rfl <;> simp
  · rw [none] at some
    cases some

/-- A line with a word before its first comment does what its words say. -/
theorem readLine_gathered {written : Line} (worded : frontWords written ≠ [])
    (lettered : ∀ word ∈ frontWords written ++ backWords written, IsLettered word) (line : Nat)
    (state : ReadingState α) :
    ∃ comment,
      let words := gather calculate state.assigned line {} (frontWords written ++ backWords written)
      ((readLine calculate line written state).1.point,
          (readLine calculate line written state).2) =
        Program.obey line comment words.codes words.parameters state := by
  rcases frontWords_cases written with ⟨none, _⟩ |
    ⟨first, rest, word, words, shape, starts, solid, front⟩
  · exact absurd none worded
  · have alpha : first.isAlpha = true := by
      cases lettered (first :: word) (by simp [front]) with
      | intro _ _ alpha => exact alpha
    have other : first ≠ ';' ∧ first ≠ '(' ∧ first ≠ '%' ∧ first ≠ '#' := by
      refine ⟨?_, ?_, ?_, ?_⟩ <;> (rintro rfl; cases alpha)
    have plain : first ≠ ';' ∧ first ≠ '(' := ⟨other.1, other.2.1⟩
    have noAssignment : Program.assignment? (Program.stripComments (first :: rest)) = .none := by
      rw [Program.stripComments_cons plain]
      exact Program.assignment?_eq_none solid other.2.2.2 _
    have start : (Text.trim written).head? = some first := by
      rw [shape]
      rfl
    have read := Program.readLine_code calculate line state start plain
      (by simp [shape, other.2.2.1]) (by rwa [shape])
    have obeyed := Program.readWords_obeyed calculate line
      (String.ofList (Text.dropEndWhile (· == '\r') written))
      (Program.stripComments (Text.trim written))
      ((Program.comment? (Text.trim written)).filter (· ≠ "")) state
    rw [← words_stripComments] at lettered
    rw [Program.tokenize_eq_map_words lettered, words_stripComments, ← read] at obeyed
    exact ⟨_, obeyed⟩

end Reading

section Lines

/-- A line of lettered words with comments among them or not. -/
structure IsWritten (line : Line) : Prop where
  oneLine : '\n' ∉ line
  lettered : ∀ word ∈ frontWords line ++ backWords line, IsLettered word

instance (line : Line) : Decidable (IsWritten line) :=
  decidable_of_iff ('\n' ∉ line ∧ ∀ word ∈ frontWords line ++ backWords line, IsLettered word)
    ⟨fun ⟨oneLine, lettered⟩ => ⟨oneLine, lettered⟩, fun ⟨oneLine, lettered⟩ => ⟨oneLine, lettered⟩⟩

/-- Words that are read leave in force what compaction remembers. -/
structure InForce.Outlasts (inForce : InForce) (words : List Line) : Prop where
  motion : ∀ code ∈ inForce.motion, (keepWords inForce words).1.motion = some code
  feed : ∀ text ∈ inForce.feed, (keepWords inForce words).1.feed = some text
  spindle : ∀ text ∈ inForce.spindle, (keepWords inForce words).1.spindle = some text

instance (inForce : InForce) (words : List Line) : Decidable (inForce.Outlasts words) :=
  decidable_of_iff
    ((∀ code ∈ inForce.motion, (keepWords inForce words).1.motion = some code) ∧
      (∀ text ∈ inForce.feed, (keepWords inForce words).1.feed = some text) ∧
      ∀ text ∈ inForce.spindle, (keepWords inForce words).1.spindle = some text)
    ⟨fun ⟨motion, feed, spindle⟩ => ⟨motion, feed, spindle⟩,
      fun ⟨motion, feed, spindle⟩ => ⟨motion, feed, spindle⟩⟩

/-- If there are words on both sides of the first comment of a line, one before it stays, and
those behind it leave in force what compaction remembers. -/
def IsUnbroken (inForce : InForce) (line : Line) : Prop :=
  frontWords line ≠ [] → backWords line ≠ [] →
    (keepWords inForce (frontWords line)).2 ≠ [] ∧
      (keepWords inForce (frontWords line)).1.Outlasts (backWords line)

instance (inForce : InForce) (line : Line) : Decidable (IsUnbroken inForce line) :=
  inferInstanceAs (Decidable (_ → _ → _))

/-- Lines that are unbroken one after the other. -/
def AreUnbroken : InForce → List Line → Prop
  | _, [] => True
  | inForce, line :: rest =>
      IsUnbroken inForce line ∧ AreUnbroken (compactLine inForce line).1 rest

instance decidableAreUnbroken :
    (inForce : InForce) → (lines : List Line) → Decidable (AreUnbroken inForce lines)
  | _, [] => inferInstanceAs (Decidable True)
  | inForce, line :: rest =>
      have := decidableAreUnbroken (compactLine inForce line).1 rest
      inferInstanceAs (Decidable (_ ∧ _))

theorem IsWritten.unframed {line : Line} (written : IsWritten line) :
    (Text.trim line).head? ≠ some '%' := by
  intro framed
  rcases frontWords_cases line with ⟨_, empty | ⟨first, rest, shape, starts⟩⟩ |
    ⟨first, rest, word, words, shape, _, _, front⟩
  · simp [empty] at framed
  · obtain rfl : first = '%' := by simpa [shape] using framed
    cases starts
  · obtain rfl : first = '%' := by simpa [shape] using framed
    cases written.lettered ('%' :: word) (by simp [front]) with
    | intro _ _ alpha => cases alpha

variable [Scalar α] (calculate : String → Except String α)

theorem InForce.Holds.obey {inForce : InForce} {words : WordReading α} {state : ReadingState α}
    (holds : inForce.Holds (words.onto state)) (line : Nat) (comment : Option String) :
    inForce.Holds (Program.obey line comment words.codes words.parameters state).2 := by
  obtain ⟨modal, feed, spindle⟩ := Program.obey_onto line comment words state
  refine ⟨?_, ?_, ?_⟩
  · rw [modal]
    exact holds.motion
  · rw [feed]
    exact holds.feed
  · rw [spindle]
    exact holds.spindle

theorem InForce.Outlasts.holds {inForce : InForce} {words : List Line}
    (outlasts : inForce.Outlasts words) {state : ReadingState α}
    (later : (keepWords inForce words).1.Holds state) : inForce.Holds state where
  motion code isCode := later.motion code (outlasts.motion code isCode)
  feed text isText := later.feed text (outlasts.feed text isText)
  spindle text isText := later.spindle text (outlasts.spindle text isText)

theorem IsUnbroken.outlasts {inForce : InForce} {line : Line}
    (unbroken : IsUnbroken inForce line) (worded : frontWords line ≠ []) :
    (keepWords inForce (frontWords line)).1.Outlasts (backWords line) := by
  by_cases alone : backWords line = []
  · rw [alone]
    exact ⟨fun _ isCode => isCode, fun _ isText => isText, fun _ isText => isText⟩
  · exact (unbroken worded alone).2

/-- What is left of the words of a line, with those behind its first comment, does what the
words of the line do. -/
theorem gather_unbroken (table : Variables α) {line : Line} {inForce : InForce}
    (unbroken : IsUnbroken inForce line) (worded : frontWords line ≠ []) {state : ReadingState α}
    (holds : inForce.Holds state) (number other : Nat) :
    let read := gather calculate table number {} (frontWords line ++ backWords line)
    DoSame state read (gather calculate table other {}
        ((keepWords inForce (frontWords line)).2 ++ backWords line)) ∧
      (keepWords inForce (frontWords line)).1.Holds (read.onto state) := by
  have start : inForce.Holds (({} : WordReading α).onto state) := holds
  obtain ⟨sameFront, holdsFront⟩ := gather_keepWords calculate table (frontWords line)
    number other (DoSame.refl state {}) start
  obtain ⟨_, holdsBack⟩ := gather_keepWords calculate table (backWords line)
    number other (DoSame.refl state _) holdsFront
  dsimp only
  rw [gather_append, gather_append]
  exact ⟨sameFront.foldl_add calculate table number other _,
    (unbroken.outlasts worded).holds holdsBack⟩

theorem points_readLines_cons (number : Nat) (line : Line) (rest : List Line)
    (state : ReadingState α) :
    (readLines calculate number state (line :: rest)).1.filterMap LineEffect.point =
      (readLine calculate number line state).1.point.toList ++
        (readLines calculate (number + 1) (readLine calculate number line state).2
          rest).1.filterMap LineEffect.point := by
  simp only [readLines]
  cases isPoint : (readLine calculate number line state).1.point with
  | none => rw [List.filterMap_cons_none isPoint]; rfl
  | some point => rw [List.filterMap_cons_some isPoint]; rfl

theorem readLines_singleton (number : Nat) (line : Line) (state : ReadingState α) :
    (readLines calculate number state [line]).2 = (readLine calculate number line state).2 ∧
      (readLines calculate number state [line]).1.filterMap LineEffect.point =
        (readLine calculate number line state).1.point.toList :=
  ⟨rfl, (points_readLines_cons calculate number line [] state).trans (List.append_nil _)⟩

/-- What is left of a line without its words does nothing. -/
theorem readLines_remark (line : Line) (number : Nat) (state : ReadingState α) :
    let read := readLines calculate number state (rebuilt? [] (remark? line)).toList
    read.2 = state ∧ read.1.filterMap LineEffect.point = [] := by
  have front : frontWords (noted [] (remark? line)) = [] :=
    (parts_rest (List.forall_mem_nil _)).1
  cases note : remark? line with
  | none => exact ⟨rfl, rfl⟩
  | some remark =>
      rw [note] at front
      have passed := readLine_unworded calculate front number state
      simp [rebuilt?, readLines, passed]

/-- A line of some of the words of another, with its remark, does what these words and those
behind the comment say. -/
theorem readLine_rest {line : Line}
    (lettered : ∀ word ∈ frontWords line ++ backWords line, IsLettered word) {words : List Line}
    (isRest : ∀ word ∈ words, word ∈ frontWords line) (nonempty : words ≠ []) (number : Nat)
    (state : ReadingState α) :
    ∃ comment,
      let read := gather calculate state.assigned number {} (words ++ backWords line)
      ((readLine calculate number (noted words (remark? line)) state).1.point,
          (readLine calculate number (noted words (remark? line)) state).2) =
        Program.obey number comment read.codes read.parameters state := by
  obtain ⟨front, remark⟩ := parts_rest isRest
  have back : backWords (noted words (remark? line)) = backWords line := by
    rw [backWords, remark, backWords]
  have read := @readLine_gathered α _ calculate (noted words (remark? line))
  rw [front, back] at read
  refine read nonempty (fun word member => lettered word ?_) number state
  rcases List.mem_append.mp member with isFront | isBack
  · exact List.mem_append_left _ (isRest word isFront)
  · exact List.mem_append_right _ isBack

theorem readLines_compactLine {line : Line} (written : IsWritten line) {inForce : InForce}
    (unbroken : IsUnbroken inForce line) {state : ReadingState α} (holds : inForce.Holds state)
    (number other : Nat) :
    let read := readLine calculate number line state
    let again := readLines calculate other state (compactLine inForce line).2.toList
    again.2 = read.2 ∧
      (again.1.filterMap LineEffect.point).map MotionPoint.followed =
        read.1.point.toList.map MotionPoint.followed ∧
      (compactLine inForce line).1.Holds read.2 := by
  rw [compactLine_eq inForce written.unframed]
  by_cases worded : frontWords line = []
  · have passed := readLine_unworded calculate worded number state
    obtain ⟨next, noPoint⟩ := readLines_remark calculate line other state
    rw [worded, passed]
    exact ⟨next, congrArg (List.map _) noPoint, holds⟩
  · obtain ⟨same, after⟩ := gather_unbroken calculate state.assigned unbroken worded holds
      number other
    obtain ⟨comment, obeyed⟩ := readLine_gathered calculate worded written.lettered number state
    obtain ⟨point, next⟩ := Prod.ext_iff.mp obeyed
    dsimp only at point next ⊢
    rw [point, next]
    refine and_assoc.mp ⟨?_, after.obey number comment⟩
    by_cases left : (keepWords inForce (frontWords line)).2 = []
    · have alone : backWords line = [] := by
        by_contra others
        exact (unbroken worded others).1 left
      have nothing : gather calculate state.assigned other {}
          ((keepWords inForce (frontWords line)).2 ++ backWords line) = {} := by
        rw [left, alone]
        rfl
      rw [nothing] at same
      obtain ⟨unchanged, noPoint⟩ := same.obey number other comment none
      obtain ⟨passed, silent⟩ := readLines_remark calculate line other state
      rw [Program.obey_nothing] at unchanged noPoint
      rw [left, passed, silent, unchanged, ← Option.toList_map, noPoint]
      exact ⟨rfl, rfl⟩
    · obtain ⟨otherComment, obeyedAgain⟩ := readLine_rest calculate written.lettered
        (fun _word => mem_of_mem_keepWords) left other state
      obtain ⟨pointAgain, nextAgain⟩ := Prod.ext_iff.mp obeyedAgain
      obtain ⟨sameState, samePoint⟩ := same.obey number other comment otherComment
      have again : rebuilt? (keepWords inForce (frontWords line)).2 (remark? line) =
          some (noted (keepWords inForce (frontWords line)).2 (remark? line)) :=
        if_neg fun gone => left gone.1
      dsimp only at pointAgain nextAgain
      obtain ⟨final, points⟩ := readLines_singleton calculate other
        (noted (keepWords inForce (frontWords line)).2 (remark? line)) state
      rw [again, Option.toList_some, final, points, pointAgain, nextAgain, sameState,
        ← Option.toList_map, ← Option.toList_map, samePoint]
      exact ⟨rfl, rfl⟩

end Lines

section Programs

theorem newline_notMem_compactLine {line kept : Line} (written : IsWritten line)
    {inForce : InForce} (isKept : (compactLine inForce line).2 = some kept) : '\n' ∉ kept := by
  have inLine : '\n' ∉ Text.trim line := fun inside =>
    written.oneLine (Text.mem_of_mem_trim inside)
  rw [compactLine_eq inForce written.unframed, rebuilt?] at isKept
  split at isKept
  · cases isKept
  · obtain rfl := Option.some.inj isKept
    intro inside
    rcases Program.mem_joined inside with blank | ⟨piece, isPiece, inPiece⟩
    · cases blank
    · rcases List.mem_append.mp isPiece with isWord | isRemark
      · exact inLine ((List.takeWhile_sublist _).subset
          (Text.subset_of_mem_words (mem_of_mem_keepWords isWord) inPiece))
      · obtain ⟨dropped, _⟩ := remark?_eq_some_iff.mp (Option.mem_toList.mp isRemark)
        exact inLine ((List.dropWhile_sublist _).subset (dropped ▸ inPiece))

theorem newline_notMem_compactFrom {lines : List Line} (written : ∀ line ∈ lines, IsWritten line)
    (inForce : InForce) : ∀ line ∈ compactFrom inForce lines, '\n' ∉ line := by
  induction lines generalizing inForce with
  | nil => exact List.forall_mem_nil _
  | cons line rest ih =>
      obtain ⟨here, later⟩ := List.forall_mem_cons.mp written
      intro kept member
      rcases List.mem_append.mp member with isHere | isLater
      · exact newline_notMem_compactLine here (Option.mem_toList.mp isHere)
      · exact ih later _ kept isLater

variable [Scalar α] (calculate : String → Except String α)

/-- Compacted lines do what the lines do. -/
theorem readLines_compactFrom {lines : List Line} (written : ∀ line ∈ lines, IsWritten line)
    {inForce : InForce} (unbroken : AreUnbroken inForce lines) {state : ReadingState α}
    (holds : inForce.Holds state) (number other : Nat) :
    let read := readLines calculate number state lines
    let again := readLines calculate other state (compactFrom inForce lines)
    again.2 = read.2 ∧
      (again.1.filterMap LineEffect.point).map MotionPoint.followed =
        (read.1.filterMap LineEffect.point).map MotionPoint.followed := by
  induction lines generalizing inForce state number other with
  | nil => exact ⟨rfl, rfl⟩
  | cons line rest ih =>
      obtain ⟨here, later⟩ := List.forall_mem_cons.mp written
      obtain ⟨whole, unbroken⟩ := unbroken
      obtain ⟨next, points, after⟩ := readLines_compactLine calculate here whole holds number other
      obtain ⟨final, morePoints⟩ := ih later unbroken after (number + 1)
        (other + (compactLine inForce line).2.toList.length)
      rw [compactFrom, readLines_append]
      dsimp only
      rw [List.filterMap_append, List.map_append, points, next, morePoints, final,
        points_readLines_cons, List.map_append]
      exact ⟨rfl, rfl⟩

/-- Compaction changes nothing that a program does: of lettered words and comments it leaves
a program with the same points, but for their places in the program and the feeds of rapid
ones, and the same units. -/
theorem readProgram_compact (tool : Nat) {lines : List Line}
    (written : ∀ line ∈ lines, IsWritten line) (unbroken : AreUnbroken {} lines) :
    let outcome := Program.readProgram calculate tool (textOf lines)
    let again := Program.readProgram calculate tool (textOf (compact lines))
    again.toolpath.points.map MotionPoint.followed =
        outcome.toolpath.points.map MotionPoint.followed ∧
      again.units = outcome.units := by
  have read {lines : List Line} (oneLine : ∀ line ∈ lines, '\n' ∉ line) :
      let outcome := Program.readProgram calculate tool (textOf lines)
      let effects := readLines calculate 1 (.start tool) lines
      outcome.toolpath.points = effects.1.filterMap LineEffect.point ∧
        outcome.units = effects.2.modal.unitsInForce := by
    unfold Program.readProgram
    simp only [Program.textLines_textOf oneLine, Program.wholePath_points]
    split
    · rename_i empty
      rw [empty]
      simp [readLines, Program.readLine_empty]
    · exact ⟨rfl, rfl⟩
  obtain ⟨points, units⟩ := read fun line isLine => (written line isLine).oneLine
  obtain ⟨pointsAgain, unitsAgain⟩ := read (newline_notMem_compactFrom written {})
  have start : ({} : InForce).Holds (ReadingState.start (α := α) tool) :=
    ⟨by simp, by simp, by simp⟩
  obtain ⟨final, same⟩ := readLines_compactFrom calculate written unbroken start 1 1
  dsimp only at final same pointsAgain unitsAgain ⊢
  rw [compact, points, units, pointsAgain, unitsAgain, same, final]
  exact ⟨rfl, rfl⟩

end Programs

section Instance

/-- Lines with words in either case that repeat, and with comments in any place. -/
def roundLines : List Line :=
  ["T1 M6 S8000".toList, "; rough".toList, "G0 X0 Y0 F100".toList, "G1 X5 (cut) Y1".toList,
    " g01 X7 F100 (along) I2".toList, "G1 (idle)".toList, "(turn) G2 X9".toList,
    "G2 X9 Y5 I2 S8000 ; back".toList, "G4 P2 (wait) F100".toList, "".toList,
    "G83 X1 Z-2 R1 Q1 F80".toList, "g83 F80 X3 (peck) Y2".toList]

def noExpression (_expression : String) : Except String Float := .error "no expression"

theorem readProgram_compact_round :
    ((∀ line ∈ roundLines, IsWritten line) ∧ AreUnbroken {} roundLines) ∧
      let outcome := Program.readProgram noExpression 1 (textOf roundLines)
      let again := Program.readProgram noExpression 1 (textOf (compact roundLines))
      again.toolpath.points.map MotionPoint.followed =
          outcome.toolpath.points.map MotionPoint.followed ∧
        again.units = outcome.units := by
  have written : ∀ line ∈ roundLines, IsWritten line := by decide +kernel
  have unbroken : AreUnbroken {} roundLines := by decide +kernel
  exact ⟨⟨written, unbroken⟩, readProgram_compact noExpression 1 written unbroken⟩

/-- A line whose words before the comment all repeat. -/
def hiddenLines : List Line := ["G1 X1 F100".toList, "G1 (finish) X5".toList]

/-- What is left of a line starts with its comment if no word before it stays, and is passed
over with the words behind it. -/
theorem readProgram_compact_hidden :
    (∀ line ∈ hiddenLines, IsWritten line) ∧
      compact hiddenLines = ["G1 X1 F100".toList, "(finish) X5".toList] ∧
      (Program.readProgram noExpression 1 (textOf hiddenLines)).toolpath.points.length = 2 ∧
      (Program.readProgram noExpression 1 (textOf (compact hiddenLines))).toolpath.points.length =
        1 := by
  decide +kernel

/-- A feed behind a comment is in force for the reader, and compaction does not see it. -/
example :
    let lines := ["G1 X1 F50".toList, "G1 X2 (fast) F100".toList, "G1 X3 F50".toList]
    (Program.readProgram noExpression 1 (textOf (compact lines))).toolpath.points.map
        MotionPoint.followed ≠
      (Program.readProgram noExpression 1 (textOf lines)).toolpath.points.map
        MotionPoint.followed := by
  decide +kernel

end Instance

end Milling.Posting
