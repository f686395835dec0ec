import Mathlib
import Milling.Proofs.Program.Restatement

/-!
# Words that change nothing

The words of a line act on the state one after the other.  Where two lines lead
to the same state and differ at most in their feeds and spindle speeds, they
make the same move, but that a rapid one may carry another feed.
-/

namespace Milling

variable {α : Type}

/-- A point as far as a machine follows it: wherever it stands in a program, and with a
feed only where it cuts. -/
def MotionPoint.followed (point : MotionPoint α) : MotionPoint α :=
  { point.unplaced with feed := if point.isCutting then point.feed else none }

namespace Program

/-- The state with the codes, the feed and the spindle speed of words in force. -/
def WordReading.onto (words : WordReading α) (state : ReadingState α) : ReadingState α :=
  { state with
    modal := words.codes.foldl ModalState.apply state.modal
    feed := (words.parameters.get? 'F').or state.feed
    spindle := (words.parameters.get? 'S').or state.spindle }

/-- Words that lead to the same state and say the same but for feed and spindle speed. -/
structure DoSame (state : ReadingState α) (first second : WordReading α) : Prop where
  onto : first.onto state = second.onto state
  dwells : first.codes.any (· == Code.g 4) = second.codes.any (· == Code.g 4)
  numbers : ∀ letter, letter ≠ 'F' → letter ≠ 'S' →
    first.parameters.get? letter = second.parameters.get? letter

theorem DoSame.refl (state : ReadingState α) (words : WordReading α) : DoSame state words words :=
  ⟨rfl, rfl, fun _ _ _ => rfl⟩

/-- What codes and numbers make of a state. -/
def actOf (given : List Code × List (Char × α)) (state : ReadingState α) : ReadingState α :=
  WordReading.onto { codes := given.1, parameters := Parameters.insertAll {} given.2 } state

theorem actOf_eq (given : List Code × List (Char × α)) (state : ReadingState α) :
    actOf given state =
      { state with
        modal := given.1.foldl ModalState.apply state.modal
        feed := (given.2.reverse.lookup 'F').or state.feed
        spindle := (given.2.reverse.lookup 'S').or state.spindle } := by
  simp [actOf, WordReading.onto, Parameters.get?_insertAll]

theorem actOf_code (code : Code) (state : ReadingState α) :
    actOf ([code], []) state = { state with modal := state.modal.apply code } :=
  actOf_eq ([code], []) state

theorem actOf_feed (number : Option α) (state : ReadingState α) :
    actOf ([], number.toList.map ('F', ·)) state =
      { state with feed := number.or state.feed } := by
  cases number <;> simp [actOf_eq, Entries.lookup_cons]

theorem actOf_spindle (number : Option α) (state : ReadingState α) :
    actOf ([], number.toList.map ('S', ·)) state =
      { state with spindle := number.or state.spindle } := by
  cases number <;> simp [actOf_eq, Entries.lookup_cons]

theorem lookup_reverse_eq_none {entries : List (Char × α)} {letter : Char}
    (others : ∀ entry ∈ entries, entry.1 ≠ letter) : entries.reverse.lookup letter = none := by
  rw [List.lookup_eq_none_iff]
  intro entry member
  rw [bne_iff_ne]
  exact (others entry (List.mem_reverse.mp member)).symm

/-- Numbers of other letters leave feed and spindle speed. -/
theorem actOf_others {codes : List Code} {entries : List (Char × α)}
    (others : ∀ entry ∈ entries, entry.1 ≠ 'F' ∧ entry.1 ≠ 'S') (state : ReadingState α) :
    actOf (codes, entries) state =
      { state with modal := codes.foldl ModalState.apply state.modal } := by
  have noFeed := lookup_reverse_eq_none fun entry member => (others entry member).1
  have noSpindle := lookup_reverse_eq_none fun entry member => (others entry member).2
  simp [actOf_eq, noFeed, noSpindle]

variable [Scalar α] (calculate : String → Except String α)

section Words

/-- The codes and the numbers that a token gives. -/
def Token.given (table : Variables α) : Token α → List Code × List (Char × α)
  | .expression _ => ([], [])
  | .word letter value raw =>
      if letter = 'G' ∨ letter = 'M' then
        match value, Code.read? letter raw.toList with
        | .number _, some code => ([code], [])
        | _, _ => ([], [])
      else if letter ∈ parameterLetters then
        ([], (resolve calculate table 0 letter value).1.toList.map (letter, ·))
      else ([], [])

theorem WordReading.add_given (words : WordReading α) (table : Variables α) (line : Nat)
    (token : Token α) :
    (words.add calculate table line token).codes =
        words.codes ++ (token.given calculate table).1 ∧
      (words.add calculate table line token).parameters =
        words.parameters.insertAll (token.given calculate table).2 := by
  have nothing : words.codes = words.codes ++ [] ∧
      words.parameters = words.parameters.insertAll [] := ⟨(List.append_nil _).symm, rfl⟩
  cases token with
  | expression text => exact nothing
  | word letter value raw =>
      have number : (resolve calculate table line letter value).1 =
          (resolve calculate table 0 letter value).1 := by cases value <;> rfl
      simp only [WordReading.add, Token.given]
      by_cases group : letter = 'G' ∨ letter = 'M'
      · simp only [if_pos group]
        cases value with
        | number value =>
            cases Code.read? letter raw.toList with
            | some code => exact ⟨rfl, rfl⟩
            | none => exact nothing
        | expression text => exact nothing
        | invalid text => exact nothing
      · simp only [if_neg group]
        split
        · rw [number]
          cases (resolve calculate table 0 letter value).1 with
          | none => exact nothing
          | some given => exact ⟨nothing.1, rfl⟩
        · exact nothing

/-- A word acts on the state that the words before it lead to. -/
theorem WordReading.onto_add (words : WordReading α) (table : Variables α) (line : Nat)
    (token : Token α) (state : ReadingState α) :
    (words.add calculate table line token).onto state =
      actOf (token.given calculate table) (words.onto state) := by
  obtain ⟨codes, parameters⟩ := words.add_given calculate table line token
  simp [onto, actOf, codes, parameters, Parameters.get?_insertAll, Option.or_assoc]

/-- One more word on both sides leaves words that do the same. -/
theorem DoSame.add {state : ReadingState α} {first second : WordReading α}
    (same : DoSame state first second) (table : Variables α) (line other : Nat)
    (token : Token α) :
    DoSame state (first.add calculate table line token)
      (second.add calculate table other token) where
  onto := by rw [WordReading.onto_add, WordReading.onto_add, same.onto]
  dwells := by
    rw [(first.add_given calculate table line token).1,
      (second.add_given calculate table other token).1, List.any_append, List.any_append,
      same.dwells]
  numbers letter notFeed notSpindle := by
    rw [(first.add_given calculate table line token).2,
      (second.add_given calculate table other token).2, Parameters.get?_insertAll,
      Parameters.get?_insertAll, same.numbers letter notFeed notSpindle]

/-- A word that leaves the state as it is and says nothing but a feed or a spindle speed, or
a code other than a dwell, can be left out. -/
theorem DoSame.skip {state : ReadingState α} {first second : WordReading α}
    (same : DoSame state first second) (table : Variables α) (line : Nat) (token : Token α)
    (idle : actOf (token.given calculate table) (first.onto state) = first.onto state)
    (noDwell : Code.g 4 ∉ (token.given calculate table).1)
    (noNumber : ∀ entry ∈ (token.given calculate table).2, entry.1 = 'F' ∨ entry.1 = 'S') :
    DoSame state (first.add calculate table line token) second where
  onto := by rw [WordReading.onto_add, idle, same.onto]
  dwells := by
    have quiet : (token.given calculate table).1.any (· == Code.g 4) = false :=
      List.any_eq_false.mpr fun code member isDwell => noDwell (beq_iff_eq.mp isDwell ▸ member)
    rw [(first.add_given calculate table line token).1, List.any_append, quiet, Bool.or_false,
      same.dwells]
  numbers letter notFeed notSpindle := by
    have unsaid : (token.given calculate table).2.reverse.lookup letter = none := by
      refine lookup_reverse_eq_none fun entry member isLetter => ?_
      rcases noNumber entry member with isFeed | isSpindle
      · exact notFeed (isLetter.symm.trans isFeed)
      · exact notSpindle (isLetter.symm.trans isSpindle)
    rw [(first.add_given calculate table line token).2, Parameters.get?_insertAll, unsaid,
      Option.none_or, same.numbers letter notFeed notSpindle]

/-- More words on both sides leave words that do the same. -/
theorem DoSame.foldl_add {state : ReadingState α} {first second : WordReading α}
    (same : DoSame state first second) (table : Variables α) (line other : Nat)
    (tokens : List (Token α)) :
    DoSame state (tokens.foldl (WordReading.add calculate table line) first)
      (tokens.foldl (WordReading.add calculate table other) second) := by
  induction tokens generalizing first second with
  | nil => exact same
  | cons token rest ih => exact ih (same.add calculate table line other token)

end Words

section Moves

variable {state : ReadingState α} {first second : Parameters α}

/-- Numbers that are the same but for feed and spindle speed lead to the same place, and to
the same point but for the feed of a rapid move. -/
theorem moveTo_followed (same : ∀ letter, letter ≠ 'F' → letter ≠ 'S' →
      first.get? letter = second.get? letter)
    (line other : Nat) (comment otherComment : Option String) (state : ReadingState α) :
    (moveTo line first comment state).1 = (moveTo other second otherComment state).1 ∧
      (moveTo line first comment state).2.1.map MotionPoint.followed =
        (moveTo other second otherComment state).2.1.map MotionPoint.followed := by
  have position : targetPosition state first = targetPosition state second := by
    simp only [targetPosition, same 'X' (by decide) (by decide),
      same 'Y' (by decide) (by decide), same 'Z' (by decide) (by decide)]
  have rotary : targetRotary state first = targetRotary state second := by
    simp only [targetRotary, same 'A' (by decide) (by decide)]
  have arc (rotation : Rotation) : arcOf rotation first = arcOf rotation second := by
    simp only [arcOf, same 'I' (by decide) (by decide), same 'J' (by decide) (by decide),
      same 'K' (by decide) (by decide), same 'R' (by decide) (by decide)]
  have motion : motionOf? state first = motionOf? state second := by
    simp only [motionOf?, arc, same 'R' (by decide) (by decide),
      same 'P' (by decide) (by decide), same 'Q' (by decide) (by decide)]
  simp only [moveTo, position, rotary, motion]
  cases motionOf? state second with
  | none => exact ⟨rfl, rfl⟩
  | some found =>
      obtain ⟨motion, retract⟩ := found
      refine ⟨rfl, ?_⟩
      cases cuts : motion.isCutting <;>
        simp [MotionPoint.followed, MotionPoint.unplaced, MotionPoint.isCutting, cuts]

/-- Words that do the same lead to the same state and to the same point, but for the feed of
a rapid move. -/
theorem DoSame.obey {state : ReadingState α} {first second : WordReading α}
    (same : DoSame state first second) (line other : Nat)
    (comment otherComment : Option String) :
    (obey line comment first.codes first.parameters state).2 =
        (obey other otherComment second.codes second.parameters state).2 ∧
      (obey line comment first.codes first.parameters state).1.map MotionPoint.followed =
        (obey other otherComment second.codes second.parameters state).1.map
          MotionPoint.followed := by
  have prepared : state.prepared line first.codes first.parameters =
      state.prepared other second.codes second.parameters := by
    have onto := same.onto
    unfold WordReading.onto at onto
    rw [ReadingState.prepared, ReadingState.prepared, onto,
      same.numbers 'T' (by decide) (by decide), selectTool_line line other]
  have moves : ['X', 'Y', 'Z', 'A'].any first.parameters.has =
      ['X', 'Y', 'Z', 'A'].any second.parameters.has := by
    have has (letter : Char) (notFeed : letter ≠ 'F') (notSpindle : letter ≠ 'S') :
        first.parameters.has letter = second.parameters.has letter := by
      rw [Parameters.has, same.numbers letter notFeed notSpindle, Parameters.has]
    simp only [List.any_cons, List.any_nil, has 'X' (by decide) (by decide),
      has 'Y' (by decide) (by decide), has 'Z' (by decide) (by decide),
      has 'A' (by decide) (by decide)]
  unfold Program.obey
  rw [same.dwells, moves, prepared]
  dsimp only
  split
  · refine ⟨rfl, ?_⟩
    simp [dwellFor, MotionPoint.followed, MotionPoint.unplaced,
      same.numbers 'P' (by decide) (by decide)]
  · split
    · exact moveTo_followed same.numbers line other comment otherComment _
    · exact ⟨rfl, rfl⟩

/-- After a line the codes, the feed and the spindle speed of its words are in force. -/
theorem obey_onto (line : Nat) (comment : Option String) (words : WordReading α)
    (state : ReadingState α) :
    let next := (obey line comment words.codes words.parameters state).2
    next.modal = (words.onto state).modal ∧ next.feed = (words.onto state).feed ∧
      next.spindle = (words.onto state).spindle := by
  have tooled (word : Option α) (before : ReadingState α) :
      (selectTool line word before).1.modal = before.modal ∧
        (selectTool line word before).1.feed = before.feed ∧
        (selectTool line word before).1.spindle = before.spindle := by
    unfold selectTool
    split
    · exact ⟨rfl, rfl, rfl⟩
    · split
      · exact ⟨rfl, rfl, rfl⟩
      · split <;> exact ⟨rfl, rfl, rfl⟩
  have moved (before : ReadingState α) :
      (moveTo line words.parameters comment before).1.modal = before.modal ∧
        (moveTo line words.parameters comment before).1.feed = before.feed ∧
        (moveTo line words.parameters comment before).1.spindle = before.spindle := by
    unfold moveTo
    dsimp only
    split <;> exact ⟨rfl, rfl, rfl⟩
  have prepared := tooled (words.parameters.get? 'T') (words.onto state)
  dsimp only
  unfold obey
  dsimp only
  split
  · exact prepared
  · split
    · obtain ⟨modal, feed, spindle⟩ := moved (state.prepared line words.codes words.parameters)
      exact ⟨modal.trans prepared.1, feed.trans prepared.2.1, spindle.trans prepared.2.2⟩
    · exact prepared

end Moves

end Program

end Milling
