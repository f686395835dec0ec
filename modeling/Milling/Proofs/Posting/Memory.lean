import Mathlib
import Milling.Proofs.Posting.Compaction
import Milling.Proofs.Program.Redundancy
import Milling.Proofs.Program.Snapshot

/-!
# What compaction remembers

Compaction remembers the last motion code, feed and spindle speed.  Where these
are in force, a word that repeats one of them does nothing, so that the words
that stay do what all of them do.
-/

namespace Milling.Posting

open Program (Code ModalGroup ModalState ReadingState WordReading Variables DoSame actOf
  capitalized tokenOf)

variable {α : Type}

section Words

/-- A code without a point is read where compaction finds its number. -/
theorem read?_eq_g_iff {number : Line} {code : Nat} :
    Code.read? 'G' number = some (Code.g code) ↔
      Decimal.boundedNatural? Code.greatest number = some code := by
  have upper : Char.toUpper 'G' = 'G' := by decide
  constructor
  · intro read
    simp only [Code.read?, upper] at read
    rw [if_neg (by decide)] at read
    obtain ⟨major, isMajor, rest⟩ := Option.bind_eq_some_iff.mp read
    cases dropped : number.dropWhile (· != '.') with
    | nil =>
        have whole := List.takeWhile_append_dropWhile (p := (· != '.')) (l := number)
        rw [dropped, List.append_nil] at whole
        rw [dropped] at rest
        rw [whole] at isMajor
        have same : major = code := congrArg Code.major (Option.some.inj rest)
        rw [isMajor, same]
    | cons point fraction =>
        rw [dropped] at rest
        obtain ⟨minor, _, isCode⟩ := Option.bind_eq_some_iff.mp rest
        cases congrArg Code.minor (Option.some.inj isCode)
  · intro read
    have noPoint : ∀ character ∈ number, (character != '.') = true := by
      intro character inside
      rw [bne_iff_ne]
      rintro rfl
      exact (Decimal.isSome_read?_of_boundedNatural? read).2 inside
    simp [Code.read?, upper, List.takeWhile_eq_self_iff.mpr noPoint,
      List.dropWhile_eq_nil_iff.mpr noPoint, read, Code.g]

theorem read?_letter {letter : Char} {number : Line} {code : Code}
    (read : Code.read? letter number = some code) : code.letter = letter.toUpper := by
  simp only [Code.read?] at read
  split at read
  · cases read
  · obtain ⟨major, _, rest⟩ := Option.bind_eq_some_iff.mp read
    split at rest
    · exact (congrArg Code.letter (Option.some.inj rest)).symm
    · obtain ⟨minor, _, isCode⟩ := Option.bind_eq_some_iff.mp rest
      exact (congrArg Code.letter (Option.some.inj isCode)).symm

theorem motionCode?_eq_some_iff {word : Line} {code : Nat} :
    motionCode? word = some code ↔
      ∃ number, afterLetter? 'G' word = some number ∧
        Code.read? 'G' number = some (Code.g code) ∧ Code.g code ∈ ModalGroup.motion.members := by
  have isMotion : (code ≤ 3 ∨ (80 ≤ code ∧ code ≤ 89)) ↔
      Code.g code ∈ ModalGroup.motion.members := by
    simp only [ModalGroup.members, List.map_cons, List.map_nil, List.mem_cons, Code.g,
      Code.mk.injEq, List.not_mem_nil, true_and, and_true, or_false]
    omega
  simp only [motionCode?, Option.bind_eq_bind, Option.bind_eq_some_iff, read?_eq_g_iff]
  constructor
  · rintro ⟨number, follows, read, isRead, filed⟩
    split at filed
    · rename_i range
      obtain rfl := Option.some.inj filed
      exact ⟨number, follows, isRead, isMotion.mp range⟩
    · cases filed
  · rintro ⟨number, follows, isRead, member⟩
    exact ⟨number, follows, code, isRead, if_pos (isMotion.mpr member)⟩

theorem notMem_motion {word : Line} (noMotion : motionCode? word = none) {letter : Char}
    (group : letter = 'G' ∨ letter = 'M') {number : Line}
    (follows : afterLetter? letter word = some number) {code : Code}
    (read : Code.read? letter number = some code) : code ∉ ModalGroup.motion.members := by
  intro member
  have isG : code = Code.g code.major := by
    have whole : ∀ code ∈ ModalGroup.motion.members, code = Code.g code.major := by decide
    exact whole code member
  rcases group with rfl | rfl
  · rw [isG] at read member
    exact absurd (motionCode?_eq_some_iff.mpr ⟨number, follows, read, member⟩) (by simp [noMotion])
  · have isM := read?_letter read
    rw [isG] at isM
    cases isM

variable [Scalar α]

/-- The number that a text says. -/
def said? (text : Line) : Option α :=
  match Program.numberValue text with
  | .number value => some value
  | _ => none

/-- What compaction remembers is in force. -/
structure InForce.Holds (inForce : InForce) (state : ReadingState α) : Prop where
  motion : ∀ code ∈ inForce.motion, state.modal.motion = code
  feed : ∀ text ∈ inForce.feed, ∀ value ∈ said? text, state.feed = some value
  spindle : ∀ text ∈ inForce.spindle, ∀ value ∈ said? text, state.spindle = some value

variable (calculate : String → Except String α) (table : Variables α)

theorem given_parameter {letter : Char} (known : letter ∈ Program.parameterLetters)
    {word text : Line} (follows : afterLetter? letter word = some text) :
    (tokenOf (capitalized word)).given calculate table =
      ([], (said? text).toList.map (letter, ·)) := by
  have noCode : ¬(letter = 'G' ∨ letter = 'M') := by
    rintro (rfl | rfl) <;> exact absurd known (by decide)
  have resolved : (Program.resolve calculate table 0 letter (Program.numberValue text)).1 =
      said? text := by
    unfold said? Program.numberValue
    cases Decimal.Numeral.read? text <;> rfl
  obtain ⟨first, rfl, isLetter⟩ := afterLetter?_eq_some_iff.mp follows
  simp only [capitalized, tokenOf, Program.Token.given, isLetter, if_neg noCode, if_pos known,
    resolved]

theorem given_motion {word : Line} {code : Nat} (isMotion : motionCode? word = some code) :
    (tokenOf (capitalized word)).given calculate table = ([Code.g code], []) := by
  obtain ⟨number, follows, read, _⟩ := motionCode?_eq_some_iff.mp isMotion
  obtain ⟨numeral, isNumeral⟩ := Option.isSome_iff_exists.mp
    (Decimal.isSome_read?_of_boundedNatural? (read?_eq_g_iff.mp read)).1
  obtain ⟨first, rfl, isLetter⟩ := afterLetter?_eq_some_iff.mp follows
  simp [capitalized, tokenOf, Program.Token.given, isLetter, Program.numberValue, isNumeral, read]

theorem given_other {word : Line} (noMotion : motionCode? word = none)
    (noFeed : afterLetter? 'F' word = none) (noSpindle : afterLetter? 'S' word = none) :
    (∀ code ∈ ((tokenOf (capitalized word)).given calculate table).1,
        code ∉ ModalGroup.motion.members) ∧
      ∀ entry ∈ ((tokenOf (capitalized word)).given calculate table).2,
        entry.1 ≠ 'F' ∧ entry.1 ≠ 'S' := by
  cases word with
  | nil => simp [capitalized, tokenOf, Program.Token.given]
  | cons first rest =>
      have letters : first.toUpper ≠ 'F' ∧ first.toUpper ≠ 'S' := by
        simpa [afterLetter?] using And.intro noFeed noSpindle
      simp only [capitalized, tokenOf, Program.Token.given, String.toList_ofList]
      split
      · rename_i group
        refine ⟨?_, ?_⟩
        · split
          · rename_i value code _ read
            intro other member
            obtain rfl := List.mem_singleton.mp member
            exact notMem_motion noMotion group (afterLetter?_eq_some_iff.mpr ⟨first, rfl, rfl⟩) read
          · simp
        · split <;> simp
      · split
        · simp [letters]
        · simp

/-- After a word is read what compaction remembers then is in force. -/
theorem InForce.Holds.actOf {inForce : InForce} {state : ReadingState α}
    (holds : inForce.Holds state) (word : Line) :
    (keepWord inForce word).1.Holds
      (actOf ((tokenOf (capitalized word)).given calculate table) state) := by
  rcases keepWord_cases inForce word with
    ⟨code, motion, _, _, kept⟩ | ⟨text, _, feed, _, kept⟩ | ⟨text, _, _, spindle, kept⟩ |
      ⟨noMotion, noFeed, noSpindle, kept⟩
  · obtain ⟨_, _, _, member⟩ := motionCode?_eq_some_iff.mp motion
    rw [kept, given_motion calculate table motion, Program.actOf_code]
    refine ⟨fun number isNumber => ?_, holds.feed, holds.spindle⟩
    have applied := ModalState.get_apply state.modal (Code.g code) .motion
    rw [if_pos member] at applied
    exact applied.trans (Option.some.inj isNumber)
  · rw [kept, given_parameter calculate table (by decide) feed, Program.actOf_feed]
    refine ⟨holds.motion, fun other isOther value isSaid => ?_, holds.spindle⟩
    obtain rfl := Option.some.inj isOther
    exact congrArg (Option.or · state.feed) isSaid
  · rw [kept, given_parameter calculate table (by decide) spindle, Program.actOf_spindle]
    refine ⟨holds.motion, holds.feed, fun other isOther value isSaid => ?_⟩
    obtain rfl := Option.some.inj isOther
    exact congrArg (Option.or · state.spindle) isSaid
  · obtain ⟨codes, entries⟩ := given_other calculate table noMotion noFeed noSpindle
    rw [kept, ← Prod.eta ((tokenOf (capitalized word)).given calculate table),
      Program.actOf_others entries]
    refine ⟨fun code isCode => ?_, holds.feed, holds.spindle⟩
    rw [← holds.motion code isCode]
    have unapplied := ModalState.get_foldl_apply
      ((tokenOf (capitalized word)).given calculate table).1 state.modal .motion
    rw [ModalGroup.lastNumber?, List.filter_eq_nil_iff.mpr (by simpa using codes)] at unapplied
    exact unapplied

omit [Scalar α] in
theorem or_of_forall_mem {said before : Option α} (holds : ∀ value ∈ said, before = some value) :
    said.or before = before := by
  cases said with
  | none => rfl
  | some value => exact (holds value rfl).symm

/-- A word that goes does nothing where what compaction remembers is in force. -/
theorem InForce.Holds.idle {inForce : InForce} {state : ReadingState α}
    (holds : inForce.Holds state) {word : Line} (gone : (keepWord inForce word).2 = none) :
    let given := (tokenOf (capitalized word)).given calculate table
    Program.actOf given state = state ∧ Code.g 4 ∉ given.1 ∧
      ∀ entry ∈ given.2, entry.1 = 'F' ∨ entry.1 = 'S' := by
  intro given
  rcases keepWord_cases inForce word with
    ⟨code, motion, _, _, kept⟩ | ⟨text, _, feed, _, kept⟩ | ⟨text, _, _, spindle, kept⟩ |
      ⟨_, _, _, kept⟩
  · have same : inForce.motion = some code := by simpa [kept] using gone
    obtain ⟨_, _, _, member⟩ := motionCode?_eq_some_iff.mp motion
    have isGiven : given = ([Code.g code], []) := given_motion calculate table motion
    have idle := ModalState.apply_of_inForce member (holds.motion code same)
    rw [isGiven, Program.actOf_code, idle]
    refine ⟨rfl, fun dwells => ?_, List.forall_mem_nil _⟩
    rw [← List.mem_singleton.mp dwells] at member
    exact absurd member (by decide)
  · have same : inForce.feed = some text := by simpa [kept] using gone
    have isGiven : given = ([], (said? text).toList.map ('F', ·)) :=
      given_parameter calculate table (by decide) feed
    rw [isGiven, Program.actOf_feed, or_of_forall_mem (holds.feed text same)]
    refine ⟨rfl, List.not_mem_nil, fun entry member => .inl ?_⟩
    obtain ⟨_, _, rfl⟩ := List.mem_map.mp member
    rfl
  · have same : inForce.spindle = some text := by simpa [kept] using gone
    have isGiven : given = ([], (said? text).toList.map ('S', ·)) :=
      given_parameter calculate table (by decide) spindle
    rw [isGiven, Program.actOf_spindle, or_of_forall_mem (holds.spindle text same)]
    refine ⟨rfl, List.not_mem_nil, fun entry member => .inr ?_⟩
    obtain ⟨_, _, rfl⟩ := List.mem_map.mp member
    rfl
  · rw [kept] at gone
    cases gone

/-- The words of a line gathered behind those that were read before. -/
def gather (line : Nat) (reading : WordReading α) (words : List Line) : WordReading α :=
  (words.map fun word => tokenOf (capitalized word)).foldl
    (WordReading.add calculate table line) reading

theorem gather_cons (line : Nat) (reading : WordReading α) (word : Line) (rest : List Line) :
    gather calculate table line reading (word :: rest) =
      gather calculate table line
        (reading.add calculate table line (tokenOf (capitalized word))) rest := rfl

theorem gather_append (line : Nat) (reading : WordReading α) (front back : List Line) :
    gather calculate table line reading (front ++ back) =
      gather calculate table line (gather calculate table line reading front) back := by
  simp [gather]

/-- Words do what is left of them does where what compaction remembers is in force, and
leave in force what it remembers then. -/
theorem gather_keepWords (words : List Line) (line other : Nat) {inForce : InForce}
    {state : ReadingState α} {first second : WordReading α} (same : DoSame state first second)
    (holds : inForce.Holds (first.onto state)) :
    DoSame state (gather calculate table line first words)
        (gather calculate table other second (keepWords inForce words).2) ∧
      (keepWords inForce words).1.Holds
        ((gather calculate table line first words).onto state) := by
  induction words generalizing inForce first second with
  | nil => exact ⟨same, holds⟩
  | cons word rest ih =>
      have next : (keepWord inForce word).1.Holds ((first.add calculate table line
          (tokenOf (capitalized word))).onto state) := by
        rw [WordReading.onto_add]
        exact holds.actOf calculate table word
      rw [keepWords_cons, gather_cons]
      rcases keepWord_goes_or_stays inForce word with gone | stays
      · obtain ⟨idle, noDwell, noNumber⟩ :=
          holds.idle calculate table (congrArg Prod.snd gone)
        rw [gone] at next ⊢
        exact ih (same.skip calculate table line _ idle noDwell noNumber) next
      · rw [stays]
        exact ih (same.add calculate table line other _) next

end Words

end Milling.Posting
