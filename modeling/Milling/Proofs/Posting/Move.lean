import Milling.Proofs.Posting.Number
import Milling.Proofs.Posting.Passage
import Milling.Proofs.Program.Snapshot

/-!
# Lines that move the tool

A line of a motion code, numbered letters and perhaps a feed leads the reading
along its axis words in that motion, whether compaction keeps the code and the
feed or not.
-/

namespace Milling.Posting

open Program (IsWord IsNote Gathers Parameters ReadingState noted)

variable {α : Type}

section Entries

/-- A letter that may or may not have a number. -/
def entry (letter : Char) (value : Option α) : List (Char × α) :=
  (value.map (Prod.mk letter)).toList

@[simp] theorem reverse_entry (letter : Char) (value : Option α) :
    (entry letter value).reverse = entry letter value := by
  cases value <;> rfl

@[simp] theorem lookup_entry (letter wanted : Char) (value : Option α) :
    (entry letter value).lookup wanted = if wanted = letter then value else none := by
  cases value with
  | none => simp [entry]
  | some number => exact Entries.lookup_cons letter wanted number []

variable [Scalar α]

def Dialect.entryWords (dialect : Dialect) (entries : List (Char × α)) : List Line :=
  entries.map fun entry => dialect.word entry.1 entry.2

/-- Numbered letters as they are read back. -/
def Dialect.roundedEntries (dialect : Dialect) (entries : List (Char × α)) :
    List (Char × α) :=
  entries.map fun entry => (entry.1, dialect.rounded entry.2)

@[simp] theorem roundedEntries_entry (dialect : Dialect) (letter : Char)
    (value : Option α) :
    dialect.roundedEntries (entry letter value) = entry letter (value.map dialect.rounded) := by
  cases value <;> rfl

theorem entryWords_append (dialect : Dialect) (first second : List (Char × α)) :
    dialect.entryWords (first ++ second) =
      dialect.entryWords first ++ dialect.entryWords second :=
  List.map_append

theorem entryWords_entry (dialect : Dialect) (letter : Char) (value : Option α) :
    dialect.entryWords (entry letter value) = (value.map (dialect.word letter)).toList := by
  cases value <;> rfl

@[simp] theorem roundedEntries_append (dialect : Dialect) (first second : List (Char × α)) :
    dialect.roundedEntries (first ++ second) =
      dialect.roundedEntries first ++ dialect.roundedEntries second :=
  List.map_append

/-- Parameter letters that compaction does not look at. -/
def plainLetters : List Char := ['X', 'Y', 'Z', 'A', 'I', 'J', 'K', 'R', 'P', 'Q']

/-- Numbered letters that pass compaction and are read as they are rounded. -/
def PlainEntries (entries : List (Char × α)) : Prop :=
  ∀ entry ∈ entries, entry.1 ∈ plainLetters ∧ Scalar.isFinite entry.2 = true

theorem plainLetter_facts {letter : Char} (plain : letter ∈ plainLetters) :
    letter.isUpper = true ∧ letter ∈ Program.parameterLetters ∧
      letter ≠ 'G' ∧ letter ≠ 'F' ∧ letter ≠ 'S' ∧ letter ≠ 'T' := by
  simp only [plainLetters, List.mem_cons, List.not_mem_nil, or_false] at plain
  rcases plain with rfl | rfl | rfl | rfl | rfl | rfl | rfl | rfl | rfl | rfl <;> decide

namespace PlainEntries

variable {entries : List (Char × α)}

theorem nil : PlainEntries ([] : List (Char × α)) := by
  simp [PlainEntries]

theorem append {first second : List (Char × α)} (front : PlainEntries first)
    (back : PlainEntries second) : PlainEntries (first ++ second) := by
  intro entry member
  rcases List.mem_append.mp member with inFirst | inSecond
  · exact front entry inFirst
  · exact back entry inSecond

theorem entry {letter : Char} {value : Option α} (plain : letter ∈ plainLetters)
    (finite : ∀ number ∈ value, Scalar.isFinite number = true) :
    PlainEntries (Posting.entry letter value) := by
  intro written member
  obtain ⟨number, isNumber, rfl⟩ :=
    Option.map_eq_some_iff.mp (Option.mem_toList.mp member)
  exact ⟨plain, finite number isNumber⟩

theorem isWord (plain : PlainEntries entries) (dialect : Dialect) :
    ∀ word ∈ dialect.entryWords entries, IsWord word := by
  intro word member
  obtain ⟨entry, entryMember, rfl⟩ := List.mem_map.mp member
  have facts := plain entry entryMember
  exact dialect.isWord_word (plainLetter_facts facts.1).1 facts.2

theorem keepWords (plain : PlainEntries entries) (dialect : Dialect) (inForce : InForce) :
    keepWords inForce (dialect.entryWords entries) =
      (inForce, dialect.entryWords entries) := by
  apply keepWords_others
  intro word member
  obtain ⟨entry, entryMember, rfl⟩ := List.mem_map.mp member
  have facts := plainLetter_facts (plain entry entryMember).1
  exact ⟨entry.1, dialect.numberText entry.2, rfl, facts.1, facts.2.2.1, facts.2.2.2.1,
    facts.2.2.2.2.1⟩

theorem gathers [DecimalScalar α] (plain : PlainEntries entries) (dialect : Dialect) :
    Gathers (dialect.entryWords entries) [] (dialect.roundedEntries entries) := by
  induction entries with
  | nil => exact .nil
  | cons entry entries ih =>
      have facts := plain entry List.mem_cons_self
      have tail := ih fun other member => plain other (List.mem_cons_of_mem entry member)
      exact .parameter (plainLetter_facts facts.1).2.1
        (dialect.numberValue_numberText facts.2) tail

theorem lookup_none (plain : PlainEntries entries) (dialect : Dialect) {wanted : Char}
    (other : wanted ∉ plainLetters) :
    (dialect.roundedEntries entries).reverse.lookup wanted = none := by
  rw [List.lookup_eq_none_iff]
  intro entry member
  obtain ⟨original, originalMember, rfl⟩ := List.mem_map.mp (List.mem_reverse.mp member)
  simp only [bne_iff_ne]
  rintro rfl
  exact other (plain original originalMember).1

end PlainEntries

end Entries

section Codes

/-- A word that puts a motion in force. -/
structure IsMotionWord (word : Line) (motion : Nat) : Prop where
  group : motion ≤ 3 ∨ (80 ≤ motion ∧ motion ≤ 89)
  isMotion : motionCode? word = some motion
  plain : IsWord word
  shape : ∃ digits, word = 'G' :: digits ∧
    (Decimal.Numeral.read? digits).isSome = true ∧
    Program.Code.read? 'G' digits = some (Program.Code.g motion)

namespace IsMotionWord

variable {word : Line} {motion : Nat}

theorem apply (isMotionWord : IsMotionWord word motion) (modal : Program.ModalState) :
    modal.apply (Program.Code.g motion) = { modal with motion } := by
  have group : Program.ModalGroup.of? (Program.Code.g motion) = some .motion := by
    simp [Program.ModalGroup.of?, Program.Code.g, Program.ModalGroup.ofG?,
      isMotionWord.group]
  exact Program.ModalState.apply_of_filed group modal

theorem keepWords (isMotionWord : IsMotionWord word motion) (inForce : InForce) :
    keepWords inForce [word] =
      ({ inForce with motion := some motion }, (keepWord inForce word).2.toList) := by
  rw [keepWords_cons, keepWord_motion isMotionWord.isMotion]
  simp [Posting.keepWords]

/-- Kept or not, the word leaves its motion in force for the reading. -/
theorem gathers [Scalar α] (isMotionWord : IsMotionWord word motion) {inForce : InForce}
    {modal : Program.ModalState} (agrees : inForce.motion = some modal.motion) :
    ∃ codes, Gathers (α := α) (keepWord inForce word).2.toList codes [] ∧
      codes.foldl Program.ModalState.apply modal = { modal with motion } ∧
      codes.any (· == Program.Code.g 4) = false := by
  rw [keepWord_motion isMotionWord.isMotion]
  by_cases same : inForce.motion = some motion
  · refine ⟨[], ?_, ?_, rfl⟩
    · simpa [same] using Gathers.nil
    · rw [agrees, Option.some.injEq] at same
      rw [List.foldl_nil, ← same]
  · obtain ⟨digits, rfl, decimal, code⟩ := isMotionWord.shape
    refine ⟨[Program.Code.g motion], ?_, ?_, ?_⟩
    · simpa [same] using Gathers.numbered (.inl rfl) decimal code .nil
    · exact isMotionWord.apply modal
    · have group := isMotionWord.group
      have other : motion ≠ 4 := by omega
      simp [Program.Code.g, other]

end IsMotionWord

theorem isMotionWord_rapid : IsMotionWord "G0".toList 0 :=
  ⟨by decide, by decide, by decide, ⟨['0'], rfl, by decide, by decide⟩⟩

theorem isMotionWord_linear : IsMotionWord "G1".toList 1 :=
  ⟨by decide, by decide, by decide, ⟨['1'], rfl, by decide, by decide⟩⟩

theorem isMotionWord_clockwise : IsMotionWord "G2".toList 2 :=
  ⟨by decide, by decide, by decide, ⟨['2'], rfl, by decide, by decide⟩⟩

theorem isMotionWord_counterclockwise : IsMotionWord "G3".toList 3 :=
  ⟨by decide, by decide, by decide, ⟨['3'], rfl, by decide, by decide⟩⟩

theorem isMotionWord_cancel : IsMotionWord "G80".toList 80 :=
  ⟨by decide, by decide, by decide, ⟨['8', '0'], rfl, by decide, by decide⟩⟩

theorem isMotionWord_drill : IsMotionWord "G81".toList 81 :=
  ⟨by decide, by decide, by decide, ⟨['8', '1'], rfl, by decide, by decide⟩⟩

end Codes

section Feed

variable [Scalar α] [DecimalScalar α]

/-- The feed that compaction keeps of a feed word. -/
def keptFeed (dialect : Dialect) (inForce : InForce) (feed : Option α) : Option α :=
  feed.bind fun value =>
    if inForce.feed = some (dialect.numberText value) then none
    else some (dialect.rounded value)

theorem keepWords_feed (dialect : Dialect) (inForce : InForce) {feed : Option α}
    (finite : ∀ value ∈ feed, Scalar.isFinite value = true) :
    (keepWords inForce (dialect.entryWords (entry 'F' feed))).1 =
        { inForce with feed := (feed.map dialect.numberText).or inForce.feed } ∧
      Gathers (keepWords inForce (dialect.entryWords (entry 'F' feed))).2 []
        (entry 'F' (keptFeed dialect inForce feed)) := by
  cases feed with
  | none => exact ⟨rfl, .nil⟩
  | some value =>
      have kept : keepWords inForce (dialect.entryWords (entry 'F' (some value))) =
          ((keepWord inForce ('F' :: dialect.numberText value)).1,
            (keepWord inForce ('F' :: dialect.numberText value)).2.toList) := by
        rw [entryWords_entry]
        simp [keepWords, Dialect.word]
      rw [kept, keepWord_feed]
      refine ⟨rfl, ?_⟩
      by_cases same : inForce.feed = some (dialect.numberText value)
      · simpa [same, keptFeed, entry] using Gathers.nil
      · have word : Gathers ['F' :: dialect.numberText value] []
            [('F', dialect.rounded value)] :=
          .parameter (by decide) (dialect.numberValue_numberText (finite value rfl)) .nil
        simpa [same, keptFeed, entry] using word

end Feed

section Move

variable [Scalar α] {calculate : String → Except String α}

/-- The state that a line of a motion reads its moves in. -/
def inMotion (dialect : Dialect) (state : ReadingState α) (motion : Nat)
    (feed : Option α) : ReadingState α :=
  { state with
    modal := { state.modal with motion }
    feed := (feed.map dialect.rounded).or state.feed }

variable {dialect : Dialect} {word : Line} {motion : Nat} {entries : List (Char × α)}
  {feed : Option α}

theorem isWord_moveWords (isMotionWord : IsMotionWord word motion) (plain : PlainEntries entries)
    (finite : ∀ value ∈ feed, Scalar.isFinite value = true) :
    ∀ other ∈ word :: (dialect.entryWords entries ++ dialect.entryWords (entry 'F' feed)),
      IsWord other := by
  intro other member
  rcases List.mem_cons.mp member with rfl | inEntries
  · exact isMotionWord.plain
  · rcases List.mem_append.mp inEntries with inEntries | inFeed
    · exact plain.isWord dialect other inEntries
    · rw [entryWords_entry, Option.mem_toList] at inFeed
      obtain ⟨value, isValue, rfl⟩ := Option.map_eq_some_iff.mp inFeed
      exact dialect.isWord_word (by decide) (finite value isValue)

/-- What compaction keeps of a line that moves the tool, and what is in force after it. -/
theorem keepWords_moveWords [DecimalScalar α] (dialect : Dialect)
    (isMotionWord : IsMotionWord word motion)
    (plain : PlainEntries entries) (finite : ∀ value ∈ feed, Scalar.isFinite value = true)
    (inForce : InForce) :
    keepWords inForce
        (word :: (dialect.entryWords entries ++ dialect.entryWords (entry 'F' feed))) =
      ({ inForce with
          motion := some motion
          feed := (feed.map dialect.numberText).or inForce.feed },
        (keepWord inForce word).2.toList ++ (dialect.entryWords entries ++
          (keepWords { inForce with motion := some motion }
            (dialect.entryWords (entry 'F' feed))).2)) := by
  have motionKept : keepWord inForce word =
      ({ inForce with motion := some motion }, (keepWord inForce word).2) := by
    rw [keepWord_motion isMotionWord.isMotion]
  have feedForce := (keepWords_feed dialect { inForce with motion := some motion } finite).1
  rw [keepWords_cons, motionKept, keepWords_append, plain.keepWords]
  exact Prod.ext feedForce rfl

/-- The parameters that a line of numbered letters and a feed gives. -/
def moveParameters (dialect : Dialect) (entries : List (Char × α)) (kept : Option α) :
    Parameters α :=
  Parameters.insertAll {} (dialect.roundedEntries entries ++ entry 'F' kept)

theorem get?_moveParameters (dialect : Dialect) (entries : List (Char × α)) (kept : Option α)
    (wanted : Char) :
    (moveParameters dialect entries kept).get? wanted =
      ((entry 'F' kept).lookup wanted).or
        ((dialect.roundedEntries entries).reverse.lookup wanted) := by
  simp [moveParameters, Parameters.get?_insertAll, List.lookup_append]

theorem get?_moveParameters_plain (entries : List (Char × α)) (kept : Option α) {wanted : Char}
    (isPlain : wanted ∈ plainLetters) :
    (moveParameters dialect entries kept).get? wanted =
      (dialect.roundedEntries entries).reverse.lookup wanted := by
  have notFeed := (plainLetter_facts isPlain).2.2.2.1
  simp [get?_moveParameters, notFeed]

theorem get?_moveParameters_other (plain : PlainEntries entries) (kept : Option α)
    {wanted : Char} (other : wanted ∉ plainLetters) :
    (moveParameters dialect entries kept).get? wanted = (entry 'F' kept).lookup wanted := by
  rw [get?_moveParameters, plain.lookup_none dialect other, Option.or_none]

/-- A feed that compaction leaves out is the one that is read already. -/
theorem keptFeed_or {inForce : InForce} {read : Option α}
    (agrees : ∀ value ∈ feed, inForce.feed = some (dialect.numberText value) →
      read = some (dialect.rounded value)) :
    (keptFeed dialect inForce feed).or read = (feed.map dialect.rounded).or read := by
  cases feed with
  | none => rfl
  | some value =>
      by_cases same : inForce.feed = some (dialect.numberText value)
      · simp [keptFeed, same, agrees value rfl same]
      · simp [keptFeed, same]

theorem hasAxis_moveParameters (dialect : Dialect) (plain : PlainEntries entries)
    (axis : ∃ entry ∈ entries, entry.1 ∈ ['X', 'Y', 'Z', 'A']) (kept : Option α) :
    ['X', 'Y', 'Z', 'A'].any (moveParameters dialect entries kept).has = true := by
  obtain ⟨written, isWritten, isAxis⟩ := axis
  refine List.any_eq_true.mpr ⟨written.1, isAxis, ?_⟩
  rw [Parameters.has, get?_moveParameters_plain entries kept (plain written isWritten).1,
    Option.isSome_iff_ne_none]
  intro absent
  rw [List.lookup_eq_none_iff] at absent
  have different := absent (written.1, dialect.rounded written.2)
    (List.mem_reverse.mpr (List.mem_map.mpr ⟨written, isWritten, rfl⟩))
  simp at different

theorem obey_moveParameters {inForce : InForce} {state : ReadingState α}
    (plain : PlainEntries entries) (axis : ∃ entry ∈ entries, entry.1 ∈ ['X', 'Y', 'Z', 'A'])
    (feedAgrees : ∀ value ∈ feed, inForce.feed = some (dialect.numberText value) →
      state.feed = some (dialect.rounded value))
    {codes : List Program.Code}
    (modal : codes.foldl Program.ModalState.apply state.modal = { state.modal with motion })
    (noDwell : codes.any (· == Program.Code.g 4) = false) (line : Nat)
    (comment : Option String) :
    Program.obey line comment codes
        (moveParameters dialect entries (keptFeed dialect inForce feed)) state =
      ((Program.moveTo line (moveParameters dialect entries (keptFeed dialect inForce feed))
          comment (inMotion dialect state motion feed)).2.1,
        (Program.moveTo line (moveParameters dialect entries (keptFeed dialect inForce feed))
          comment (inMotion dialect state motion feed)).1) := by
  let parameters := moveParameters dialect entries (keptFeed dialect inForce feed)
  have feedRead : (parameters.get? 'F').or state.feed =
      (feed.map dialect.rounded).or state.feed := by
    rw [get?_moveParameters_other plain _ (by decide : 'F' ∉ plainLetters), lookup_entry,
      if_pos rfl, keptFeed_or feedAgrees]
  have noSpindle : parameters.get? 'S' = none := by
    simp [parameters, get?_moveParameters_other plain _ (by decide : 'S' ∉ plainLetters)]
  have noTool : parameters.get? 'T' = none := by
    simp [parameters, get?_moveParameters_other plain _ (by decide : 'T' ∉ plainLetters)]
  have prepared : state.prepared line codes parameters = inMotion dialect state motion feed := by
    simp [ReadingState.prepared, noTool, noSpindle, feedRead, modal, Program.selectTool, inMotion]
  have hasAxis := hasAxis_moveParameters dialect plain axis
    (keptFeed dialect inForce feed)
  simp [Program.obey, noDwell, hasAxis, prepared, parameters]

theorem Passes.move [DecimalScalar α] (dialect : Dialect) {stage : Stage α} {word : Line} {motion : Nat}
    (isMotionWord : IsMotionWord word motion)
    (agrees : stage.inForce.motion = some stage.reading.modal.motion)
    {entries : List (Char × α)} (plain : PlainEntries entries)
    (axis : ∃ entry ∈ entries, entry.1 ∈ ['X', 'Y', 'Z', 'A'])
    {feed : Option α} (finite : ∀ value ∈ feed, Scalar.isFinite value = true)
    (feedAgrees : ∀ value ∈ feed,
      stage.inForce.feed = some (dialect.numberText value) →
        stage.reading.feed = some (dialect.rounded value))
    {note : Option Line} (isNote : ∀ remark ∈ note, IsNote remark)
    (oneLine : ∀ remark ∈ note, '\n' ∉ remark)
    {next : ReadingState α} {given : List (MotionPoint α) → Prop}
    (moved : ∀ line comment (parameters : Parameters α),
      (∀ wanted ∈ plainLetters, parameters.get? wanted =
        (dialect.roundedEntries entries).reverse.lookup wanted) →
      (Program.moveTo line parameters comment
          (inMotion dialect stage.reading motion feed)).1 = next ∧
        given (Program.moveTo line parameters comment
          (inMotion dialect stage.reading motion feed)).2.1.toList) :
    Passes calculate
      [noted (word :: (dialect.entryWords entries ++ dialect.entryWords (entry 'F' feed)))
        note]
      stage
      { inForce := { stage.inForce with
          motion := some motion
          feed := (feed.map dialect.numberText).or stage.inForce.feed }
        reading := next } given := by
  obtain ⟨inForce, state⟩ := stage
  dsimp only at agrees feedAgrees moved ⊢
  have kept := keepWords_moveWords dialect isMotionWord plain finite inForce
  obtain ⟨codes, codeGathers, modal, noDwell⟩ := isMotionWord.gathers (α := α) agrees
  have feedGathers := (keepWords_feed dialect { inForce with motion := some motion } finite).2
  have gathers : Gathers
      (keepWords inForce
        (word :: (dialect.entryWords entries ++ dialect.entryWords (entry 'F' feed)))).2 codes
      (dialect.roundedEntries entries ++ entry 'F' (keptFeed dialect inForce feed)) := by
    have allGathers := codeGathers.append ((plain.gathers dialect).append feedGathers)
    simp only [List.nil_append, List.append_nil] at allGathers
    rw [kept]
    exact allGathers
  have noteKept : (keepWords inForce
      (word :: (dialect.entryWords entries ++ dialect.entryWords (entry 'F' feed)))).2 = [] →
        note = none := by
    rw [kept]
    intro empty
    obtain ⟨written, writtenMember, _⟩ := axis
    simp only [List.append_eq_nil_iff] at empty
    have noWords := empty.2.1
    rw [Dialect.entryWords, List.map_eq_nil_iff] at noWords
    simp [noWords] at writtenMember
  have reads : ∀ line comment,
      (Program.obey line comment codes
          (moveParameters dialect entries (keptFeed dialect inForce feed)) state).2 = next ∧
        given (Program.obey line comment codes
          (moveParameters dialect entries (keptFeed dialect inForce feed)) state).1.toList := by
    intro line comment
    rw [obey_moveParameters plain axis feedAgrees modal noDwell line comment]
    exact moved line comment _ fun wanted isPlain => get?_moveParameters_plain entries _ isPlain
  have passes : Passes calculate _ _ _ given :=
    Passes.words (List.cons_ne_nil word _) (isWord_moveWords isMotionWord plain finite) isNote
      oneLine noteKept gathers reads
  rw [kept] at passes
  exact passes

end Move

end Milling.Posting
