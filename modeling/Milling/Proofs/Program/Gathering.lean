import Milling.Program.Reading
import Milling.Proofs.Entries
import Milling.Proofs.Program.Token

/-!
# What the words of a line say

The words of a line are gathered into codes and numbered letters.  A letter
that is written twice has its last number, and the line does what its codes
and numbers say.
-/

namespace Milling.Program

variable {α : Type}

namespace Parameters

theorem insertEntry_eq (letter : Char) (value : α) (entries : List (Char × α)) :
    insertEntry letter value entries = Entries.insert letter value entries := by
  induction entries with
  | nil => rfl
  | cons entry rest ih => rw [insertEntry, Entries.insert, ih]

@[simp] theorem get?_empty (wanted : Char) :
    ({} : Parameters α).get? wanted = none := rfl

theorem get?_insert (parameters : Parameters α) (letter wanted : Char) (value : α) :
    (parameters.insert letter value).get? wanted =
      if wanted = letter then some value else parameters.get? wanted := by
  rw [get?, insert, insertEntry_eq, Entries.lookup_insert]
  rfl

/-- The parameters with the entries of a list put in one after the other. -/
def insertAll (parameters : Parameters α) (entries : List (Char × α)) : Parameters α :=
  entries.foldl (fun parameters entry => parameters.insert entry.1 entry.2) parameters

/-- Of entries with one letter the last one counts. -/
theorem get?_insertAll (parameters : Parameters α) (entries : List (Char × α))
    (wanted : Char) :
    (parameters.insertAll entries).get? wanted =
      (entries.reverse.lookup wanted).or (parameters.get? wanted) := by
  have entriesAfter : (parameters.insertAll entries).entries =
      entries.foldl (fun kept entry => Entries.insert entry.1 entry.2 kept)
        parameters.entries := by
    induction entries generalizing parameters with
    | nil => rfl
    | cons entry rest ih =>
        rw [insertAll, List.foldl_cons, ← insertAll, ih, List.foldl_cons, insert,
          insertEntry_eq]
  rw [get?, entriesAfter, Entries.lookup_foldl_insert]
  rfl

end Parameters

@[simp] theorem wholePath_points (points : List (MotionPoint α)) :
    (wholePath points).points = points := by
  unfold wholePath
  dsimp only
  split <;> rfl

variable [Scalar α]

/-- The codes and the numbers that words give, in the order of the words. -/
inductive Gathers : List (List Char) → List Code → List (Char × α) → Prop where
  | nil : Gathers [] [] []
  | code {letter : Char} {number : List Char} {code : Code} {value : α}
      {words : List (List Char)} {codes : List Code} {entries : List (Char × α)}
      (group : letter = 'G' ∨ letter = 'M')
      (numeric : numberValue number = WordValue.number value)
      (read : Code.read? letter number = some code) :
      Gathers words codes entries →
      Gathers ((letter :: number) :: words) (code :: codes) entries
  | parameter {letter : Char} {number : List Char} {value : α}
      {words : List (List Char)} {codes : List Code} {entries : List (Char × α)}
      (known : letter ∈ parameterLetters)
      (numeric : numberValue number = WordValue.number value) :
      Gathers words codes entries →
      Gathers ((letter :: number) :: words) codes ((letter, value) :: entries)
  | ignored {letter : Char} {number : List Char}
      {words : List (List Char)} {codes : List Code} {entries : List (Char × α)}
      (noCode : letter ≠ 'G' ∧ letter ≠ 'M') (unknown : letter ∉ parameterLetters) :
      Gathers words codes entries →
      Gathers ((letter :: number) :: words) codes entries

theorem Gathers.numbered {letter : Char} {number : List Char} {code : Code}
    {words : List (List Char)} {codes : List Code} {entries : List (Char × α)}
    (group : letter = 'G' ∨ letter = 'M')
    (decimal : (Decimal.Numeral.read? number).isSome = true)
    (read : Code.read? letter number = some code)
    (rest : Gathers words codes entries) :
    Gathers ((letter :: number) :: words) (code :: codes) entries := by
  obtain ⟨numeral, isNumeral⟩ := Option.isSome_iff_exists.mp decimal
  have numeric : numberValue (α := α) number = .number
      (Scalar.ofDecimal numeral.negative numeral.coefficient numeral.places) := by
    rw [numberValue, isNumeral]
  exact .code group numeric read rest

theorem Gathers.append {first second : List (List Char)} {firstCodes secondCodes : List Code}
    {firstEntries secondEntries : List (Char × α)}
    (front : Gathers first firstCodes firstEntries)
    (back : Gathers second secondCodes secondEntries) :
    Gathers (first ++ second) (firstCodes ++ secondCodes)
      (firstEntries ++ secondEntries) := by
  induction front with
  | nil => exact back
  | code group numeric read _ ih => exact .code group numeric read ih
  | parameter known numeric _ ih => exact .parameter known numeric ih
  | ignored noCode unknown _ ih => exact .ignored noCode unknown ih

variable (calculate : String → Except String α)

/-- Reading the tokens of words collects what the words give, without a
warning. -/
theorem foldl_add_of_gathers {words : List (List Char)} {codes : List Code}
    {entries : List (Char × α)} (gathers : Gathers words codes entries)
    (table : Variables α) (line : Nat) (reading : WordReading α) :
    (words.map tokenOf).foldl (WordReading.add calculate table line) reading =
      { codes := reading.codes ++ codes
        parameters := reading.parameters.insertAll entries
        warnings := reading.warnings } := by
  induction gathers generalizing reading with
  | nil => simp [Parameters.insertAll]
  | @code letter number code value words codes entries group numeric read _ ih =>
      have added : WordReading.add calculate table line reading
          (tokenOf (letter :: number)) = { reading with codes := reading.codes ++ [code] } := by
        simp [tokenOf, WordReading.add, group, numeric, read]
      rw [List.map_cons, List.foldl_cons, added, ih]
      simp
  | @parameter letter number value words codes entries known numeric _ ih =>
      have noCode : ¬(letter = 'G' ∨ letter = 'M') := by
        rintro (rfl | rfl) <;> exact absurd known (by decide)
      have added : WordReading.add calculate table line reading
          (tokenOf (letter :: number)) =
            { reading with parameters := reading.parameters.insert letter value } := by
        simp [tokenOf, WordReading.add, noCode, known, numeric, resolve]
      rw [List.map_cons, List.foldl_cons, added, ih]
      simp [Parameters.insertAll]
  | @ignored letter number words codes entries noCode unknown _ ih =>
      have added : WordReading.add calculate table line reading
          (tokenOf (letter :: number)) = reading := by
        simp [tokenOf, WordReading.add, noCode, unknown]
      rw [List.map_cons, List.foldl_cons, added, ih]

theorem selectTool_fst {value : α} {tool : Nat}
    (selected : selectedTool? value = some tool) (line : Nat) (state : ReadingState α) :
    (selectTool line (some value) state).1 = { state with tool } := by
  simp only [selectTool, selected]
  split
  · rename_i same
    rw [same]
  · rfl

/-- The state after the codes of a line and its feed, spindle and tool words. -/
def ReadingState.prepared (state : ReadingState α) (line : Nat) (codes : List Code)
    (parameters : Parameters α) : ReadingState α :=
  (selectTool line (parameters.get? 'T')
    { state with
      modal := codes.foldl ModalState.apply state.modal
      feed := (parameters.get? 'F').or state.feed
      spindle := (parameters.get? 'S').or state.spindle }).1

/-- The point and the state that codes and numbers of a line lead to. -/
def obey (line : Nat) (comment : Option String) (codes : List Code)
    (parameters : Parameters α) (state : ReadingState α) :
    Option (MotionPoint α) × ReadingState α :=
  let prepared := state.prepared line codes parameters
  if codes.any (· == Code.g 4) then
    (some (dwellFor line parameters comment prepared), prepared)
  else if ['X', 'Y', 'Z', 'A'].any parameters.has then
    let (next, point, _) := moveTo line parameters comment prepared
    (point, next)
  else (none, prepared)

theorem obey_nothing (line : Nat) (comment : Option String) (state : ReadingState α) :
    obey line comment [] {} state = (none, state) := by
  simp [obey, ReadingState.prepared, selectTool, Parameters.has]

theorem readWords_obeyed (line : Nat) (raw : String) (code : List Char)
    (comment : Option String) (state : ReadingState α) :
    let words := (tokenize code).foldl (WordReading.add calculate state.assigned line) {}
    ((readWords calculate line raw code comment state).1.point,
        (readWords calculate line raw code comment state).2) =
      obey line comment words.codes words.parameters state := by
  simp only [readWords, obey, ReadingState.prepared]
  split
  · rfl
  · split <;> rfl

theorem readWords_of_gathers {words : List (List Char)} {codes : List Code}
    {entries : List (Char × α)} (gathers : Gathers words codes entries)
    (line : Nat) (raw : String) {code : List Char} (comment : Option String)
    (state : ReadingState α) (tokenized : tokenize (α := α) code = words.map tokenOf) :
    ((readWords calculate line raw code comment state).1.point,
      (readWords calculate line raw code comment state).2) =
        obey line comment codes (Parameters.insertAll {} entries) state := by
  have collected := foldl_add_of_gathers calculate gathers state.assigned line {}
  simp only [List.nil_append] at collected
  have obeyed := readWords_obeyed calculate line raw code comment state
  rw [tokenized, collected] at obeyed
  exact obeyed

end Milling.Program
