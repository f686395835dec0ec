import Mathlib
import Milling.Proofs.Decimal.Difference
import Milling.Proofs.Posting.Passage
import Milling.Proofs.Program.Rendering
import Milling.Proofs.Program.Snapshot

/-!
# Absolute and incremental programs

A program of moves can give each axis its place or the way to it from the place
before.  Read under the code for absolute places and under the code for
increments, the two programs make the same points.
-/

namespace Milling

namespace Program

def movedAxes : List Char := ['X', 'Y', 'Z', 'A']

def motionNumbers : List Nat := [0, 1, 2, 3] ++ [81, 82, 83, 84, 85, 86, 87, 88, 89]

section Steps

variable {α : Type} [ExactScalar α] {places : Char → α} {absolute relative : Parameters α}
  {first second : ReadingState α}

/-- Parameters with the way from given places where others have a place. -/
structure Parameters.IsRelative (places : Char → α) (absolute relative : Parameters α) :
    Prop where
  axis : ∀ letter ∈ movedAxes,
    relative.get? letter = (absolute.get? letter).map (· - places letter)
  other : ∀ letter ∉ movedAxes, relative.get? letter = absolute.get? letter

/-- The places after a line that gives some of them. -/
def placesAfter (places : Char → α) (absolute : Parameters α) (letter : Char) : α :=
  (absolute.get? letter).getD (places letter)

/-- Two readings that stand at the same places, the second of which reads increments. -/
structure Agrees (places : Char → α) (first second : ReadingState α) : Prop where
  absolute : first.modal.distance = 90
  incremental : second = { first with modal := { first.modal with distance := 91 } }
  x : first.position.x = places 'X'
  y : first.position.y = places 'Y'
  z : first.position.z = places 'Z'
  /-- Before its first word the rotary axis counts as standing at zero. -/
  rotary : first.rotary.getD 0 = places 'A'

theorem Parameters.IsRelative.has (isRelative : Parameters.IsRelative places absolute relative)
    (letter : Char) : relative.has letter = absolute.has letter := by
  by_cases moved : letter ∈ movedAxes
  · simp [Parameters.has, isRelative.axis letter moved]
  · simp [Parameters.has, isRelative.other letter moved]

theorem Parameters.IsRelative.arcOf (isRelative : Parameters.IsRelative places absolute relative)
    (rotation : Rotation) : arcOf rotation relative = arcOf rotation absolute := by
  simp [Program.arcOf, isRelative.other _ (by decide : 'I' ∉ movedAxes),
    isRelative.other _ (by decide : 'J' ∉ movedAxes),
    isRelative.other _ (by decide : 'K' ∉ movedAxes),
    isRelative.other _ (by decide : 'R' ∉ movedAxes)]

/-- The way from a place leads where the place itself does. -/
theorem targetAlong_increment (current : α) (value : Option α) :
    targetAlong true current (value.map (· - current)) = targetAlong false current value := by
  cases value with
  | none => rfl
  | some value => exact add_sub_cancel current value

theorem targetAlong_absolute (current : α) (value : Option α) :
    targetAlong false current value = value.getD current := by
  cases value <;> rfl

theorem targetPosition_absolute {state : ReadingState α}
    (isAbsolute : state.modal.isIncremental = false) (parameters : Parameters α) :
    targetPosition state parameters =
      { x := (parameters.get? 'X').getD state.position.x
        y := (parameters.get? 'Y').getD state.position.y
        z := (parameters.get? 'Z').getD state.position.z } := by
  simp only [targetPosition, isAbsolute, targetAlong_absolute]

theorem Agrees.isAbsolute (agrees : Agrees places first second) :
    first.modal.isIncremental = false := by
  simp [ModalState.isIncremental, agrees.absolute]

theorem Agrees.isIncremental (agrees : Agrees places first second) :
    second.modal.isIncremental = true := by
  simp [ModalState.isIncremental, agrees.incremental]

theorem Agrees.targetPosition (agrees : Agrees places first second)
    (isRelative : Parameters.IsRelative places absolute relative) :
    targetPosition second relative = targetPosition first absolute := by
  have increments (letter : Char) (moved : letter ∈ movedAxes) {current : α}
      (isPlace : current = places letter) :
      targetAlong true current (relative.get? letter) =
        targetAlong false current (absolute.get? letter) := by
    rw [isRelative.axis letter moved, ← isPlace, targetAlong_increment]
  have position : second.position = first.position := by rw [agrees.incremental]
  simp only [Program.targetPosition, agrees.isAbsolute, agrees.isIncremental, position,
    increments 'X' (by decide) agrees.x, increments 'Y' (by decide) agrees.y,
    increments 'Z' (by decide) agrees.z]

theorem Agrees.targetRotary (agrees : Agrees places first second)
    (isRelative : Parameters.IsRelative places absolute relative) :
    targetRotary second relative = targetRotary first absolute := by
  have rotary : second.rotary = first.rotary := by rw [agrees.incremental]
  have zero := agrees.rotary
  simp only [Program.targetRotary, agrees.isAbsolute, agrees.isIncremental, rotary,
    isRelative.axis 'A' (by decide), ← zero]
  cases absolute.get? 'A' with
  | none => rfl
  | some angle =>
      cases first.rotary with
      | none => simp
      | some current => simp

theorem Agrees.motionOf? (agrees : Agrees places first second)
    (isRelative : Parameters.IsRelative places absolute relative) :
    motionOf? second relative = motionOf? first absolute := by
  have motion : second.modal.motion = first.modal.motion := by rw [agrees.incremental]
  have retract : second.retract = first.retract := by rw [agrees.incremental]
  simp only [Program.motionOf?, motion, retract, isRelative.arcOf,
    isRelative.other _ (by decide : 'R' ∉ movedAxes),
    isRelative.other _ (by decide : 'P' ∉ movedAxes),
    isRelative.other _ (by decide : 'Q' ∉ movedAxes)]

/-- A reading that moves to the places of a line, and keeps the rest that counts. -/
theorem Agrees.arrive (agrees : Agrees places first second) {next : ReadingState α}
    (position : next.position = Program.targetPosition first absolute)
    (rotary : next.rotary = Program.targetRotary first absolute)
    (modal : next.modal = first.modal) :
    Agrees (placesAfter places absolute) next
      { next with modal := { next.modal with distance := 91 } } where
  absolute := by rw [modal, agrees.absolute]
  incremental := rfl
  x := by rw [position, targetPosition_absolute agrees.isAbsolute, agrees.x, placesAfter]
  y := by rw [position, targetPosition_absolute agrees.isAbsolute, agrees.y, placesAfter]
  z := by rw [position, targetPosition_absolute agrees.isAbsolute, agrees.z, placesAfter]
  rotary := by
    rw [rotary]
    simp only [Program.targetRotary, agrees.isAbsolute, placesAfter, ← agrees.rotary]
    cases absolute.get? 'A' with
    | none => rfl
    | some angle => rfl

theorem Agrees.moveTo (agrees : Agrees places first second)
    (isRelative : Parameters.IsRelative places absolute relative) (line : Nat)
    (comment : Option String) :
    (moveTo line relative comment second).2.1 = (moveTo line absolute comment first).2.1 ∧
      Agrees (placesAfter places absolute) (moveTo line absolute comment first).1
        (moveTo line relative comment second).1 := by
  have feed : relative.get? 'F' = absolute.get? 'F' := isRelative.other 'F' (by decide)
  simp only [Program.moveTo, agrees.targetPosition isRelative, agrees.targetRotary isRelative,
    agrees.motionOf? isRelative, feed]
  cases Program.motionOf? first absolute with
  | none =>
      refine ⟨rfl, ?_⟩
      rw [agrees.incremental]
      exact agrees.arrive rfl rfl rfl
  | some found =>
      rw [agrees.incremental]
      exact ⟨rfl, agrees.arrive rfl rfl rfl⟩

/-- Codes for motions leave the distance mode. -/
theorem foldl_apply_distance {codes : List Code}
    (motions : ∀ code ∈ codes, ∃ number ∈ motionNumbers, code = Code.g number)
    (modal : ModalState) (distance : Nat) :
    codes.foldl ModalState.apply { modal with distance } =
      { codes.foldl ModalState.apply modal with distance } := by
  induction codes generalizing modal with
  | nil => rfl
  | cons code codes ih =>
      obtain ⟨number, isMotion, rfl⟩ := motions code List.mem_cons_self
      have filed : ∀ number ∈ motionNumbers,
          ModalGroup.of? (Code.g number) = some .motion := by
        decide
      have applied (modal : ModalState) :
          modal.apply (Code.g number) = { modal with motion := number } :=
        ModalState.apply_of_filed (filed number isMotion) modal
      have later := ih (fun other member => motions other (List.mem_cons_of_mem _ member))
        { modal with motion := number }
      rw [List.foldl_cons, List.foldl_cons, applied, applied]
      exact later

/-- The tool word of a line sets the tool alone. -/
theorem selectTool_eq (line : Nat) (word : Option α) (state : ReadingState α) :
    (selectTool line word state).1 =
      { state with tool := (word.bind selectedTool?).getD state.tool } := by
  cases word with
  | none => rfl
  | some value =>
      cases selected : selectedTool? value with
      | none => simp [selectTool, selected]
      | some tool =>
          by_cases same : tool = state.tool
          · simp [selectTool, selected, same]
          · simp [selectTool, selected, same]

theorem Agrees.prepared (agrees : Agrees places first second)
    (isRelative : Parameters.IsRelative places absolute relative) {codes : List Code}
    (motions : ∀ code ∈ codes, ∃ number ∈ motionNumbers, code = Code.g number) (line : Nat) :
    Agrees places (first.prepared line codes absolute) (second.prepared line codes relative) := by
  have mode := foldl_apply_distance motions first.modal
  simp only [ReadingState.prepared, selectTool_eq, isRelative.other 'T' (by decide),
    isRelative.other 'F' (by decide), isRelative.other 'S' (by decide)]
  rw [agrees.incremental, mode 91]
  refine ⟨?_, rfl, agrees.x, agrees.y, agrees.z, agrees.rotary⟩
  have stays : codes.foldl ModalState.apply first.modal =
      { codes.foldl ModalState.apply first.modal with distance := first.modal.distance } :=
    mode first.modal.distance
  exact (congrArg ModalState.distance stays).trans agrees.absolute

/-- A line of moves makes the same point in both readings, which agree after it. -/
theorem Agrees.obey (agrees : Agrees places first second)
    (isRelative : Parameters.IsRelative places absolute relative) {codes : List Code}
    (motions : ∀ code ∈ codes, ∃ number ∈ motionNumbers, code = Code.g number) (line : Nat)
    (comment : Option String) :
    (obey line comment codes relative second).1 = (obey line comment codes absolute first).1 ∧
      Agrees (placesAfter places absolute) (obey line comment codes absolute first).2
        (obey line comment codes relative second).2 := by
  have noDwell : codes.any (· == Code.g 4) = false := by
    rw [List.any_eq_false]
    intro code member
    obtain ⟨number, isMotion, rfl⟩ := motions code member
    have other : ∀ number ∈ motionNumbers, ¬(Code.g number == Code.g 4) = true := by decide
    exact other number isMotion
  have ready := agrees.prepared isRelative motions line
  have moves : ['X', 'Y', 'Z', 'A'].any relative.has = ['X', 'Y', 'Z', 'A'].any absolute.has := by
    simp only [isRelative.has, List.any_cons, List.any_nil]
  unfold Program.obey
  rw [noDwell, moves]
  dsimp only
  rw [if_neg Bool.false_ne_true, if_neg Bool.false_ne_true]
  by_cases moved : ['X', 'Y', 'Z', 'A'].any absolute.has = true
  · rw [if_pos moved, if_pos moved]
    exact ready.moveTo isRelative line comment
  · rw [if_neg moved, if_neg moved]
    have kept : ∀ letter ∈ movedAxes, places letter = placesAfter places absolute letter := by
      intro letter isAxis
      have unwritten : absolute.get? letter = none := by
        simpa [Parameters.has] using fun written => moved (List.any_eq_true.mpr
          ⟨letter, isAxis, Option.isSome_iff_ne_none.mpr written⟩)
      rw [placesAfter, unwritten, Option.getD_none]
    exact ⟨rfl, ready.absolute, ready.incremental, ready.x.trans (kept 'X' (by decide)),
      ready.y.trans (kept 'Y' (by decide)), ready.z.trans (kept 'Z' (by decide)),
      ready.rotary.trans (kept 'A' (by decide))⟩

end Steps

section Texts

/-- A word of a line that moves: a code for the motion, or a letter with a decimal. -/
inductive MotionWord where
  | code (number : Nat) (isMotion : number ∈ motionNumbers)
  | decimal (letter : Char) (digits : List Char) (known : letter ∈ parameterLetters)
      (isDecimal : (Decimal.Numeral.read? digits).isSome = true)

namespace MotionWord

def text : MotionWord → List Char
  | .code number _ => (Code.g number).text.toList
  | .decimal letter digits _ _ => letter :: digits

def code? : MotionWord → Option Code
  | .code number _ => some (Code.g number)
  | .decimal .. => none

def numeral? : MotionWord → Option (Char × Decimal.Numeral)
  | .code .. => none
  | .decimal letter digits _ isDecimal =>
      some (letter, (Decimal.Numeral.read? digits).get isDecimal)

/-- An axis word with the way to its place from the places reached before; other
words stay. -/
def increment (reached : Char → Decimal.Numeral) : MotionWord → MotionWord
  | .code number isMotion => .code number isMotion
  | .decimal letter digits known isDecimal =>
      if letter ∈ movedAxes then
        .decimal letter
          (((Decimal.Numeral.read? digits).get isDecimal).differenceText (reached letter)) known
          (Decimal.Numeral.isSome_read?_differenceText _ _)
      else .decimal letter digits known isDecimal

end MotionWord

/-- The numerals that the words of a line give, by letter. -/
def numerals (line : List MotionWord) : List (Char × Decimal.Numeral) :=
  line.filterMap MotionWord.numeral?

/-- The places reached after a line; the last word of an axis counts. -/
def reachedAfter (reached : Char → Decimal.Numeral) (line : List MotionWord) (letter : Char) :
    Decimal.Numeral :=
  ((numerals line).reverse.lookup letter).getD (reached letter)

/-- Lines with the way from the place before in the stead of each place. -/
def increments (reached : Char → Decimal.Numeral) : List (List MotionWord) → List (List MotionWord)
  | [] => []
  | line :: rest => line.map (·.increment reached) :: increments (reachedAfter reached line) rest

/-- A program of lines under a code for what its axis words mean. -/
def programText (distance : Nat) (lines : List (List MotionWord)) : String :=
  String.ofList (((Code.g distance).text.toList ::
    lines.map fun line => joined (line.map MotionWord.text)).flatMap fun line => line ++ ['\n'])

end Texts

section Words

theorem isRead_g {number : Nat} (bounded : number ≤ Code.greatest) : (Code.g number).IsRead :=
  ⟨.inl rfl, bounded, by simp [Code.g]⟩

theorem isRead_motion {number : Nat} (isMotion : number ∈ motionNumbers) :
    (Code.g number).IsRead := by
  have bounded : ∀ number ∈ motionNumbers, number ≤ Code.greatest := by decide
  exact isRead_g (bounded number isMotion)

theorem MotionWord.isWord_text (word : MotionWord) : IsWord word.text := by
  cases word with
  | code number isMotion => exact Code.isWord_text (isRead_motion isMotion)
  | decimal letter digits known isDecimal =>
      obtain ⟨nonempty, numeric⟩ := Decimal.Numeral.isNumberChar_of_read? isDecimal
      exact .intro letter digits (Command.isUpper_of_mem_writtenOrder known) nonempty numeric

variable {α : Type} [ExactScalar α]

/-- Numerals with their numbers in their stead. -/
def valued (numerals : List (Char × Decimal.Numeral)) : List (Char × α) :=
  numerals.map fun entry => (entry.1, entry.2.value)

theorem gathers_motionWords (line : List MotionWord) :
    Gathers (α := α) (line.map MotionWord.text) (line.filterMap MotionWord.code?)
      (valued (numerals line)) := by
  induction line with
  | nil => exact .nil
  | cons word line ih =>
      cases word with
      | code number isMotion =>
          have isRead := isRead_motion isMotion
          have gathered := Gathers.numbered (.inl rfl) (Code.isSome_read?_digits (Code.g number))
            (Code.read?_digits isRead) ih
          rw [List.map_cons, MotionWord.text, Code.toList_text]
          exact gathered
      | decimal letter digits known isDecimal =>
          exact .parameter known (Decimal.Numeral.numberValue_of_isSome isDecimal) ih

theorem motions_of_line (line : List MotionWord) :
    ∀ code ∈ line.filterMap MotionWord.code?, ∃ number ∈ motionNumbers, code = Code.g number := by
  intro code member
  obtain ⟨word, _, isCode⟩ := List.mem_filterMap.mp member
  cases word with
  | code number isMotion => exact ⟨number, isMotion, (Option.some.inj isCode).symm⟩
  | decimal letter digits known isDecimal => cases isCode

/-- Numbers are found by their letters whatever is made of them. -/
theorem lookup_map_entries {β γ : Type} (change : Char → β → γ) (entries : List (Char × β))
    (wanted : Char) :
    (entries.map fun entry => (entry.1, change entry.1 entry.2)).lookup wanted =
      (entries.lookup wanted).map (change wanted) := by
  induction entries with
  | nil => rfl
  | cons entry entries ih =>
      rw [List.map_cons, Entries.lookup_cons, ih]
      obtain ⟨letter, value⟩ := entry
      rw [Entries.lookup_cons]
      by_cases same : wanted = letter <;> simp [same]

theorem get?_valued (numerals : List (Char × Decimal.Numeral)) (wanted : Char) :
    (Parameters.insertAll {} (valued (α := α) numerals)).get? wanted =
      (numerals.reverse.lookup wanted).map Decimal.Numeral.value := by
  have found := lookup_map_entries (fun _ numeral => (numeral.value : α)) numerals.reverse wanted
  rw [Parameters.get?_insertAll, valued, ← List.map_reverse, found]
  simp

/-- The way to an axis place from one reached before; numbers of other letters stay. -/
def way (reached : Char → Decimal.Numeral) (letter : Char) (value : α) : α :=
  if letter ∈ movedAxes then value - (reached letter).value else value

theorem way_of_mem (reached : Char → Decimal.Numeral) {letter : Char}
    (moved : letter ∈ movedAxes) (value : α) :
    way reached letter value = value - (reached letter).value :=
  if_pos moved

theorem way_of_notMem (reached : Char → Decimal.Numeral) {letter : Char}
    (still : letter ∉ movedAxes) (value : α) : way reached letter value = value :=
  if_neg still

theorem numeral?_increment (reached : Char → Decimal.Numeral) (word : MotionWord) :
    (word.increment reached).numeral?.map (fun entry => (entry.1, (entry.2.value : α))) =
      word.numeral?.map fun entry => (entry.1, way reached entry.1 entry.2.value) := by
  cases word with
  | code number isMotion => rfl
  | decimal letter digits known isDecimal =>
      by_cases moved : letter ∈ movedAxes
      · simp only [MotionWord.increment, if_pos moved, MotionWord.numeral?, Option.map_some,
          way_of_mem reached moved, Decimal.Numeral.value_differenceText]
      · simp only [MotionWord.increment, if_neg moved, MotionWord.numeral?, Option.map_some,
          way_of_notMem reached moved]

theorem valued_increment (reached : Char → Decimal.Numeral) (line : List MotionWord) :
    valued (α := α) (numerals (line.map (·.increment reached))) =
      (valued (numerals line)).map fun entry => (entry.1, way reached entry.1 entry.2) := by
  simp only [valued, numerals, List.map_filterMap, List.filterMap_map]
  refine List.filterMap_congr fun word _ => ?_
  rw [Function.comp_apply, numeral?_increment, Option.map_map]
  rfl

/-- The numbers of a line with increments, by letter. -/
theorem get?_increment (reached : Char → Decimal.Numeral) (line : List MotionWord)
    (wanted : Char) :
    (Parameters.insertAll {}
        (valued (α := α) (numerals (line.map (·.increment reached))))).get? wanted =
      ((Parameters.insertAll {} (valued (numerals line))).get? wanted).map
        (way reached wanted) := by
  rw [valued_increment, Parameters.get?_insertAll, Parameters.get?_insertAll, ← List.map_reverse,
    lookup_map_entries]
  simp

theorem isRelative_increment (reached : Char → Decimal.Numeral) (line : List MotionWord) :
    Parameters.IsRelative (fun letter => (reached letter).value)
      (Parameters.insertAll {} (valued (α := α) (numerals line)))
      (Parameters.insertAll {} (valued (numerals (line.map (·.increment reached))))) where
  axis letter moved := by
    rw [get?_increment, funext (way_of_mem reached moved)]
  other letter still := by
    rw [get?_increment, funext (way_of_notMem reached still)]
    exact Option.map_id_apply

theorem placesAfter_valued (reached : Char → Decimal.Numeral) (line : List MotionWord) :
    placesAfter (fun letter => (reached letter).value)
        (Parameters.insertAll {} (valued (α := α) (numerals line))) =
      fun letter => (reachedAfter reached line letter).value := by
  funext letter
  rw [placesAfter, get?_valued, reachedAfter]
  cases (numerals line).reverse.lookup letter <;> rfl

theorem codes_increment (reached : Char → Decimal.Numeral) (line : List MotionWord) :
    (line.map (·.increment reached)).filterMap MotionWord.code? =
      line.filterMap MotionWord.code? := by
  rw [List.filterMap_map]
  refine List.filterMap_congr fun word _ => ?_
  cases word with
  | code number isMotion => rfl
  | decimal letter digits known isDecimal =>
      by_cases moved : letter ∈ movedAxes <;> simp [MotionWord.increment, moved, MotionWord.code?]

theorem isWord_of_mem_line (line : List MotionWord) :
    ∀ word ∈ line.map MotionWord.text, IsWord word := by
  intro word member
  obtain ⟨source, _, rfl⟩ := List.mem_map.mp member
  exact source.isWord_text

variable (calculate : String → Except String α)

/-- A line of moves is obeyed as its words say. -/
theorem readLine_motionWords (number : Nat) (line : List MotionWord) (state : ReadingState α) :
    ((readLine calculate number (joined (line.map MotionWord.text)) state).1.point,
      (readLine calculate number (joined (line.map MotionWord.text)) state).2) =
        obey number none (line.filterMap MotionWord.code?)
          (Parameters.insertAll {} (valued (numerals line))) state := by
  cases line with
  | nil =>
      have empty : joined ([] : List (List Char)) = [] := rfl
      rw [List.map_nil, empty, readLine_empty]
      exact (obey_nothing number none state).symm
  | cons word line =>
      obtain ⟨raw, code, read, tokenized⟩ := readLine_joined calculate number state
        (List.cons_ne_nil _ _) (isWord_of_mem_line (word :: line))
      rw [List.map_cons, read]
      exact readWords_of_gathers calculate (gathers_motionWords (word :: line)) number raw none
        state tokenized

theorem readLines_increments (lines : List (List MotionWord)) (number : Nat)
    {reached : Char → Decimal.Numeral} {first second : ReadingState α}
    (agrees : Agrees (fun letter => (reached letter).value) first second) :
    (readLines calculate number second ((increments reached lines).map
        fun line => joined (line.map MotionWord.text))).1.filterMap LineEffect.point =
      (readLines calculate number first (lines.map
        fun line => joined (line.map MotionWord.text))).1.filterMap LineEffect.point := by
  induction lines generalizing number reached first second with
  | nil => rfl
  | cons line rest ih =>
      have told := readLine_motionWords calculate number line first
      have changed := readLine_motionWords calculate number (line.map (·.increment reached)) second
      rw [codes_increment] at changed
      obtain ⟨point, after⟩ := agrees.obey (isRelative_increment reached line)
        (motions_of_line line) number none
      rw [← congrArg Prod.fst changed, ← congrArg Prod.fst told] at point
      rw [← congrArg Prod.snd changed, ← congrArg Prod.snd told, placesAfter_valued] at after
      have later := ih (number + 1) after
      simp only [increments, List.map_cons, readLines]
      dsimp only at point
      rw [List.filterMap_cons, List.filterMap_cons, point, later]

/-- The reading after a first line with the code for a distance mode. -/
def startUnder (distance tool : Nat) : ReadingState α :=
  { ReadingState.start tool with modal := { distance } }

theorem readLine_distance {distance : Nat} (isMode : distance ∈ [90, 91]) (number tool : Nat) :
    (readLine (α := α) calculate number (Code.g distance).text.toList (.start tool)).1.point =
        none ∧
      (readLine calculate number (Code.g distance).text.toList (.start tool)).2 =
        (startUnder distance tool : ReadingState α) := by
  have isRead : (Code.g distance).IsRead := by
    have bounded : ∀ distance ∈ [90, 91], distance ≤ Code.greatest := by decide
    exact isRead_g (bounded distance isMode)
  have isWord : ∀ word ∈ [(Code.g distance).text.toList], IsWord word :=
    List.forall_mem_singleton.mpr (Code.isWord_text isRead)
  have gathers : Gathers (α := α) [(Code.g distance).text.toList] [Code.g distance] [] := by
    rw [Code.toList_text]
    exact .numbered (.inl rfl) (Code.isSome_read?_digits _) (Code.read?_digits isRead) .nil
  have alone (word : List Char) : joined [word] = word := by simp
  obtain ⟨raw, code, read, tokenized⟩ := readLine_joined calculate number
    (ReadingState.start tool : ReadingState α) (List.cons_ne_nil _ []) isWord
  have obeyed := readWords_of_gathers calculate gathers number raw none (.start tool) tokenized
  have modes : ∀ distance ∈ [90, 91], ModalState.apply {} (Code.g distance) = { distance } ∧
      (Code.g distance == Code.g 4) = false := by
    decide
  obtain ⟨mode, noDwell⟩ := modes distance isMode
  have ready : obey number none [Code.g distance] (Parameters.insertAll {} [])
      (.start tool : ReadingState α) = (none, startUnder distance tool) := by
    have started : (ReadingState.start tool : ReadingState α).modal = {} := rfl
    simp only [obey, List.any_cons, List.any_nil, noDwell, ReadingState.prepared, selectTool_eq,
      List.foldl_cons, List.foldl_nil, started, mode]
    rfl
  rw [alone] at read
  rw [read]
  rw [ready] at obeyed
  exact ⟨congrArg Prod.fst obeyed, congrArg Prod.snd obeyed⟩

theorem points_programText {distance : Nat} (isMode : distance ∈ [90, 91]) (tool : Nat)
    (lines : List (List MotionWord)) :
    (readProgram (α := α) calculate tool (programText distance lines)).toolpath.points =
      (readLines calculate 2 (startUnder distance tool)
        (lines.map fun line => joined (line.map MotionWord.text))).1.filterMap
          LineEffect.point := by
  let pieces := (Code.g distance).text.toList ::
    lines.map fun line => joined (line.map MotionWord.text)
  have oneLine : ∀ piece ∈ pieces, '\n' ∉ piece := by
    intro piece member inside
    rcases List.mem_cons.mp member with rfl | isLine
    · have plain : ∀ distance ∈ [90, 91], '\n' ∉ (Code.g distance).text.toList := by decide
      exact plain distance isMode inside
    · obtain ⟨line, _, rfl⟩ := List.mem_map.mp isLine
      exact (joined_range (fun word isWord => (isWord_of_mem_line line word isWord).isPlain)
        '\n' inside).2.2 rfl
  obtain ⟨silent, started⟩ := readLine_distance (α := α) calculate isMode 1 tool
  have text : (programText distance lines).toList = pieces.flatMap fun line => line ++ ['\n'] := by
    rw [programText, String.toList_ofList]
  unfold readProgram
  rw [text, textLines_flatMap oneLine, Posting.readLines_append]
  have last (number : Nat) (state : ReadingState α) :
      (readLines calculate number state [[]]).1.filterMap LineEffect.point = [] := by
    simp [readLines, readLine_empty]
  simp only [wholePath_points, List.filterMap_append, last, List.append_nil]
  simp only [pieces, readLines, started]
  exact List.filterMap_cons_none silent

/-- Read under `G91`, the ways between the places of a program make the points that the
places make under `G90`. -/
theorem readProgram_increments (tool : Nat) (lines : List (List MotionWord)) :
    (readProgram (α := α) calculate tool
        (programText 91 (increments (fun _ => .zero) lines))).toolpath.points =
      (readProgram calculate tool (programText 90 lines)).toolpath.points := by
  rw [points_programText calculate (by decide), points_programText calculate (by decide)]
  have zero : ((Decimal.Numeral.zero).value : α) = 0 := Decimal.Numeral.value_zero
  have origin : @OfNat.ofNat α 0 (Scalar.instOfNat 0) = Decimal.Numeral.zero.value :=
    ExactScalar.literal_zero.trans zero.symm
  exact readLines_increments calculate lines 2 ⟨rfl, rfl, origin, origin, origin, zero.symm⟩

example : programText 91 (increments (fun _ => .zero)
    [[.code 1 (by decide), .decimal 'X' "1.5".toList (by decide) (by decide),
        .decimal 'F' "90".toList (by decide) (by decide)],
      [.decimal 'X' "1".toList (by decide) (by decide)]]) = "G91\nG1 X1.5 F90\nX-0.5\n" := by
  decide

end Words

end Program

end Milling
