import Mathlib
import Milling.Proofs.Program.Rendering

/-!
# What written commands do

Of a reading, the modal state and the position matter to where the points of a
program lie and how they are reached.  Written commands change the two as the
commands say, with their numbers as they read back.
-/

namespace Milling.Program

/-- The kind of the motion in force; `none` where motion is cancelled. -/
def ModalState.kind? (modal : ModalState) : Option MotionKind :=
  match modal.motion with
  | 0 => some .rapid
  | 1 => some .linear
  | 2 => some .arc
  | 3 => some .arc
  | number => if ModalState.isDrillCycle number then some .drill else none

def moveLetters : List Char := ['X', 'Y', 'Z', 'A']

variable {α : Type}

/-- The modal state in force and the position reached. -/
@[ext]
structure Stand (α : Type) where
  modal : ModalState
  position : Position α

def ReadingState.stand (state : ReadingState α) : Stand α :=
  { modal := state.modal, position := state.position }

/-- The kind of a point and where it leads. -/
def sight (point : MotionPoint α) : MotionKind × Position α := (point.kind, point.position)

variable [Scalar α]

namespace Stand

/-- The position that numbers lead to. -/
def target (stand : Stand α) (numbers : Char → Option α) : Position α :=
  let incremental := stand.modal.isIncremental
  { x := targetAlong incremental stand.position.x (numbers 'X')
    y := targetAlong incremental stand.position.y (numbers 'Y')
    z := targetAlong incremental stand.position.z (numbers 'Z') }

/-- What codes and numbers show, and what they lead to. -/
def perform (stand : Stand α) (codes : List Code) (numbers : Char → Option α) :
    Option (MotionKind × Position α) × Stand α :=
  let coded : Stand α := { stand with modal := codes.foldl ModalState.apply stand.modal }
  if codes.any (· == Code.g 4) then (some (.dwell, stand.position), coded)
  else if moveLetters.any fun letter => (numbers letter).isSome then
    (coded.modal.kind?.map (·, coded.target numbers),
      { coded with position := coded.target numbers })
  else (none, coded)

end Stand

omit [Scalar α] in
theorem kind_motionOf? (state : ReadingState α) (parameters : Parameters α) :
    (motionOf? state parameters).map (fun found => found.1.kind) = state.modal.kind? := by
  unfold motionOf? ModalState.kind?
  generalize state.modal.motion = number
  match number with
  | 0 => rfl
  | 1 => rfl
  | 2 => rfl
  | 3 => rfl
  | above + 4 =>
      by_cases drills : ModalState.isDrillCycle (above + 4) = true <;> simp [drills, Motion.kind]

theorem moveTo_sight (line : Nat) (parameters : Parameters α) (comment : Option String)
    (state : ReadingState α) :
    ((moveTo line parameters comment state).2.1.map sight,
        (moveTo line parameters comment state).1.stand) =
      (state.modal.kind?.map (·, state.stand.target parameters.get?),
        { state.stand with position := state.stand.target parameters.get? }) := by
  rw [← kind_motionOf? state parameters]
  unfold moveTo
  cases motionOf? state parameters with
  | none => rfl
  | some found => rfl

theorem prepared_stand (state : ReadingState α) (line : Nat) (codes : List Code)
    (parameters : Parameters α) :
    (state.prepared line codes parameters).stand =
      { state.stand with modal := codes.foldl ModalState.apply state.modal } := by
  obtain ⟨modal, position⟩ := selectTool_modal line (parameters.get? 'T')
    { state with
      modal := codes.foldl ModalState.apply state.modal
      feed := (parameters.get? 'F').or state.feed
      spindle := (parameters.get? 'S').or state.spindle }
  exact Stand.ext modal position

theorem obey_sight (line : Nat) (comment : Option String) (codes : List Code)
    (parameters : Parameters α) (state : ReadingState α) :
    ((obey line comment codes parameters state).1.map sight,
        (obey line comment codes parameters state).2.stand) =
      state.stand.perform codes parameters.get? := by
  have prepared := prepared_stand state line codes parameters
  have moved := moveTo_sight line parameters comment (state.prepared line codes parameters)
  rw [prepared] at moved
  unfold obey Stand.perform
  dsimp only
  split
  · rw [Option.map_some, prepared]
    have position : (state.prepared line codes parameters).position = state.position :=
      congrArg Stand.position prepared
    simp only [sight, dwellFor, position]
    rfl
  · have moves : (['X', 'Y', 'Z', 'A'].any parameters.has) =
        moveLetters.any fun letter => (parameters.get? letter).isSome := rfl
    rw [moves]
    split
    · rw [moved]
      have modal : (state.prepared line codes parameters).modal =
          codes.foldl ModalState.apply state.modal := congrArg Stand.modal prepared
      rw [modal]
      rfl
    · rw [prepared]
      rfl

/-- What the written command shows, and what it leads to. -/
def Command.perform (command : Command α) (stand : Stand α) :
    Option (MotionKind × Position α) × Stand α :=
  stand.perform command.codes command.numbers

/-- What written commands show one after the other, and what they lead to. -/
def performAll : List (Command α) → Stand α → List (MotionKind × Position α) × Stand α
  | [], stand => ([], stand)
  | command :: rest, stand =>
      let (shown, next) := command.perform stand
      let (later, final) := performAll rest next
      (shown.toList ++ later, final)

/-- Commands written one to a line. -/
def rendered (commands : List (Command α)) : String :=
  String.intercalate "\n" (commands.map Command.text)

section Reading

variable (calculate : String → Except String α)

theorem Command.perform_of_words_eq_nil {command : Command α} (empty : command.words = [])
    (stand : Stand α) : command.perform stand = (none, stand) := by
  obtain ⟨noCodes, noNumbers⟩ := List.append_eq_nil_iff.mp empty
  have codes : command.codes = [] := List.map_eq_nil_iff.mp noCodes
  have numbers : ∀ letter ∈ moveLetters, command.numbers letter = none := by
    intro letter member
    have known : letter ∈ writtenOrder := by
      have moves : moveLetters ⊆ writtenOrder := by simp [moveLetters, writtenOrder, axisLetters]
      exact moves member
    have absent := List.filterMap_eq_nil_iff.mp noNumbers letter known
    rw [Option.map_eq_none_iff] at absent
    rw [Command.numbers, absent]
    rfl
  have still : (moveLetters.any fun letter => (command.numbers letter).isSome) = false := by
    rw [List.any_eq_false]
    intro letter member
    simp [numbers letter member]
  simp [Command.perform, Stand.perform, codes, still]

theorem readLine_text {command : Command α} (isRead : command.IsRead)
    (isFinite : command.IsFinite) (line : Nat) (state : ReadingState α) :
    ((readLine calculate line command.text.toList state).1.point.map sight,
        (readLine calculate line command.text.toList state).2.stand) =
      command.perform state.stand := by
  rw [Command.toList_text isRead]
  by_cases empty : command.words = []
  · rw [Command.perform_of_words_eq_nil empty, empty]
    have skipped : readLine calculate line (joined []) state = ({}, state) :=
      readLine_empty calculate line state
    rw [skipped]
    rfl
  · obtain ⟨raw, code, comment, read, tokenized⟩ := @readLine_noted _ _ calculate line state
      _ empty (Command.isWord_of_mem_words isRead isFinite) none (by simp) (by simp)
    rw [noted_none] at read
    have gathered := readWords_of_gathers calculate (Command.gathers_words isRead isFinite)
      line raw comment state tokenized
    have point := congrArg Prod.fst gathered
    have next := congrArg Prod.snd gathered
    dsimp only at point next
    rw [read, point, next, obey_sight, funext (Command.get?_insertAll isRead)]
    rfl

theorem readLines_text {commands : List (Command α)}
    (areRead : ∀ command ∈ commands, command.IsRead)
    (areFinite : ∀ command ∈ commands, command.IsFinite) (line : Nat)
    (state : ReadingState α) :
    (((readLines calculate line state (commands.map fun command =>
          command.text.toList)).1.filterMap LineEffect.point).map sight,
        (readLines calculate line state (commands.map fun command =>
          command.text.toList)).2.stand) =
      performAll commands state.stand := by
  induction commands generalizing line state with
  | nil => rfl
  | cons command rest ih =>
      have here := readLine_text calculate (areRead command List.mem_cons_self)
        (areFinite command List.mem_cons_self) line state
      have later := ih (fun other member => areRead other (List.mem_cons_of_mem command member))
        (fun other member => areFinite other (List.mem_cons_of_mem command member)) (line + 1)
        (readLine calculate line command.text.toList state).2
      have shown := congrArg Prod.fst here
      have next := congrArg Prod.snd here
      have laterShown := congrArg Prod.fst later
      have final := congrArg Prod.snd later
      dsimp only at shown next laterShown final
      rw [next] at laterShown final
      rw [List.map_cons]
      simp only [readLines, performAll]
      rw [final, ← shown, ← laterShown]
      cases point : (readLine calculate line command.text.toList state).1.point with
      | none => simp [point]
      | some point => simp [point]

theorem newline_notMem_text {command : Command α} (isRead : command.IsRead)
    (isFinite : command.IsFinite) : '\n' ∉ command.text.toList := by
  rw [Command.toList_text isRead, ← noted_none]
  exact newline_notMem_noted
    (fun word member => (Command.isWord_of_mem_words isRead isFinite word member).isPlain)
    (by simp)

theorem textLines_rendered {commands : List (Command α)}
    (areRead : ∀ command ∈ commands, command.IsRead)
    (areFinite : ∀ command ∈ commands, command.IsFinite) :
    textLines (rendered commands).toList =
      if commands = [] then [[]] else commands.map fun command => command.text.toList := by
  cases commands with
  | nil => rfl
  | cons command rest =>
      rw [if_neg (List.cons_ne_nil command rest), rendered, String.toList_intercalate,
        List.map_map]
      refine Text.splitOn_intercalate (by simp) ?_ rfl
      intro piece isPiece character member
      obtain ⟨other, isOther, rfl⟩ := List.mem_map.mp isPiece
      rw [beq_eq_false_iff_ne]
      rintro rfl
      exact newline_notMem_text (areRead other isOther) (areFinite other isOther) member

/-- Reading written commands shows and leads to what the commands do. -/
theorem readLines_rendered {commands : List (Command α)}
    (areRead : ∀ command ∈ commands, command.IsRead)
    (areFinite : ∀ command ∈ commands, command.IsFinite) (state : ReadingState α) :
    (((readLines calculate 1 state
          (textLines (rendered commands).toList)).1.filterMap LineEffect.point).map sight,
        (readLines calculate 1 state (textLines (rendered commands).toList)).2.stand) =
      performAll commands state.stand := by
  rw [textLines_rendered areRead areFinite]
  split
  · rename_i empty
    subst empty
    simp [readLines, readLine_empty, performAll]
  · exact readLines_text calculate areRead areFinite 1 state

end Reading

end Milling.Program
