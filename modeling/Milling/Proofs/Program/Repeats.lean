import Mathlib
import Milling.Program.Optimize
import Milling.Proofs.Program.Performance

/-!
# Words that repeat

What a word repeats of the command before it is in force when its command
comes, unless that command waited or moved by steps.  Without it the command
leads to the same place.
-/

namespace Milling.Program

variable {α : Type}

/-- The command holds the position. -/
def Command.waits (command : Command α) : Bool := command.codes.any (· == Code.g 4)

/-- The command has a word that moves. -/
def Command.moves (command : Command α) : Bool := moveLetters.any command.has

variable [Scalar α]

/-- At a letter the command has the number that the one before has there. -/
def restates (previous command : Command α) (letter : Char) : Bool :=
  (command.get? letter).any (repeats previous.parameters letter)

/-- What a command repeats of the one before it is in force when it comes. -/
structure Harmless (previous command : Command α) : Prop where
  /-- The position that a repeated word names has been reached. -/
  reached : command.waits = false → command.modal.isIncremental = false →
    (∃ letter ∈ moveLetters, restates previous command letter = true) →
    previous.modal.isIncremental = false ∧ previous.waits = false
  /-- A command that moves nowhere moves in the way of the one before. -/
  still : command.waits = false → command.modal.isIncremental = false →
    (∀ letter ∈ moveLetters, command.has letter = true →
      restates previous command letter = true) →
    command.modal.kind? = none ∨ command.modal.kind? = previous.modal.kind?
  /-- A command that is left out changes no mode, and waits only after one that waits. -/
  silent : reduce previous command = none →
    command.modal = previous.modal ∧ (command.waits = true → previous.waits = true)

section Perform

/-- What is in force after a command, and the last point that was shown. -/
structure Settled (previous : Command α) (stand : Stand α)
    (last : Option (MotionKind × Position α)) : Prop where
  modal : previous.modal = stand.modal
  position : previous.modal.isIncremental = false → previous.waits = false →
    stand.target previous.numbers = stand.position
  waited : previous.waits = true → last = some (.dwell, stand.position)
  moved : previous.waits = false → previous.moves = true →
    ∀ kind ∈ previous.modal.kind?, last = some (kind, stand.position)

theorem targetAlong_targetAlong (current : α) (value : Option α) :
    targetAlong false (targetAlong false current value) value =
      targetAlong false current value := by
  cases value <;> rfl

variable {command : Command α} {stand : Stand α}

theorem any_isSome_numbers (command : Command α) :
    (moveLetters.any fun letter => (command.numbers letter).isSome) = command.moves := by
  have isSome : ∀ letter, (command.numbers letter).isSome = command.has letter := fun letter =>
    Option.isSome_map
  simp only [isSome]
  rfl

theorem Command.perform_of_waits (waits : command.waits = true) :
    command.perform stand = (some (.dwell, stand.position),
      { stand with modal := command.codes.foldl ModalState.apply stand.modal }) := by
  rw [Command.waits] at waits
  simp [Command.perform, Stand.perform, waits]

theorem target_of_still (still : command.moves = false) (stand : Stand α) :
    stand.target command.numbers = stand.position := by
  have absent : ∀ letter ∈ moveLetters, command.numbers letter = none := by
    intro letter member
    rw [← any_isSome_numbers, List.any_eq_false] at still
    simpa using still letter member
  have x := absent 'X' (by simp [moveLetters])
  have y := absent 'Y' (by simp [moveLetters])
  have z := absent 'Z' (by simp [moveLetters])
  simp [Stand.target, x, y, z, targetAlong]

/-- A command that does not wait leads to its target, if it moves or not. -/
theorem Command.perform_of_not_waits (waits : command.waits = false)
    (follows : command.modal = command.codes.foldl ModalState.apply stand.modal) :
    command.perform stand =
      (if command.moves then
          command.modal.kind?.map (·, { stand with modal := command.modal }.target command.numbers)
        else none,
        { modal := command.modal
          position := { stand with modal := command.modal }.target command.numbers }) := by
  rw [Command.waits] at waits
  cases moves : command.moves with
  | true =>
      have any := any_isSome_numbers command
      simp [Command.perform, Stand.perform, waits, any, moves, ← follows]
  | false =>
      have any := any_isSome_numbers command
      simp [Command.perform, Stand.perform, waits, any, moves, ← follows, target_of_still moves]

/-- A command settles what is in force after it. -/
theorem settled_perform
    (follows : command.modal = command.codes.foldl ModalState.apply stand.modal)
    (last : Option (MotionKind × Position α)) :
    Settled command (command.perform stand).2 ((command.perform stand).1.or last) := by
  cases waits : command.waits with
  | true =>
      rw [Command.perform_of_waits waits]
      exact {
        modal := follows
        position := fun _ other => absurd (waits.symm.trans other) (by decide)
        waited := fun _ => rfl
        moved := fun other => absurd (waits.symm.trans other) (by decide) }
  | false =>
      rw [Command.perform_of_not_waits waits follows]
      refine {
        modal := rfl
        position := ?_
        waited := fun other => absurd (waits.symm.trans other) (by decide)
        moved := ?_ }
      · intro absolute _
        simp only [Stand.target, absolute, targetAlong_targetAlong]
      · intro _ moves kind isKind
        simp [moves, Option.mem_def.mp isKind]

end Perform

section Repeats

variable {previous command : Command α}

@[simp] theorem codes_withoutRepeats (previous command : Command α) :
    (withoutRepeats previous command).codes = command.codes := by
  unfold withoutRepeats
  split <;> rfl

@[simp] theorem modal_withoutRepeats (previous command : Command α) :
    (withoutRepeats previous command).modal = command.modal := by
  unfold withoutRepeats
  split <;> rfl

theorem waits_withoutRepeats (previous command : Command α) :
    (withoutRepeats previous command).waits = command.waits := by
  simp [Command.waits]

theorem withoutRepeats_of_incremental (incremental : command.modal.isIncremental = true) :
    withoutRepeats previous command = command := if_pos incremental

/-- Of the axis words those that repeat are left out. -/
theorem get?_withoutRepeats (isRead : command.IsRead)
    (absolute : command.modal.isIncremental = false) {letter : Char}
    (axis : letter ∈ moveLetters) :
    (withoutRepeats previous command).get? letter =
      if restates previous command letter then none else command.get? letter := by
  have isAxis : letter ∈ axisLetters := by
    have axes : moveLetters ⊆ axisLetters := by simp [moveLetters, axisLetters]
    exact axes axis
  have filtered := Parameters.get?_filter isRead.parameters (fun letter value =>
    !(axisLetters.contains letter && repeats previous.parameters letter value)) letter
  have kept : (withoutRepeats previous command).get? letter =
      (command.get? letter).filter fun value => !repeats previous.parameters letter value := by
    simpa [withoutRepeats, absolute, Command.get?, isAxis] using filtered
  rw [kept, restates]
  cases command.get? letter with
  | none => rfl
  | some value => cases same : repeats previous.parameters letter value <;>
      simp [Option.filter, same]

theorem has_withoutRepeats (isRead : command.IsRead)
    (absolute : command.modal.isIncremental = false) {letter : Char}
    (axis : letter ∈ moveLetters) :
    (withoutRepeats previous command).has letter =
      (!restates previous command letter && command.has letter) := by
  have kept := congrArg Option.isSome
    (@get?_withoutRepeats _ _ previous _ isRead absolute _ axis)
  refine kept.trans ?_
  cases restates previous command letter <;> rfl

theorem restates_iff {letter : Char} :
    restates previous command letter = true ↔ ∃ value earlier,
      command.get? letter = some value ∧ previous.get? letter = some earlier ∧
        (earlier == value) = true := by
  unfold restates repeats
  rw [← Command.get?]
  cases command.get? letter <;> cases previous.get? letter <;> simp

theorem isRead_withoutRepeats (previous : Command α) (isRead : command.IsRead) :
    (withoutRepeats previous command).IsRead := by
  unfold withoutRepeats
  split
  · exact isRead
  · refine ⟨isRead.codes, ?_⟩
    exact isRead.parameters.filter fun letter value =>
      !(axisLetters.contains letter && repeats previous.parameters letter value)

theorem isFinite_withoutRepeats (previous : Command α) (isFinite : command.IsFinite) :
    (withoutRepeats previous command).IsFinite := by
  unfold withoutRepeats
  split
  · exact isFinite
  · exact fun entry member => isFinite entry (List.mem_of_mem_filter member)

theorem eq_withoutRepeats_of_reduce {kept : Command α}
    (reduced : reduce previous command = some kept) :
    kept = withoutRepeats previous command := by
  unfold reduce at reduced
  dsimp only at reduced
  split at reduced
  · cases reduced
  · split at reduced
    · cases reduced
    · exact (Option.some.inj reduced).symm

theorem lookup_of_beq {first second : List (Char × α)} (equal : (first == second) = true)
    {letter : Char} {value : α} (given : first.lookup letter = some value) :
    ∃ other, second.lookup letter = some other ∧ (value == other) = true := by
  induction first generalizing second with
  | nil => cases given
  | cons entry rest ih =>
      cases second with
      | nil => cases equal
      | cons other others =>
          obtain ⟨name, number⟩ := entry
          obtain ⟨otherName, otherNumber⟩ := other
          obtain ⟨here, later⟩ := Bool.and_eq_true_iff.mp equal
          obtain ⟨names, numbers⟩ := Bool.and_eq_true_iff.mp here
          obtain rfl : name = otherName := eq_of_beq names
          rw [Entries.lookup_cons] at given ⊢
          split at given
          · rename_i found
            obtain rfl := Option.some.inj given
            exact ⟨otherNumber, by rw [if_pos found], numbers⟩
          · rename_i different
            rw [if_neg different]
            exact ih later given

/-- A command that is left out has no word that moves but what it repeats. -/
theorem moves_withoutRepeats_of_reduce [RoundingScalar α] (isRead : command.IsRead)
    (reduced : reduce previous command = none) :
    (withoutRepeats previous command).moves = false := by
  unfold reduce at reduced
  dsimp only at reduced
  split at reduced
  · rename_i same
    simp only [Bool.and_eq_true, Bool.not_eq_true'] at same
    obtain ⟨⟨⟨absolute, _⟩, _⟩, parameters⟩ := same
    rw [Command.moves, List.any_eq_false]
    intro letter axis
    rw [has_withoutRepeats isRead absolute axis]
    cases given : command.get? letter with
    | none =>
        have absent : command.has letter = false := congrArg Option.isSome given
        simp [absent]
    | some value =>
        obtain ⟨earlier, found, equal⟩ := lookup_of_beq parameters given
        have same : restates previous command letter = true := restates_iff.mpr
          ⟨value, earlier, given, found, RoundingScalar.beq_symm value earlier equal⟩
        simp [same]
  · split at reduced
    · rename_i empty
      simp only [Bool.and_eq_true, List.isEmpty_iff] at empty
      rw [Command.moves, List.any_eq_false]
      intro letter axis
      simp [Command.has, Parameters.has, Parameters.get?, empty.1]
    · cases reduced

variable {stand : Stand α} {last : Option (MotionKind × Position α)}

/-- Numbers that repeat are read back as what they repeat. -/
theorem numbers_of_restates [RoundingScalar α] (isFinite : previous.IsFinite) {letter : Char}
    (same : restates previous command letter = true) :
    command.numbers letter = previous.numbers letter := by
  obtain ⟨value, earlier, given, found, equal⟩ := restates_iff.mp same
  rw [Command.numbers, Command.numbers, given, found, Option.map_some, Option.map_some,
    reread_congr equal (isFinite.get? found)]

theorem numbers_withoutRepeats (isRead : command.IsRead)
    (absolute : command.modal.isIncremental = false) {letter : Char}
    (axis : letter ∈ moveLetters) :
    (withoutRepeats previous command).numbers letter =
      if restates previous command letter then none else command.numbers letter := by
  rw [Command.numbers, get?_withoutRepeats isRead absolute axis]
  split <;> rfl

/-- Words that repeat lead where the position is. -/
theorem target_withoutRepeats [RoundingScalar α] (isRead : command.IsRead)
    (isFinite : previous.IsFinite) (waits : command.waits = false)
    (absolute : command.modal.isIncremental = false)
    (settled : Settled previous stand last) (harmless : Harmless previous command) :
    { stand with modal := command.modal }.target command.numbers =
      { stand with modal := command.modal }.target (withoutRepeats previous command).numbers := by
  have along (letter : Char) (axis : letter ∈ moveLetters) (current : α)
      (stays : restates previous command letter = true →
        targetAlong false current (previous.numbers letter) = current) :
      targetAlong false current (command.numbers letter) =
        targetAlong false current ((withoutRepeats previous command).numbers letter) := by
    rw [numbers_withoutRepeats isRead absolute axis]
    split
    · rename_i same
      rw [numbers_of_restates isFinite same]
      exact stays same
    · rfl
  have reached {letter : Char} (axis : letter ∈ moveLetters)
      (same : restates previous command letter = true) :
      stand.modal.isIncremental = false ∧ stand.target previous.numbers = stand.position := by
    obtain ⟨wasAbsolute, wasMoving⟩ := harmless.reached waits absolute ⟨letter, axis, same⟩
    exact ⟨settled.modal ▸ wasAbsolute, settled.position wasAbsolute wasMoving⟩
  have x : 'X' ∈ moveLetters := by simp [moveLetters]
  have y : 'Y' ∈ moveLetters := by simp [moveLetters]
  have z : 'Z' ∈ moveLetters := by simp [moveLetters]
  simp only [Stand.target, absolute, Position.mk.injEq]
  refine ⟨along 'X' x _ ?_, along 'Y' y _ ?_, along 'Z' z _ ?_⟩
  · intro same
    obtain ⟨standing, position⟩ := reached x same
    simpa [Stand.target, standing] using congrArg Position.x position
  · intro same
    obtain ⟨standing, position⟩ := reached y same
    simpa [Stand.target, standing] using congrArg Position.y position
  · intro same
    obtain ⟨standing, position⟩ := reached z same
    simpa [Stand.target, standing] using congrArg Position.z position

theorem repeated_of_moves (isRead : command.IsRead) (waits : command.waits = false)
    (absolute : command.modal.isIncremental = false)
    (settled : Settled previous stand last) (harmless : Harmless previous command)
    (moves : command.moves = true) (still : (withoutRepeats previous command).moves = false)
    {kind : MotionKind} (isKind : command.modal.kind? = some kind) :
    last = some (kind, stand.position) := by
  have all : ∀ letter ∈ moveLetters, command.has letter = true →
      restates previous command letter = true := by
    intro letter axis has
    by_contra different
    rw [Command.moves, List.any_eq_false] at still
    apply still letter axis
    rw [has_withoutRepeats isRead absolute axis, Bool.eq_false_iff.mpr different, has]
    rfl
  obtain ⟨letter, axis, has⟩ := List.any_eq_true.mp moves
  have same := all letter axis has
  obtain ⟨_, wasMoving⟩ := harmless.reached waits absolute ⟨letter, axis, same⟩
  have alike : previous.modal.kind? = some kind := by
    rcases harmless.still waits absolute all with cancelled | alike
    · rw [cancelled] at isKind
      cases isKind
    · rw [← alike, isKind]
  have moved : previous.moves = true := by
    refine List.any_eq_true.mpr ⟨letter, axis, ?_⟩
    obtain ⟨_, earlier, _, found, _⟩ := restates_iff.mp same
    exact congrArg Option.isSome found
  exact settled.moved wasMoving moved kind alike

/-- Leaving out words that repeat changes nothing but points that repeat. -/
theorem perform_withoutRepeats [RoundingScalar α] (isRead : command.IsRead)
    (isFinite : previous.IsFinite)
    (follows : command.modal = command.codes.foldl ModalState.apply stand.modal)
    (settled : Settled previous stand last) (harmless : Harmless previous command) :
    (command.perform stand).2 = ((withoutRepeats previous command).perform stand).2 ∧
      ((command.perform stand).1 = ((withoutRepeats previous command).perform stand).1 ∨
        ((withoutRepeats previous command).perform stand).1 = none ∧
          (command.perform stand).1 = last) := by
  cases absolute : command.modal.isIncremental with
  | true =>
      rw [withoutRepeats_of_incremental absolute]
      exact ⟨rfl, .inl rfl⟩
  | false =>
      cases waits : command.waits with
      | true =>
          have keptWaits := (waits_withoutRepeats previous command).trans waits
          rw [Command.perform_of_waits waits, Command.perform_of_waits keptWaits]
          simp
      | false =>
          have keptWaits := (waits_withoutRepeats previous command).trans waits
          have keptFollows : (withoutRepeats previous command).modal =
              (withoutRepeats previous command).codes.foldl ModalState.apply stand.modal := by
            simpa using follows
          rw [Command.perform_of_not_waits waits follows,
            Command.perform_of_not_waits keptWaits keptFollows, modal_withoutRepeats,
            target_withoutRepeats isRead isFinite waits absolute settled harmless]
          refine ⟨rfl, ?_⟩
          -- Both lead to one place; they differ only where no word that moves is left.
          cases still : (withoutRepeats previous command).moves with
          | true =>
              have moves : command.moves = true := by
                obtain ⟨letter, axis, has⟩ := List.any_eq_true.mp still
                rw [has_withoutRepeats isRead absolute axis, Bool.and_eq_true] at has
                exact List.any_eq_true.mpr ⟨letter, axis, has.2⟩
              simp [moves]
          | false =>
              cases moves : command.moves with
              | false => simp
              | true =>
                  cases isKind : command.modal.kind? with
                  | none => simp
                  | some kind =>
                      right
                      rw [repeated_of_moves isRead waits absolute settled harmless moves still
                        isKind, target_of_still still]
                      simp

/-- A command that is left out changes nothing, and shows at most the last point again. -/
theorem perform_of_reduce [RoundingScalar α] (isRead : command.IsRead)
    (isFinite : previous.IsFinite)
    (follows : command.modal = command.codes.foldl ModalState.apply stand.modal)
    (settled : Settled previous stand last) (harmless : Harmless previous command)
    (reduced : reduce previous command = none) :
    (command.perform stand).2 = stand ∧
      ((command.perform stand).1 = none ∨ (command.perform stand).1 = last) := by
  obtain ⟨sameModes, sameWait⟩ := harmless.silent reduced
  have modal : command.modal = stand.modal := sameModes.trans settled.modal
  cases waits : command.waits with
  | true =>
      rw [Command.perform_of_waits waits, ← follows, modal]
      exact ⟨rfl, .inr (settled.waited (sameWait waits)).symm⟩
  | false =>
      obtain ⟨next, shown⟩ := perform_withoutRepeats isRead isFinite follows settled harmless
      have still := moves_withoutRepeats_of_reduce isRead reduced
      have keptFollows : (withoutRepeats previous command).modal =
          (withoutRepeats previous command).codes.foldl ModalState.apply stand.modal := by
        simpa using follows
      have kept := Command.perform_of_not_waits
        ((waits_withoutRepeats previous command).trans waits) keptFollows
      rw [modal_withoutRepeats, modal, still, target_of_still still] at kept
      rw [kept] at next shown
      exact ⟨next, shown.imp_right And.right⟩

end Repeats

end Milling.Program
