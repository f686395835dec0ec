import Milling.Proofs.Program.Repeats

/-!
# What leaving out repeats changes

A command is compared with the one kept before it alone.  Where what it repeats
is still in force after that one, leaving it out leaves out no more than points
that repeat the point before them.
-/

namespace Milling.Program

section Stutter

variable {β : Type}

/-- Lists of which the first has, besides the items of the second, items that
repeat the one before; `last` is the one before the lists. -/
inductive Stutters : Option β → List β → List β → Prop where
  | nil (last : Option β) : Stutters last [] []
  | both {last : Option β} {item : β} {first second : List β} :
      Stutters (some item) first second → Stutters last (item :: first) (item :: second)
  | repeated {item : β} {first second : List β} :
      Stutters (some item) first second → Stutters (some item) (item :: first) second

namespace Stutters

variable {last : Option β} {first second : List β}

/-- What both show goes in front of both. -/
theorem same (shown : Option β) (later : Stutters (shown.or last) first second) :
    Stutters last (shown.toList ++ first) (shown.toList ++ second) := by
  cases shown with
  | none => exact later
  | some item => exact .both later

/-- What repeats the last item goes in front of the first. -/
theorem skip {shown : Option β} (repeated : shown = none ∨ shown = last)
    (later : Stutters last first second) : Stutters last (shown.toList ++ first) second := by
  cases shown with
  | none => exact later
  | some item =>
      obtain rfl := repeated.resolve_left (Option.some_ne_none item)
      exact .repeated later

variable [DecidableEq β]

theorem destutter'_eq {item : β} (stutters : Stutters (some item) first second) :
    first.destutter' (· ≠ ·) item = second.destutter' (· ≠ ·) item := by
  generalize isLast : some item = last at stutters
  induction stutters generalizing item with
  | nil => rfl
  | @both last next first second _ ih =>
      rw [List.destutter'_cons, List.destutter'_cons]
      by_cases same : item = next
      · subst same
        simp only [ne_eq, not_true_eq_false, if_false]
        exact ih rfl
      · simp only [ne_eq, same, not_false_eq_true, if_true]
        rw [ih rfl]
  | @repeated next first second _ ih =>
      obtain rfl := Option.some.inj isLast
      rw [List.destutter'_cons, if_neg (by simp)]
      exact ih rfl

/-- Without their repeats the lists are the same. -/
theorem destutter_eq (stutters : Stutters none first second) :
    first.destutter (· ≠ ·) = second.destutter (· ≠ ·) := by
  cases stutters with
  | nil => rfl
  | both later => exact later.destutter'_eq

end Stutters

end Stutter

variable {α : Type} [Scalar α]

/-- The pairs of commands that are compared. -/
def comparedAfter (previous : Command α) : List (Command α) → List (Command α × Command α)
  | [] => []
  | command :: rest =>
      (previous, command) :: comparedAfter ((reduce previous command).getD previous) rest

/-- The pairs of commands that are compared when repeats are left out. -/
def compared : List (Command α) → List (Command α × Command α)
  | [] => []
  | first :: rest => comparedAfter first rest

section Runs

/-- Leaving out repeats leaves out points that repeat, and leads to the same. -/
theorem stutters_optimizeAfter [RoundingScalar α] {previous : Command α}
    {commands : List (Command α)} {stand : Stand α} {last : Option (MotionKind × Position α)}
    (settled : Settled previous stand last) (isFinite : previous.IsFinite)
    (areFinite : ∀ command ∈ commands, command.IsFinite)
    (chained : Chained previous.modal commands)
    (harmless : ∀ pair ∈ comparedAfter previous commands, Harmless pair.1 pair.2) :
    Stutters last (performAll commands stand).1
        (performAll (optimizeAfter previous commands) stand).1 ∧
      (performAll commands stand).2 =
        (performAll (optimizeAfter previous commands) stand).2 := by
  induction commands generalizing previous stand last with
  | nil => exact ⟨.nil last, rfl⟩
  | cons command rest ih =>
      cases chained with
      | cons isRead follows later =>
          rw [settled.modal] at follows
          have here := harmless (previous, command) List.mem_cons_self
          have restFinite : ∀ other ∈ rest, other.IsFinite := fun other member =>
            areFinite other (List.mem_cons_of_mem command member)
          have restHarmless : ∀ pair ∈
              comparedAfter ((reduce previous command).getD previous) rest,
                Harmless pair.1 pair.2 := fun pair member =>
            harmless pair (List.mem_cons_of_mem _ member)
          -- The next command is compared with what is kept of this one, or with the one
          -- before when nothing is: in either case that one is settled where the tool stands.
          cases reduced : reduce previous command with
          | none =>
              rw [reduced] at restHarmless
              obtain ⟨next, shown⟩ :=
                perform_of_reduce isRead isFinite follows settled here reduced
              rw [(here.silent reduced).1] at later
              obtain ⟨stutters, final⟩ := ih settled isFinite restFinite later restHarmless
              simp only [performAll, optimizeAfter, reduced, next]
              exact ⟨stutters.skip shown, final⟩
          | some kept =>
              obtain rfl := eq_withoutRepeats_of_reduce reduced
              rw [reduced] at restHarmless
              obtain ⟨next, shown⟩ :=
                perform_withoutRepeats isRead isFinite follows settled here
              have keptFollows : (withoutRepeats previous command).modal =
                  (withoutRepeats previous command).codes.foldl ModalState.apply
                    stand.modal := by
                simpa using follows
              have keptSettled := settled_perform keptFollows last
              have keptFinite := isFinite_withoutRepeats previous
                (areFinite command List.mem_cons_self)
              rw [← modal_withoutRepeats previous command] at later
              obtain ⟨stutters, final⟩ := ih keptSettled keptFinite restFinite later restHarmless
              simp only [performAll, optimizeAfter, reduced, next]
              refine ⟨?_, final⟩
              rcases shown with same | ⟨silent, repeated⟩
              · rw [same]
                exact stutters.same _
              · rw [silent] at stutters ⊢
                exact stutters.skip (.inr repeated)

/-- What leaving out words keeps of every command holds of the commands that are left. -/
theorem forall_optimize {holds : Command α → Prop}
    (keeps : ∀ previous command, holds command → holds (withoutRepeats previous command))
    {commands : List (Command α)} (all : ∀ command ∈ commands, holds command) :
    ∀ command ∈ optimize commands, holds command := by
  have after : ∀ previous (rest : List (Command α)), (∀ command ∈ rest, holds command) →
      ∀ kept ∈ optimizeAfter previous rest, holds kept := by
    intro previous rest
    induction rest generalizing previous with
    | nil => exact fun _ kept member => nomatch member
    | cons command rest ih =>
        intro holdsAll kept member
        have holdsRest : ∀ other ∈ rest, holds other := fun other inRest =>
          holdsAll other (List.mem_cons_of_mem command inRest)
        rw [optimizeAfter] at member
        split at member
        · rename_i reduced isReduced
          rcases List.mem_cons.mp member with rfl | later
          · rw [eq_withoutRepeats_of_reduce isReduced]
            exact keeps previous command (holdsAll command List.mem_cons_self)
          · exact ih reduced holdsRest kept later
        · exact ih previous holdsRest kept member
  cases commands with
  | nil => exact fun command member => nomatch member
  | cons first rest =>
      intro command member
      rcases List.mem_cons.mp member with rfl | later
      · exact all command List.mem_cons_self
      · exact after first rest (fun other inRest => all other (List.mem_cons_of_mem first inRest))
          command later

/-- Leaving out repeats keeps what the written commands show but for points that repeat,
and what they lead to. -/
theorem stutters_optimize [RoundingScalar α] {commands : List (Command α)} {stand : Stand α}
    (areFinite : ∀ command ∈ commands, command.IsFinite)
    (chained : Chained stand.modal commands)
    (harmless : ∀ pair ∈ compared commands, Harmless pair.1 pair.2) :
    Stutters none (performAll commands stand).1 (performAll (optimize commands) stand).1 ∧
      (performAll commands stand).2 = (performAll (optimize commands) stand).2 := by
  cases chained with
  | nil => exact ⟨.nil none, rfl⟩
  | @cons _ first rest isRead follows later =>
      have settled := settled_perform follows none
      obtain ⟨stutters, final⟩ := stutters_optimizeAfter settled
        (areFinite first List.mem_cons_self)
        (fun other member => areFinite other (List.mem_cons_of_mem first member)) later harmless
      simp only [performAll, optimize]
      exact ⟨stutters.same _, final⟩

end Runs

section Reading

variable (calculate : String → Except String α) (tool : Nat)

/-- The kinds and positions of the points of a program, without repeats. -/
def Outcome.trace [DecidableEq α] (outcome : Outcome α) : List (MotionKind × Position α) :=
  (outcome.toolpath.points.map sight).destutter (· ≠ ·)

def modalAfter (text : String) : ModalState :=
  (readLines calculate 1 (.start tool) (textLines text.toList)).2.modal

/-- A program of written commands shows what the commands show. -/
theorem readProgram_rendered {commands : List (Command α)}
    (areRead : ∀ command ∈ commands, command.IsRead)
    (areFinite : ∀ command ∈ commands, command.IsFinite) :
    (readProgram calculate tool (rendered commands)).toolpath.points.map sight =
        (performAll commands (ReadingState.start tool).stand).1 ∧
      modalAfter calculate tool (rendered commands) =
        (performAll commands (ReadingState.start tool).stand).2.modal := by
  have read := readLines_rendered calculate areRead areFinite (.start tool)
  refine ⟨?_, congrArg (fun result => result.2.modal) read⟩
  simp only [readProgram, wholePath_points]
  exact congrArg Prod.fst read

/-- Without its repeats a program moves as it does with them, where the repeats
are harmless. -/
theorem readProgram_optimize [RoundingScalar α] [DecidableEq α] (text : String)
    (finite : ∀ command ∈ (readProgram calculate tool text).commands, command.IsFinite)
    (harmless : ∀ pair ∈ compared (readProgram calculate tool text).commands,
      Harmless pair.1 pair.2) :
    let commands := (readProgram calculate tool text).commands
    (readProgram calculate tool (rendered (optimize commands))).trace =
        (readProgram calculate tool (rendered commands)).trace ∧
      modalAfter calculate tool (rendered (optimize commands)) =
        modalAfter calculate tool (rendered commands) := by
  intro commands
  have chained : Chained (ReadingState.start (α := α) tool).stand.modal commands :=
    readLines_chained calculate 1 (.start tool) (textLines text.toList)
  have keptRead := forall_optimize (fun previous _ => isRead_withoutRepeats previous)
    chained.isRead
  have keptFinite := forall_optimize (fun previous _ => isFinite_withoutRepeats previous) finite
  obtain ⟨shown, modal⟩ := readProgram_rendered calculate tool chained.isRead finite
  obtain ⟨keptShown, keptModal⟩ := readProgram_rendered calculate tool keptRead keptFinite
  obtain ⟨stutters, final⟩ := stutters_optimize finite chained harmless
  constructor
  · rw [Outcome.trace, Outcome.trace, shown, keptShown]
    exact stutters.destutter_eq.symm
  · rw [modal, keptModal, final]

end Reading

section Evaluation

/-- Whether what a command repeats is in force, letter by letter. -/
theorem harmless_iff {previous command : Command α} :
    Harmless previous command ↔
      (command.waits = false → command.modal.isIncremental = false →
        moveLetters.any (restates previous command) = true →
        previous.modal.isIncremental = false ∧ previous.waits = false) ∧
      (command.waits = false → command.modal.isIncremental = false →
        (moveLetters.all fun letter =>
          !command.has letter || restates previous command letter) = true →
        command.modal.kind? = none ∨ command.modal.kind? = previous.modal.kind?) ∧
      ((reduce previous command).isNone = true →
        command.modal = previous.modal ∧ (command.waits = true → previous.waits = true)) := by
  have all : (moveLetters.all fun letter =>
      !command.has letter || restates previous command letter) = true ↔
        ∀ letter ∈ moveLetters, command.has letter = true →
          restates previous command letter = true := by
    rw [List.all_eq_true]
    refine forall₂_congr fun letter _ => ?_
    cases command.has letter <;> simp
  rw [Option.isNone_iff_eq_none, List.any_eq_true, all]
  exact ⟨fun harmless => ⟨harmless.reached, harmless.still, harmless.silent⟩,
    fun ⟨reached, still, silent⟩ => ⟨reached, still, silent⟩⟩

instance (previous command : Command α) : Decidable (Harmless previous command) :=
  decidable_of_iff _ harmless_iff.symm

instance (command : Command α) : Decidable command.IsFinite :=
  inferInstanceAs (Decidable (∀ entry ∈ command.parameters.entries,
    Scalar.isFinite entry.2 = true))

end Evaluation

section Instance

def withoutVariables : String → Except String Float := fun _ => .error "no variables"

/-- A square that is cut with repeats of words and of a whole line. -/
def squareText : String :=
  "G21 G90\nG0 X0 Y0 Z5\nG1 Z-1.5 F120\nG1 X10 Y0\nG1 X10 Y0\nX10 Y10\nG4 P2\nG1 X0 Y10\nX0 Y0"

theorem readProgram_optimize_square :
    let commands := (readProgram withoutVariables 1 squareText).commands
    ((∀ command ∈ commands, command.IsFinite) ∧
        ∀ pair ∈ compared commands, Harmless pair.1 pair.2) ∧
      (readProgram withoutVariables 1 (rendered (optimize commands))).trace =
          (readProgram withoutVariables 1 (rendered commands)).trace ∧
        modalAfter withoutVariables 1 (rendered (optimize commands)) =
          modalAfter withoutVariables 1 (rendered commands) := by
  have finite : ∀ command ∈ (readProgram withoutVariables 1 squareText).commands,
      command.IsFinite := by
    decide +kernel
  have harmless : ∀ pair ∈ compared (readProgram withoutVariables 1 squareText).commands,
      Harmless pair.1 pair.2 := by
    decide +kernel
  exact ⟨⟨finite, harmless⟩,
    readProgram_optimize withoutVariables 1 squareText finite harmless⟩

/-- A full circle that ends where it starts. -/
def circleText : String := "G0 X0 Y0\nG2 X0 Y0 I5 J0"

/-- Without the words that repeat, a full circle is no move any more. -/
theorem readProgram_optimize_circle :
    let commands := (readProgram withoutVariables 1 circleText).commands
    (∀ command ∈ commands, ∀ entry ∈ command.parameters.entries,
        Scalar.isFinite entry.2 = true ∧ reread entry.2 = entry.2) ∧
      (readProgram withoutVariables 1 (rendered (optimize commands))).trace ≠
        (readProgram withoutVariables 1 (rendered commands)).trace := by
  decide +kernel

end Instance

end Milling.Program
