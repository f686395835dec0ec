import Milling.Proofs.Program.Repeats

/-!
# Programs without repeats

What is kept of a command is compared with the command kept before it, so a
second pass compares the same pairs as the first one.  It leaves out nothing
more: a command that has lost words repeats its predecessor in none that are
left.
-/

namespace Milling.Program

variable {α : Type}

/-- A command is another one without some of its axis words. -/
structure Command.LosesAxes (kept command : Command α) : Prop where
  rest : kept = { command with parameters := kept.parameters }
  words : kept.parameters.entries.Sublist command.parameters.entries
  others : kept.parameters.filter (fun letter _ => !axisLetters.contains letter) =
    command.parameters.filter fun letter _ => !axisLetters.contains letter

theorem Command.LosesAxes.refl (command : Command α) : command.LosesAxes command :=
  { rest := rfl
    words := List.Sublist.refl _
    others := rfl }

variable [Scalar α] {previous command kept : Command α}

section Reduce

theorem losesAxes_withoutRepeats (previous command : Command α) :
    (withoutRepeats previous command).LosesAxes command := by
  unfold withoutRepeats
  split
  · exact .refl command
  · refine { rest := rfl, words := List.filter_sublist, others := ?_ }
    simp only [Parameters.filter, List.filter_filter, Parameters.mk.injEq]
    refine List.filter_congr fun entry _ => ?_
    cases axisLetters.contains entry.1 <;> simp

theorem losesAxes_of_reduce (reduced : reduce previous command = some kept) :
    kept.LosesAxes command := by
  rw [eq_withoutRepeats_of_reduce reduced]
  exact losesAxes_withoutRepeats previous command

/-- Words are left out by what they repeat, so what is left repeats nothing. -/
theorem withoutRepeats_withoutRepeats (previous command : Command α) :
    withoutRepeats previous (withoutRepeats previous command) =
      withoutRepeats previous command := by
  cases incremental : command.modal.isIncremental with
  | true =>
      rw [withoutRepeats_of_incremental incremental, withoutRepeats_of_incremental incremental]
  | false => simp [withoutRepeats, incremental, Parameters.filter]

theorem entries_beq_symm [RoundingScalar α] {first second : List (Char × α)}
    (equal : (first == second) = true) : (second == first) = true := by
  induction first generalizing second with
  | nil =>
      cases second with
      | nil => rfl
      | cons other others => cases equal
  | cons entry rest ih =>
      cases second with
      | nil => cases equal
      | cons other others =>
          obtain ⟨here, later⟩ := Bool.and_eq_true_iff.mp equal
          obtain ⟨names, numbers⟩ := Bool.and_eq_true_iff.mp here
          exact Bool.and_eq_true_iff.mpr ⟨Bool.and_eq_true_iff.mpr
            ⟨beq_iff_eq.mpr (eq_of_beq names).symm, RoundingScalar.beq_symm _ _ numbers⟩,
            ih later⟩

/-- A command that has lost the words that repeat can have the parameters of
the one before it only if that one has no axis words. -/
theorem get?_eq_none_of_beq [RoundingScalar α] (absolute : command.modal.isIncremental = false)
    (equal : ((withoutRepeats previous command).parameters == previous.parameters) = true)
    {letter : Char} (axis : letter ∈ axisLetters) :
    previous.parameters.get? letter = none := by
  rw [Option.eq_none_iff_forall_ne_some]
  intro earlier found
  obtain ⟨value, given, same⟩ := lookup_of_beq (entries_beq_symm equal) found
  have repeated : repeats previous.parameters letter value = true := by
    rw [repeats, found]
    exact same
  obtain ⟨before, after, entries, _⟩ := List.lookup_eq_some_iff.mp given
  have member : (letter, value) ∈ (withoutRepeats previous command).parameters.entries := by
    simp [entries]
  simp [withoutRepeats, absolute, Parameters.filter, axis, repeated] at member

theorem withoutRepeats_eq_self
    (absent : ∀ letter ∈ axisLetters, previous.parameters.get? letter = none) :
    withoutRepeats previous command = command := by
  unfold withoutRepeats
  split
  · rfl
  · have all : command.parameters.entries.filter (fun entry =>
        !(axisLetters.contains entry.1 && repeats previous.parameters entry.1 entry.2)) =
          command.parameters.entries := by
      refine List.filter_eq_self.mpr fun entry _ => ?_
      by_cases axis : entry.1 ∈ axisLetters
      · simp [repeats, absent entry.1 axis]
      · simp [axis]
    simp only [Parameters.filter, all]

theorem reduce_eq_some_iff :
    reduce previous command = some kept ↔
      (!command.modal.isIncremental && command.code? == previous.code? &&
          (command.code?.any fun code => (ModalGroup.of? code).isSome) &&
          command.parameters == previous.parameters) = false ∧
        ((withoutRepeats previous command).parameters.entries.isEmpty &&
          command.code? == previous.code?) = false ∧
        withoutRepeats previous command = kept := by
  unfold reduce
  dsimp only
  split
  · rename_i repeated
    rw [repeated]
    simp
  · rename_i different
    rw [Bool.not_eq_true] at different
    split
    · rename_i empty
      rw [empty]
      simp
    · rename_i filled
      rw [different, Bool.not_eq_true _ |>.mp filled]
      simp

/-- What is kept of a command is kept as it is after the same command. -/
theorem reduce_of_reduce [RoundingScalar α] (reduced : reduce previous command = some kept) :
    reduce previous kept = some kept := by
  obtain ⟨different, filled, rfl⟩ := reduce_eq_some_iff.mp reduced
  have code : (withoutRepeats previous command).code? = command.code? := by
    simp [Command.code?]
  refine reduce_eq_some_iff.mpr
    ⟨?_, ?_, withoutRepeats_withoutRepeats previous command⟩
  · -- Equal parameters are those of a command without axis words: nothing was left out
    -- of it, so it would have been left out as a whole.
    rw [code, modal_withoutRepeats]
    by_contra same
    rw [Bool.not_eq_false] at same
    have equal := (Bool.and_eq_true_iff.mp same).2
    have absolute : command.modal.isIncremental = false := by
      simp only [Bool.and_eq_true, Bool.not_eq_true'] at same
      exact same.1.1.1
    have unchanged : withoutRepeats previous command = command :=
      withoutRepeats_eq_self fun letter axis => get?_eq_none_of_beq absolute equal axis
    rw [unchanged, different] at same
    cases same
  · rw [withoutRepeats_withoutRepeats, code]
    exact filled

end Reduce

section Optimize

/-- After the command before it a kept program is kept as it is. -/
theorem optimizeAfter_optimizeAfter [RoundingScalar α] (previous : Command α)
    (commands : List (Command α)) :
    optimizeAfter previous (optimizeAfter previous commands) =
      optimizeAfter previous commands := by
  induction commands generalizing previous with
  | nil => rfl
  | cons command rest ih =>
      cases reduced : reduce previous command with
      | none => simp only [optimizeAfter, reduced, ih]
      | some kept => simp only [optimizeAfter, reduced, reduce_of_reduce reduced, ih]

theorem sublist_optimizeAfter (previous : Command α) (commands : List (Command α)) :
    List.SublistForall₂ Command.LosesAxes (optimizeAfter previous commands) commands := by
  induction commands generalizing previous with
  | nil => exact .nil
  | cons command rest ih =>
      cases reduced : reduce previous command with
      | none =>
          simp only [optimizeAfter, reduced]
          exact .cons_right (ih previous)
      | some kept =>
          simp only [optimizeAfter, reduced]
          exact .cons (losesAxes_of_reduce reduced) (ih kept)

/-- Leaving out repeats a second time leaves out nothing, and the first time no
more than commands and axis words. -/
theorem optimize_optimize [RoundingScalar α] (commands : List (Command α)) :
    optimize (optimize commands) = optimize commands ∧
      List.SublistForall₂ Command.LosesAxes (optimize commands) commands := by
  cases commands with
  | nil => exact ⟨rfl, .nil⟩
  | cons first rest =>
      refine ⟨?_, .cons (.refl first) (sublist_optimizeAfter first rest)⟩
      simp only [optimize, optimizeAfter_optimizeAfter]

/-- Commands of no one program: a repeated line, repeated words, a modal state
that changes without a code, and a number that is not equal to itself. -/
def looseCommands : List (Command Float) :=
  let command (codes : List Code) (entries : List (Char × Float)) (modal : ModalState) :
      Command Float :=
    { line := 1, raw := "", codes, parameters := { entries }, tokens := [], modal,
      comment := none }
  [command [.g 1] [('F', 300), ('X', 10)] {},
    command [.g 1] [('F', 300), ('X', 10)] {},
    command [.g 1] [('F', 300), ('X', 10), ('Y', 5)] {},
    command [] [('Y', 5)] { distance := 91 },
    command [] [('Y', 5)] {},
    command [.m 3, .g 4] [('P', 2), ('X', 0 / 0)] {},
    command [.m 3, .g 4] [('P', 2), ('X', 0 / 0)] {}]

theorem optimize_optimize_loose :
    (optimize looseCommands).length = 5 ∧
      optimize (optimize looseCommands) = optimize looseCommands ∧
        List.SublistForall₂ Command.LosesAxes (optimize looseCommands) looseCommands :=
  ⟨by decide +kernel, optimize_optimize looseCommands⟩

end Optimize

end Milling.Program
