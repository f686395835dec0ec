import Milling.Proofs.Program.Command

/-!
# Modal snapshots

In each group of codes the last one that was written counts.  The modal state of
a command therefore has, for every group, the number of the last code of the
group on the lines up to its own, and the number at the start where there is
none.
-/

namespace Milling.Program

namespace ModalGroup

def members : ModalGroup → List Code
  | .motion => [0, 1, 2, 3, 80, 81, 82, 83, 84, 85, 86, 87, 88, 89].map Code.g
  | .plane => [17, 18, 19].map Code.g
  | .units => [20, 21].map Code.g
  | .distance => [90, 91].map Code.g
  | .feedMode => [93, 94, 95].map Code.g
  | .workOffset => [54, 55, 56, 57, 58, 59].map Code.g
  | .compensation => [40, 41, 42].map Code.g
  | .spindle => [3, 4, 5].map Code.m
  | .coolant => [7, 8, 9].map Code.m

theorem ofG?_eq_some {number : Nat} {group : ModalGroup} (found : ofG? number = some group) :
    Code.g number ∈ group.members := by
  unfold ofG? at found
  repeat' split at found
  all_goals cases found
  all_goals
    simp [members, Code.g]
    omega

theorem ofM?_eq_some {number : Nat} {group : ModalGroup} (found : ofM? number = some group) :
    Code.m number ∈ group.members := by
  unfold ofM? at found
  repeat' split at found
  all_goals cases found
  all_goals
    simp [members, Code.m]
    omega

/-- A code is filed under the group that it is a member of. -/
theorem of?_eq_some_iff {code : Code} {group : ModalGroup} :
    of? code = some group ↔ code ∈ group.members := by
  constructor
  · intro found
    obtain ⟨letter, major, minor⟩ := code
    unfold of? at found
    split at found
    · cases found
    · rename_i whole
      obtain rfl : minor = none := by simpa using whole
      split at found
      · rename_i isG
        obtain rfl := isG
        exact ofG?_eq_some found
      · split at found
        · rename_i isM
          obtain rfl := isM
          exact ofM?_eq_some found
        · cases found
  · have filed : ∀ code ∈ group.members, of? code = some group := by
      cases group <;> decide
    exact filed code

theorem minor_of_mem {code : Code} {group : ModalGroup} (member : code ∈ group.members) :
    code.minor = none := by
  have whole : ∀ code ∈ group.members, code.minor = none := by
    cases group <;> decide
  exact whole code member

/-- The numbers of all groups fit in a byte. -/
theorem byte_of_mem {code : Code} {group : ModalGroup} (member : code ∈ group.members) :
    code.byte = code.major := by
  have narrow : ∀ code ∈ group.members, code.byte = code.major := by
    cases group <;> decide
  exact narrow code member

/-- The number of the last code of a group. -/
def lastNumber? (group : ModalGroup) (codes : List Code) : Option Nat :=
  (codes.filter (· ∈ group.members)).getLast?.map Code.major

end ModalGroup

namespace ModalState

theorem ext_get {first second : ModalState}
    (same : ∀ group, first.get group = second.get group) : first = second := by
  obtain ⟨_, _, _, _, _, _, _, _, _⟩ := first
  obtain ⟨_, _, _, _, _, _, _, _, _⟩ := second
  simp only [mk.injEq]
  exact ⟨same .motion, same .plane, same .units, same .distance, same .feedMode,
    same .workOffset, same .compensation, same .spindle, same .coolant⟩

theorem get_set (state : ModalState) (group other : ModalGroup) (number : Nat) :
    (state.set group number).get other = if group = other then number else state.get other := by
  cases group <;> cases other <;> rfl

/-- The byte that is kept of a code is its whole number. -/
theorem apply_of_filed {code : Code} {group : ModalGroup}
    (filed : ModalGroup.of? code = some group) (state : ModalState) :
    state.apply code = state.set group code.major := by
  rw [apply, filed]
  exact congrArg (state.set group) (ModalGroup.byte_of_mem (ModalGroup.of?_eq_some_iff.mp filed))

/-- A code puts its number in force for its own group only. -/
theorem get_apply (state : ModalState) (code : Code) (group : ModalGroup) :
    (state.apply code).get group =
      if code ∈ group.members then code.major else state.get group := by
  simp only [← ModalGroup.of?_eq_some_iff]
  cases filed : ModalGroup.of? code with
  | none => simp [apply, filed]
  | some other => simp [apply_of_filed filed, get_set]

theorem apply_of_notMem {code : Code} (outside : ∀ group : ModalGroup, code ∉ group.members)
    (state : ModalState) : state.apply code = state := by
  apply ext_get
  intro group
  rw [get_apply, if_neg (outside group)]

/-- A code that is in force already changes nothing. -/
theorem apply_of_inForce {code : Code} {group : ModalGroup} (member : code ∈ group.members)
    {state : ModalState} (inForce : state.get group = code.major) : state.apply code = state := by
  apply ext_get
  intro other
  rw [get_apply]
  split
  · rename_i alsoMember
    have same : group = other := Option.some.inj ((ModalGroup.of?_eq_some_iff.mpr member).symm.trans
      (ModalGroup.of?_eq_some_iff.mpr alsoMember))
    rw [← same, inForce]
  · rfl

/-- After several codes the last one of a group is in force. -/
theorem get_foldl_apply (codes : List Code) (state : ModalState) (group : ModalGroup) :
    (codes.foldl apply state).get group =
      (group.lastNumber? codes).getD (state.get group) := by
  induction codes using List.reverseRecOn with
  | nil => rfl
  | append_singleton codes code ih =>
      rw [List.foldl_append, List.foldl_cons, List.foldl_nil, get_apply, ih]
      by_cases member : code ∈ group.members
      · simp [ModalGroup.lastNumber?, member]
      · simp [ModalGroup.lastNumber?, member]

/-- What holds of the state at the start and of all members of a group holds of
the number in force. -/
theorem get_foldl_apply_induction {holds : Nat → Prop} (codes : List Code) (group : ModalGroup)
    (members : ∀ code ∈ group.members, holds code.major) {state : ModalState}
    (start : holds (state.get group)) : holds ((codes.foldl apply state).get group) := by
  rw [get_foldl_apply, ModalGroup.lastNumber?]
  cases last : (codes.filter (· ∈ group.members)).getLast? with
  | none => exact start
  | some code =>
      have member := (List.mem_filter.mp (List.mem_of_getLast? last)).2
      exact members code (of_decide_eq_true member)

/-- Codes that belong to no group may be left out. -/
theorem foldl_apply_filter {skips : Code → Bool}
    (outside : ∀ code, skips code = true →
      code.minor.isSome = true ∨ ∀ group : ModalGroup, code ∉ group.members)
    (codes : List Code) (state : ModalState) :
    (codes.filter fun code => !skips code).foldl apply state = codes.foldl apply state := by
  have idle : ∀ code, skips code = true → ∀ state : ModalState, state.apply code = state := by
    intro code skipped
    refine apply_of_notMem fun group member => ?_
    rcases outside code skipped with numbered | foreign
    · rw [ModalGroup.minor_of_mem member] at numbered
      cases numbered
    · exact foreign group member
  induction codes generalizing state with
  | nil => rfl
  | cons code codes ih =>
      cases skipped : skips code with
      | true =>
          rw [List.filter_cons_of_neg (by simp [skipped]), List.foldl_cons, idle code skipped, ih]
      | false =>
          rw [List.filter_cons_of_pos (by simp [skipped]), List.foldl_cons, List.foldl_cons, ih]

/-- The units in force are inches where the last code for units says so. -/
theorem unitsInForce_foldl_apply (codes : List Code) :
    (codes.foldl apply {}).unitsInForce = .inches ↔
      (codes.filter (· ∈ [Code.g 20, Code.g 21])).getLast? = some (Code.g 20) := by
  have number : (codes.foldl apply {}).units =
      (ModalGroup.units.lastNumber? codes).getD 21 := get_foldl_apply codes {} .units
  have named : ModalGroup.units.members = [Code.g 20, Code.g 21] := rfl
  rw [unitsInForce, number, ModalGroup.lastNumber?, named]
  cases last : (codes.filter (· ∈ [Code.g 20, Code.g 21])).getLast? with
  | none => simp [Units.ofCode?]
  | some code =>
      have member := (List.mem_filter.mp (List.mem_of_getLast? last)).2
      have known : code = Code.g 20 ∨ code = Code.g 21 := by simpa using member
      rcases known with rfl | rfl
      · simp [Code.g, Units.ofCode?]
      · simp [Code.g, Units.ofCode?]

end ModalState

variable {α : Type}

theorem Chained.modal_eq {modal : ModalState} {before after : List (Command α)}
    {command : Command α} (chained : Chained modal (before ++ command :: after)) :
    command.modal =
      ((before ++ [command]).flatMap Command.codes).foldl ModalState.apply modal := by
  induction before generalizing modal with
  | nil =>
      cases chained with
      | cons _ follows _ => simp [follows]
  | cons first before ih =>
      cases chained with
      | cons _ follows later =>
          rw [ih later, follows, List.cons_append, List.flatMap_cons, List.foldl_append]

variable [Scalar α] (calculate : String → Except String α)

theorem readLines_modal (line : Nat) (state : ReadingState α) (written : List (List Char)) :
    (readLines calculate line state written).2.modal =
      (((readLines calculate line state written).1.filterMap LineEffect.command).flatMap
        Command.codes).foldl ModalState.apply state.modal := by
  induction written generalizing line state with
  | nil => rfl
  | cons first rest ih =>
      have later := ih (line + 1) (readLine calculate line first state).2
      simp only [readLines]
      rcases readLine_command calculate line first state with
        ⟨silent, unchanged⟩ | ⟨command, isCommand, _, follows, next⟩
      · rw [List.filterMap_cons_none silent, ← unchanged]
        exact later
      · rw [List.filterMap_cons_some isCommand, List.flatMap_cons, List.foldl_append, ← follows,
          ← next]
        exact later

/-- The modal states of a program as its codes lead to them. -/
structure Outcome.IsTracked (outcome : Outcome α) : Prop where
  last : ∀ before command after, outcome.commands = before ++ command :: after →
    ∀ group, command.modal.get group =
      (group.lastNumber? ((before ++ [command]).flatMap Command.codes)).getD
        (ModalState.get {} group)
  legal : ∀ command ∈ outcome.commands, ∀ group : ModalGroup,
    command.modal.get group ∈ group.members.map Code.major
  /-- Codes with a number behind their point and codes outside every group do nothing. -/
  idle : ∀ skips : Code → Bool,
    (∀ code, skips code = true →
      code.minor.isSome = true ∨ ∀ group : ModalGroup, code ∉ group.members) →
    ∀ before command after, outcome.commands = before ++ command :: after →
      command.modal =
        (((before ++ [command]).flatMap Command.codes).filter
          fun code => !skips code).foldl ModalState.apply {}
  units : outcome.units = .inches ↔
    ((outcome.commands.flatMap Command.codes).filter
      (· ∈ [Code.g 20, Code.g 21])).getLast? = some (Code.g 20)

/-- In every program the last code of a group counts. -/
theorem readProgram_isTracked (tool : Nat) (text : String) :
    (readProgram calculate tool text).IsTracked := by
  have chained : Chained {} (readProgram calculate tool text).commands :=
    readLines_chained calculate 1 (.start tool) (textLines text.toList)
  have follows : ∀ before command after,
      (readProgram calculate tool text).commands = before ++ command :: after →
        command.modal =
          ((before ++ [command]).flatMap Command.codes).foldl ModalState.apply {} := by
    intro before command after split
    rw [split] at chained
    exact chained.modal_eq
  refine { last := ?_, legal := ?_, idle := ?_, units := ?_ }
  · intro before command after split group
    rw [follows before command after split, ModalState.get_foldl_apply]
  · intro command member group
    obtain ⟨before, after, split⟩ := List.append_of_mem member
    rw [follows before command after split]
    refine ModalState.get_foldl_apply_induction _ group ?_ ?_
    · exact fun code isMember => List.mem_map.mpr ⟨code, isMember, rfl⟩
    · cases group <;> decide
  · intro skips outside before command after split
    rw [follows before command after split, ModalState.foldl_apply_filter outside]
  · have final : (readProgram calculate tool text).units =
        (((readProgram calculate tool text).commands.flatMap Command.codes).foldl
          ModalState.apply {}).unitsInForce :=
      congrArg ModalState.unitsInForce
        (readLines_modal calculate 1 (.start tool) (textLines text.toList))
    rw [final, ModalState.unitsInForce_foldl_apply]

end Milling.Program
