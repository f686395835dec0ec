import Milling.Program.Reading

/-!
# What a line does to the tool

A line changes the tool only by the tool word of its command, and only where
the word is accepted and names another tool.  The point of a line has the
number of the line and the tool in force after it.
-/

namespace Milling.Program

variable {α : Type} [Scalar α]

/-- The tool that the tool word of a command selects, if it is accepted. -/
def Command.selected? (command : Command α) : Option Nat :=
  (command.get? 'T').bind selectedTool?

def toolAfter (tool : Nat) (commands : List (Command α)) : Nat :=
  commands.foldl (fun active command => command.selected?.getD active) tool

def LineEffect.selected? (effect : LineEffect α) : Option Nat :=
  effect.command.bind Command.selected?

/-- What the effect of a line has to do with the line and the tool before it. -/
structure LineEffect.Follows (line tool : Nat) (effect : LineEffect α) : Prop where
  change : effect.toolChange = effect.selected?.filter (· ≠ tool)
  command : ∀ command ∈ effect.command, command.line = line
  point : ∀ point ∈ effect.point,
    point.line = some line ∧ point.tool = effect.selected?.getD tool

theorem selectTool_spec (line : Nat) (word : Option α) (state : ReadingState α) :
    (selectTool line word state).1.tool = (word.bind selectedTool?).getD state.tool ∧
      (selectTool line word state).2.1 =
        (word.bind selectedTool?).filter (· ≠ state.tool) := by
  cases word with
  | none => exact ⟨rfl, rfl⟩
  | some value =>
      cases selected : selectedTool? value with
      | none => simp [selectTool, selected]
      | some tool =>
          by_cases same : tool = state.tool
          · simp [selectTool, selected, same, Option.filter]
          · simp [selectTool, selected, same, Option.filter]

theorem moveTo_spec (line : Nat) (parameters : Parameters α) (comment : Option String)
    (state : ReadingState α) :
    (moveTo line parameters comment state).1.tool = state.tool ∧
      ∀ point ∈ (moveTo line parameters comment state).2.1,
        point.line = some line ∧ point.tool = state.tool := by
  cases motion : motionOf? state parameters with
  | none => simp [moveTo, motion]
  | some found => simp [moveTo, motion]

variable (calculate : String → Except String α)

theorem readWords_follows (line : Nat) (raw : String) (code : List Char)
    (comment : Option String) (state : ReadingState α) :
    (readWords calculate line raw code comment state).1.Follows line state.tool ∧
      (readWords calculate line raw code comment state).2.tool =
        (readWords calculate line raw code comment state).1.selected?.getD state.tool := by
  simp only [readWords]
  generalize (tokenize code).foldl (WordReading.add calculate state.assigned line) {} = words
  generalize isFed : ({ state with
      modal := words.codes.foldl ModalState.apply state.modal
      feed := (words.parameters.get? 'F').or state.feed
      spindle := (words.parameters.get? 'S').or state.spindle } : ReadingState α) = fed
  have unchanged : fed.tool = state.tool := by rw [← isFed]
  obtain ⟨tooled, changed⟩ := selectTool_spec line (words.parameters.get? 'T') fed
  rw [unchanged] at tooled changed
  generalize selectTool line (words.parameters.get? 'T') fed = selection at tooled changed ⊢
  obtain ⟨after, toolChange, faults⟩ := selection
  obtain ⟨moved, pointed⟩ := moveTo_spec line words.parameters comment after
  refine ⟨⟨changed, ?_, ?_⟩, ?_⟩
  · intro command isCommand
    obtain rfl := Option.some.inj isCommand
    rfl
  · dsimp only
    split
    · intro point isPoint
      obtain rfl := Option.some.inj isPoint
      exact ⟨rfl, tooled⟩
    · split
      · intro point isPoint
        obtain ⟨numbered, used⟩ := pointed point isPoint
        exact ⟨numbered, used.trans tooled⟩
      · exact fun point isPoint => nomatch isPoint
  · dsimp only
    split
    · exact tooled
    · split
      · exact moved.trans tooled
      · exact tooled

theorem readLine_follows (line : Nat) (written : List Char) (state : ReadingState α) :
    (readLine calculate line written state).1.Follows line state.tool ∧
      (readLine calculate line written state).2.tool =
        (readLine calculate line written state).1.selected?.getD state.tool := by
  have silent (warnings : List (Fault α)) :
      LineEffect.Follows (α := α) line state.tool { warnings } :=
    { change := rfl
      command := fun command isCommand => nomatch isCommand
      point := fun point isPoint => nomatch isPoint }
  simp only [readLine]
  split
  · exact ⟨silent [], rfl⟩
  · split
    · exact ⟨silent _, rfl⟩
    · exact readWords_follows calculate line _ _ _ state

/-- The effect at a place is that of the line at the place, read in some state. -/
theorem exists_of_getElem?_readLines {line : Nat} {state : ReadingState α}
    {written : List (List Char)} {index : Nat} {effect : LineEffect α}
    (isEffect : (readLines calculate line state written).1[index]? = some effect) :
    ∃ text before, written[index]? = some text ∧
      effect = (readLine calculate (line + index) text before).1 := by
  induction written generalizing line state index with
  | nil => cases isEffect
  | cons first rest ih =>
      cases index with
      | zero => exact ⟨first, state, rfl, (Option.some.inj isEffect).symm⟩
      | succ index =>
          obtain ⟨text, before, isText, given⟩ := ih isEffect
          refine ⟨text, before, isText, ?_⟩
          rw [given, Nat.add_right_comm, Nat.add_assoc]

/-- The effects of lines, numbered from `line` on, with a tool in force. -/
inductive Runs : Nat → Nat → List (LineEffect α) → Prop where
  | nil {line tool : Nat} : Runs line tool []
  | cons {line tool : Nat} {effect : LineEffect α} {effects : List (LineEffect α)}
      (follows : effect.Follows line tool)
      (rest : Runs (line + 1) (effect.selected?.getD tool) effects) :
      Runs line tool (effect :: effects)

theorem readLines_runs (line : Nat) (state : ReadingState α) (written : List (List Char)) :
    Runs line state.tool (readLines calculate line state written).1 := by
  induction written generalizing line state with
  | nil => exact .nil
  | cons first rest ih =>
      obtain ⟨follows, next⟩ := readLine_follows calculate line first state
      have after := ih (line + 1) (readLine calculate line first state).2
      rw [next] at after
      exact .cons follows after

namespace Runs

/-- The tool in force after effects is the one that their commands lead to. -/
theorem append_inv {line tool : Nat} {first second : List (LineEffect α)}
    (runs : Runs line tool (first ++ second)) :
    Runs line tool first ∧
      Runs (line + first.length)
        (toolAfter tool (first.filterMap LineEffect.command)) second := by
  induction first generalizing line tool with
  | nil => exact ⟨.nil, runs⟩
  | cons effect rest ih =>
      cases runs with
      | cons follows after =>
          obtain ⟨front, back⟩ := ih after
          refine ⟨.cons follows front, ?_⟩
          have counted : line + (effect :: rest).length = line + 1 + rest.length := by
            simp only [List.length_cons]
            omega
          have active : toolAfter tool ((effect :: rest).filterMap LineEffect.command) =
              toolAfter (effect.selected?.getD tool)
                (rest.filterMap LineEffect.command) := by
            cases given : effect.command with
            | none => simp [given, LineEffect.selected?]
            | some command => simp [given, LineEffect.selected?, toolAfter]
          rw [counted, active]
          exact back

theorem point_line {line tool : Nat} {effects : List (LineEffect α)}
    (runs : Runs line tool effects) :
    ∀ point ∈ effects.filterMap LineEffect.point,
      ∃ number, point.line = some number ∧ line ≤ number ∧
        number < line + effects.length := by
  induction runs with
  | nil =>
      intro point isPoint
      cases isPoint
  | @cons line tool effect effects follows _ ih =>
      intro point isListed
      obtain ⟨source, isSource, isPoint⟩ := List.mem_filterMap.mp isListed
      rcases List.mem_cons.mp isSource with rfl | later
      · have numbered := (follows.point point isPoint).1
        refine ⟨line, numbered, Nat.le_refl line, ?_⟩
        simp only [List.length_cons]
        omega
      · obtain ⟨number, numbered, low, high⟩ :=
          ih point (List.mem_filterMap.mpr ⟨source, later, isPoint⟩)
        refine ⟨number, numbered, by omega, ?_⟩
        simp only [List.length_cons]
        omega

end Runs

end Milling.Program
