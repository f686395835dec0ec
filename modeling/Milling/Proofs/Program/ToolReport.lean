import Milling.Expression.Evaluation
import Milling.Proofs.Program.Effect
import Milling.Proofs.Program.Gathering
import Milling.Proofs.Scalar.Order

/-!
# The report of tool changes

Tool words are looked at twice: while a program is read, and again in its
commands when the changes of tool are reported.  The report begins at the
default tool, whatever tool the reading began with, and a number beyond the
greatest tool number, which the reading refuses, counts there as the greatest
one.  Apart from these two differences the report has the changes that the
reading made.
-/

namespace Milling.Program

open ToolChange (greatestTool)

section Changes

variable {α : Type}

/-- The changes from a tool on where each command says what tool it is for. -/
def changesBy (toolOf? : Command α → Option Nat) (tool : Nat) : List (Command α) → List ToolChange
  | [] => []
  | command :: rest =>
      let next := (toolOf? command).getD tool
      if next = tool then changesBy toolOf? tool rest
      else { line := command.line, before := tool, after := next } :: changesBy toolOf? next rest

def lastTool (tool : Nat) (changes : List ToolChange) : Nat :=
  (changes.getLast?.map ToolChange.after).getD tool

theorem lastTool_cons (tool : Nat) (change : ToolChange) (changes : List ToolChange) :
    lastTool tool (change :: changes) = lastTool change.after changes := by
  rw [lastTool, lastTool, List.getLast?_cons]
  cases changes.getLast? <;> rfl

variable {toolOf? : Command α → Option Nat} {tool : Nat}

theorem lastTool_changesBy (commands : List (Command α)) :
    lastTool tool (changesBy toolOf? tool commands) =
      commands.foldl (fun active command => (toolOf? command).getD active) tool := by
  induction commands generalizing tool with
  | nil => rfl
  | cons command rest ih =>
      rw [changesBy, List.foldl_cons]
      by_cases same : (toolOf? command).getD tool = tool
      · rw [if_pos same, same, ih]
      · rw [if_neg same, lastTool_cons, ih]

theorem changesBy_append (first second : List (Command α)) :
    changesBy toolOf? tool (first ++ second) =
      changesBy toolOf? tool first ++
        changesBy toolOf?
          (first.foldl (fun active command => (toolOf? command).getD active) tool) second := by
  induction first generalizing tool with
  | nil => rfl
  | cons command rest ih =>
      simp only [List.cons_append, changesBy, List.foldl_cons]
      by_cases same : (toolOf? command).getD tool = tool
      · rw [if_pos same, if_pos same, same, ih]
      · rw [if_neg same, if_neg same, ih, List.cons_append]

theorem exists_of_mem_changesBy {commands : List (Command α)} {change : ToolChange}
    (member : change ∈ changesBy toolOf? tool commands) :
    ∃ command ∈ commands, change.line = command.line := by
  induction commands generalizing tool with
  | nil => cases member
  | cons command rest ih =>
      rw [changesBy] at member
      by_cases same : (toolOf? command).getD tool = tool
      · rw [if_pos same] at member
        obtain ⟨source, isSource, line⟩ := ih member
        exact ⟨source, List.mem_cons_of_mem _ isSource, line⟩
      · rw [if_neg same] at member
        rcases List.mem_cons.mp member with rfl | later
        · exact ⟨command, List.mem_cons_self, rfl⟩
        · obtain ⟨source, isSource, line⟩ := ih later
          exact ⟨source, List.mem_cons_of_mem _ isSource, line⟩

theorem changesBy_ne_cons {commands : List (Command α)} {line : Nat}
    (beyond : ∀ command ∈ commands, line < command.line) (before after : Nat)
    (changes : List ToolChange) :
    changesBy toolOf? tool commands ≠ { line, before, after } :: changes := by
  intro same
  obtain ⟨command, isCommand, onLine⟩ :=
    exists_of_mem_changesBy (same ▸ List.mem_cons_self : _ ∈ changesBy toolOf? tool commands)
  exact absurd onLine (beyond command isCommand).ne

/-- Changes follow one another: each is from the tool that the one before led to. -/
theorem changesBy_chained {commands : List (Command α)} {before after : List ToolChange}
    {change : ToolChange}
    (split : changesBy toolOf? tool commands = before ++ change :: after) :
    change.before = lastTool tool before ∧ change.after ≠ change.before := by
  induction commands generalizing tool before with
  | nil => simp [changesBy] at split
  | cons command rest ih =>
      rw [changesBy] at split
      by_cases same : (toolOf? command).getD tool = tool
      · rw [if_pos same] at split
        exact ih split
      · rw [if_neg same] at split
        cases before with
        | nil =>
            obtain ⟨rfl, _⟩ := List.cons.inj split
            exact ⟨rfl, same⟩
        | cons first before =>
            obtain ⟨rfl, later⟩ := List.cons.inj split
            rw [lastTool_cons]
            exact ih later

theorem filter_changesBy_append {first second : List (Command α)} {line : Nat}
    (upTo : ∀ command ∈ first, command.line ≤ line)
    (beyond : ∀ command ∈ second, line < command.line) :
    (changesBy toolOf? tool (first ++ second)).filter (·.line ≤ line) =
      changesBy toolOf? tool first := by
  have kept : ∀ change ∈ changesBy toolOf? tool first, change.line ≤ line := by
    intro change member
    obtain ⟨command, isCommand, same⟩ := exists_of_mem_changesBy member
    exact same ▸ upTo command isCommand
  have left : ∀ start, ∀ change ∈ changesBy toolOf? start second, ¬change.line ≤ line := by
    intro start change member
    obtain ⟨command, isCommand, same⟩ := exists_of_mem_changesBy member
    exact same ▸ Nat.not_le_of_lt (beyond command isCommand)
  rw [changesBy_append, List.filter_append, List.filter_eq_self.mpr (by simpa using kept),
    List.filter_eq_nil_iff.mpr (by simpa using left _), List.append_nil]

end Changes

section Agreement

variable {α : Type} [Scalar α]

/-- The tool that the tool word of a command selects in the report. -/
def Command.reported? (command : Command α) : Option Nat :=
  (command.get? 'T').bind (Command.toolNumber? greatestTool)

/-- The tool word of a command has a whole number beyond the tool numbers. -/
def Command.IsTooGreat (command : Command α) : Prop :=
  ∃ value, command.get? 'T' = some value ∧ 0 ≤ value ∧ Scalar.isWhole value = true ∧
    ¬value ≤ Scalar.ofInt greatestTool

theorem ofCommands_eq (tool : Nat) (commands : List (Command α)) :
    ToolChange.ofCommands tool commands = changesBy Command.reported? tool commands := by
  induction commands generalizing tool with
  | nil => rfl
  | cons command rest ih =>
      rw [ToolChange.ofCommands, changesBy, ← Command.reported?]
      cases command.reported? with
      | none => simp [ih]
      | some next => simp [ih]

/-- The two ways to look at a tool word differ only for numbers that are too great. -/
theorem Command.reported?_cases [ToolScalar α] (command : Command α) :
    (command.IsTooGreat ∧ command.selected? = none ∧
        command.reported? = some greatestTool) ∨
      (¬command.IsTooGreat ∧ command.reported? = command.selected?) := by
  cases word : command.get? 'T' with
  | none =>
      refine .inr ⟨?_, by rw [reported?, selected?, word]; rfl⟩
      rintro ⟨value, given, _⟩
      rw [word] at given
      cases given
  | some value =>
      rw [reported?, selected?, word, Option.bind_some, Option.bind_some, toolNumber?,
        selectedTool?]
      by_cases natural : 0 ≤ value ∧ Scalar.isWhole value = true
      · have finite : Scalar.isFinite value = true := (Bool.and_eq_true_iff.mp natural.2).1
        by_cases bounded : value ≤ Scalar.ofInt greatestTool
        · have below := ToolScalar.floor_le value finite bounded
          have least : min (Scalar.floor value).toNat greatestTool =
              (Scalar.floor value).toNat := by omega
          refine .inr ⟨?_, by simp [natural, bounded, least]⟩
          rintro ⟨other, given, _, _, beyond⟩
          obtain rfl := Option.some.inj (word.symm.trans given)
          exact beyond bounded
        · have above := ToolScalar.le_floor value finite bounded
          have least : min (Scalar.floor value).toNat greatestTool = greatestTool := by omega
          exact .inl ⟨⟨value, word, natural.1, natural.2, bounded⟩, by simp [bounded],
            by simp [natural, least]⟩
      · have refused : (decide (0 ≤ value) && Scalar.isWhole value) = false := by
          simpa using natural
        refine .inr ⟨?_, by simp [refused]⟩
        rintro ⟨other, given, positive, whole, _⟩
        obtain rfl := Option.some.inj (word.symm.trans given)
        exact natural ⟨positive, whole⟩

/-- When the report from one tool on has the changes that are made from another on. -/
structure Agree (tool reported : Nat) (commands : List (Command α)) : Prop where
  start : tool = reported ∨ ∀ command ∈ commands, command.selected? = none
  greatest : ∀ earlier command later, commands = earlier ++ command :: later →
    command.IsTooGreat → toolAfter reported earlier = greatestTool

theorem agree_cons_iff {tool reported : Nat} {command : Command α} {rest : List (Command α)} :
    Agree tool reported (command :: rest) ↔
      (tool = reported ∨ command.selected? = none) ∧
        (command.IsTooGreat → reported = greatestTool) ∧
        Agree (command.selected?.getD tool) (command.selected?.getD reported) rest := by
  constructor
  · rintro ⟨start, greatest⟩
    refine ⟨start.imp_right fun none => none command List.mem_cons_self,
      greatest [] command rest rfl, ?_, ?_⟩
    · exact start.imp (congrArg command.selected?.getD)
        fun none other member => none other (List.mem_cons_of_mem _ member)
    · exact fun earlier other later split =>
        greatest (command :: earlier) other later (congrArg (command :: ·) split)
  · rintro ⟨start, first, agree⟩
    refine ⟨?_, ?_⟩
    · rcases start with same | none
      · exact .inl same
      · refine agree.start.imp (by simp [none]) fun others other member => ?_
        rcases List.mem_cons.mp member with rfl | later
        · exact none
        · exact others other later
    · intro earlier other later split
      cases earlier with
      | nil =>
          obtain ⟨rfl, _⟩ := List.cons.inj split
          exact first
      | cons head earlier =>
          obtain ⟨rfl, following⟩ := List.cons.inj split
          exact agree.greatest earlier other later following

theorem changesBy_eq_iff [ToolScalar α] {tool reported : Nat} {commands : List (Command α)}
    (sorted : commands.Pairwise fun first second => first.line < second.line) :
    changesBy Command.reported? reported commands = changesBy Command.selected? tool commands ↔
      Agree tool reported commands := by
  induction commands generalizing tool reported with
  | nil =>
      refine ⟨fun _ => ⟨.inr (by simp), ?_⟩, fun _ => rfl⟩
      intro earlier command later split
      simp at split
  | cons command rest ih =>
      obtain ⟨beyond, sorted⟩ := List.pairwise_cons.mp sorted
      rw [agree_cons_iff, changesBy, changesBy]
      rcases command.reported?_cases with ⟨great, refused, counted⟩ | ⟨small, counted⟩
      · rw [counted, refused, Option.getD_some, Option.getD_none, Option.getD_none, if_pos rfl]
        -- Only the report changes on this line, unless it has the greatest tool already.
        by_cases same : greatestTool = reported
        · simp [same, ih sorted]
        · rw [if_neg same]
          constructor
          · exact fun equal => absurd equal.symm (changesBy_ne_cons beyond _ _ _)
          · exact fun ⟨_, first, _⟩ => absurd (first great).symm same
      · rw [counted]
        cases selected : command.selected? with
        | none => simp [small, ih sorted]
        | some next =>
            simp only [Option.getD_some]
            by_cases same : tool = reported
            · subst same
              by_cases kept : next = tool <;> simp [kept, small, ih sorted]
            · -- The changes on this line come from two tools, or there is only one.
              refine ⟨fun equal => ?_, fun ⟨start, _⟩ => absurd start (by simp [same])⟩
              by_cases made : next = tool
              · have differs : next ≠ reported := made ▸ same
                rw [if_neg differs, if_pos made] at equal
                exact absurd equal.symm (changesBy_ne_cons beyond _ _ _)
              · rw [if_neg made] at equal
                by_cases unseen : next = reported
                · rw [if_pos unseen] at equal
                  exact absurd equal (changesBy_ne_cons beyond _ _ _)
                · rw [if_neg unseen] at equal
                  have heads := (List.cons.inj equal).1
                  exact absurd (congrArg ToolChange.before heads).symm same

end Agreement

section Reading

variable {α : Type} [Scalar α]

namespace Runs

theorem command_line {line tool : Nat} {effects : List (LineEffect α)}
    (runs : Runs line tool effects) :
    ∀ command ∈ effects.filterMap LineEffect.command,
      line ≤ command.line ∧ command.line < line + effects.length := by
  induction runs with
  | nil => simp
  | @cons line tool effect effects follows _ ih =>
      intro command isListed
      obtain ⟨source, isSource, isCommand⟩ := List.mem_filterMap.mp isListed
      rw [List.length_cons]
      rcases List.mem_cons.mp isSource with rfl | later
      · have numbered := follows.command command isCommand
        omega
      · have bounds := ih command (List.mem_filterMap.mpr ⟨source, later, isCommand⟩)
        omega

theorem commands_sorted {line tool : Nat} {effects : List (LineEffect α)}
    (runs : Runs line tool effects) :
    (effects.filterMap LineEffect.command).Pairwise
      fun first second => first.line < second.line := by
  induction runs with
  | nil => exact .nil
  | @cons line tool effect effects follows rest ih =>
      cases given : effect.command with
      | none => simpa [given] using ih
      | some command =>
          rw [List.filterMap_cons_some given]
          refine .cons (fun other isOther => ?_) ih
          have numbered := follows.command command given
          have beyond := (rest.command_line other isOther).1
          omega

theorem point_tool {line tool : Nat} {effects : List (LineEffect α)}
    (runs : Runs line tool effects) :
    ∀ point ∈ effects.filterMap LineEffect.point,
      ∃ number, point.line = some number ∧
        point.tool = lastTool tool
          ((changesBy Command.selected? tool (effects.filterMap LineEffect.command)).filter
            (·.line ≤ number)) := by
  intro point isListed
  obtain ⟨effect, isEffect, isPoint⟩ := List.mem_filterMap.mp isListed
  obtain ⟨front, back, rfl⟩ := List.append_of_mem isEffect
  obtain ⟨earlier, following⟩ := runs.append_inv
  cases following with
  | cons follows later =>
      obtain ⟨numbered, used⟩ := follows.point point isPoint
      refine ⟨line + front.length, numbered, ?_⟩
      rw [← List.singleton_append, ← List.append_assoc, List.filterMap_append,
        filter_changesBy_append, lastTool_changesBy, used]
      · rw [toolAfter, List.filterMap_append, List.foldl_append]
        cases given : effect.command <;> simp [given, LineEffect.selected?]
      · intro command isCommand
        rw [List.filterMap_append, List.mem_append] at isCommand
        rcases isCommand with inFront | isLast
        · exact (earlier.command_line command inFront).2.le
        · obtain ⟨source, isSource, isGiven⟩ := List.mem_filterMap.mp isLast
          obtain rfl := List.mem_singleton.mp isSource
          exact (follows.command command isGiven).le
      · intro command isCommand
        exact (later.command_line command isCommand).1

end Runs

variable (calculate : String → Except String α)

/-- The changes of tool while lines are read, each with the number of its line. -/
def changesMade (line : Nat) (state : ReadingState α) : List (List Char) → List ToolChange
  | [] => []
  | written :: rest =>
      let next := (readLine calculate line written state).2
      if next.tool = state.tool then changesMade (line + 1) next rest
      else
        { line, before := state.tool, after := next.tool } :: changesMade (line + 1) next rest

theorem changesMade_eq (line : Nat) (state : ReadingState α) (written : List (List Char)) :
    changesMade calculate line state written =
      changesBy Command.selected? state.tool
        ((readLines calculate line state written).1.filterMap LineEffect.command) := by
  induction written generalizing line state with
  | nil => rfl
  | cons first rest ih =>
      obtain ⟨follows, next⟩ := readLine_follows calculate line first state
      have later := ih (line + 1) (readLine calculate line first state).2
      simp only [changesMade, readLines]
      rw [later, next]
      cases given : (readLine calculate line first state).1.command with
      | none => simp [given, LineEffect.selected?]
      | some command =>
          have numbered := follows.command command given
          rw [List.filterMap_cons_some given, changesBy, numbered, LineEffect.selected?, given,
            Option.bind_some]
          by_cases same : command.selected?.getD state.tool = state.tool
          · rw [if_pos same, if_pos same, same]
          · rw [if_neg same, if_neg same]

/-- What a list of changes tells of a program that was read from a tool on. -/
structure Outcome.Tells (outcome : Outcome α) (tool : Nat) (changes : List ToolChange) :
    Prop where
  chained : ∀ before change after, changes = before ++ change :: after →
    change.before = lastTool tool before ∧ change.after ≠ change.before
  points : ∀ point ∈ outcome.toolpath.points, ∃ line, point.line = some line ∧
    point.tool = lastTool tool (changes.filter (·.line ≤ line))

/-- The changes made tell the tool of every point.  The report has the same changes exactly
if the reading began with the default tool or accepts no tool word, and numbers that are
too great come only where the report has the greatest tool. -/
theorem toolChanges_eq_iff [ToolScalar α] (tool : Nat) (text : String) :
    let outcome := readProgram calculate tool text
    let changes := changesMade calculate 1 (.start tool) (textLines text.toList)
    outcome.Tells tool changes ∧
      (outcome.toolChanges = changes ↔ Agree tool defaultTool outcome.commands) := by
  have runs : Runs 1 tool (readLines calculate 1 (.start tool) (textLines text.toList)).1 :=
    readLines_runs calculate 1 (.start tool) (textLines text.toList)
  have points : (readProgram calculate tool text).toolpath.points =
      (readLines calculate 1 (.start tool) (textLines text.toList)).1.filterMap
        LineEffect.point := wholePath_points _
  dsimp only
  rw [changesMade_eq, Outcome.toolChanges, ofCommands_eq]
  refine ⟨⟨fun before change after => changesBy_chained, ?_⟩,
    changesBy_eq_iff runs.commands_sorted⟩
  rw [points]
  exact runs.point_tool

/-- Two changes of tool and a word that is no tool number. -/
def changedText : String := "G0 X1\nT3\nX2\nT1.5 X3\nT2 X4"

def changedTools : List ToolChange :=
  [{ line := 2, before := 1, after := 3 }, { line := 5, before := 3, after := 2 }]

theorem toolChanges_eq_iff_changed :
    let outcome := readProgram Expression.number 1 changedText
    outcome.Tells 1 changedTools ∧ Agree 1 defaultTool outcome.commands := by
  obtain ⟨tells, same⟩ := toolChanges_eq_iff Expression.number 1 changedText
  have made : changesMade Expression.number 1 (.start 1) (textLines changedText.toList) =
      changedTools := by
    decide +kernel
  have reported : (readProgram Expression.number 1 changedText).toolChanges = changedTools := by
    decide +kernel
  exact ⟨made ▸ tells, same.mp (reported.trans made.symm)⟩

/-- A tool number that is refused, then the tool that is in force. -/
def refusedText : String := "T4294967296\nG0 X1\nT5\nG0 X2"

/-- Read from tool 5 on, a program without a change of tool is reported with two. -/
theorem toolChanges_refused :
    let outcome := readProgram Expression.number 5 refusedText
    outcome.toolChanges =
        [{ line := 1, before := 1, after := 4294967295 },
          { line := 3, before := 4294967295, after := 5 }] ∧
      changesMade Expression.number 1 (.start 5) (textLines refusedText.toList) = [] ∧
      ¬outcome.Tells 5 outcome.toolChanges := by
  have reported : (readProgram Expression.number 5 refusedText).toolChanges =
      [{ line := 1, before := 1, after := 4294967295 },
        { line := 3, before := 4294967295, after := 5 }] := by
    decide +kernel
  refine ⟨reported, by decide +kernel, fun tells => ?_⟩
  have first : 1 = lastTool 5 [] := (tells.chained [] _ _ reported).1
  cases first

end Reading

end Milling.Program
