import Milling.Posting.Poster
import Milling.Proofs.Posting.Path

/-!
# The frame of a program

What stands before and after the points of a path: remarks, the line that sets
the modes, the table of tools, and the moves to safety and back.
-/

namespace Milling

namespace Posting

open Program (IsWord IsNote Gathers Parameters ReadingState noted)

variable {α : Type} [Scalar α] {calculate : String → Except String α}
  {dialect : Dialect} {stage : Stage α}

section Remarks

theorem passes_comment (dialect : Dialect) {text : Line} (oneLine : '\n' ∉ text)
    (stage : Stage α) :
    Passes calculate [dialect.comment text] stage stage (· = []) := by
  have inside := newline_notMem_comment dialect oneLine
  obtain ⟨first, rest, shape, starts⟩ :
      ∃ first rest, dialect.comment text = first :: rest ∧ startsComment first = true := by
    unfold Dialect.comment
    cases dialect.commentStyle with
    | semicolon => exact ⟨';', _, rfl, rfl⟩
    | parentheses => exact ⟨'(', _, rfl, rfl⟩
  rw [shape] at inside ⊢
  exact Passes.remark (.inl starts) inside stage

theorem passes_remarks {lines : List Line}
    (remarks : ∀ line ∈ lines, ∃ text, '\n' ∉ text ∧ line = dialect.comment text)
    (stage : Stage α) : Passes calculate lines stage stage (· = []) := by
  induction lines with
  | nil => exact Passes.nil stage
  | cons line lines ih =>
      obtain ⟨text, oneLine, rfl⟩ := remarks line List.mem_cons_self
      have later := ih fun other member => remarks other (List.mem_cons_of_mem _ member)
      have here : Passes calculate [dialect.comment text] stage stage (· = []) :=
        passes_comment dialect oneLine stage
      exact here.append_silent later

theorem passes_percent (stage : Stage α) :
    Passes calculate ["%".toList] stage stage (· = []) :=
  Passes.remark (.inr ⟨rfl, rfl⟩) (by decide) stage

theorem passes_programNumber {note : Option Line} (isNote : ∀ remark ∈ note, IsNote remark)
    (oneLine : ∀ remark ∈ note, '\n' ∉ remark) (stage : Stage α) :
    Passes calculate [noted ["O1000".toList] note] stage stage (· = []) := by
  have isPlain : ∀ word ∈ ["O1000".toList], IsWord word := by
    intro word member
    rw [List.mem_singleton.mp member]
    decide
  have kept : keepWords stage.inForce ["O1000".toList] =
      (stage.inForce, ["O1000".toList]) := rfl
  have gathers : Gathers (α := α) (keepWords stage.inForce ["O1000".toList]).2 [] [] := by
    rw [kept]
    exact .ignored (by decide) (by decide) .nil
  have noteKept : (keepWords stage.inForce ["O1000".toList]).2 = [] → note = none := by
    rw [kept]
    intro empty
    cases empty
  exact Passes.words (List.cons_ne_nil _ _) isPlain isNote oneLine noteKept gathers
    fun line comment => ⟨rfl, rfl⟩

theorem passes_programStart (builtIn : dialect.programStart ∈
      [[], ["%", "O1000"], ["%", "O1000 (PROGRAM NAME)"]]) (stage : Stage α) :
    Passes calculate (dialect.programStart.map String.toList) stage stage (· = []) := by
  simp only [List.mem_cons, List.not_mem_nil, or_false] at builtIn
  rcases builtIn with starts | starts | starts
  · rw [starts]
    exact Passes.nil stage
  · rw [starts]
    have number : Passes calculate [noted ["O1000".toList] none] stage stage (· = []) :=
      passes_programNumber (by simp) (by simp) stage
    exact (passes_percent stage).append_silent number
  · rw [starts]
    have isNote : IsNote "(PROGRAM NAME)".toList := .parentheses "PROGRAM NAME".toList (by decide)
    have number : Passes calculate [noted ["O1000".toList] (some "(PROGRAM NAME)".toList)]
        stage stage (· = []) :=
      passes_programNumber (by simpa using isNote) (by decide) stage
    exact (passes_percent stage).append_silent number

end Remarks

section Modes

def modeWords (units : Units) : List Line :=
  ["G17".toList, units.word.toList, "G40".toList, "G49".toList, "G54".toList, "G80".toList,
    "G90".toList, "G94".toList]

/-- The modes that the line sets. -/
def startModal (units : Units) : Program.ModalState :=
  { motion := 80
    units := match units with
      | .millimeters => 21
      | .inches => 20 }

def readyToMove (units : Units) (tool : Nat) : ReadingState α :=
  { ReadingState.start tool with modal := startModal units }

def codeOfWord? (word : Line) : Option Program.Code := Program.Code.read? 'G' word.tail

theorem gathers_codes {words : List Line}
    (codes : ∀ word ∈ words, word = 'G' :: word.tail ∧
      (Decimal.Numeral.read? word.tail).isSome = true ∧ (codeOfWord? word).isSome = true) :
    Gathers (α := α) words (words.filterMap codeOfWord?) [] := by
  induction words with
  | nil => exact .nil
  | cons word words ih =>
      obtain ⟨shape, decimal, isCode⟩ := codes word List.mem_cons_self
      have later := ih fun other member => codes other (List.mem_cons_of_mem word member)
      obtain ⟨code, read⟩ := Option.isSome_iff_exists.mp isCode
      rw [List.filterMap_cons_some read, shape]
      exact .numbered (.inl rfl) decimal read later

theorem passes_modeLine (units : Units) (tool : Nat) :
    Passes calculate [("G17 " ++ units.word ++ " G40 G49 G54 G80 G90 G94").toList]
      { inForce := {}, reading := .start tool }
      { inForce := { motion := some 80 }, reading := (readyToMove units tool : ReadingState α) }
      (· = []) := by
  have line : ("G17 " ++ units.word ++ " G40 G49 G54 G80 G90 G94").toList =
      noted (modeWords units) none := by
    cases units <;> decide
  have kept : keepWords {} (modeWords units) =
      ({ motion := some 80 }, modeWords units) := by
    cases units <;> decide
  have isPlain : ∀ word ∈ modeWords units, IsWord word := by
    cases units <;> decide
  have gathers : Gathers (α := α) (keepWords {} (modeWords units)).2
      ((modeWords units).filterMap codeOfWord?) [] := by
    rw [kept]
    apply gathers_codes
    cases units <;> decide
  have noDwell : ((modeWords units).filterMap codeOfWord?).any
      (· == Program.Code.g 4) = false := by
    cases units <;> decide
  have modal : ((modeWords units).filterMap codeOfWord?).foldl Program.ModalState.apply {} =
      startModal units := by
    cases units <;> decide
  have prepared : ∀ line, (ReadingState.start tool).prepared line
      ((modeWords units).filterMap codeOfWord?) (Parameters.insertAll {} []) =
        (readyToMove units tool : ReadingState α) := by
    intro line
    have started : (ReadingState.start tool : ReadingState α).modal = {} := rfl
    simp only [ReadingState.prepared, started, modal]
    rfl
  have passes : Passes calculate [noted (modeWords units) none]
      { inForce := {}, reading := .start tool }
      { inForce := (keepWords {} (modeWords units)).1
        reading := (readyToMove units tool : ReadingState α) } (· = []) :=
    Passes.silent (List.cons_ne_nil _ _) isPlain gathers noDwell (by simp) prepared
  rw [kept] at passes
  rw [line]
  exact passes

end Modes

section Moves

variable [DecimalScalar α] {state : Emitted α} {feed : Option α}

/-- A rapid move to a position. -/
structure IsRapidTo (position : Position α) (point : MotionPoint α) : Prop where
  kind : point.kind = .rapid
  position : point.position = position

/-- Lines of one rapid to a position, after which the agreement still holds and the
retract height is what it was. -/
def TravelsTo (calculate : String → Except String α) (dialect : Dialect) (lines : List Line)
    (state : Emitted α) (feed : Option α) (stage : Stage α) (position : Position α) : Prop :=
  ∃ after,
    Passes calculate lines stage after
      (fun given => ∃ point, given = [point] ∧ IsRapidTo position point) ∧
    Follows dialect state feed after ∧ after.reading.position = position ∧
    after.reading.retract = stage.reading.retract

theorem Follows.rapid (follows : Follows dialect state feed stage)
    {entries : List (Char × α)} (plain : PlainEntries entries)
    (axis : ∃ entry ∈ entries, entry.1 ∈ ['X', 'Y', 'Z', 'A'])
    (noRotary : (dialect.roundedEntries entries).reverse.lookup 'A' = none)
    {position : Position α}
    (target : ∀ parameters : Parameters α,
      (∀ wanted ∈ plainLetters, parameters.get? wanted =
        (dialect.roundedEntries entries).reverse.lookup wanted) →
      Program.targetPosition stage.reading parameters = position) :
    TravelsTo calculate dialect [noted ("G0".toList :: dialect.entryWords entries) none]
      state feed stage position := by
  let moving : ReadingState α := inMotion dialect stage.reading 0 none
  have absolute : moving.modal.distance = 90 := follows.absolute
  let after : Stage α :=
    { inForce := { stage.inForce with motion := some 0 }
      reading := { moving with position } }
  have moved : ∀ line comment (parameters : Parameters α),
      (∀ wanted ∈ plainLetters, parameters.get? wanted =
        (dialect.roundedEntries entries).reverse.lookup wanted) →
      (Program.moveTo line parameters comment moving).1 = after.reading ∧
        ∃ point, (Program.moveTo line parameters comment moving).2.1.toList = [point] ∧
          IsRapidTo position point := by
    intro line comment parameters carries
    have reached : Program.targetPosition moving parameters = position :=
      target parameters carries
    have angle : parameters.get? 'A' = none := by
      rw [carries 'A' (by decide), noRotary]
    have rotary : Program.targetRotary moving parameters = moving.rotary := by
      rw [Program.targetRotary, angle]
    have motion : Program.motionOf? moving parameters = some (.rapid, moving.retract) := rfl
    simp only [Program.moveTo, reached, rotary, motion]
    exact ⟨rfl, _, rfl, rfl, rfl⟩
  have passes : Passes calculate
      [noted ("G0".toList :: (dialect.entryWords entries ++ dialect.entryWords (entry 'F' none)))
        none] stage after
      (fun given => ∃ point, given = [point] ∧ IsRapidTo position point) :=
    Passes.move dialect isMotionWord_rapid follows.motion plain axis (by simp) (by simp)
      (by simp) (by simp) moved
  have noFeed : dialect.entryWords (entry 'F' (none : Option α)) = [] := rfl
  rw [noFeed, List.append_nil] at passes
  exact ⟨after, passes, { follows with motion := rfl, absolute }, rfl, rfl⟩

omit [DecimalScalar α] in
theorem heightMove_eq (dialect : Dialect) (z : α) :
    dialect.heightMove z = noted ["G0".toList, dialect.word 'Z' z] none := by
  rw [Program.noted_none, Program.joined_cons]
  simp [Dialect.heightMove]

theorem Follows.height (follows : Follows dialect state feed stage) {z : α}
    (finite : Scalar.isFinite z = true) :
    TravelsTo calculate dialect [dialect.heightMove z] state feed stage
      { stage.reading.position with z := dialect.rounded z } := by
  have plain : PlainEntries (entry 'Z' (some z)) :=
    .entry (by decide) (by simpa using finite)
  rw [heightMove_eq]
  refine follows.rapid plain ⟨('Z', z), by simp [entry], by simp⟩ (by simp) ?_
  intro parameters carries
  have notIncremental : stage.reading.modal.isIncremental = false := by
    simp [Program.ModalState.isIncremental, follows.absolute]
  simp [Program.targetPosition, Program.targetAlong, notIncremental,
    carries 'X' (by decide), carries 'Y' (by decide), carries 'Z' (by decide)]

theorem Follows.origin (follows : Follows dialect state feed stage) :
    TravelsTo calculate dialect [dialect.originMove (α := α)] state feed stage
      { stage.reading.position with x := dialect.rounded 0, y := dialect.rounded 0 } := by
  have finite : Scalar.isFinite (0 : α) = true :=
    DecimalScalar.isFinite_ofInt 0 (Nat.zero_le _)
  have plain : PlainEntries (entry 'X' (some (0 : α)) ++ entry 'Y' (some 0)) :=
    PlainEntries.append (.entry (by decide) (by simpa using finite))
      (.entry (by decide) (by simpa using finite))
  have line : dialect.originMove (α := α) =
      noted ("G0".toList :: dialect.entryWords (entry 'X' (some (0 : α)) ++ entry 'Y' (some 0)))
        none := by
    rw [Program.noted_none, Program.joined_cons]
    simp [Dialect.originMove, entryWords_append, entryWords_entry]
  rw [line]
  refine follows.rapid plain ⟨('X', 0), by simp [entry], by simp⟩
    (by simp [List.lookup_append]) ?_
  intro parameters carries
  have notIncremental : stage.reading.modal.isIncremental = false := by
    simp [Program.ModalState.isIncremental, follows.absolute]
  simp [Program.targetPosition, Program.targetAlong, notIncremental,
    carries 'X' (by decide), carries 'Y' (by decide), carries 'Z' (by decide),
    List.lookup_append]

end Moves

section Table

omit [Scalar α] in
/-- The tools of operations with that of one more, if it has a new number. -/
def collectTool (seen : List (Tool α)) (operation : Operation α) : List (Tool α) :=
  if seen.any fun tool => tool.number == operation.tool.number then seen
  else operation.tool :: seen

omit [Scalar α] in
theorem operationTools_eq (operations : List (Operation α)) :
    operationTools operations = (operations.foldl collectTool []).reverse := rfl

omit [Scalar α] in
private theorem mem_collected {operations : List (Operation α)} {seen : List (Tool α)}
    {tool : Tool α} (member : tool ∈ operations.foldl collectTool seen) :
    tool ∈ seen ∨ ∃ operation ∈ operations, operation.tool = tool := by
  induction operations generalizing seen with
  | nil => exact .inl member
  | cons operation operations ih =>
      rw [List.foldl_cons] at member
      rcases ih member with inSeen | ⟨later, isLater, same⟩
      · unfold collectTool at inSeen
        split at inSeen
        · exact .inl inSeen
        · rcases List.mem_cons.mp inSeen with rfl | earlier
          · exact .inr ⟨operation, List.mem_cons_self, rfl⟩
          · exact .inl earlier
      · exact .inr ⟨later, List.mem_cons_of_mem operation isLater, same⟩

omit [Scalar α] in
theorem mem_operationTools {operations : List (Operation α)} {tool : Tool α}
    (member : tool ∈ operationTools operations) :
    ∃ operation ∈ operations, operation.tool = tool := by
  rw [operationTools_eq] at member
  rcases mem_collected (List.mem_reverse.mp member) with inNone | found
  · simp at inNone
  · exact found

theorem toolTable_comments (dialect : Dialect) {operations : List (Operation α)}
    (texts : ∀ value : α, '\n' ∉ (Scalar.toText value).toList)
    (oneLine : ∀ operation ∈ operations, '\n' ∉ operation.tool.description.toList) :
    ∀ line ∈ toolTable dialect operations,
      ∃ text, '\n' ∉ text ∧ line = dialect.comment text := by
  have inTool : ∀ tool ∈ operationTools operations, '\n' ∉
      ("T" ++ toString tool.number ++ " - " ++
        (if tool.description.isEmpty then tool.kind.display else tool.description) ++ " - D" ++
        Scalar.toText tool.diameter ++ "mm").toList := by
    intro tool member
    obtain ⟨operation, isOperation, rfl⟩ := mem_operationTools member
    have inDescription := oneLine operation isOperation
    have inNumber : '\n' ∉ (toString operation.tool.number).toList := by
      rw [Decimal.toList_toString_natural]
      intro inside
      exact absurd (Decimal.isNumberChar_of_mem_fixedText inside) (by decide)
    have inKind : '\n' ∉ operation.tool.kind.display.toList := by
      cases operation.tool.kind <;> decide
    have inDiameter := texts operation.tool.diameter
    have chosen : '\n' ∉ (if operation.tool.description.isEmpty
        then operation.tool.kind.display else operation.tool.description).toList := by
      split
      · exact inKind
      · exact inDescription
    simp only [String.toList_append, List.mem_append, not_or]
    exact ⟨⟨⟨⟨⟨⟨by decide, inNumber⟩, by decide⟩, chosen⟩, by decide⟩, inDiameter⟩, by decide⟩
  intro line member
  unfold toolTable at member
  cases tools : operationTools operations with
  | nil =>
      rw [tools] at member
      cases member
  | cons first others =>
      simp only [tools] at member
      rcases List.mem_cons.mp member with rfl | inEntries
      · exact ⟨_, by decide, rfl⟩
      · obtain ⟨tool, isTool, rfl⟩ := List.mem_map.mp inEntries
        exact ⟨_, inTool tool (tools ▸ isTool), rfl⟩

theorem passes_toolTable [DecimalScalar α] (dialect : Dialect)
    {operations : List (Operation α)}
    (oneLine : ∀ operation ∈ operations, '\n' ∉ operation.tool.description.toList)
    (stage : Stage α) :
    Passes calculate (toolTable dialect operations) stage stage (· = []) :=
  passes_remarks
    (toolTable_comments dialect DecimalScalar.newline_notMem_toText oneLine) stage

end Table

section Ends

/-- A line of one auxiliary code puts the code in force and does nothing else. -/
theorem passes_auxiliary {digits : Line} {code : Program.Code}
    (plain : IsWord ('M' :: digits))
    (decimal : (Decimal.Numeral.read? digits).isSome = true)
    (read : Program.Code.read? 'M' digits = some code) (noDwell : code ≠ Program.Code.g 4)
    (stage : Stage α) :
    Passes calculate ['M' :: digits] stage
      { stage with reading := { stage.reading with
          modal := stage.reading.modal.apply code } } (· = []) := by
  have isPlain : ∀ word ∈ ['M' :: digits], IsWord word := by
    intro word member
    rw [List.mem_singleton.mp member]
    exact plain
  have kept : keepWords stage.inForce ['M' :: digits] = (stage.inForce, ['M' :: digits]) := by
    apply keepWords_others
    intro word member
    exact ⟨'M', digits, List.mem_singleton.mp member, by decide⟩
  have gathers : Gathers (α := α) (keepWords stage.inForce ['M' :: digits]).2 [code] [] := by
    rw [kept]
    exact .numbered (.inr rfl) decimal read .nil
  have passes : Passes calculate [noted ['M' :: digits] none] stage
      { inForce := (keepWords stage.inForce ['M' :: digits]).1
        reading := { stage.reading with modal := stage.reading.modal.apply code } } (· = []) :=
    Passes.silent (List.cons_ne_nil _ _) isPlain gathers (by simpa using noDwell) (by simp)
      fun line => rfl
  have line : noted ['M' :: digits] none = 'M' :: digits := by
    rw [Program.noted_none, Program.joined_cons, Program.spaced_nil, List.append_nil]
  rw [kept, line] at passes
  exact passes

theorem passes_programEnd (builtIn : dialect.programEnd ∈ [["M30"], ["M30", "%"]])
    (stage : Stage α) :
    Passes calculate (dialect.programEnd.map String.toList) stage stage (· = []) := by
  have ends : Passes calculate ["M30".toList] stage stage (· = []) :=
    passes_auxiliary (by decide) (by decide)
      (by decide : Program.Code.read? 'M' ['3', '0'] = some (Program.Code.m 30)) (by decide) stage
  simp only [List.mem_cons, List.not_mem_nil, or_false] at builtIn
  rcases builtIn with stops | stops
  · rw [stops]
    exact ends
  · rw [stops]
    exact ends.append_silent (passes_percent stage)

theorem Follows.stopsSpindle {state : Emitted α} {feed : Option α}
    (follows : Follows dialect state feed stage) :
    Settles calculate dialect ["M5".toList] state feed stage := by
  have stops : Passes calculate ["M5".toList] stage
      { stage with reading := { stage.reading with
          modal := { stage.reading.modal with spindle := 5 } } } (· = []) :=
    passes_auxiliary (by decide) (by decide)
      (by decide : Program.Code.read? 'M' ['5'] = some (Program.Code.m 5)) (by decide) stage
  exact ⟨_, stops, { follows with }, rfl, rfl⟩

/-- The spindle stops, the tool goes up and over the origin, and the program
ends. -/
theorem Follows.footer [DecimalScalar α] {state : Emitted α} {feed : Option α}
    (follows : Follows dialect state feed stage)
    (builtIn : dialect.programEnd ∈ [["M30"], ["M30", "%"]]) {safeZ : α}
    (finite : Scalar.isFinite safeZ = true) :
    ∃ after,
      Passes calculate (dialect.footer safeZ) stage after
        (fun given => ∃ up home, given = [up, home] ∧
          IsRapidTo { stage.reading.position with z := dialect.rounded safeZ } up ∧
          IsRapidTo (dialect.roundedPosition { x := 0, y := 0, z := safeZ }) home) := by
  have stopping : Settles calculate dialect ["M5".toList] state feed stage :=
    follows.stopsSpindle
  obtain ⟨stopped, stops, stoppedFollows, samePosition, _⟩ := stopping
  have raising : TravelsTo calculate dialect [dialect.heightMove safeZ] state feed stopped
      { stopped.reading.position with z := dialect.rounded safeZ } := stoppedFollows.height finite
  rw [samePosition] at raising
  obtain ⟨raised, raises, raisedFollows, height, _⟩ := raising
  have returning : TravelsTo calculate dialect [dialect.originMove (α := α)] state feed raised
      { raised.reading.position with x := dialect.rounded 0, y := dialect.rounded 0 } :=
    raisedFollows.origin
  obtain ⟨home, returns, _⟩ := returning
  rw [height] at returns
  have ends : Passes calculate (dialect.programEnd.map String.toList) home home (· = []) :=
    passes_programEnd builtIn home
  refine ⟨home, ?_⟩
  have back := returns.append ends fun left right holds empty => by
    rw [empty, List.append_nil]
    exact holds
  refine (stops.append_silent raises).append back ?_
  rintro left right ⟨up, rfl, isUp⟩ ⟨home, rfl, isHome⟩
  exact ⟨up, home, rfl, isUp, isHome⟩

end Ends

end Posting

end Milling
