import Milling.Proofs.Posting.Move

/-!
# Lines between the points

The writer remembers what it has set, compaction remembers what is in force,
and the reading has a state of its own.  `Follows` says that the three agree,
and the lines that set the tool, the spindle and the end of a cycle keep it.
-/

namespace Milling

section Texts

theorem Decimal.fixedText_zero_natural (value : Nat) :
    Decimal.fixedText 0 value = Nat.toDigits 10 value := by
  simp [Decimal.fixedText, Decimal.fixedMagnitude_zero]

theorem Decimal.toList_toString_natural (value : Nat) :
    (toString value).toList = Decimal.fixedText 0 value := by
  rw [Decimal.fixedText_zero_natural]
  simp [toString, Nat.repr]

theorem Decimal.toList_toString_whole (value : Int) :
    (toString value).toList = Decimal.fixedText 0 value := by
  cases value with
  | ofNat magnitude => exact Decimal.toList_toString_natural magnitude
  | negSucc magnitude =>
      have negative : Int.negSucc magnitude < 0 := Int.negSucc_lt_zero magnitude
      have written : (toString (Int.negSucc magnitude)).toList =
          '-' :: (toString (magnitude + 1)).toList := by
        simp [toString, Int.repr]
      rw [written, Decimal.toList_toString_natural, Decimal.fixedText_zero_natural,
        Decimal.fixedText, if_pos negative, Decimal.fixedMagnitude_zero]
      rfl

end Texts

namespace Posting

open Program (IsWord Gathers Parameters ReadingState noted)

variable {α : Type} [Scalar α]

/-- What the writer has set is what compaction and the reading have reached.
Of the feeds only what they round to counts. -/
structure Follows (dialect : Dialect) (state : Emitted α) (feed : Option α)
    (stage : Stage α) : Prop where
  motion : stage.inForce.motion = some stage.reading.modal.motion
  absolute : stage.reading.modal.distance = 90
  tool : ∀ tool ∈ state.tool, stage.reading.tool = tool
  finite : ∀ value ∈ state.feed, Scalar.isFinite value = true
  written : stage.inForce.feed = state.feed.map dialect.numberText
  read : stage.reading.feed = state.feed.map dialect.rounded
  latest : state.feed.map dialect.rounded = feed.map dialect.rounded

variable {calculate : String → Except String α} {dialect : Dialect}
  {state : Emitted α} {feed : Option α} {stage : Stage α}

theorem isWord_whole (letter : Char) (capital : letter.isUpper = true) (value : Int) :
    IsWord (letter :: (toString value).toList) := by
  rw [Decimal.toList_toString_whole]
  exact .intro letter _ capital (Decimal.fixedText_ne_nil 0 value)
    fun character member => Decimal.isNumberChar_of_mem_fixedText member

theorem numberValue_whole [DecimalScalar α] (value : Int) :
    Program.numberValue (α := α) (toString value).toList =
      .number (Scalar.ofDecimal (decide (value < 0)) value.natAbs 0) := by
  rw [Decimal.toList_toString_whole]
  exact Dialect.numberValue_of_reads (Decimal.Numeral.reads_fixedText 0 value)

section Silent

/-- A line of codes and numbers that name no place gives no point. -/
theorem Passes.silent {words : List Line} (nonempty : words ≠ [])
    (plain : ∀ word ∈ words, IsWord word) {codes : List Program.Code}
    {entries : List (Char × α)}
    (gathers : Gathers (keepWords stage.inForce words).2 codes entries)
    (noDwell : codes.any (· == Program.Code.g 4) = false)
    (noAxis : ∀ entry ∈ entries, entry.1 ∉ ['X', 'Y', 'Z', 'A'])
    {next : ReadingState α}
    (prepared : ∀ line, stage.reading.prepared line codes
      (Parameters.insertAll {} entries) = next) :
    Passes calculate [noted words none] stage
      { inForce := (keepWords stage.inForce words).1, reading := next } (· = []) := by
  let parameters : Parameters α := Parameters.insertAll {} entries
  have absent : ['X', 'Y', 'Z', 'A'].any parameters.has = false := by
    rw [List.any_eq_false]
    intro axis isAxis
    have missing : entries.reverse.lookup axis = none := by
      rw [List.lookup_eq_none_iff]
      intro entry member
      have other := noAxis entry (List.mem_reverse.mp member)
      simp only [bne_iff_ne]
      rintro rfl
      exact other isAxis
    simp [Parameters.has, parameters, Parameters.get?_insertAll, missing]
  refine Passes.words nonempty plain (by simp) (by simp) (by simp) gathers ?_
  intro line comment
  have obeyed : Program.obey line comment codes parameters stage.reading =
      (none, next) := by
    simp [Program.obey, noDwell, absent, parameters, prepared]
  rw [obeyed]
  exact ⟨rfl, rfl⟩

end Silent

section Tool

theorem passes_toolLine [DecimalScalar α] {tool : Nat}
    (bounded : tool ≤ Program.ToolChange.greatestTool) (stage : Stage α) :
    Passes calculate [toolLine tool] stage
      { stage with reading := { stage.reading with tool } } (· = []) := by
  have numeric := numberValue_whole (α := α) (tool : Int)
  have notNegative : decide ((tool : Int) < 0) = false := by simp
  rw [notNegative] at numeric
  let toolWord : Line := 'T' :: (toString tool).toList
  let words : List Line := [toolWord, "M6".toList]
  have line : toolLine tool = noted words none := by
    rw [Program.noted_none, Program.joined_cons]
    rfl
  have isPlain : ∀ word ∈ words, IsWord word := by
    intro word member
    simp only [words, List.mem_cons, List.not_mem_nil, or_false] at member
    rcases member with rfl | rfl
    · exact isWord_whole 'T' (by decide) (tool : Int)
    · decide
  have kept : keepWords stage.inForce words = (stage.inForce, words) := by
    apply keepWords_others
    intro word member
    simp only [words, List.mem_cons, List.not_mem_nil, or_false] at member
    rcases member with rfl | rfl
    · exact ⟨'T', _, rfl, by decide⟩
    · exact ⟨'M', _, rfl, by decide⟩
  have change : Gathers (α := α) ["M6".toList] [Program.Code.m 6] [] :=
    .numbered (.inr rfl) (by decide) (by decide) .nil
  have gathers : Gathers (keepWords stage.inForce words).2 [Program.Code.m 6]
      [('T', (Scalar.ofDecimal false tool 0 : α))] := by
    rw [kept]
    exact .parameter (by decide) numeric change
  have prepared : ∀ line, stage.reading.prepared line [Program.Code.m 6]
      (Parameters.insertAll {} [('T', (Scalar.ofDecimal false tool 0 : α))]) =
        { stage.reading with tool } := fun line =>
    Program.selectTool_fst (DecimalScalar.selectedTool?_ofDecimal bounded) line stage.reading
  have passes : Passes calculate [noted words none] stage
      { inForce := (keepWords stage.inForce words).1
        reading := { stage.reading with tool } } (· = []) :=
    Passes.silent (List.cons_ne_nil _ _) isPlain gathers (by decide) (by simp) prepared
  rw [kept] at passes
  rw [line]
  exact passes

end Tool

section Spindle

theorem keepWords_starts {starts : List Line} (start : starts = [] ∨ starts = ["M3".toList])
    (inForce : InForce) : keepWords inForce starts = (inForce, starts) := by
  apply keepWords_others
  intro word member
  rcases start with rfl | rfl
  · simp at member
  · exact ⟨'M', ['3'], List.mem_singleton.mp member, by decide⟩

theorem isWord_spindleWords (speed : Int) {starts : List Line}
    (start : starts = [] ∨ starts = ["M3".toList]) :
    ∀ word ∈ ('S' :: (toString speed).toList) :: starts, IsWord word := by
  intro word member
  rcases List.mem_cons.mp member with rfl | inStarts
  · exact isWord_whole 'S' (by decide) speed
  · rcases start with rfl | rfl
    · simp at inStarts
    · rw [List.mem_singleton.mp inStarts]
      decide

/-- The start of the spindle sets its direction and nothing else. -/
theorem exists_gathers_starts {starts : List Line}
    (start : starts = [] ∨ starts = ["M3".toList]) (modal : Program.ModalState) :
    ∃ codes turns, Gathers (α := α) starts codes [] ∧
      codes.foldl Program.ModalState.apply modal = { modal with spindle := turns } ∧
      codes.any (· == Program.Code.g 4) = false := by
  rcases start with rfl | rfl
  · exact ⟨[], modal.spindle, .nil, rfl, rfl⟩
  · exact ⟨[Program.Code.m 3], 3, .numbered (.inr rfl) (by decide) (by decide) .nil, rfl,
      by decide⟩

/-- A line of a spindle speed, with the start of the spindle or without, leaves
everything else as it is. -/
theorem passes_spindleWord [DecimalScalar α] (speed : Int) {starts : List Line}
    (start : starts = [] ∨ starts = ["M3".toList]) (stage : Stage α) :
    ∃ forced spindle turns,
      Passes calculate [noted (('S' :: (toString speed).toList) :: starts) none] stage
        { inForce := { stage.inForce with spindle := forced }
          reading := { stage.reading with
            modal := { stage.reading.modal with spindle := turns }
            spindle } } (· = []) := by
  let speedWord : Line := 'S' :: (toString speed).toList
  obtain ⟨forced, kept, keeps, keptCases⟩ :=
    keepWord_spindle stage.inForce (toString speed).toList
  have allKept : keepWords stage.inForce (speedWord :: starts) =
      ({ stage.inForce with spindle := forced }, kept.toList ++ starts) := by
    rw [keepWords_cons, keeps, keepWords_starts start]
  obtain ⟨value, speedGathers⟩ : ∃ value : Option α,
      Gathers kept.toList [] (entry 'S' value) := by
    rcases keptCases with rfl | rfl
    · exact ⟨none, .nil⟩
    · exact ⟨some _, .parameter (by decide) (numberValue_whole speed) .nil⟩
  obtain ⟨codes, turns, codeGathers, modal, noDwell⟩ :=
    exists_gathers_starts (α := α) start stage.reading.modal
  refine ⟨forced, value.or stage.reading.spindle, turns, ?_⟩
  have gathers : Gathers (keepWords stage.inForce (speedWord :: starts)).2 codes
      (entry 'S' value) := by
    rw [allKept]
    have both := speedGathers.append codeGathers
    simpa using both
  have prepared : ∀ line, stage.reading.prepared line codes
      (Parameters.insertAll {} (entry 'S' value)) =
        { stage.reading with
          modal := { stage.reading.modal with spindle := turns }
          spindle := value.or stage.reading.spindle } := by
    intro line
    simp [ReadingState.prepared, Parameters.get?_insertAll, Program.selectTool, modal]
  have noAxis : ∀ written ∈ entry 'S' value, written.1 ∉ ['X', 'Y', 'Z', 'A'] := by
    intro written member
    obtain ⟨number, _, rfl⟩ := Option.map_eq_some_iff.mp (Option.mem_toList.mp member)
    simp
  have passes : Passes calculate [noted (speedWord :: starts) none] stage
      { inForce := (keepWords stage.inForce (speedWord :: starts)).1
        reading := { stage.reading with
          modal := { stage.reading.modal with spindle := turns }
          spindle := value.or stage.reading.spindle } } (· = []) :=
    Passes.silent (List.cons_ne_nil speedWord starts) (isWord_spindleWords speed start) gathers
      noDwell noAxis prepared
  rw [allKept] at passes
  exact passes

end Spindle

section Cycle

/-- The end of a cycle cancels the motion. -/
theorem passes_cancel (agrees : stage.inForce.motion = some stage.reading.modal.motion) :
    Passes calculate ["G80".toList] stage
      { inForce := { stage.inForce with motion := some 80 }
        reading := { stage.reading with
          modal := { stage.reading.modal with motion := 80 } } } (· = []) := by
  have kept : keepWords stage.inForce ["G80".toList] =
      ({ stage.inForce with motion := some 80 },
        (keepWord stage.inForce "G80".toList).2.toList) :=
    isMotionWord_cancel.keepWords stage.inForce
  obtain ⟨codes, codeGathers, modal, noDwell⟩ :=
    isMotionWord_cancel.gathers (α := α) agrees
  have gathers : Gathers (α := α) (keepWords stage.inForce ["G80".toList]).2 codes [] := by
    rw [kept]
    exact codeGathers
  have isPlain : ∀ word ∈ ["G80".toList], IsWord word := by
    intro word member
    rw [List.mem_singleton.mp member]
    exact isMotionWord_cancel.plain
  have prepared : ∀ line, stage.reading.prepared line codes
      (Parameters.insertAll {} []) =
        { stage.reading with modal := { stage.reading.modal with motion := 80 } } := by
    intro line
    simp [ReadingState.prepared, Parameters.get?_insertAll, Program.selectTool, modal]
  have passes : Passes calculate [noted ["G80".toList] none] stage
      { inForce := (keepWords stage.inForce ["G80".toList]).1
        reading := { stage.reading with modal := { stage.reading.modal with motion := 80 } } }
      (· = []) :=
    Passes.silent (List.cons_ne_nil _ _) isPlain gathers noDwell (by simp) prepared
  rw [kept] at passes
  exact passes

end Cycle

section Settling

/-- Lines that give no point and move nothing, not even the retract height, after
which the three agree about the next state of the writer. -/
def Settles (calculate : String → Except String α) (dialect : Dialect) (lines : List Line)
    (next : Emitted α) (feed : Option α) (stage : Stage α) : Prop :=
  ∃ after, Passes calculate lines stage after (· = []) ∧
    Follows dialect next feed after ∧ after.reading.position = stage.reading.position ∧
    after.reading.retract = stage.reading.retract

variable {point : MotionPoint α}

omit [Scalar α] in
theorem toolLines_snd (state : Emitted α) (nonzero : point.tool ≠ 0) :
    (toolLines state point).2 = { state with tool := some point.tool } := by
  unfold toolLines
  split
  · rfl
  · rename_i kept
    have same : state.tool = some point.tool := by
      by_cases equal : state.tool = some point.tool
      · exact equal
      · exact absurd ⟨nonzero, equal⟩ kept
    rw [← same]

theorem Follows.settles (follows : Follows dialect state feed stage) :
    Settles calculate dialect [] state feed stage :=
  ⟨stage, Passes.nil stage, follows, rfl, rfl⟩

theorem Follows.endsCycle (follows : Follows dialect state feed stage)
    (point : MotionPoint α) :
    Settles calculate dialect (cycleLines state point).1
      (cycleLines state point).2 feed stage := by
  unfold cycleLines
  dsimp only
  split
  · refine ⟨_, passes_cancel follows.motion, ?_, rfl, rfl⟩
    exact { follows with motion := rfl }
  · exact ⟨stage, Passes.nil stage, { follows with }, rfl, rfl⟩

variable [DecimalScalar α]

theorem Follows.setsTool (follows : Follows dialect state feed stage)
    (bounded : point.tool ≤ Program.ToolChange.greatestTool) :
    Settles calculate dialect (toolLines state point).1 (toolLines state point).2
      feed stage := by
  unfold toolLines
  split
  · refine ⟨_, passes_toolLine bounded stage, ?_, rfl, rfl⟩
    refine { follows with tool := ?_ }
    intro tool isTool
    exact Option.some.inj isTool
  · exact follows.settles

theorem Follows.setsSpindle (follows : Follows dialect state feed stage)
    (point : MotionPoint α) :
    Settles calculate dialect (spindleLines state point).1
      (spindleLines state point).2 feed stage := by
  unfold spindleLines
  cases positive? point.spindle with
  | none => exact follows.settles
  | some speed =>
      let whole : Int := min (Scalar.round speed) greatestSpeed
      let starts : List Line := if state.spindle.isNone then ["M3".toList] else []
      have start : starts = [] ∨ starts = ["M3".toList] := by
        by_cases first : state.spindle.isNone = true
        · exact .inr (if_pos first)
        · exact .inl (if_neg first)
      have line : (if state.spindle.isNone then spindleWord speed ++ " M3".toList
          else spindleWord speed) =
            noted (('S' :: (toString whole).toList) :: starts) none := by
        rw [Program.noted_none, Program.joined_cons]
        by_cases first : state.spindle.isNone = true
        · simp [starts, first, spindleWord, whole]
        · simp [starts, first, spindleWord, whole]
      dsimp only
      split
      · obtain ⟨forced, spindle, turns, passes⟩ :
            ∃ forced spindle turns, Passes calculate
              [noted (('S' :: (toString whole).toList) :: starts) none] stage
              { inForce := { stage.inForce with spindle := forced }
                reading := { stage.reading with
                  modal := { stage.reading.modal with spindle := turns }
                  spindle } } (· = []) := passes_spindleWord whole start stage
        rw [line]
        exact ⟨_, passes, { follows with }, rfl, rfl⟩
      · exact follows.settles

end Settling

end Posting

end Milling
