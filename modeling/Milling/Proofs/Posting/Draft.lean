import Milling.Posting.Poster
import Milling.Proofs.Posting.Words

/-!
# Lines of a draft

A draft is made of remarks, frame lines, and words that are written together.
Compaction takes words out of a line and leaves the rest in order.
-/

namespace Milling.Posting

open Program (IsPlainWord IsTidyNote IsWord joined noted)

variable {α : Type}

section Lines

/-- A line of a draft: a remark, a frame, or words that are written together. -/
inductive IsDrafted (together : List Line → Prop) : Line → Prop where
  | remark {note : Line} (short : IsShortNote note) : IsDrafted together note
  | frame : IsDrafted together ['%']
  | words {words : List Line} {note : Option Line} (isTogether : together words)
      (nonempty : words ≠ []) (plain : ∀ word ∈ words, IsPlainWord word)
      (short : ∀ remark ∈ note, IsShortNote remark) : IsDrafted together (noted words note)

/-- A line that compaction leaves of a draft: a remark, a frame, or some of the
words that are written together. -/
inductive IsCompacted (together : List Line → Prop) : Line → Prop where
  | remark {note : Line} (tidy : IsTidyNote note) : IsCompacted together note
  | frame : IsCompacted together ['%']
  | words {words kept : List Line} {note : Option Line} (isTogether : together words)
      (fewer : kept.Sublist words) (nonempty : kept ≠ [])
      (plain : ∀ word ∈ kept, IsPlainWord word)
      (tidy : ∀ remark ∈ note, IsTidyNote remark) : IsCompacted together (noted kept note)

variable {together other : List Line → Prop}

theorem IsDrafted.mono {line : Line} (drafted : IsDrafted together line)
    (implies : ∀ words, together words → other words) : IsDrafted other line := by
  cases drafted with
  | remark short => exact .remark short
  | frame => exact .frame
  | words isTogether nonempty plain short =>
      exact .words (implies _ isTogether) nonempty plain short

theorem IsCompacted.oneLine {line : Line} (compacted : IsCompacted together line) :
    '\n' ∉ line := by
  cases compacted with
  | remark tidy => exact tidy.oneLine
  | frame => decide
  | words _ _ _ plain tidy =>
      exact Program.newline_notMem_noted plain fun remark member => (tidy remark member).oneLine

theorem isCompacted_compactLine {line : Line} (drafted : IsDrafted together line)
    (inForce : InForce) :
    ∀ kept ∈ (compactLine inForce line).2, IsCompacted together kept := by
  intro kept isKept
  cases drafted with
  | remark short =>
      rw [compactLine_note short] at isKept
      obtain rfl := Option.some.inj isKept
      exact .remark short.tidy
  | frame =>
      rw [compactLine_remark inForce [] (by decide) (.inr rfl)] at isKept
      obtain rfl := Option.some.inj isKept
      exact .frame
  | @words words note isTogether nonempty plain short =>
      rw [compactLine_noted inForce nonempty plain
        fun remark isRemark => (short remark isRemark).isNote] at isKept
      have tidy : ∀ remark ∈ note.map Text.trimEnd, IsTidyNote remark := by
        intro remark member
        obtain ⟨original, isOriginal, rfl⟩ := Option.map_eq_some_iff.mp member
        exact (short original isOriginal).tidy
      split at isKept
      · cases isKept
      · rename_i something
        obtain rfl := Option.some.inj isKept
        -- When all words only repeat what is in force, the remark is left alone.
        by_cases empty : (keepWords inForce words).2 = []
        · cases note with
          | none => exact absurd ⟨empty, rfl⟩ something
          | some remark =>
              have alone : noted [] (some (Text.trimEnd remark)) = Text.trimEnd remark := by
                simp [noted, joined, List.intercalate]
              rw [empty, Option.map_some, alone]
              exact .remark (short remark rfl).tidy
        · exact .words isTogether (sublist_keepWords inForce words) empty
            (fun word member => plain word (mem_of_mem_keepWords member)) tidy

theorem mem_compactFrom {inForce : InForce} {lines : List Line} {kept : Line}
    (member : kept ∈ compactFrom inForce lines) :
    ∃ line ∈ lines, ∃ earlier, kept ∈ (compactLine earlier line).2 := by
  induction lines generalizing inForce with
  | nil => cases member
  | cons line lines ih =>
      rcases List.mem_append.mp member with here | later
      · exact ⟨line, List.mem_cons_self, inForce, Option.mem_toList.mp here⟩
      · obtain ⟨other, isOther, found⟩ := ih later
        exact ⟨other, List.mem_cons_of_mem line isOther, found⟩

theorem compactFrom_mem (inForce : InForce) {lines : List Line} {line : Line}
    (member : line ∈ lines) :
    ∃ earlier, ∀ kept ∈ (compactLine earlier line).2, kept ∈ compactFrom inForce lines := by
  induction lines generalizing inForce with
  | nil => cases member
  | cons first lines ih =>
      rcases List.mem_cons.mp member with rfl | later
      · exact ⟨inForce, fun kept isKept =>
          List.mem_append_left _ (Option.mem_toList.mpr isKept)⟩
      · obtain ⟨earlier, found⟩ := ih _ later
        exact ⟨earlier, fun kept isKept => List.mem_append_right _ (found kept isKept)⟩

theorem isCompacted_compactFrom {lines : List Line}
    (drafted : ∀ line ∈ lines, IsDrafted together line) (inForce : InForce) :
    ∀ kept ∈ compactFrom inForce lines, IsCompacted together kept := by
  intro kept member
  obtain ⟨line, isLine, earlier, isKept⟩ := mem_compactFrom member
  exact isCompacted_compactLine (drafted line isLine) earlier kept isKept

end Lines

section Words

variable [Scalar α]

/-- Words that are written together behind the line that sets the modes. -/
inductive BodyWords (dialect : Dialect) (safeZ : α) (points : List (MotionPoint α)) :
    List Line → Prop where
  | height : BodyWords dialect safeZ points ["G0".toList, dialect.word 'Z' safeZ]
  | origin : BodyWords dialect safeZ points
      ["G0".toList, dialect.word 'X' (0 : α), dialect.word 'Y' (0 : α)]
  | toolChange {point : MotionPoint α} (member : point ∈ points) :
      BodyWords dialect safeZ points ['T' :: (toString point.tool).toList, "M6".toList]
  | spindleStart (speed : α) : BodyWords dialect safeZ points [spindleWord speed, "M3".toList]
  | spindleSpeed (speed : α) : BodyWords dialect safeZ points [spindleWord speed]
  | cycleEnd : BodyWords dialect safeZ points ["G80".toList]
  | motion {point : MotionPoint α} (member : point ∈ points) (state : Emitted α) :
      BodyWords dialect safeZ points (pointWords dialect state point).1
  | spindleStop : BodyWords dialect safeZ points ["M5".toList]
  | programEnd : BodyWords dialect safeZ points ["M30".toList]

/-- Words that are written together anywhere in a draft. -/
inductive DraftWords (units : Units) (dialect : Dialect) (safeZ : α)
    (points : List (MotionPoint α)) : List Line → Prop where
  | programNumber : DraftWords units dialect safeZ points ["O1000".toList]
  | modes : DraftWords units dialect safeZ points (modeWords units)
  | body {words : List Line} (isBody : BodyWords dialect safeZ points words) :
      DraftWords units dialect safeZ points words

variable {dialect : Dialect} {safeZ : α} {points : List (MotionPoint α)} {units : Units}

theorem BodyWords.ne_nil {words : List Line} (body : BodyWords dialect safeZ points words) :
    words ≠ [] := by
  cases body with
  | motion member state =>
      rw [pointWords_eq]
      exact List.cons_ne_nil _ _
  | _ => exact List.cons_ne_nil _ _

variable [TextScalar α]

theorem BodyWords.isPlain {words : List Line} (body : BodyWords dialect safeZ points words) :
    ∀ word ∈ words, IsPlainWord word := by
  have rapid : IsPlainWord "G0".toList := (by decide : IsWord "G0".toList).isPlain
  have change : IsPlainWord "M6".toList := (by decide : IsWord "M6".toList).isPlain
  have start : IsPlainWord "M3".toList := (by decide : IsWord "M3".toList).isPlain
  have speedWord (speed : α) : IsPlainWord (spindleWord speed) :=
    (isWord_whole 'S' (by decide) _).isPlain
  have toolWord (tool : Nat) : IsPlainWord ('T' :: (toString tool).toList) :=
    (isWord_whole 'T' (by decide) tool).isPlain
  cases body with
  | height =>
      simpa using ⟨rapid, dialect.isPlainWord_word (by decide) safeZ⟩
  | origin =>
      simpa using ⟨rapid, dialect.isPlainWord_word (by decide) (0 : α),
        dialect.isPlainWord_word (by decide) (0 : α)⟩
  | toolChange member =>
      exact List.forall_mem_cons.mpr ⟨toolWord _, List.forall_mem_singleton.mpr change⟩
  | spindleStart speed => simpa using ⟨speedWord speed, start⟩
  | spindleSpeed speed => simpa using speedWord speed
  | cycleEnd => simpa using (by decide : IsWord "G80".toList).isPlain
  | motion member state => exact isPlainWord_pointWords dialect state _
  | spindleStop => simpa using (by decide : IsWord "M5".toList).isPlain
  | programEnd => simpa using (by decide : IsWord "M30".toList).isPlain

theorem DraftWords.isPlain {words : List Line}
    (drafted : DraftWords units dialect safeZ points words) :
    ∀ word ∈ words, IsPlainWord word := by
  cases drafted with
  | programNumber => simpa using (by decide : IsWord "O1000".toList).isPlain
  | modes =>
      have areWords : ∀ word ∈ modeWords units, IsWord word := by
        cases units <;> decide
      exact fun word member => (areWords word member).isPlain
  | body isBody => exact isBody.isPlain

end Words

section Draft

variable [Scalar α] [TextScalar α] {dialect : Dialect} {safeZ : α}
  {points : List (MotionPoint α)}

theorem isDrafted_comment {together : List Line → Prop} (dialect : Dialect) {text : Line}
    (oneLine : '\n' ∉ text) : IsDrafted together (dialect.comment text) :=
  .remark ⟨isNote_comment dialect text, newline_notMem_comment dialect oneLine⟩

theorem BodyWords.isDrafted {words : List Line} (body : BodyWords dialect safeZ points words)
    {line : Line} (isLine : line = joined words) :
    IsDrafted (BodyWords dialect safeZ points) line := by
  rw [isLine, ← Program.noted_none]
  exact .words body body.ne_nil body.isPlain (by simp)

theorem isDrafted_heightMove :
    IsDrafted (BodyWords dialect safeZ points) (dialect.heightMove safeZ) :=
  BodyWords.height.isDrafted (by simp [Dialect.heightMove])

theorem isDrafted_originMove :
    IsDrafted (BodyWords dialect safeZ points) (dialect.originMove (α := α)) :=
  BodyWords.origin.isDrafted (by simp [Dialect.originMove])

theorem isDrafted_settingLines {point : MotionPoint α} (member : point ∈ points)
    (state : Emitted α) :
    ∀ line ∈ settingLines state point, IsDrafted (BodyWords dialect safeZ points) line := by
  intro line inSettings
  simp only [settingLines, List.mem_append] at inSettings
  rcases inSettings with (inTool | inSpindle) | inCycle
  · unfold toolLines at inTool
    split at inTool
    · rw [List.mem_singleton.mp inTool]
      exact (BodyWords.toolChange member).isDrafted (by rw [Program.joined_cons]; rfl)
    · cases inTool
  · unfold spindleLines at inSpindle
    split at inSpindle
    · rename_i speed _
      split at inSpindle
      · rw [List.mem_singleton.mp inSpindle]
        split
        · exact (BodyWords.spindleStart speed).isDrafted (by rw [Program.joined_cons]; rfl)
        · exact (BodyWords.spindleSpeed speed).isDrafted (by simp)
      · cases inSpindle
    · cases inSpindle
  · unfold cycleLines at inCycle
    dsimp only at inCycle
    split at inCycle
    · rw [List.mem_singleton.mp inCycle]
      exact BodyWords.cycleEnd.isDrafted (by simp)
    · cases inCycle

theorem isDrafted_pathLines {path : List (MotionPoint α)} (inPoints : path ⊆ points)
    (commented : ∀ point ∈ path, ∀ comment ∈ point.comment, '\n' ∉ comment.toList)
    (state : Emitted α) :
    ∀ line ∈ pathLines dialect state path, IsDrafted (BodyWords dialect safeZ points) line := by
  induction path generalizing state with
  | nil =>
      intro line member
      unfold pathLines at member
      split at member
      · rw [List.mem_singleton.mp member]
        exact BodyWords.cycleEnd.isDrafted (by simp)
      · cases member
  | cons point path ih =>
      have here : point ∈ points := inPoints List.mem_cons_self
      have later := ih (fun other member => inPoints (List.mem_cons_of_mem point member))
        (fun other member => commented other (List.mem_cons_of_mem point member))
      intro line member
      simp only [pathLines, pointLines_eq, List.mem_append, List.mem_singleton] at member
      rcases member with (inSettings | rfl) | inRest
      · exact isDrafted_settingLines here state line inSettings
      · have body : BodyWords dialect safeZ points
            (pointWords dialect (readyState state point) point).1 := .motion here _
        exact .words body body.ne_nil body.isPlain
          (noteOf_short dialect (commented point List.mem_cons_self))
      · exact later _ line inRest

theorem isDrafted_footer (builtIn : dialect.programEnd ∈ [["M30"], ["M30", "%"]]) :
    ∀ line ∈ dialect.footer safeZ, IsDrafted (BodyWords dialect safeZ points) line := by
  have ends : IsDrafted (BodyWords dialect safeZ points) "M30".toList :=
    BodyWords.programEnd.isDrafted (by simp)
  intro line member
  simp only [Dialect.footer, List.mem_append, List.mem_cons, List.not_mem_nil, or_false] at member
  rcases member with (rfl | rfl | rfl) | inEnd
  · exact BodyWords.spindleStop.isDrafted (by simp)
  · exact isDrafted_heightMove
  · exact isDrafted_originMove
  · simp only [List.mem_cons, List.not_mem_nil, or_false] at builtIn
    rcases builtIn with stops | stops <;> rw [stops] at inEnd <;>
      simp only [List.map_cons, List.map_nil, List.mem_cons, List.not_mem_nil, or_false] at inEnd
    · exact inEnd ▸ ends
    · rcases inEnd with rfl | rfl
      · exact ends
      · exact .frame

/-- The lines of a draft behind the line that sets the modes. -/
def Poster.body (poster : Poster α) (dialect : Dialect) (operations : List (Operation α))
    (points : List (MotionPoint α)) : List Line :=
  toolTable dialect operations ++ [dialect.heightMove poster.safeZ, dialect.originMove (α := α)] ++
    pathLines dialect {} points ++ dialect.footer poster.safeZ

omit [TextScalar α] in
theorem Poster.draft_eq (poster : Poster α) (date : String) (dialect : Dialect)
    (operations : List (Operation α)) (points : List (MotionPoint α)) :
    poster.draft date dialect operations points =
      dialect.preamble poster.units date ++ poster.body dialect operations points := by
  simp [Poster.draft, Poster.body]

variable {poster : Poster α} {operations : List (Operation α)}

theorem isDrafted_body (builtIn : dialect.programEnd ∈ [["M30"], ["M30", "%"]])
    (described : ∀ operation ∈ operations, '\n' ∉ operation.tool.description.toList)
    (commented : ∀ point ∈ points, ∀ comment ∈ point.comment, '\n' ∉ comment.toList) :
    ∀ line ∈ poster.body dialect operations points,
      IsDrafted (BodyWords dialect poster.safeZ points) line := by
  intro line member
  simp only [Poster.body, List.mem_append, List.mem_cons, List.not_mem_nil, or_false] at member
  rcases member with ((inTable | rfl | rfl) | inPath) | inFooter
  · exact .remark (toolTable_short dialect TextScalar.toText_oneLine described line inTable)
  · exact isDrafted_heightMove
  · exact isDrafted_originMove
  · exact isDrafted_pathLines (List.Subset.refl points) commented {} line inPath
  · exact isDrafted_footer builtIn line inFooter

theorem isDrafted_preamble (builtIn : dialect.programStart ∈
      [[], ["%", "O1000"], ["%", "O1000 (PROGRAM NAME)"]])
    (units : Units) {date : String} (dated : '\n' ∉ date.toList) :
    ∀ line ∈ dialect.preamble units date,
      IsDrafted (DraftWords units dialect safeZ points) line := by
  have isNumber : DraftWords units dialect safeZ points ["O1000".toList] := .programNumber
  have areModes : DraftWords units dialect safeZ points (modeWords units) := .modes
  have number (note : Option Line) (short : ∀ remark ∈ note, IsShortNote remark) :
      IsDrafted (DraftWords units dialect safeZ points) (noted ["O1000".toList] note) :=
    .words isNumber (List.cons_ne_nil _ _) isNumber.isPlain short
  have modes : IsDrafted (DraftWords units dialect safeZ points)
      ("G17 " ++ units.word ++ " G40 G49 G54 G80 G90 G94").toList := by
    have line : ("G17 " ++ units.word ++ " G40 G49 G54 G80 G90 G94").toList =
        noted (modeWords units) none := by
      cases units <;> decide
    rw [line]
    exact .words areModes (List.cons_ne_nil _ _) areModes.isPlain (by simp)
  intro line member
  simp only [Dialect.preamble, List.mem_append, List.mem_singleton] at member
  rcases member with (inStart | inStamp) | rfl
  · simp only [List.mem_cons, List.not_mem_nil, or_false] at builtIn
    rcases builtIn with starts | starts | starts <;> rw [starts] at inStart
    · cases inStart
    · simp only [List.map_cons, List.map_nil, List.mem_cons, List.not_mem_nil, or_false] at inStart
      rcases inStart with rfl | rfl
      · exact .frame
      · exact number none (by simp)
    · simp only [List.map_cons, List.map_nil, List.mem_cons, List.not_mem_nil, or_false] at inStart
      rcases inStart with rfl | rfl
      · exact .frame
      · have named : IsShortNote "(PROGRAM NAME)".toList :=
          ⟨.parentheses "PROGRAM NAME".toList (by decide), by decide⟩
        exact number (some "(PROGRAM NAME)".toList) (by simpa using named)
  · split at inStamp
    · rw [List.mem_singleton.mp inStamp]
      exact isDrafted_comment dialect (by simp [dated])
    · cases inStamp
  · exact modes

/-- Compaction leaves remarks, frames and some of the words that are written together. -/
theorem isCompacted_draft (builtIn :
      dialect.programStart ∈ [[], ["%", "O1000"], ["%", "O1000 (PROGRAM NAME)"]] ∧
      dialect.programEnd ∈ [["M30"], ["M30", "%"]])
    {date : String} (dated : '\n' ∉ date.toList)
    (described : ∀ operation ∈ operations, '\n' ∉ operation.tool.description.toList)
    (commented : ∀ point ∈ points, ∀ comment ∈ point.comment, '\n' ∉ comment.toList) :
    ∀ line ∈ compact (poster.draft date dialect operations points),
      IsCompacted (DraftWords poster.units dialect poster.safeZ points) line := by
  refine isCompacted_compactFrom ?_ {}
  intro line member
  rw [Poster.draft_eq, List.mem_append] at member
  rcases member with inPreamble | inBody
  · exact isDrafted_preamble builtIn.1 poster.units dated line inPreamble
  · exact (isDrafted_body builtIn.2 described commented line inBody).mono
      fun words isBody => .body isBody

end Draft

end Milling.Posting
