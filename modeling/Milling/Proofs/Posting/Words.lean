import Milling.Proofs.Posting.Frame
import Milling.Proofs.Program.Remark
import Milling.Proofs.Scalar.Text

/-!
# The words of a draft

The line of a point holds its motion code, numbered letters that compaction
leaves alone, and perhaps a feed.  All of them are plain words, also where a
number is not finite.
-/

namespace Milling.Posting

open Program (IsNote IsPlainWord IsTidyNote noted)

variable {α : Type}

section Remarks

/-- A remark on one line. -/
structure IsShortNote (note : Line) : Prop where
  isNote : IsNote note
  oneLine : '\n' ∉ note

theorem IsShortNote.tidy {note : Line} (short : IsShortNote note) :
    IsTidyNote (Text.trimEnd note) where
  isNote := isNote_trimEnd short.isNote
  oneLine inside := short.oneLine (Text.mem_of_mem_dropEndWhile inside)
  trimmed := Text.getLast?_trimEnd

/-- A word that compaction leaves alone. -/
def Stays (word : Line) : Prop :=
  ∃ letter rest, word = letter :: rest ∧ letter.isUpper = true ∧
    letter ≠ 'G' ∧ letter ≠ 'F' ∧ letter ≠ 'S'

theorem mem_keepWords_of_stays {words : List Line} {word : Line} (member : word ∈ words)
    (stays : Stays word) (inForce : InForce) : word ∈ (keepWords inForce words).2 := by
  induction words generalizing inForce with
  | nil => cases member
  | cons head tail ih =>
      rw [keepWords_cons, List.mem_append]
      rcases List.mem_cons.mp member with rfl | later
      · obtain ⟨letter, rest, rfl, capital, other⟩ := stays
        rw [keepWord_other capital other]
        exact .inl (List.mem_singleton_self _)
      · exact .inr (ih later (keepWord inForce head).1)

end Remarks

section Compaction

theorem compactLine_note {note : Line} (short : IsShortNote note) (inForce : InForce) :
    compactLine inForce note = (inForce, some (Text.trimEnd note)) := by
  obtain ⟨first, rest, rfl, starts, solid⟩ := isNote_shape short.isNote
  rw [compactLine_remark inForce rest solid (.inl starts)]
  have kept : Text.trimEnd (first :: rest) = first :: Text.trimEnd rest :=
    Text.dropEndWhile_append_cons solid [] rest
  rw [kept]

theorem compactLine_plain {words : List Line} (plain : ∀ word ∈ words, IsPlainWord word)
    (stays : ∃ word ∈ words, Stays word) {note : Option Line}
    (isNote : ∀ remark ∈ note, IsShortNote remark) (inForce : InForce) :
    compactLine inForce (noted words note) =
        ((keepWords inForce words).1,
          some (noted (keepWords inForce words).2 (note.map Text.trimEnd))) ∧
      (keepWords inForce words).2 ≠ [] := by
  obtain ⟨word, member, stays⟩ := stays
  have kept := List.ne_nil_of_mem (mem_keepWords_of_stays member stays inForce)
  refine ⟨?_, kept⟩
  rw [compactLine_noted inForce (List.ne_nil_of_mem member) plain
    fun remark isRemark => (isNote remark isRemark).isNote]
  simp [kept]

end Compaction

section Entries

/-- The numbered letters on the line of a point, its feed aside. -/
def lineEntries (point : MotionPoint α) : List (Char × α) :=
  match point.motion with
  | .dwell seconds => entry 'P' (some seconds)
  | _ => pointEntries point

@[simp] theorem map_snd_entry (letter : Char) (value : Option α) :
    (entry letter value).map Prod.snd = value.toList := by
  cases value <;> rfl

/-- What stands on the line of a point: its place and its rotary angle unless it
waits, and the numbers of its motion. -/
theorem map_snd_lineEntries (point : MotionPoint α) :
    (lineEntries point).map Prod.snd =
      (if point.isDwell then []
        else [point.position.x, point.position.y, point.position.z] ++ point.rotary.toList) ++
        point.motion.written := by
  cases motion : point.motion <;>
    simp [lineEntries, pointEntries, payloadEntries, MotionPoint.isDwell, Motion.isDwell,
      Motion.written, motion]

theorem letter_of_mem_entry {letter : Char} {value : Option α} {written : Char × α}
    (member : written ∈ entry letter value) : written.1 = letter := by
  obtain ⟨number, _, rfl⟩ := Option.map_eq_some_iff.mp (Option.mem_toList.mp member)
  rfl

theorem plainLetter_of_mem_lineEntries (point : MotionPoint α) :
    ∀ written ∈ lineEntries point, written.1 ∈ plainLetters := by
  have plain : ∀ letter ∈ plainLetters, ∀ value : Option α, ∀ written ∈ entry letter value,
      written.1 ∈ plainLetters := by
    intro letter isPlain value written inEntry
    rwa [letter_of_mem_entry inEntry]
  have none : ∀ written ∈ ([] : List (Char × α)), written.1 ∈ plainLetters := by simp
  cases motion : point.motion <;>
    simp only [lineEntries, motion, pointEntries, payloadEntries, List.forall_mem_append] <;>
    repeat' apply And.intro
  all_goals first | exact none | exact plain _ (by decide) _

theorem lineEntries_ne_nil (point : MotionPoint α) : lineEntries point ≠ [] := by
  cases motion : point.motion <;> simp [lineEntries, pointEntries, entry, motion]

variable [Scalar α]

def lineFeed (state : Emitted α) (point : MotionPoint α) : Option α :=
  if point.isDwell then none else newFeed state point

theorem pointWords_eq (dialect : Dialect) (state : Emitted α) (point : MotionPoint α) :
    (pointWords dialect state point).1 =
      motionWord point.motion ::
        (dialect.entryWords (lineEntries point) ++
          dialect.entryWords (entry 'F' (lineFeed state point))) := by
  cases waits : point.isDwell with
  | false =>
      have entries : lineEntries point = pointEntries point := by
        cases motion : point.motion with
        | dwell seconds => simp [MotionPoint.isDwell, motion, Motion.isDwell] at waits
        | _ => simp only [lineEntries, motion]
      simp [pointWords_of_moves dialect state waits, entries, lineFeed, waits]
  | true =>
      cases motion : point.motion with
      | dwell seconds =>
          simp [pointWords, motion, lineEntries, lineFeed, waits, entry, Dialect.entryWords]
      | _ => simp [MotionPoint.isDwell, motion, Motion.isDwell] at waits

/-- The lines in front of the line of a point. -/
def settingLines (state : Emitted α) (point : MotionPoint α) : List Line :=
  (toolLines state point).1 ++ (spindleLines (toolLines state point).2 point).1 ++
    (cycleLines (spindleLines (toolLines state point).2 point).2 point).1

theorem pointLines_eq (dialect : Dialect) (state : Emitted α) (point : MotionPoint α) :
    pointLines dialect state point =
      (settingLines state point ++
          [Program.noted (pointWords dialect (readyState state point) point).1
            (noteOf dialect point)],
        (pointWords dialect (readyState state point) point).2) := by
  have nonempty : (pointWords dialect (readyState state point) point).1 ≠ [] := by
    rw [pointWords_eq]
    exact List.cons_ne_nil _ _
  rw [← withComment_eq dialect _ nonempty]
  rfl

end Entries

section Plain

variable [Scalar α] [TextScalar α]

omit [Scalar α] [TextScalar α] in
theorem isWord_motionWord (motion : Motion α) : Program.IsWord (motionWord motion) := by
  cases motion with
  | dwell seconds => exact (by decide : Program.IsWord "G4".toList)
  | _ => exact (isMotionWord_motionWord rfl).plain

theorem isPlainWord_entryWords (dialect : Dialect) {entries : List (Char × α)}
    (capital : ∀ written ∈ entries, written.1.isUpper = true) :
    ∀ word ∈ dialect.entryWords entries, IsPlainWord word := by
  intro word member
  obtain ⟨written, isWritten, rfl⟩ := List.mem_map.mp member
  exact dialect.isPlainWord_word (capital written isWritten) written.2

theorem isPlainWord_pointWords (dialect : Dialect) (state : Emitted α) (point : MotionPoint α) :
    ∀ word ∈ (pointWords dialect state point).1, IsPlainWord word := by
  intro word member
  rw [pointWords_eq, List.mem_cons, List.mem_append] at member
  rcases member with rfl | inEntries | inFeed
  · exact (isWord_motionWord point.motion).isPlain
  · exact isPlainWord_entryWords dialect
      (fun written isWritten =>
        (plainLetter_facts (plainLetter_of_mem_lineEntries point written isWritten)).1)
      word inEntries
  · exact isPlainWord_entryWords dialect
      (fun written isWritten => by rw [letter_of_mem_entry isWritten]; decide) word inFeed

omit [TextScalar α] in
theorem stays_pointWords (dialect : Dialect) (state : Emitted α) (point : MotionPoint α) :
    ∃ word ∈ (pointWords dialect state point).1, Stays word := by
  obtain ⟨written, isWritten⟩ := List.exists_mem_of_ne_nil _ (lineEntries_ne_nil point)
  obtain ⟨capital, _, noCode, noFeed, noSpeed, _⟩ :=
    plainLetter_facts (plainLetter_of_mem_lineEntries point written isWritten)
  refine ⟨dialect.word written.1 written.2, ?_, written.1, dialect.numberText written.2, rfl,
    capital, noCode, noFeed, noSpeed⟩
  rw [pointWords_eq]
  exact List.mem_cons_of_mem _ (List.mem_append_left _ (List.mem_map.mpr
    ⟨written, isWritten, rfl⟩))

end Plain

section Lines

theorem noteOf_short (dialect : Dialect) {point : MotionPoint α}
    (oneLine : ∀ comment ∈ point.comment, '\n' ∉ comment.toList) :
    ∀ note ∈ noteOf dialect point, IsShortNote note := by
  intro note member
  obtain ⟨isNote, inNote⟩ := noteOf_facts oneLine note member
  exact ⟨isNote, inNote⟩

theorem toolTable_short [Scalar α] (dialect : Dialect) {operations : List (Operation α)}
    (texts : ∀ value : α, '\n' ∉ (Scalar.toText value).toList)
    (described : ∀ operation ∈ operations, '\n' ∉ operation.tool.description.toList) :
    ∀ line ∈ toolTable dialect operations, IsShortNote line := by
  intro line member
  obtain ⟨text, oneLine, rfl⟩ := toolTable_comments dialect texts described line member
  exact ⟨isNote_comment dialect text, newline_notMem_comment dialect oneLine⟩

end Lines

end Milling.Posting
