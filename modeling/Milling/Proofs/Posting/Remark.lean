import Milling.Proofs.Posting.RoundTrip
import Milling.Proofs.Posting.Words
import Milling.Proofs.Program.Remark

/-!
# Comments say nothing to the machine

The comments of a path and the descriptions of tools stand in remarks.  Drafts
that differ only there stay alike when they are compacted and when they are
read, as long as no comment breaks its line.
-/

namespace Milling

variable {α : Type}

namespace Posting

open Program (Alike IsPlainWord IsTidyNote noted)

/-- Lines of drafts that differ at most in their remarks. -/
inductive DraftsAlike : Line → Line → Prop where
  | same (line : Line) : DraftsAlike line line
  | remarks {first second : Line} (isFirst : IsShortNote first)
      (isSecond : IsShortNote second) : DraftsAlike first second
  | noted {words : List Line} {first second : Option Line}
      (plain : ∀ word ∈ words, IsPlainWord word) (stays : ∃ word ∈ words, Stays word)
      (isFirst : ∀ note ∈ first, IsShortNote note)
      (isSecond : ∀ note ∈ second, IsShortNote note) :
      DraftsAlike (noted words first) (noted words second)

section Compaction

theorem compactLine_alike {first second : Line} (alike : DraftsAlike first second)
    (inForce : InForce) :
    (compactLine inForce first).1 = (compactLine inForce second).1 ∧
      List.Forall₂ Alike (compactLine inForce first).2.toList
        (compactLine inForce second).2.toList := by
  cases alike with
  | same => exact ⟨rfl, List.forall₂_same.mpr fun line _ => .same line⟩
  | remarks isFirst isSecond =>
      rw [compactLine_note isFirst, compactLine_note isSecond]
      exact ⟨rfl, .cons (.remarks isFirst.tidy isSecond.tidy) .nil⟩
  | @noted words firstNote secondNote plain stays isFirst isSecond =>
      obtain ⟨firstKept, nonempty⟩ := compactLine_plain plain stays isFirst inForce
      obtain ⟨secondKept, _⟩ := compactLine_plain plain stays isSecond inForce
      have tidy : ∀ {note : Option Line}, (∀ remark ∈ note, IsShortNote remark) →
          ∀ remark ∈ note.map Text.trimEnd, IsTidyNote remark := by
        intro note short remark member
        obtain ⟨original, isOriginal, rfl⟩ := Option.map_eq_some_iff.mp member
        exact (short original isOriginal).tidy
      have keptPlain : ∀ word ∈ (keepWords inForce words).2, IsPlainWord word :=
        fun word member => plain word (mem_of_mem_keepWords member)
      rw [firstKept, secondKept]
      exact ⟨rfl, .cons (.noted nonempty keptPlain (tidy isFirst) (tidy isSecond)) .nil⟩

theorem compactFrom_alike {firsts seconds : List Line}
    (alike : List.Forall₂ DraftsAlike firsts seconds) (inForce : InForce) :
    List.Forall₂ Alike (compactFrom inForce firsts) (compactFrom inForce seconds) := by
  induction alike generalizing inForce with
  | nil => exact .nil
  | @cons first second firsts seconds here _ ih =>
      obtain ⟨next, kept⟩ := compactLine_alike here inForce
      simp only [compactFrom, next]
      exact List.rel_append kept (ih _)

end Compaction

section Drafts

theorem forall₂_same (lines : List Line) : List.Forall₂ DraftsAlike lines lines :=
  List.forall₂_same.mpr fun line _ => .same line

/-- The tools of operations are told apart by their numbers alone. -/
theorem map_number_collected {operations others : List (Operation α)}
    {seen otherSeen : List (Tool α)}
    (numbers : operations.map (·.tool.number) = others.map (·.tool.number))
    (seenNumbers : seen.map Tool.number = otherSeen.map Tool.number) :
    (operations.foldl collectTool seen).map Tool.number =
      (others.foldl collectTool otherSeen).map Tool.number := by
  induction operations generalizing others seen otherSeen with
  | nil =>
      obtain rfl : others = [] := by simpa using numbers.symm
      exact seenNumbers
  | cons operation operations ih =>
      cases others with
      | nil => cases numbers
      | cons other others =>
          rw [List.map_cons, List.map_cons, List.cons.injEq] at numbers
          obtain ⟨number, numbers⟩ := numbers
          have known : ∀ (tools : List (Tool α)) (number : Nat),
              (tools.any fun tool => tool.number == number) =
                (tools.map Tool.number).any (· == number) := by
            intro tools number
            rw [List.any_map]
            rfl
          rw [List.foldl_cons, List.foldl_cons]
          refine ih numbers ?_
          unfold collectTool
          rw [known seen, known otherSeen, seenNumbers, number]
          split
          · exact seenNumbers
          · rw [List.map_cons, List.map_cons, seenNumbers, number]

variable [Scalar α]

theorem length_toolTable (dialect : Dialect) {operations others : List (Operation α)}
    (numbers : operations.map (·.tool.number) = others.map (·.tool.number)) :
    (toolTable dialect operations).length = (toolTable dialect others).length := by
  have same := congrArg List.length
    (@map_number_collected _ _ _ [] [] numbers rfl)
  rw [List.length_map, List.length_map, ← List.length_reverse, ← operationTools_eq,
    ← @List.length_reverse _ (others.foldl collectTool []), ← operationTools_eq] at same
  unfold toolTable
  cases tools : operationTools operations with
  | nil =>
      rw [tools] at same
      rw [List.eq_nil_of_length_eq_zero same.symm]
  | cons first rest =>
      cases otherTools : operationTools others with
      | nil => simp [tools, otherTools] at same
      | cons otherFirst otherRest => simpa [tools, otherTools] using same

theorem toolTable_alike (dialect : Dialect) {operations others : List (Operation α)}
    (numbers : operations.map (·.tool.number) = others.map (·.tool.number))
    (texts : ∀ value : α, '\n' ∉ (Scalar.toText value).toList)
    (described : ∀ operation ∈ operations, '\n' ∉ operation.tool.description.toList)
    (othersDescribed : ∀ operation ∈ others, '\n' ∉ operation.tool.description.toList) :
    List.Forall₂ DraftsAlike (toolTable dialect operations) (toolTable dialect others) := by
  refine List.forall₂_iff_zip.mpr ⟨length_toolTable dialect numbers, ?_⟩
  intro first second member
  obtain ⟨isFirst, isSecond⟩ := List.of_mem_zip member
  exact .remarks (toolTable_short dialect texts described first isFirst)
    (toolTable_short dialect texts othersDescribed second isSecond)

variable [TextScalar α]

theorem pointLines_alike (dialect : Dialect) (state : Emitted α)
    {first second : MotionPoint α} (same : first.uncommented = second.uncommented)
    (firstLine : ∀ comment ∈ first.comment, '\n' ∉ comment.toList)
    (secondLine : ∀ comment ∈ second.comment, '\n' ∉ comment.toList) :
    List.Forall₂ DraftsAlike (pointLines dialect state first).1
        (pointLines dialect state second).1 ∧
      (pointLines dialect state first).2 = (pointLines dialect state second).2 := by
  have settings : settingLines state first = settingLines state second := by
    have ignored : ∀ point : MotionPoint α,
        settingLines state point = settingLines state point.uncommented := fun point => rfl
    rw [ignored first, same, ← ignored second]
  have words : pointWords dialect (readyState state first) first =
      pointWords dialect (readyState state second) second := by
    have ignored : ∀ point : MotionPoint α, pointWords dialect (readyState state point) point =
        pointWords dialect (readyState state point.uncommented) point.uncommented :=
      fun point => rfl
    rw [ignored first, same, ← ignored second]
  rw [pointLines_eq, pointLines_eq, settings, words]
  refine ⟨List.rel_append (forall₂_same _) (.cons ?_ .nil), rfl⟩
  exact .noted (isPlainWord_pointWords dialect _ second) (stays_pointWords dialect _ second)
    (noteOf_short dialect firstLine) (noteOf_short dialect secondLine)

theorem pathLines_alike (dialect : Dialect) (state : Emitted α)
    {firsts seconds : List (MotionPoint α)}
    (same : firsts.map MotionPoint.uncommented = seconds.map MotionPoint.uncommented)
    (firstLines : ∀ point ∈ firsts, ∀ comment ∈ point.comment, '\n' ∉ comment.toList)
    (secondLines : ∀ point ∈ seconds, ∀ comment ∈ point.comment, '\n' ∉ comment.toList) :
    List.Forall₂ DraftsAlike (pathLines dialect state firsts)
      (pathLines dialect state seconds) := by
  induction firsts generalizing seconds state with
  | nil =>
      obtain rfl : seconds = [] := by simpa using same.symm
      exact forall₂_same _
  | cons first firsts ih =>
      cases seconds with
      | nil => cases same
      | cons second seconds =>
          rw [List.map_cons, List.map_cons, List.cons.injEq] at same
          obtain ⟨here, later⟩ := same
          obtain ⟨lines, next⟩ := pointLines_alike dialect state here
            (firstLines first List.mem_cons_self) (secondLines second List.mem_cons_self)
          have rest := ih (pointLines dialect state first).2 later
            (fun point member => firstLines point (List.mem_cons_of_mem first member))
            (fun point member => secondLines point (List.mem_cons_of_mem second member))
          rw [next] at rest
          simp only [pathLines, next]
          exact List.rel_append lines rest

end Drafts

section Program

variable [Scalar α]

theorem pointError?_uncommented {firsts seconds : List (MotionPoint α)}
    (same : firsts.map MotionPoint.uncommented = seconds.map MotionPoint.uncommented) :
    pointError? firsts = pointError? seconds := by
  have ignored : ∀ points : List (MotionPoint α),
      pointError? points = pointError? (points.map MotionPoint.uncommented) := by
    intro points
    rw [pointError?, pointError?, List.zipIdx_map, List.findSome?_map]
    rfl
  rw [ignored firsts, same, ← ignored seconds]

/-- What programs of one path mean to the machine does not depend on the comments
of its points or on what the operations say about their tools, if no text breaks
its line. -/
theorem readProgram_program_uncommented [TextScalar α] (poster : Poster α) (date : String)
    (id : String) {path other : Toolpath α}
    (same : path.points.map MotionPoint.uncommented = other.points.map MotionPoint.uncommented)
    {operations others : List (Operation α)}
    (numbers : operations.map (·.tool.number) = others.map (·.tool.number))
    (commented : ∀ point ∈ path.points, ∀ comment ∈ point.comment, '\n' ∉ comment.toList)
    (otherCommented : ∀ point ∈ other.points, ∀ comment ∈ point.comment,
      '\n' ∉ comment.toList)
    (described : ∀ operation ∈ operations, '\n' ∉ operation.tool.description.toList)
    (othersDescribed : ∀ operation ∈ others, '\n' ∉ operation.tool.description.toList)
    (calculate : String → Except String α) (tool : Nat) :
    (poster.program date path operations id).map
        (fun text => (Program.readProgram calculate tool text).uncommented) =
      (poster.program date other others id).map
        (fun text => (Program.readProgram calculate tool text).uncommented) := by
  let dialect := poster.dialect id
  have drafts : List.Forall₂ DraftsAlike (poster.draft date dialect operations path.points)
      (poster.draft date dialect others other.points) := by
    unfold Poster.draft
    refine List.rel_append (List.rel_append (List.rel_append (List.rel_append
      (forall₂_same _) ?_) (forall₂_same _)) ?_) (forall₂_same _)
    · exact toolTable_alike dialect numbers TextScalar.toText_oneLine described othersDescribed
    · exact pathLines_alike dialect {} same commented otherCommented
  have compacted := Program.readProgram_alike calculate (compactFrom_alike drafts {}) tool
  have empty : path.points.isEmpty = other.points.isEmpty := by
    rw [← List.isEmpty_map (f := MotionPoint.uncommented), same, List.isEmpty_map]
  unfold Poster.program Poster.lines
  rw [empty, pointError?_uncommented same]
  split
  · rfl
  · split
    · rfl
    · exact congrArg Except.ok compacted

/-- A cut to one place, with a comment. -/
def annotated (comment : Option String) : Toolpath Float :=
  { points := [{ MotionPoint.linear 1 0 0 with comment }] }

/-- What the program of the cut means to the machine. -/
def annotatedReading (comment : Option String) :
    Except PostError (List (MotionPoint Float) × Units) :=
  ((Poster.standard : Poster Float).program "2026-01-31" (annotated comment) [] "grbl").map
    fun text => (Program.readProgram (fun _ => .error "") 1 text).uncommented

theorem annotatedReading_code : annotatedReading (some "G1 X7") = annotatedReading none := by
  have same : (annotated (some "G1 X7")).points.map MotionPoint.uncommented =
      (annotated none).points.map MotionPoint.uncommented := rfl
  unfold annotatedReading
  exact readProgram_program_uncommented Poster.standard "2026-01-31" "grbl" same rfl
    (by simp [annotated]) (by simp [annotated]) (by simp) (by simp) (fun _ => .error "") 1

/-- A comment that breaks its line adds what follows the break to the program. -/
theorem annotatedReading_break :
    annotatedReading (some "a\nG1 X7") ≠ annotatedReading none := by
  have broken : (annotatedReading (some "a\nG1 X7")).toOption.map (·.1.length) = some 6 := by
    decide +kernel
  have plain : (annotatedReading none).toOption.map (·.1.length) = some 5 := by
    decide +kernel
  intro same
  rw [same, plain] at broken
  cases broken

end Program

end Posting

end Milling
