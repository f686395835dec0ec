import Milling.Proofs.Program.Effect
import Milling.Proofs.Program.Gathering
import Milling.Proofs.Program.Line

/-!
# Comments that are read

The comment of a point is made of what stands in the comments of one line, so it
is on one line itself.
-/

namespace Milling

namespace Program

/-- A comment of a line is a part of the line. -/
theorem subset_of_mem_splitComments {line note : List Char}
    (isNote : note ∈ (splitComments line).2) : note ⊆ line := by
  induction line using splitComments.induct with
  | case1 =>
      simp [splitComments] at isNote
  | case2 rest =>
      rw [splitComments_semicolon, List.mem_singleton] at isNote
      rw [isNote]
      exact fun character member => List.mem_cons_of_mem _ (Text.mem_of_mem_trim member)
  | case3 rest inside after found _ _ _ notSemicolon ih =>
      obtain ⟨before, behind⟩ := Text.subset_of_cutAt found
      rw [splitComments, if_neg notSemicolon, if_pos rfl] at isNote
      split at isNote
      · rename_i inside' after' found'
        rw [found] at found'
        obtain ⟨rfl, rfl⟩ := Prod.mk.inj (Option.some.inj found')
        rcases List.mem_cons.mp isNote with rfl | later
        · exact fun character member =>
            List.mem_cons_of_mem _ (before (Text.mem_of_mem_trim member))
        · exact List.Subset.trans (ih later) (List.subset_cons_of_subset _ behind)
      · rename_i notFound
        rw [found] at notFound
        cases notFound
  | case4 rest notFound notSemicolon =>
      rw [splitComments, if_neg notSemicolon, if_pos rfl] at isNote
      split at isNote
      · rename_i found
        rw [notFound] at found
        cases found
      · rw [List.mem_singleton.mp isNote]
        exact fun character member => List.mem_cons_of_mem _ (Text.mem_of_mem_trim member)
  | case5 first rest notSemicolon notParenthesis _ _ _ ih =>
      rw [splitComments, if_neg notSemicolon, if_neg notParenthesis] at isNote
      exact List.Subset.trans (ih isNote) (List.subset_cons_self first rest)

/-- The comment of a line on one line is on one line. -/
theorem newline_notMem_comment? {line : List Char} (oneLine : '\n' ∉ line) :
    ∀ comment ∈ comment? line, '\n' ∉ comment.toList := by
  intro comment isComment inside
  unfold comment? at isComment
  split at isComment
  · cases isComment
  · obtain rfl := Option.some.inj isComment
    rw [String.toList_ofList] at inside
    rcases mem_joined inside with blank | ⟨note, isNote, inNote⟩
    · exact absurd blank (by decide)
    · exact oneLine (subset_of_mem_splitComments isNote inNote)

variable {α : Type} [Scalar α] (calculate : String → Except String α)

theorem readWords_comment (line : Nat) (raw : String) (code : List Char)
    (comment : Option String) (state : ReadingState α) :
    ∀ point ∈ (readWords calculate line raw code comment state).1.point,
      point.comment = comment := by
  intro point isPoint
  simp only [readWords] at isPoint
  split at isPoint
  · rw [← Option.some.inj isPoint]
    rfl
  · split at isPoint
    · unfold moveTo at isPoint
      dsimp only at isPoint
      split at isPoint
      · cases isPoint
      · rw [← Option.some.inj isPoint]
    · cases isPoint

/-- The comments of the points that are read are on one line each. -/
theorem newline_notMem_readProgram (tool : Nat) (text : String) :
    ∀ point ∈ (readProgram calculate tool text).toolpath.points,
      ∀ comment ∈ point.comment, '\n' ∉ comment.toList := by
  intro point isPoint comment isComment
  unfold readProgram at isPoint
  dsimp only at isPoint
  rw [wholePath_points] at isPoint
  obtain ⟨effect, isEffect, hasPoint⟩ := List.mem_filterMap.mp isPoint
  obtain ⟨index, isAt⟩ := List.mem_iff_getElem?.mp isEffect
  obtain ⟨line, state, isLine, rfl⟩ := exists_of_getElem?_readLines calculate isAt
  have oneLine : '\n' ∉ line := fun inside => by
    have separates := Text.notSeparates_of_mem_splitOn (List.mem_of_getElem? isLine) '\n' inside
    cases separates
  have inText : '\n' ∉ Text.trim (Text.dropEndWhile (· == '\r') line) := fun inside =>
    oneLine (Text.mem_of_mem_dropEndWhile (Text.mem_of_mem_trim inside))
  simp only [readLine] at hasPoint
  split at hasPoint
  · cases hasPoint
  · split at hasPoint
    · cases hasPoint
    · rw [readWords_comment calculate _ _ _ _ _ point hasPoint] at isComment
      exact newline_notMem_comment? inText comment
        (Option.mem_filter_iff.mp isComment).1

end Program

end Milling
