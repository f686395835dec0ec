import Milling.Proofs.Posting.Codes
import Milling.Proofs.Posting.Numeric

/-!
# The units of a program

The line that sets the modes of a program declares the units that programs are
written with.  No other line has a code of that group, so a program that is read
ends in these units, whatever its path was drawn in.
-/

namespace Milling

variable {α : Type} [Scalar α]

namespace Program

/-- Codes of other groups leave the units. -/
theorem ModalState.units_foldl_apply {codes : List Code}
    (others : ∀ code ∈ codes, ModalGroup.of? code ≠ some .units) (state : ModalState) :
    (codes.foldl ModalState.apply state).units = state.units := by
  induction codes generalizing state with
  | nil => rfl
  | cons code codes ih =>
      have other := others code List.mem_cons_self
      have here : (state.apply code).units = state.units := by
        unfold ModalState.apply
        split
        · rename_i group isGroup
          cases group <;> first | rfl | exact absurd isGroup other
        · rfl
      rw [List.foldl_cons, ih (fun later member => others later (List.mem_cons_of_mem code member)),
        here]

variable (calculate : String → Except String α)

/-- The codes that are read off tokens are those that the tokens give. -/
theorem codes_foldl_add (table : Variables α) (line : Nat) (tokens : List (Token α))
    (words : WordReading α) :
    (tokens.foldl (WordReading.add calculate table line) words).codes ⊆
      words.codes ++ tokens.filterMap Posting.codeOf? := by
  have added (token : Token α) (words : WordReading α) :
      (words.add calculate table line token).codes ⊆
        words.codes ++ (Posting.codeOf? token).toList := by
    cases token with
    | expression text => exact List.subset_append_left _ _
    | word letter value raw =>
        simp only [WordReading.add, Posting.codeOf?]
        split
        · split
          · rename_i code _ isCode
            rw [isCode]
            exact List.Subset.refl _
          · exact List.subset_append_left _ _
        · split <;> exact List.subset_append_left _ _
  induction tokens generalizing words with
  | nil => exact List.subset_append_left _ _
  | cons token tokens ih =>
      refine List.Subset.trans (ih (words.add calculate table line token)) ?_
      rw [List.append_subset]
      constructor
      · refine List.Subset.trans (added token words) ?_
        rw [List.append_subset]
        refine ⟨List.subset_append_left _ _, List.subset_append_of_subset_right _ ?_⟩
        intro code isCode
        exact List.mem_filterMap.mpr ⟨token, List.mem_cons_self, Option.mem_toList.mp isCode⟩
      · refine List.subset_append_of_subset_right _ ?_
        exact (List.sublist_cons_self token tokens).filterMap _ |>.subset

theorem readLines_units {lines : List (List Char)}
    (each : ∀ line ∈ lines, ∀ number (state : ReadingState α),
      (readLine calculate number line state).2.modal.units = state.modal.units)
    (number : Nat) (state : ReadingState α) :
    (readLines calculate number state lines).2.modal.units = state.modal.units := by
  induction lines generalizing number state with
  | nil => rfl
  | cons line lines ih =>
      have later := ih (fun other member => each other (List.mem_cons_of_mem line member))
        (number + 1) (readLine calculate number line state).2
      exact later.trans (each line List.mem_cons_self number state)

end Program

namespace Posting

open Program (ModalGroup ReadingState readLine readLines)

variable [TextScalar α] {poster : Poster α} {dialect : Dialect} {safeZ : α}
  {points : List (MotionPoint α)} {operations : List (Operation α)}
  (calculate : String → Except String α)

theorem IsCompacted.readLine_units {line : Line}
    (compacted : IsCompacted (BodyWords dialect safeZ points) line) (number : Nat)
    (state : ReadingState α) :
    (readLine calculate number line state).2.modal.units = state.modal.units := by
  cases compacted with
  | remark tidy => rw [Program.readLine_note calculate number state tidy.isNote]
  | frame => rw [Program.readLine_percent calculate number state]
  | @words words kept note isTogether fewer nonempty plain tidy =>
      obtain ⟨raw, count, comment, read⟩ := Program.readLine_plain calculate number state nonempty
        plain (fun remark member => (tidy remark member).isNote)
        fun remark member => (tidy remark member).trimmed
      rw [read, Program.readWords_modal, Program.tokenize_joined_plain plain count]
      refine Program.ModalState.units_foldl_apply ?_ state.modal
      intro code isCode
      -- A code that is left is one of those that were written together.
      have inKept := Program.codes_foldl_add calculate _ _ _ _ isCode
      rw [List.nil_append, List.filterMap_flatMap] at inKept
      have inWords : code ∈ words.flatMap (codesOf α) := (fewer.flatMap _).subset inKept
      have notUnits : ∀ known ∈ bodyCodes, ModalGroup.of? known ≠ some .units := by decide
      rcases isTogether.codes with none | ⟨known, isKnown, one⟩
      · rw [none] at inWords
        cases inWords
      · rw [one] at inWords
        exact List.mem_singleton.mp inWords ▸ notUnits known isKnown

theorem units_readProgram_program {id : String}
    (builtIn : poster.registry.resolve id ∈ Dialect.builtIn) {date : String}
    (dated : '\n' ∉ date.toList)
    (described : ∀ operation ∈ operations, '\n' ∉ operation.tool.description.toList)
    {path : Toolpath α}
    (commented : ∀ point ∈ path.points, ∀ comment ∈ point.comment, '\n' ∉ comment.toList)
    {text : String} (written : poster.program date path operations id = .ok text) (tool : Nat) :
    (Program.readProgram calculate tool text).units = poster.units := by
  obtain ⟨_, rfl⟩ := program_eq_ok written
  have frame := poster.dialect_frame builtIn
  obtain ⟨preamble, compacted, oneLine, read⟩ :=
    @passes_preamble _ _ calculate _ frame.1 poster.units _ dated tool
  let body := compactFrom { motion := some 80 }
    (poster.body (poster.dialect id) operations path.points)
  have bodyCompacted : ∀ line ∈ body,
      IsCompacted (BodyWords (poster.dialect id) poster.safeZ path.points) line :=
    isCompacted_compactFrom (isDrafted_body frame.2 described commented) _
  have whole : compact (poster.draft date (poster.dialect id) operations path.points) =
      preamble ++ body := by
    rw [Poster.draft_eq]
    exact compacted _
  obtain ⟨effects, reads, -⟩ := read 1
  have lines : Program.textLines ((preamble ++ body).flatMap fun line => line ++ ['\n']) =
      preamble ++ (body ++ [[]]) := by
    rw [Program.textLines_flatMap fun line member => ?_, List.append_assoc]
    rcases List.mem_append.mp member with inPreamble | inBody
    · exact oneLine line inPreamble
    · exact (bodyCompacted line inBody).oneLine
  -- The preamble sets the units, and behind it no line touches them.
  have units : (readLines calculate (1 + preamble.length) (readyToMove poster.units tool)
      (body ++ [[]])).2.modal.units = (startModal poster.units).units := by
    refine Program.readLines_units calculate ?_ _ _
    intro line member number state
    rcases List.mem_append.mp member with inBody | isEmpty
    · exact (bodyCompacted line inBody).readLine_units calculate number state
    · rw [List.mem_singleton.mp isEmpty, Program.readLine_empty]
  have inForce : ∀ modal : Program.ModalState,
      modal.units = (startModal poster.units).units → modal.unitsInForce = poster.units := by
    intro modal same
    rw [Program.ModalState.unitsInForce, same]
    cases poster.units <;> rfl
  unfold Program.readProgram
  rw [String.toList_ofList, whole, lines, readLines_append, reads]
  exact inForce _ units

end Posting

end Milling
