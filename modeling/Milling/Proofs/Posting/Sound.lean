import Milling.Proofs.Posting.Legible

/-!
# Drafts of plain numbers

The lines around a path are words with a number and remarks, and so are the
lines of a point whose numbers are all finite.
-/

namespace Milling.Posting

open Program (noted)

variable {α : Type} [Scalar α]

section Path

variable {point : MotionPoint α}

/-- A point whose lines read back without an invalid parameter. -/
structure IsLegiblePoint (point : MotionPoint α) : Prop where
  tool : AcceptsTool α point.tool
  checked : ∀ value ∈ checkedNumbers point, Scalar.isFinite value = true
  motion : ∀ value ∈ point.motion.written, Scalar.isFinite value = true
  oneLine : ∀ comment ∈ point.comment, '\n' ∉ comment.toList

theorem legible_motionWord (motion : Motion α) : Legible α (motionWord motion) := by
  have code : ∀ digits ∈ [['0'], ['1'], ['2'], ['3'], ['8', '1'], ['4']],
      Legible α ('G' :: digits) := by
    intro digits member
    simp only [List.mem_cons, List.not_mem_nil, or_false] at member
    rcases member with rfl | rfl | rfl | rfl | rfl | rfl <;>
      exact legible_code (by decide) (.inl rfl) (by decide) (by decide)
  cases motion with
  | rapid => exact code ['0'] (by decide)
  | linear => exact code ['1'] (by decide)
  | arc shape =>
      cases rotation : shape.rotation with
      | clockwise => simpa [motionWord, rotation] using code ['2'] (by decide)
      | counterclockwise => simpa [motionWord, rotation] using code ['3'] (by decide)
  | drill cycle => exact code ['8', '1'] (by decide)
  | dwell seconds => exact code ['4'] (by decide)

theorem legible_pointWords (dialect : Dialect) (state : Emitted α)
    (legible : IsLegiblePoint point) :
    ∀ word ∈ (pointWords dialect state point).1, Legible α word := by
  intro word member
  rw [pointWords_eq, List.mem_cons, List.mem_append] at member
  rcases member with rfl | inEntries | inFeed
  · exact legible_motionWord point.motion
  · obtain ⟨written, isWritten, rfl⟩ := List.mem_map.mp inEntries
    have isPlain := plainLetter_of_mem_lineEntries point written isWritten
    obtain ⟨capital, _, noCode, _, _, noTool⟩ := plainLetter_facts isPlain
    have noAuxiliary : written.1 ≠ 'M' := by
      intro isCode
      rw [isCode] at isPlain
      exact absurd isPlain (by decide)
    refine legible_word dialect capital ⟨noCode, noAuxiliary, noTool⟩ ?_
    have inLine : written.2 ∈ (lineEntries point).map Prod.snd := List.mem_map_of_mem isWritten
    rw [map_snd_lineEntries, List.mem_append] at inLine
    rcases inLine with inPlace | inMotion
    · apply legible.checked
      split at inPlace
      · cases inPlace
      · exact List.mem_append_left _ (List.mem_append_left _ inPlace)
    · exact legible.motion written.2 inMotion
  · obtain ⟨written, isWritten, rfl⟩ := List.mem_map.mp inFeed
    have isFeed : written.2 ∈ (entry 'F' (lineFeed state point)).map Prod.snd :=
      List.mem_map_of_mem isWritten
    rw [letter_of_mem_entry isWritten]
    refine legible_word dialect (by decide) (by decide) (legible.checked _ ?_)
    rw [map_snd_entry, Option.mem_toList] at isFeed
    unfold lineFeed at isFeed
    split at isFeed
    · cases isFeed
    · have inFeed := mem_of_newFeed isFeed
      exact List.mem_append_left _ (List.mem_append_right _ (Option.mem_toList.mpr inFeed))

section Words

variable {units : Units} {dialect : Dialect} {safeZ : α} {points : List (MotionPoint α)}
  {words : List Line}

theorem legible_auxiliary : ∀ digits ∈ [['3'], ['5'], ['6'], ['3', '0']],
    Legible α ('M' :: digits) := by
  intro digits member
  simp only [List.mem_cons, List.not_mem_nil, or_false] at member
  rcases member with rfl | rfl | rfl | rfl <;>
    exact legible_code (by decide) (.inr rfl) (by decide) (by decide)

theorem legible_axisWord {letter : Char} (isAxis : letter ∈ ['X', 'Y', 'Z']) {value : α}
    (finite : Scalar.isFinite value = true) : Legible α (dialect.word letter value) := by
  simp only [List.mem_cons, List.not_mem_nil, or_false] at isAxis
  rcases isAxis with rfl | rfl | rfl <;>
    exact legible_word dialect (by decide) (by decide) finite

theorem legible_spindleWord (speed : α) : Legible α (spindleWord speed) :=
  legible_parameter (isWord_whole 'S' (by decide) _) (by decide) (read?_whole _)

theorem BodyWords.legible [TextScalar α] (body : BodyWords dialect safeZ points words)
    (safe : Scalar.isFinite safeZ = true)
    (areLegible : ∀ point ∈ points, IsLegiblePoint point) :
    ∀ word ∈ words, Legible α word := by
  have rapid : Legible α "G0".toList :=
    legible_code (by decide) (.inl rfl) (by decide) (by decide)
  cases body with
  | height =>
      exact List.forall_mem_cons.mpr ⟨rapid,
        List.forall_mem_singleton.mpr (legible_axisWord (by decide) safe)⟩
  | origin =>
      exact List.forall_mem_cons.mpr ⟨rapid, List.forall_mem_cons.mpr
        ⟨legible_axisWord (by decide) TextScalar.isFinite_zero,
          List.forall_mem_singleton.mpr (legible_axisWord (by decide) TextScalar.isFinite_zero)⟩⟩
  | toolChange member =>
      exact List.forall_mem_cons.mpr ⟨legible_tool (areLegible _ member).tool,
        List.forall_mem_singleton.mpr (legible_auxiliary ['6'] (by decide))⟩
  | spindleStart speed =>
      exact List.forall_mem_cons.mpr ⟨legible_spindleWord speed,
        List.forall_mem_singleton.mpr (legible_auxiliary ['3'] (by decide))⟩
  | spindleSpeed speed => exact List.forall_mem_singleton.mpr (legible_spindleWord speed)
  | cycleEnd =>
      exact List.forall_mem_singleton.mpr
        (legible_code (by decide) (.inl rfl) (by decide) (by decide))
  | motion member state => exact legible_pointWords dialect state (areLegible _ member)
  | spindleStop => exact List.forall_mem_singleton.mpr (legible_auxiliary ['5'] (by decide))
  | programEnd => exact List.forall_mem_singleton.mpr (legible_auxiliary ['3', '0'] (by decide))

theorem DraftWords.legible [TextScalar α] (drafted : DraftWords units dialect safeZ points words)
    (safe : Scalar.isFinite safeZ = true)
    (areLegible : ∀ point ∈ points, IsLegiblePoint point) :
    ∀ word ∈ words, Legible α word := by
  cases drafted with
  | programNumber =>
      refine List.forall_mem_singleton.mpr ⟨by decide, 'O', "1000".toList, rfl, ?_, ?_, ?_⟩
      · rintro (isCode | isCode) <;> cases isCode
      · rintro (isCode | isCode | known)
        · cases isCode
        · cases isCode
        · exact absurd known (by decide)
      · intro isTool
        cases isTool
  | modes =>
      refine legible_codes ?_
      cases units <;> decide
  | body isBody => exact isBody.legible safe areLegible

end Words

theorem mem_pathLines (dialect : Dialect) {points : List (MotionPoint α)}
    (member : point ∈ points) (state : Emitted α) :
    ∃ ready : Emitted α, noted (pointWords dialect ready point).1 (noteOf dialect point) ∈
      pathLines dialect state points := by
  induction points generalizing state with
  | nil => cases member
  | cons first points ih =>
      simp only [pathLines, pointLines_eq, List.mem_append, List.mem_singleton]
      rcases List.mem_cons.mp member with rfl | later
      · exact ⟨_, .inl (.inr rfl)⟩
      · obtain ⟨ready, found⟩ := ih later (pointWords dialect (readyState state first) first).2
        exact ⟨ready, .inr found⟩

omit [Scalar α] in
theorem exists_mem_lineEntries {value : α} (member : value ∈ point.motion.written) :
    ∃ letter, (letter, value) ∈ lineEntries point := by
  have inLine : value ∈ (lineEntries point).map Prod.snd := by
    rw [map_snd_lineEntries]
    exact List.mem_append_right _ member
  obtain ⟨written, isWritten, rfl⟩ := List.mem_map.mp inLine
  exact ⟨written.1, isWritten⟩

end Path

end Milling.Posting
