import Mathlib
import Milling.Proofs.Posting.Compaction

/-!
# Compaction is complete

Compaction leaves out every word that repeats what is in force, so that a
second compaction finds nothing to do.  Frames are kept whatever they say; of
the other lines the words before the first comment count, in the order of the
program.
-/

namespace Milling.Posting

open Program (noted joined)

section Words

theorem keepWords_keepWords (inForce : InForce) (words : List Line) :
    keepWords inForce (keepWords inForce words).2 = keepWords inForce words := by
  induction words generalizing inForce with
  | nil => rfl
  | cons word rest ih =>
      have later := ih (keepWord inForce word).1
      rw [keepWords_cons]
      rcases keepWord_goes_or_stays inForce word with gone | stays
      · rw [gone] at later ⊢
        exact later
      · rw [stays, Option.toList_some, List.singleton_append, keepWords_cons, stays, later]
        rfl

/-- Words that all go change nothing that is in force. -/
theorem keepWords_fst_of_gone {inForce : InForce} {words : List Line}
    (gone : (keepWords inForce words).2 = []) : (keepWords inForce words).1 = inForce := by
  have again := keepWords_keepWords inForce words
  rw [gone] at again
  exact (congrArg Prod.fst again).symm

/-- Where a word of a kind is kept only if it changes what is in force, no two of them that
are kept one after the other say the same. -/
theorem isChain_keepWords {value : Type} (last? : InForce → Option value)
    (value? : Line → Option value)
    (follows : ∀ inForce word, last? (keepWord inForce word).1 =
      (value? word).or (last? inForce))
    (changes : ∀ inForce word, (keepWord inForce word).2 = some word →
      ∀ said ∈ value? word, last? inForce ≠ some said)
    (inForce : InForce) (words : List Line) :
    ((last? inForce).toList ++ (keepWords inForce words).2.filterMap value?).IsChain (· ≠ ·) := by
  induction words generalizing inForce with
  | nil => cases last? inForce <;> simp [keepWords]
  | cons word rest ih =>
      have later := ih (keepWord inForce word).1
      rw [keepWords_cons]
      rcases keepWord_goes_or_stays inForce word with gone | stays
      · rw [gone] at later ⊢
        exact later
      · have next := follows inForce word
        have changed := changes inForce word stays
        rw [stays]
        cases said : value? word with
        | none =>
            rw [next, said, Option.none_or] at later
            simpa [said] using later
        | some saying =>
            rw [next, said, Option.some_or] at later
            have different := changed saying said
            cases before : last? inForce with
            | none => simpa [said] using later
            | some earlier =>
                rw [before] at different
                simp only [Option.toList_some, List.singleton_append,
                  List.filterMap_cons_some said] at later ⊢
                exact List.isChain_cons_cons.mpr
                  ⟨fun same => different (congrArg some same), later⟩

/-- Words none of which repeats what the last one of its kind said. -/
structure AreFresh (words : List Line) : Prop where
  motion : (words.filterMap motionCode?).IsChain (· ≠ ·)
  feed : (words.filterMap (afterLetter? 'F')).IsChain (· ≠ ·)
  spindle : (words.filterMap (afterLetter? 'S')).IsChain (· ≠ ·)

theorem areFresh_keepWords (words : List Line) : AreFresh (keepWords {} words).2 where
  motion := by
    refine isChain_keepWords InForce.motion motionCode? ?_ ?_ {} words
    · intro inForce word
      rcases keepWord_cases inForce word with
        ⟨said, motion, _, _, kept⟩ | ⟨said, motion, _, _, kept⟩ | ⟨said, motion, _, _, kept⟩ |
          ⟨motion, _, _, kept⟩ <;> simp [kept, motion]
    · intro inForce word stays code isCode same
      rw [keepWord_motion isCode, if_pos same] at stays
      cases stays
  feed := by
    refine isChain_keepWords InForce.feed (afterLetter? 'F') ?_ ?_ {} words
    · intro inForce word
      rcases keepWord_cases inForce word with
        ⟨said, _, feed, _, kept⟩ | ⟨said, _, feed, _, kept⟩ | ⟨said, _, feed, _, kept⟩ |
          ⟨_, feed, _, kept⟩ <;> simp [kept, feed]
    · intro inForce word stays value isFeed same
      rw [keepWord_of_feed isFeed, if_pos same] at stays
      cases stays
  spindle := by
    refine isChain_keepWords InForce.spindle (afterLetter? 'S') ?_ ?_ {} words
    · intro inForce word
      rcases keepWord_cases inForce word with
        ⟨said, _, _, spindle, kept⟩ | ⟨said, _, _, spindle, kept⟩ |
          ⟨said, _, _, spindle, kept⟩ | ⟨_, _, spindle, kept⟩ <;> simp [kept, spindle]
    · intro inForce word stays value isSpindle same
      rw [keepWord_of_spindle isSpindle, if_pos same] at stays
      cases stays

end Words

section Lines

/-- A line is a frame if its first solid character is a percent sign. -/
def IsFrame (line : Line) : Prop := (Text.trim line).head? = some '%'

instance (line : Line) : Decidable (IsFrame line) :=
  inferInstanceAs (Decidable ((Text.trim line).head? = some '%'))

/-- A percent sign stands nowhere but at the start of a line, behind blanks or not. -/
def HasPercentFirst (line : Line) : Prop := '%' ∉ (Text.trimStart line).tail

instance (line : Line) : Decidable (HasPercentFirst line) :=
  inferInstanceAs (Decidable ('%' ∉ (Text.trimStart line).tail))

/-- The words of a line that count: those before its first comment, and none of a frame. -/
def countedWords (line : Line) : List Line := if IsFrame line then [] else frontWords line

theorem percent_notMem_frontWords {line word : Line} (first : HasPercentFirst line)
    (unframed : ¬IsFrame line) (isWord : word ∈ frontWords line) : '%' ∉ word := by
  intro inside
  have inLine : '%' ∈ Text.trim line :=
    (List.takeWhile_sublist _).subset (Text.subset_of_mem_words isWord inside)
  have inStart : '%' ∈ Text.trimStart line := Text.mem_of_mem_dropEndWhile inLine
  cases start : Text.trimStart line with
  | nil => simp [start] at inStart
  | cons head tail =>
      rw [HasPercentFirst, start] at first
      rw [start] at inStart
      rcases List.mem_cons.mp inStart with rfl | later
      · refine unframed ?_
        have kept := Text.head?_trimEnd (by decide : Text.isBlank '%' = false) tail
        rw [IsFrame, Text.trim, start, kept]
      · exact first later

/-- A line of bare words without a percent sign, with a trimmed remark behind them. -/
structure IsTidy (words : List Line) (note : Option Line) : Prop where
  bare : ∀ word ∈ words, IsBare word ∧ '%' ∉ word
  opens : ∀ remark ∈ note, OpensComment remark ∧ Text.trimEnd remark = remark

theorem IsTidy.map_trimEnd {words : List Line} {note : Option Line} (tidy : IsTidy words note) :
    note.map Text.trimEnd = note := by
  cases note with
  | none => rfl
  | some remark => rw [Option.map_some, (tidy.opens remark rfl).2]

theorem IsTidy.trim {words : List Line} {note : Option Line} (tidy : IsTidy words note) :
    Text.trim (noted words note) = noted words note := by
  rw [Program.trim_noted_solid (fun word member => (tidy.bare word member).1.solid),
    tidy.map_trimEnd]
  intro remark member
  obtain ⟨first, rest, shape, starts⟩ := (tidy.opens remark member).1
  exact ⟨first, rest, shape, solid_of_startsComment starts⟩

theorem IsTidy.unframed {words : List Line} {note : Option Line} (tidy : IsTidy words note) :
    ¬IsFrame (noted words note) := by
  rw [IsFrame, tidy.trim]
  intro framed
  cases words with
  | cons word words =>
      obtain ⟨⟨⟨nonempty, _⟩, _⟩, noPercent⟩ := tidy.bare word List.mem_cons_self
      cases word with
      | nil => exact nonempty rfl
      | cons first rest =>
          rw [noted, List.cons_append, Program.joined_cons, List.cons_append, List.head?_cons,
            Option.some.injEq] at framed
          exact noPercent (framed ▸ List.mem_cons_self)
  | nil =>
      cases note with
      | none => cases framed
      | some remark =>
          obtain ⟨first, rest, rfl, starts⟩ := (tidy.opens remark rfl).1
          rw [Program.noted_nil_some, List.head?_cons, Option.some.injEq] at framed
          subst framed
          cases starts

theorem isTidy_keepWords {line : Line} (first : HasPercentFirst line) (unframed : ¬IsFrame line)
    (inForce : InForce) : IsTidy (keepWords inForce (frontWords line)).2 (remark? line) where
  bare _word member :=
    have inFront := mem_of_mem_keepWords member
    ⟨isBare_of_mem_frontWords inFront, percent_notMem_frontWords first unframed inFront⟩
  opens _remark member := ⟨opensComment_of_mem_remark? member, trimEnd_of_mem_remark? member⟩

/-- What is kept of a line has nothing to trim and is kept again as it is; it has those of
the counted words that are new. -/
structure IsKept (inForce : InForce) (line kept : Line) : Prop where
  nonempty : kept ≠ []
  trimmed : Text.trim kept = kept
  again : compactLine inForce kept = ((compactLine inForce line).1, some kept)
  counted : countedWords kept = (keepWords inForce (countedWords line)).2

theorem compactLine_spec {line : Line} (first : HasPercentFirst line) (inForce : InForce) :
    (compactLine inForce line).1 = (keepWords inForce (countedWords line)).1 ∧
      ((∃ kept, (compactLine inForce line).2 = some kept ∧ IsKept inForce line kept) ∨
        ((compactLine inForce line).2 = none ∧ (compactLine inForce line).1 = inForce ∧
          (keepWords inForce (countedWords line)).2 = [])) := by
  by_cases framed : IsFrame line
  · obtain ⟨rest, shape⟩ : ∃ rest, Text.trim line = '%' :: rest :=
      ⟨_, List.eq_cons_of_mem_head? framed⟩
    have kept (other : Line) (trimmed : Text.trim other = '%' :: rest) :
        compactLine inForce other = (inForce, some ('%' :: rest)) := by
      simp [compactLine, trimmed, isRemark]
    have again : Text.trim ('%' :: rest) = '%' :: rest :=
      Text.trim_eq_self (by simp [Text.isBlank]) (shape ▸ Text.getLast?_trimEnd)
    have none : countedWords line = [] := if_pos framed
    rw [kept line shape, none]
    refine ⟨rfl, .inl ⟨'%' :: rest, rfl, List.cons_ne_nil _ _, again, ?_, ?_⟩⟩
    · rw [kept _ again, kept line shape]
    · rw [none, countedWords, if_pos (by rw [IsFrame, again]; rfl)]
      rfl
  · have tidy := isTidy_keepWords first framed inForce
    obtain ⟨front, remark⟩ := parts_rest fun word (stays : word ∈
        (keepWords inForce (frontWords line)).2) => mem_of_mem_keepWords stays
    have counted : countedWords line = frontWords line := if_neg framed
    have here := compactLine_eq inForce framed
    have there := compactLine_eq inForce tidy.unframed
    rw [front, remark, keepWords_keepWords] at there
    rw [counted, here]
    refine ⟨rfl, ?_⟩
    unfold rebuilt? at there ⊢
    split
    · rename_i gone
      exact .inr ⟨rfl, keepWords_fst_of_gone gone.1, gone.1⟩
    · rename_i left
      rw [if_neg left] at there
      refine .inl ⟨_, rfl, ?_, tidy.trim, by rw [here]; exact there, ?_⟩
      · intro empty
        rw [empty] at front remark
        exact left ⟨front.symm, remark.symm⟩
      · rw [counted, countedWords, if_neg tidy.unframed, front]

end Lines

section Programs

/-- Every line of a compacted program is kept again, and the words that count in it are the
new ones among those of the program. -/
theorem compactFrom_spec {lines : List Line} (first : ∀ line ∈ lines, HasPercentFirst line)
    (inForce : InForce) :
    compactFrom inForce (compactFrom inForce lines) = compactFrom inForce lines ∧
      (∀ line ∈ compactFrom inForce lines, line ≠ [] ∧ Text.trim line = line) ∧
      (compactFrom inForce lines).flatMap countedWords =
        (keepWords inForce (lines.flatMap countedWords)).2 := by
  induction lines generalizing inForce with
  | nil => exact ⟨rfl, List.forall_mem_nil _, rfl⟩
  | cons line rest ih =>
      obtain ⟨firstHere, firstLater⟩ := List.forall_mem_cons.mp first
      obtain ⟨next, result⟩ := compactLine_spec firstHere inForce
      obtain ⟨again, solid, counted⟩ := ih firstLater (compactLine inForce line).1
      rw [List.flatMap_cons, keepWords_append, ← next]
      rcases result with ⟨kept, isKept, stays⟩ | ⟨gone, unchanged, noWords⟩
      · simp only [compactFrom, isKept, Option.toList_some, List.singleton_append]
        refine ⟨?_, ?_, ?_⟩
        · rw [stays.again, again]
          rfl
        · exact List.forall_mem_cons.mpr ⟨⟨stays.nonempty, stays.trimmed⟩, solid⟩
        · rw [List.flatMap_cons, stays.counted, counted]
      · simp only [compactFrom, gone, Option.toList_none, List.nil_append, noWords]
        rw [unchanged] at again solid counted ⊢
        exact ⟨again, solid, counted⟩

/-- Compaction is complete and done once: a second one changes nothing, its lines have no
blanks around them, and no word that counts repeats what the last one of its kind said. -/
theorem compact_compact {lines : List Line} (first : ∀ line ∈ lines, HasPercentFirst line) :
    compact (compact lines) = compact lines ∧
      (∀ line ∈ compact lines, line ≠ [] ∧ Text.trim line = line) ∧
      AreFresh ((compact lines).flatMap countedWords) := by
  obtain ⟨again, solid, counted⟩ := compactFrom_spec first {}
  refine ⟨again, solid, ?_⟩
  rw [compact, counted]
  exact areFresh_keepWords _

end Programs

section Instance

/-- A framed program with a line all of whose words before the comment go. -/
def framedLines : List Line :=
  ["%".toList, " O12 (notch) ".toList, "G1 X1 F100 ; a".toList, "g01  (b) F100 Y2".toList,
    "G1 F100".toList, "G1 F200 S5".toList, "G2 S5 X3".toList, "\t% G2".toList]

theorem compact_compact_framed :
    (∀ line ∈ framedLines, HasPercentFirst line) ∧
      compact (compact framedLines) = compact framedLines ∧
      (∀ line ∈ compact framedLines, line ≠ [] ∧ Text.trim line = line) ∧
      AreFresh ((compact framedLines).flatMap countedWords) := by
  have first : ∀ line ∈ framedLines, HasPercentFirst line := by decide
  exact ⟨first, compact_compact first⟩

/-- The words behind a comment are kept, and the line is a remark from then on. -/
example :
    compact framedLines =
      ["%".toList, "O12 (notch)".toList, "G1 X1 F100 ; a".toList, "(b) F100 Y2".toList,
        "F200 S5".toList, "G2 X3".toList, "% G2".toList] := by
  decide +kernel

end Instance

end Milling.Posting
