import Mathlib
import Milling.Text.Blank

/-!
# Laws of trimming and splitting

Trimming stops at the first character that stays, splitting undoes joining,
and the words of a line written with blanks between them are those words.
-/

namespace Milling.Text

section DropEnd

variable {drops : Char → Bool}

theorem dropEndWhile_eq_rdropWhile (drops : Char → Bool) (text : List Char) :
    dropEndWhile drops text = text.rdropWhile drops := rfl

theorem dropEndWhile_append_cons {kept : Char} (stays : drops kept = false)
    (before after : List Char) :
    dropEndWhile drops (before ++ kept :: after) =
      before ++ kept :: dropEndWhile drops after := by
  induction after using List.reverseRecOn with
  | nil =>
      exact List.rdropWhile_concat_neg drops before kept (by simp [stays])
  | append_singleton after last ih =>
      simp only [dropEndWhile_eq_rdropWhile] at ih ⊢
      have regroup : before ++ kept :: (after ++ [last]) =
          (before ++ kept :: after) ++ [last] := by simp
      rw [regroup]
      by_cases dropped : drops last = true
      · rw [List.rdropWhile_concat_pos _ _ _ dropped,
          List.rdropWhile_concat_pos _ _ _ dropped, ih]
      · rw [List.rdropWhile_concat_neg _ _ _ dropped,
          List.rdropWhile_concat_neg _ _ _ dropped, regroup]

/-- A text whose last character stays is left as it is. -/
theorem dropEndWhile_eq_self {text : List Char}
    (stays : ∀ character ∈ text.getLast?, drops character = false) :
    dropEndWhile drops text = text := by
  rw [dropEndWhile_eq_rdropWhile, List.rdropWhile_eq_self_iff]
  intro nonempty
  have last := stays (text.getLast nonempty) (List.getLast?_eq_some_getLast nonempty)
  simp [last]

theorem exists_dropEndWhile_append (drops : Char → Bool) (text : List Char) :
    ∃ dropped, text = dropEndWhile drops text ++ dropped ∧
      ∀ character ∈ dropped, drops character = true := by
  refine ⟨text.rtakeWhile drops, ?_, ?_⟩
  · exact List.rdropWhile_append_rtakeWhile.symm
  · intro character member
    exact List.mem_rtakeWhile_imp member

/-- What is dropped at the end does not stand there any more. -/
theorem drops_getLast?_dropEndWhile {text : List Char} {last : Char}
    (isLast : (dropEndWhile drops text).getLast? = some last) : drops last = false := by
  rw [dropEndWhile_eq_rdropWhile] at isLast
  have nonempty : text.rdropWhile drops ≠ [] := by
    intro empty
    rw [empty] at isLast
    cases isLast
  rw [List.getLast?_eq_some_getLast nonempty] at isLast
  rw [← Option.some.inj isLast]
  simpa using List.rdropWhile_last_not drops text nonempty

theorem mem_of_mem_dropEndWhile {character : Char} {text : List Char}
    (member : character ∈ dropEndWhile drops text) : character ∈ text :=
  (List.rdropWhile_prefix drops text).mem member

end DropEnd

section Trim

theorem trimStart_cons {first : Char} (solid : isBlank first = false)
    (rest : List Char) : trimStart (first :: rest) = first :: rest := by
  simp [trimStart, solid]

theorem trim_nil : trim [] = [] := rfl

theorem trim_cons {first : Char} (solid : isBlank first = false)
    (rest : List Char) : trim (first :: rest) = trimEnd (first :: rest) := by
  rw [trim, trimStart_cons solid]

/-- A text with solid ends has nothing to trim. -/
theorem trim_eq_self {text : List Char}
    (front : ∀ character ∈ text.head?, isBlank character = false)
    (back : ∀ character ∈ text.getLast?, isBlank character = false) :
    trim text = text := by
  cases text with
  | nil => rfl
  | cons first rest =>
      rw [trim_cons (front first (by simp))]
      exact dropEndWhile_eq_self back

theorem head?_trimEnd {first : Char} (solid : isBlank first = false)
    (rest : List Char) : (trimEnd (first :: rest)).head? = some first := by
  have kept := dropEndWhile_append_cons solid [] rest
  simp only [List.nil_append] at kept
  rw [trimEnd, kept]
  rfl

/-- The end of a trimmed text is solid. -/
theorem getLast?_trimEnd {text : List Char} :
    ∀ character ∈ (trimEnd text).getLast?, isBlank character = false := by
  intro character last
  have nonempty : trimEnd text ≠ [] := by
    intro empty
    simp [empty] at last
  have solid := List.rdropWhile_last_not isBlank text nonempty
  have ends : (trimEnd text).getLast nonempty = character := by
    rwa [List.getLast?_eq_some_getLast nonempty, Option.mem_some_iff] at last
  rw [← ends]
  exact Bool.eq_false_iff.mpr solid

/-- A text with a solid character has blanks before its first one, if anything. -/
theorem exists_trim_cons {text : List Char} (filled : trim text ≠ []) :
    ∃ blanks first rest, text = blanks ++ first :: rest ∧
      (∀ gap ∈ blanks, isBlank gap = true) ∧ isBlank first = false ∧
      trim text = first :: trimEnd rest := by
  cases dropped : text.dropWhile isBlank with
  | nil => exact absurd (by rw [trim, trimStart, dropped]; rfl) filled
  | cons first rest =>
      have solid : isBlank first = false := by
        have head := List.head_dropWhile_not (p := isBlank) (l := text) (by simp [dropped])
        simpa [dropped] using head
      have whole := List.takeWhile_append_dropWhile (p := isBlank) (l := text)
      rw [dropped] at whole
      refine ⟨text.takeWhile isBlank, first, rest, whole.symm,
        fun gap member => List.mem_takeWhile_imp member, solid, ?_⟩
      rw [trim, trimStart, dropped]
      exact dropEndWhile_append_cons solid [] rest

/-- A trimmed text starts with a solid character. -/
theorem head?_trim {text : List Char} :
    ∀ character ∈ (trim text).head?, isBlank character = false := by
  intro character isFirst
  have filled : trim text ≠ [] := by
    intro empty
    simp [empty] at isFirst
  obtain ⟨_, first, rest, _, _, solid, shape⟩ := exists_trim_cons filled
  rw [shape, List.head?_cons] at isFirst
  rwa [← Option.mem_some_iff.mp isFirst]

theorem mem_of_mem_trim {character : Char} {text : List Char} (member : character ∈ trim text) :
    character ∈ text :=
  (List.dropWhile_sublist isBlank).subset (mem_of_mem_dropEndWhile member)

theorem trim_concat_blank {gap : Char} (blank : isBlank gap = true) (text : List Char) :
    trim (text ++ [gap]) = trim text := by
  rw [trim, trim, trimStart, trimStart, List.dropWhile_append]
  split
  · rename_i empty
    rw [List.isEmpty_iff.mp empty, List.dropWhile_cons_of_pos blank]
    rfl
  · exact List.rdropWhile_concat_pos _ _ _ blank

theorem trim_append_of_blank {tail : List Char}
    (blank : ∀ character ∈ tail, isBlank character = true) (text : List Char) :
    trim (text ++ tail) = trim text := by
  induction tail using List.reverseRecOn with
  | nil => rw [List.append_nil]
  | append_singleton front last ih =>
      rw [← List.append_assoc, trim_concat_blank (blank last (by simp)),
        ih fun character member => blank character (by simp [member])]

theorem trim_dropEndWhile {drops : Char → Bool}
    (blank : ∀ character, drops character = true → isBlank character = true)
    (text : List Char) : trim (dropEndWhile drops text) = trim text := by
  obtain ⟨dropped, whole, areDropped⟩ := exists_dropEndWhile_append drops text
  conv_rhs => rw [whole]
  exact (trim_append_of_blank (fun character member =>
    blank character (areDropped character member)) _).symm

theorem trim_dropReturns (text : List Char) :
    trim (dropEndWhile (· == '\r') text) = trim text := by
  refine trim_dropEndWhile (fun character returns => ?_) text
  rw [beq_iff_eq.mp returns]
  decide

end Trim

section Split

variable {separates : α → Bool}

theorem splitOn_append_cons {piece : List α} {separator : α}
    (whole : ∀ item ∈ piece, separates item = false)
    (separated : separates separator = true) (rest : List α) :
    splitOn separates (piece ++ separator :: rest) =
      piece :: splitOn separates rest := by
  induction piece with
  | nil =>
      cases pieces : splitOn separates rest with
      | nil => exact absurd pieces (splitOn_ne_nil separates rest)
      | cons first others => simp [splitOn, pieces, separated]
  | cons head tail ih =>
      have tailWhole : ∀ item ∈ tail, separates item = false := by
        intro item member
        exact whole item (List.mem_cons_of_mem head member)
      have headWhole : separates head = false := whole head List.mem_cons_self
      simp [splitOn, ih tailWhole, headWhole]

theorem splitOn_eq_singleton {piece : List α}
    (whole : ∀ item ∈ piece, separates item = false) :
    splitOn separates piece = [piece] := by
  induction piece with
  | nil => rfl
  | cons head tail ih =>
      have tailWhole : ∀ item ∈ tail, separates item = false := by
        intro item member
        exact whole item (List.mem_cons_of_mem head member)
      have headWhole : separates head = false := whole head List.mem_cons_self
      simp [splitOn, ih tailWhole, headWhole]

/-- A separator parts what stands before it from what follows. -/
theorem splitOn_append_separator {separator : α} (separated : separates separator = true)
    (text rest : List α) :
    splitOn separates (text ++ separator :: rest) =
      splitOn separates text ++ splitOn separates rest := by
  induction text with
  | nil => exact splitOn_append_cons (by simp) separated rest
  | cons head tail ih =>
      cases pieces : splitOn separates tail with
      | nil => exact absurd pieces (splitOn_ne_nil separates tail)
      | cons first others =>
          rw [pieces, List.cons_append] at ih
          by_cases separatedHead : separates head = true
          · simp [splitOn, ih, pieces, separatedHead]
          · simp [splitOn, ih, pieces, separatedHead]

/-- Pieces that each end in a separator are found again, with an empty one
behind the last. -/
theorem splitOn_flatMap_concat {separator : α} {pieces : List (List α)}
    (whole : ∀ piece ∈ pieces, ∀ item ∈ piece, separates item = false)
    (separated : separates separator = true) :
    splitOn separates (pieces.flatMap fun piece => piece ++ [separator]) =
      pieces ++ [[]] := by
  induction pieces with
  | nil => rfl
  | cons piece pieces ih =>
      have rest := ih fun other member =>
        whole other (List.mem_cons_of_mem piece member)
      have split := splitOn_append_cons (whole piece List.mem_cons_self) separated
        (pieces.flatMap fun piece => piece ++ [separator])
      simpa [List.flatMap_cons, rest] using split

/-- Pieces with a separator between each are found again. -/
theorem splitOn_intercalate {separator : α} {pieces : List (List α)} (nonempty : pieces ≠ [])
    (whole : ∀ piece ∈ pieces, ∀ item ∈ piece, separates item = false)
    (separated : separates separator = true) :
    splitOn separates ([separator].intercalate pieces) = pieces := by
  induction pieces with
  | nil => exact absurd rfl nonempty
  | cons piece pieces ih =>
      have here := whole piece List.mem_cons_self
      cases pieces with
      | nil => simpa [List.intercalate] using splitOn_eq_singleton here
      | cons next others =>
          have rest := ih (List.cons_ne_nil next others) fun other member =>
            whole other (List.mem_cons_of_mem piece member)
          have split := splitOn_append_cons here separated
            ([separator].intercalate (next :: others))
          rw [rest] at split
          simpa [List.intercalate] using split

/-- Pieces between separators have none. -/
theorem notSeparates_of_mem_splitOn {items piece : List α}
    (isPiece : piece ∈ splitOn separates items) : ∀ item ∈ piece, separates item = false := by
  induction items generalizing piece with
  | nil =>
      rw [List.mem_singleton.mp isPiece]
      exact List.forall_mem_nil _
  | cons head tail ih =>
      cases pieces : splitOn separates tail with
      | nil => exact absurd pieces (splitOn_ne_nil separates tail)
      | cons first others =>
          rw [pieces] at ih
          simp only [splitOn, pieces] at isPiece
          split at isPiece
          · rcases List.mem_cons.mp isPiece with rfl | later
            · exact List.forall_mem_nil _
            · exact ih later
          · rename_i inside
            rcases List.mem_cons.mp isPiece with rfl | later
            · exact List.forall_mem_cons.mpr
                ⟨Bool.eq_false_iff.mpr inside, ih List.mem_cons_self⟩
            · exact ih (List.mem_cons_of_mem first later)

/-- Pieces are parts of what is split. -/
theorem subset_of_mem_splitOn {items piece : List α} (isPiece : piece ∈ splitOn separates items) :
    piece ⊆ items := by
  induction items generalizing piece with
  | nil =>
      rw [List.mem_singleton.mp isPiece]
      exact List.nil_subset _
  | cons head tail ih =>
      cases pieces : splitOn separates tail with
      | nil => exact absurd pieces (splitOn_ne_nil separates tail)
      | cons first others =>
          rw [pieces] at ih
          simp only [splitOn, pieces] at isPiece
          split at isPiece
          · rcases List.mem_cons.mp isPiece with rfl | later
            · exact List.nil_subset _
            · exact List.subset_cons_of_subset head (ih later)
          · rcases List.mem_cons.mp isPiece with rfl | later
            · exact List.cons_subset_cons head (ih List.mem_cons_self)
            · exact List.subset_cons_of_subset head (ih (List.mem_cons_of_mem first later))

theorem cutAt_append_cons {stops : Char → Bool} {before : List Char}
    (runs : ∀ character ∈ before, stops character = false) {stop : Char}
    (isStop : stops stop = true) (after : List Char) :
    cutAt stops (before ++ stop :: after) = some (before, after) := by
  have kept : ∀ character ∈ before, (!stops character) = true :=
    fun character member => by rw [runs character member, Bool.not_false]
  rw [cutAt, List.dropWhile_append_of_pos kept, List.takeWhile_append_of_pos kept]
  simp [isStop]

/-- A cut text is what stood before the first character that stops, that character and what
stood behind it. -/
theorem exists_of_cutAt {stops : Char → Bool} {text before after : List Char}
    (found : cutAt stops text = some (before, after)) :
    ∃ stop, stops stop = true ∧ text = before ++ stop :: after ∧
      ∀ character ∈ before, stops character = false := by
  unfold cutAt at found
  split at found
  · cases found
  · rename_i stop tail dropped
    obtain ⟨rfl, rfl⟩ := Prod.mk.inj (Option.some.inj found)
    refine ⟨stop, ?_, ?_, ?_⟩
    · have isStop := List.head?_dropWhile_not (fun character => !stops character) text
      simpa [dropped] using isStop
    · rw [← dropped, List.takeWhile_append_dropWhile]
    · intro character member
      have runs := List.mem_takeWhile_imp member
      simpa using runs

theorem cutAt_eq_none {stops : Char → Bool} {text : List Char}
    (runs : ∀ character ∈ text, stops character = false) : cutAt stops text = none := by
  have whole : text.dropWhile (fun character => !stops character) = [] :=
    List.dropWhile_eq_nil_iff.mpr fun character member => by rw [runs character member]; rfl
  rw [cutAt, whole]

theorem notStops_of_cutAt_eq_none {stops : Char → Bool} {text : List Char}
    (uncut : cutAt stops text = none) : ∀ character ∈ text, stops character = false := by
  unfold cutAt at uncut
  split at uncut
  · rename_i whole
    intro character member
    have runs := List.dropWhile_eq_nil_iff.mp whole character member
    simpa using runs
  · cases uncut

theorem subset_of_cutAt {stops : Char → Bool} {text before after : List Char}
    (found : cutAt stops text = some (before, after)) : before ⊆ text ∧ after ⊆ text := by
  obtain ⟨stop, -, rfl, -⟩ := exists_of_cutAt found
  exact ⟨List.subset_append_left _ _,
    List.subset_append_of_subset_right _ (List.subset_cons_self stop after)⟩

end Split

section Lines

/-- The piece of a text that a line is, without the carriage return at its end. -/
def withoutReturn (line : List Char) : List Char :=
  if line.getLast? = some '\r' then line.dropLast else line

theorem trim_withoutReturn (line : List Char) : trim (withoutReturn line) = trim line := by
  unfold withoutReturn
  split
  · rename_i returns
    obtain ⟨front, rfl⟩ := List.getLast?_eq_some_iff.mp returns
    rw [List.dropLast_concat, trim_concat_blank (by decide)]
  · rfl

theorem lines_eq {text last : List Char} {front : List (List Char)}
    (pieces : splitOn (· == '\n') text = front ++ [last]) :
    lines text = front.map withoutReturn ++ if last = [] then [] else [last] := by
  unfold lines
  dsimp only
  rw [pieces, List.getLast?_concat, List.dropLast_concat]
  cases last with
  | nil => exact (List.append_nil _).symm
  | cons first rest => rfl

theorem exists_pieces (text : List Char) :
    ∃ front last, splitOn (· == '\n') text = front ++ [last] :=
  ⟨_, _, (List.dropLast_append_getLast (splitOn_ne_nil _ text)).symm⟩

/-- A piece between line feeds is a line, but for a last empty one. -/
theorem exists_getElem?_lines {text piece : List Char} {index : Nat}
    (isPiece : (splitOn (· == '\n') text)[index]? = some piece) (nonempty : piece ≠ []) :
    ∃ line, (lines text)[index]? = some line ∧ trim line = trim piece := by
  obtain ⟨front, last, pieces⟩ := exists_pieces text
  rw [pieces] at isPiece
  rw [lines_eq pieces]
  by_cases inFront : index < front.length
  · rw [List.getElem?_append_left inFront] at isPiece
    rw [List.getElem?_append_left (by simpa using inFront), List.getElem?_map, isPiece]
    exact ⟨_, rfl, trim_withoutReturn piece⟩
  · have behind : front.length ≤ index := not_lt.mp inFront
    rw [List.getElem?_append_right behind] at isPiece
    obtain rfl : piece = last := (List.mem_singleton.mp (List.mem_of_getElem? isPiece))
    rw [List.getElem?_append_right (by simpa using behind), List.length_map, if_neg nonempty]
    exact ⟨piece, isPiece, rfl⟩

theorem exists_piece_of_mem_lines {text line : List Char} (isLine : line ∈ lines text) :
    ∃ piece ∈ splitOn (· == '\n') text, trim line = trim piece := by
  obtain ⟨front, last, pieces⟩ := exists_pieces text
  rw [lines_eq pieces, List.mem_append] at isLine
  rw [pieces]
  rcases isLine with inFront | isLast
  · obtain ⟨piece, isPiece, rfl⟩ := List.mem_map.mp inFront
    exact ⟨piece, List.mem_append_left _ isPiece, trim_withoutReturn piece⟩
  · split at isLast
    · cases isLast
    · exact ⟨last, List.mem_append_right _ (List.mem_singleton_self last),
        by rw [List.mem_singleton.mp isLast]⟩

end Lines

section Words

def IsSolid (word : List Char) : Prop :=
  word ≠ [] ∧ ∀ character ∈ word, isBlank character = false

theorem isSolid_of_mem_words {text word : List Char} (isWord : word ∈ words text) :
    IsSolid word := by
  obtain ⟨isPiece, nonempty⟩ := List.mem_filter.mp isWord
  exact ⟨of_decide_eq_true nonempty, notSeparates_of_mem_splitOn isPiece⟩

theorem words_solid {word : List Char} (solid : IsSolid word) : words word = [word] := by
  rw [words, splitOn_eq_singleton solid.2]
  simp [solid.1]

theorem words_append_blank {gap : Char} (blank : isBlank gap = true) (text rest : List Char) :
    words (text ++ gap :: rest) = words text ++ words rest := by
  rw [words, splitOn_append_separator blank, List.filter_append]
  rfl

theorem words_blank_cons {gap : Char} (blank : isBlank gap = true)
    (rest : List Char) : words (gap :: rest) = words rest :=
  words_append_blank blank [] rest

/-- A text that starts with a solid character starts with a word that a blank ends, if
anything does. -/
theorem exists_word_append {first : Char} (solid : isBlank first = false) (rest : List Char) :
    ∃ word after, first :: rest = word ++ after ∧ IsSolid word ∧
      ∀ character ∈ after.head?, isBlank character = true := by
  refine ⟨(first :: rest).takeWhile (!isBlank ·), (first :: rest).dropWhile (!isBlank ·),
    (List.takeWhile_append_dropWhile ..).symm, ⟨?_, ?_⟩, ?_⟩
  · simp [solid]
  · intro character member
    simpa using List.mem_takeWhile_imp member
  · intro character member
    cases dropped : (first :: rest).dropWhile (!isBlank ·) with
    | nil => simp [dropped] at member
    | cons head tail =>
        have stops := List.head_dropWhile_not (p := (!isBlank ·)) (l := first :: rest)
          (by simp [dropped])
        rw [dropped, List.head?_cons, Option.mem_some_iff] at member
        simpa [dropped, member] using stops

theorem words_append_of_stop {word after : List Char} (solid : IsSolid word)
    (stop : ∀ character ∈ after.head?, isBlank character = true) :
    words (word ++ after) = word :: words after := by
  cases after with
  | nil => rw [List.append_nil, words_solid solid]; rfl
  | cons gap rest =>
      have blank := stop gap rfl
      rw [words_append_blank blank, words_blank_cons blank, words_solid solid]
      rfl

theorem words_eq_nil {text : List Char}
    (blank : ∀ character ∈ text, isBlank character = true) : words text = [] := by
  induction text with
  | nil => rfl
  | cons head tail ih =>
      rw [words_blank_cons (blank head List.mem_cons_self)]
      exact ih fun character member => blank character (List.mem_cons_of_mem head member)

theorem words_append_of_blank {blanks : List Char}
    (blank : ∀ character ∈ blanks, isBlank character = true) (text : List Char) :
    words (text ++ blanks) = words text := by
  cases blanks with
  | nil => rw [List.append_nil]
  | cons gap rest =>
      rw [words_append_blank (blank gap List.mem_cons_self),
        words_eq_nil fun character member => blank character (List.mem_cons_of_mem gap member),
        List.append_nil]

/-- Solid words with one blank between each are found again. -/
theorem words_intercalate {pieces : List (List Char)} (solid : ∀ piece ∈ pieces, IsSolid piece) :
    words ([' '].intercalate pieces) = pieces := by
  cases pieces with
  | nil => rfl
  | cons piece pieces =>
      rw [words, splitOn_intercalate (List.cons_ne_nil piece pieces)
        (fun other member => (solid other member).2) (by decide), List.filter_eq_self]
      exact fun other member => decide_eq_true (solid other member).1

/-- The characters of a word stand in the text. -/
theorem subset_of_mem_words {text word : List Char} (isWord : word ∈ words text) : word ⊆ text :=
  subset_of_mem_splitOn (List.mem_of_mem_filter isWord)

end Words

end Milling.Text
