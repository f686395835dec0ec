import Milling.Proofs.Program.Line

/-!
# Stripping comments off a line

A line is code with comments in parentheses, and at most one comment that runs to its end.
What is stripped off are the comments, with a blank for each one that is closed; every other
character stays.
-/

namespace Milling.Program

/-- What stands in a line in front of a comment that runs to its end. -/
inductive LinePart where
  | code (character : Char)
  /-- A comment in parentheses. -/
  | enclosed (inside : List Char)

/-- The comment that runs to the end of a line, if there is one. -/
inductive LineEnd where
  | bare
  | semicolon (text : List Char)
  /-- A comment behind a parenthesis that is not closed. -/
  | unclosed (text : List Char)

namespace LinePart

def source : LinePart → List Char
  | code character => [character]
  | enclosed inside => '(' :: inside ++ [')']

/-- The code that is left of a part. -/
def stripped : LinePart → List Char
  | code character => [character]
  | enclosed _ => [' ']

def note? : LinePart → Option (List Char)
  | code _ => none
  | enclosed inside => some (Text.trim inside)

def IsValid : LinePart → Prop
  | code character => character ≠ ';' ∧ character ≠ '('
  | enclosed inside => ')' ∉ inside

end LinePart

namespace LineEnd

def source : LineEnd → List Char
  | bare => []
  | semicolon text => ';' :: text
  | unclosed text => '(' :: text

def note? : LineEnd → Option (List Char)
  | bare => none
  | semicolon text => some (Text.trim text)
  | unclosed text => some (Text.trim text)

def IsValid : LineEnd → Prop
  | bare => True
  | semicolon _ => True
  | unclosed text => ')' ∉ text

end LineEnd

/-- The parts of a line. -/
structure LineLayout where
  parts : List LinePart
  ending : LineEnd

namespace LineLayout

def source (layout : LineLayout) : List Char :=
  layout.parts.flatMap LinePart.source ++ layout.ending.source

/-- The line without its comments. -/
def stripped (layout : LineLayout) : List Char := layout.parts.flatMap LinePart.stripped

/-- The texts of the comments, from left to right. -/
def notes (layout : LineLayout) : List (List Char) :=
  layout.parts.filterMap LinePart.note? ++ layout.ending.note?.toList

/-- The texts of the comments as one. -/
def comment? (layout : LineLayout) : Option String :=
  if layout.notes = [] then none
  else some (String.ofList ([' '].intercalate layout.notes))

end LineLayout

/-- A line has these parts.  Code is neither a semicolon nor an opening parenthesis, and
a comment in parentheses ends with the first one that closes. -/
structure HasLayout (line : List Char) (layout : LineLayout) : Prop where
  whole : layout.source = line
  parts : ∀ part ∈ layout.parts, part.IsValid
  ending : layout.ending.IsValid

theorem hasLayout_end (ending : LineEnd) (valid : ending.IsValid) :
    HasLayout ending.source { parts := [], ending } :=
  ⟨rfl, List.forall_mem_nil _, valid⟩

section Layouts

variable {line : List Char} {layout : LineLayout}

namespace HasLayout

theorem cons (part : LinePart) (valid : part.IsValid) (rest : HasLayout line layout) :
    HasLayout (part.source ++ line) { layout with parts := part :: layout.parts } where
  whole := by
    rw [← rest.whole]
    exact List.append_assoc ..
  parts := List.forall_mem_cons.mpr ⟨valid, rest.parts⟩
  ending := rest.ending

/-- A line is stripped part by part. -/
theorem splitComments_eq (hasLayout : HasLayout line layout) :
    splitComments line = (layout.stripped, layout.notes) := by
  obtain ⟨parts, ending⟩ := layout
  obtain ⟨rfl, valid, endValid⟩ := hasLayout
  induction parts with
  | nil =>
      cases ending with
      | bare => exact splitComments_of_plain (List.forall_mem_nil _)
      | semicolon text => exact splitComments_semicolon text
      | unclosed text => exact splitComments_unclosed endValid
  | cons part parts ih =>
      obtain ⟨partValid, restValid⟩ := List.forall_mem_cons.mp valid
      have later := ih restValid endValid
      have split : LineLayout.source { parts := part :: parts, ending } =
          part.source ++ LineLayout.source { parts, ending } := List.append_assoc ..
      rw [split]
      cases part with
      | code character =>
          have plain : ∀ other ∈ [character], other ≠ ';' ∧ other ≠ '(' :=
            List.forall_mem_singleton.mpr partValid
          rw [LinePart.source, splitComments_append plain, later]
          rfl
      | enclosed inside =>
          rw [LinePart.source, List.append_assoc, List.singleton_append,
            splitComments_parenthesis partValid, later]
          rfl

theorem plain_of_mem_stripped (hasLayout : HasLayout line layout) :
    ∀ character ∈ layout.stripped, character ≠ ';' ∧ character ≠ '(' := by
  intro character member
  obtain ⟨part, isPart, inPart⟩ := List.mem_flatMap.mp member
  have valid := hasLayout.parts part isPart
  cases part with
  | code own =>
      rw [List.mem_singleton.mp inPart]
      exact valid
  | enclosed inside =>
      rw [List.mem_singleton.mp inPart]
      decide

/-- A line without comments is its code. -/
theorem eq_stripped (hasLayout : HasLayout line layout) (bare : layout.notes = []) :
    line = layout.stripped := by
  obtain ⟨parts, ending⟩ := layout
  obtain ⟨noneEnclosed, noEnd⟩ := List.append_eq_nil_iff.mp bare
  have endSource : ending.source = [] := by
    cases ending with
    | bare => rfl
    | semicolon text => cases noEnd
    | unclosed text => cases noEnd
  have partSource : ∀ part ∈ parts, part.source = part.stripped := by
    intro part isPart
    cases part with
    | code character => rfl
    | enclosed inside =>
        cases List.filterMap_eq_nil_iff.mp noneEnclosed _ isPart
  rw [← hasLayout.whole, LineLayout.source, endSource, List.append_nil]
  exact congrArg List.flatten (List.map_congr_left partSource)

end HasLayout

theorem exists_hasLayout (line : List Char) : ∃ layout, HasLayout line layout := by
  induction line using splitComments.induct with
  | case1 => exact ⟨_, hasLayout_end .bare trivial⟩
  | case2 rest => exact ⟨_, hasLayout_end (.semicolon rest) trivial⟩
  | case3 rest inside after found _ _ _ notSemicolon ih =>
      obtain ⟨layout, hasLayout⟩ := ih
      obtain ⟨stop, isStop, rfl, runs⟩ := Text.exists_of_cutAt found
      obtain rfl := beq_iff_eq.mp isStop
      have unclosed : ')' ∉ inside := fun member => by simpa using runs ')' member
      have joined := hasLayout.cons (.enclosed inside) unclosed
      rw [LinePart.source, List.append_assoc] at joined
      exact ⟨_, joined⟩
  | case4 rest uncut notSemicolon =>
      have unclosed : ')' ∉ rest := fun member => by
        simpa using Text.notStops_of_cutAt_eq_none uncut ')' member
      exact ⟨_, hasLayout_end (.unclosed rest) unclosed⟩
  | case5 first rest notSemicolon notParenthesis _ _ _ ih =>
      obtain ⟨layout, hasLayout⟩ := ih
      exact ⟨_, hasLayout.cons (.code first) ⟨notSemicolon, notParenthesis⟩⟩

theorem HasLayout.comment?_eq (hasLayout : HasLayout line layout) :
    comment? line = layout.comment? := by
  rw [comment?, hasLayout.splitComments_eq, LineLayout.comment?]
  cases layout.notes <;> rfl

theorem plain_iff : (∀ character ∈ line, character ≠ ';' ∧ character ≠ '(') ↔
    '(' ∉ line ∧ ';' ∉ line := by
  constructor
  · exact fun plain => ⟨fun opens => (plain '(' opens).2 rfl, fun opens => (plain ';' opens).1 rfl⟩
  · rintro ⟨noParenthesis, noSemicolon⟩ character member
    exact ⟨ne_of_mem_of_not_mem member noSemicolon, ne_of_mem_of_not_mem member noParenthesis⟩

theorem plain_of_mem_stripComments (line : List Char) :
    ∀ character ∈ stripComments line, character ≠ ';' ∧ character ≠ '(' := by
  obtain ⟨layout, hasLayout⟩ := exists_hasLayout line
  rw [stripComments, hasLayout.splitComments_eq]
  exact hasLayout.plain_of_mem_stripped

theorem comment?_of_plain (plain : ∀ character ∈ line, character ≠ ';' ∧ character ≠ '(') :
    comment? line = none := by
  rw [comment?, splitComments_of_plain plain]

theorem comment?_eq_none_iff :
    comment? line = none ↔ ∀ character ∈ line, character ≠ ';' ∧ character ≠ '(' := by
  constructor
  · intro uncommented
    obtain ⟨layout, hasLayout⟩ := exists_hasLayout line
    rw [hasLayout.comment?_eq, LineLayout.comment?] at uncommented
    split at uncommented
    · rename_i bare
      rw [hasLayout.eq_stripped bare]
      exact hasLayout.plain_of_mem_stripped
    · cases uncommented
  · exact comment?_of_plain

end Layouts

/-- Of every line the code is what its parts leave, and the comment what they note.  Code has no
comments in it, so that stripping it once more changes nothing, and a line has none only if
no character opens one. -/
theorem stripComments_layout (line : List Char) :
    (∃ layout, HasLayout line layout) ∧
      (∀ layout, HasLayout line layout →
        stripComments line = layout.stripped ∧ comment? line = layout.comment?) ∧
      ('(' ∉ stripComments line ∧ ';' ∉ stripComments line) ∧
      (stripComments (stripComments line) = stripComments line ∧
        comment? (stripComments line) = none) ∧
      (comment? line = none ↔ '(' ∉ line ∧ ';' ∉ line) := by
  have plain := plain_of_mem_stripComments line
  refine ⟨exists_hasLayout line, fun layout hasLayout => ?_, plain_iff.mp plain,
    ⟨?_, comment?_of_plain plain⟩, comment?_eq_none_iff.trans plain_iff⟩
  · exact ⟨congrArg Prod.fst hasLayout.splitComments_eq, hasLayout.comment?_eq⟩
  · change (splitComments (stripComments line)).1 = stripComments line
    rw [splitComments_of_plain plain]

theorem stripComments_layout_both :
    let layout : LineLayout := {
      parts := [.code 'X', .code '1', .enclosed "a;b ".toList, .code 'Y', .code '2']
      ending := .semicolon "(c)".toList }
    HasLayout "X1(a;b )Y2;(c)".toList layout ∧
      stripComments "X1(a;b )Y2;(c)".toList = "X1 Y2".toList ∧
      comment? "X1(a;b )Y2;(c)".toList = some "a;b (c)" := by
  intro layout
  have hasLayout : HasLayout "X1(a;b )Y2;(c)".toList layout := {
    whole := by decide
    parts := by simp [layout, LinePart.IsValid]
    ending := trivial }
  obtain ⟨code, comment⟩ := (stripComments_layout _).2.1 layout hasLayout
  exact ⟨hasLayout, code.trans (by decide), comment.trans (by decide)⟩

end Milling.Program
