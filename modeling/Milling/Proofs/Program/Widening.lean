import Mathlib.Data.List.SplitBy
import Milling.Proofs.Program.Reference

/-!
# Whole numbers of expressions

An expression falls into runs of characters that belong to numbers and names, and runs of
others.  A run that has digits only is a whole number and is widened; every other run stays
as it is.
-/

namespace Milling.Program

section Scanning

theorem isLiteralChar_of_isDigit {character : Char} (isDigit : character.isDigit = true) :
    isLiteralChar character = true := by
  simp [isLiteralChar, Char.isAlphanum, isDigit]

theorem isDigit_of_not_literal {character : Char} (plain : isLiteralChar character = false) :
    character.isDigit = false := by
  rw [← Bool.not_eq_true] at plain ⊢
  exact fun isDigit => plain (isLiteralChar_of_isDigit isDigit)

/-- Numbers are widened on both sides of a character that belongs to none. -/
theorem widenFrom_append_cons {apart : Char} (plain : isLiteralChar apart = false)
    (inside : Bool) (front back : List Char) :
    widenFrom inside (front ++ apart :: back) =
      widenFrom inside front ++ apart :: widenFrom false back := by
  have notDigit := isDigit_of_not_literal plain
  have stops : ∀ next ∈ (apart :: back).head?, next.isDigit = false := by
    rintro next ⟨⟩
    exact notDigit
  have sameHead (rest : List Char) :
      (rest.dropWhile Char.isDigit ++ apart :: back).head?.any isLiteralChar =
        (rest.dropWhile Char.isDigit).head?.any isLiteralChar := by
    cases rest.dropWhile Char.isDigit with
    | nil => exact plain
    | cons next rest => rfl
  induction inside, front using widenFrom.induct with
  | case1 inside =>
      rw [List.nil_append, widenFrom, widenFrom, List.nil_append, notDigit, Bool.false_and,
        if_neg Bool.false_ne_true, plain]
  | case2 inside character rest isNumber after named ih =>
      rw [List.cons_append, widenFrom, widenFrom, if_pos isNumber, if_pos isNumber]
      simp only [takeWhile_isDigit_append stops, dropWhile_isDigit_append stops, sameHead]
      rw [if_pos named, if_pos named, ih, List.cons_append, List.append_assoc, List.cons_append]
  | case3 inside character rest isNumber after whole ih =>
      rw [List.cons_append, widenFrom, widenFrom, if_pos isNumber, if_pos isNumber]
      simp only [takeWhile_isDigit_append stops, dropWhile_isDigit_append stops, sameHead]
      rw [if_neg whole, if_neg whole, ih]
      simp only [List.cons_append, List.append_assoc]
      rfl
  | case4 inside character rest notNumber ih =>
      rw [List.cons_append, widenFrom, widenFrom, if_neg notNumber, if_neg notNumber, ih,
        List.cons_append]

theorem widenIntegers_nil : widenIntegers [] = [] := by rw [widenIntegers, widenFrom]

theorem widenIntegers_cons_plain {apart : Char} (plain : isLiteralChar apart = false)
    (back : List Char) : widenIntegers (apart :: back) = apart :: widenIntegers back := by
  have split := widenFrom_append_cons plain false [] back
  rwa [List.nil_append, widenFrom, List.nil_append] at split

/-- Two texts are widened apart from each other if the second one starts with a character that
belongs to no number or name. -/
theorem widenIntegers_append {back : List Char}
    (apart : ∀ next ∈ back.head?, isLiteralChar next = false) (front : List Char) :
    widenIntegers (front ++ back) = widenIntegers front ++ widenIntegers back := by
  cases back with
  | nil => rw [widenIntegers_nil, List.append_nil, List.append_nil]
  | cons next back =>
      have plain := apart next rfl
      rw [widenIntegers_cons_plain plain, widenIntegers, widenFrom_append_cons plain]
      rfl

theorem widenIntegers_plain_append {front : List Char}
    (plain : ∀ character ∈ front, isLiteralChar character = false) (rest : List Char) :
    widenIntegers (front ++ rest) = front ++ widenIntegers rest := by
  induction front with
  | nil => rfl
  | cons character front ih =>
      obtain ⟨headPlain, tailPlain⟩ := List.forall_mem_cons.mp plain
      rw [List.cons_append, widenIntegers_cons_plain headPlain, ih tailPlain, List.cons_append]

/-- Behind the start of a number or a name nothing is widened until it ends. -/
theorem widenFrom_true_of_literal {rest : List Char}
    (literal : ∀ character ∈ rest, isLiteralChar character = true) :
    widenFrom true rest = rest := by
  induction rest with
  | nil => rw [widenFrom]
  | cons character rest ih =>
      obtain ⟨headLiteral, tailLiteral⟩ := List.forall_mem_cons.mp literal
      rw [widenFrom, if_neg (by simp), headLiteral, ih tailLiteral]

end Scanning

section Runs

def IsWhole (run : List Char) : Prop := run ≠ [] ∧ run.all Char.isDigit = true

instance (run : List Char) : Decidable (IsWhole run) :=
  inferInstanceAs (Decidable (run ≠ [] ∧ run.all Char.isDigit = true))

def widened (run : List Char) : List Char := if IsWhole run then run ++ ['.', '0'] else run

/-- The runs of a text, as long as they can be: either all characters of a run belong to
numbers and names, or none does. -/
structure AreRuns (text : List Char) (runs : List (List Char)) : Prop where
  whole : runs.flatten = text
  filled : [] ∉ runs
  alike : ∀ run ∈ runs, ∀ first ∈ run, ∀ second ∈ run,
    isLiteralChar first = isLiteralChar second
  longest : runs.IsChain fun run next => ∀ first ∈ run, ∀ second ∈ next,
    isLiteralChar first ≠ isLiteralChar second

theorem areRuns_iff {text : List Char} {runs : List (List Char)} :
    AreRuns text runs ↔
      text.splitBy (fun first second => isLiteralChar first == isLiteralChar second) = runs := by
  rw [List.splitBy_eq_iff]
  constructor
  · rintro ⟨whole, filled, alike, longest⟩
    refine ⟨whole.symm, filled, fun run isRun => ?_, longest.imp_of_mem_imp ?_⟩
    · apply List.Pairwise.isChain
      exact List.pairwise_of_forall_mem_list fun first isFirst second isSecond =>
        beq_iff_eq.mpr (alike run isRun first isFirst second isSecond)
    · intro run next isRun isNext differ
      have runFilled : run ≠ [] := ne_of_mem_of_not_mem isRun filled
      have nextFilled : next ≠ [] := ne_of_mem_of_not_mem isNext filled
      exact ⟨runFilled, nextFilled, beq_eq_false_iff_ne.mpr
        (differ _ (List.getLast_mem runFilled) _ (List.head_mem nextFilled))⟩
  · rintro ⟨whole, filled, chained, changes⟩
    have alike : ∀ run ∈ runs, ∀ first ∈ run, ∀ second ∈ run,
        isLiteralChar first = isLiteralChar second := fun run isRun => by
      have steps : (run.map isLiteralChar).IsChain Eq :=
        List.isChain_map _ |>.mpr ((chained run isRun).imp fun _ _ same => beq_iff_eq.mp same)
      have equal := steps.pairwise.forall_of_forall fun _ _ => rfl
      exact fun first isFirst second isSecond =>
        equal (List.mem_map_of_mem isFirst) (List.mem_map_of_mem isSecond)
    refine ⟨whole.symm, filled, alike, changes.imp_of_mem_imp ?_⟩
    rintro run next isRun isNext ⟨runFilled, nextFilled, differ⟩ first isFirst second isSecond
    rw [alike run isRun first isFirst _ (List.getLast_mem runFilled),
      alike next isNext second isSecond _ (List.head_mem nextFilled)]
    exact beq_eq_false_iff_ne.mp differ

theorem existsUnique_areRuns (text : List Char) : ∃! runs, AreRuns text runs :=
  ⟨_, areRuns_iff.mpr rfl, fun _ areRuns => (areRuns_iff.mp areRuns).symm⟩

theorem not_isWhole_of_mem {run : List Char} {character : Char} (member : character ∈ run)
    (notDigit : character.isDigit = false) : ¬IsWhole run := by
  intro isWhole
  rw [List.all_eq_true.mp isWhole.2 character member] at notDigit
  cases notDigit

theorem not_isWhole_widened (run : List Char) : ¬IsWhole (widened run) := by
  unfold widened
  split
  · have point : '.' ∈ run ++ ['.', '0'] := List.mem_append_right _ List.mem_cons_self
    exact not_isWhole_of_mem point (by decide)
  · assumption

theorem widened_of_not_isWhole {run : List Char} (other : ¬IsWhole run) : widened run = run :=
  if_neg other

theorem exists_of_mem_widened {run : List Char} {character : Char}
    (member : character ∈ widened run) :
    ∃ own ∈ run, isLiteralChar own = isLiteralChar character := by
  by_cases isWhole : IsWhole run
  · obtain ⟨own, isOwn⟩ := List.exists_mem_of_ne_nil run isWhole.1
    have literal := isLiteralChar_of_isDigit (List.all_eq_true.mp isWhole.2 own isOwn)
    rw [widened, if_pos isWhole] at member
    rcases List.mem_append.mp member with inRun | added
    · exact ⟨character, inRun, rfl⟩
    · simp only [List.mem_cons, List.not_mem_nil, or_false] at added
      rcases added with rfl | rfl
      · exact ⟨own, isOwn, literal⟩
      · exact ⟨own, isOwn, literal⟩
  · rw [widened_of_not_isWhole isWhole] at member
    exact ⟨character, member, rfl⟩

/-- The runs of a text stay its runs when they are widened. -/
theorem AreRuns.map_widened {text : List Char} {runs : List (List Char)}
    (areRuns : AreRuns text runs) : AreRuns (runs.flatMap widened) (runs.map widened) where
  whole := (List.flatMap_def ..).symm
  filled := by
    intro empty
    obtain ⟨run, isRun, isEmpty⟩ := List.mem_map.mp empty
    have filled : run ≠ [] := ne_of_mem_of_not_mem isRun areRuns.filled
    unfold widened at isEmpty
    split at isEmpty
    · simp at isEmpty
    · exact filled isEmpty
  alike := by
    intro run isRun first isFirst second isSecond
    obtain ⟨source, isSource, rfl⟩ := List.mem_map.mp isRun
    obtain ⟨firstOwn, inFirst, firstClass⟩ := exists_of_mem_widened isFirst
    obtain ⟨secondOwn, inSecond, secondClass⟩ := exists_of_mem_widened isSecond
    rw [← firstClass, ← secondClass]
    exact areRuns.alike source isSource firstOwn inFirst secondOwn inSecond
  longest := by
    rw [List.isChain_map]
    apply areRuns.longest.imp
    intro run next differ first isFirst second isSecond
    obtain ⟨firstOwn, inFirst, firstClass⟩ := exists_of_mem_widened isFirst
    obtain ⟨secondOwn, inSecond, secondClass⟩ := exists_of_mem_widened isSecond
    rw [← firstClass, ← secondClass]
    exact differ firstOwn inFirst secondOwn inSecond

end Runs

section Alone

variable {run : List Char}

theorem widenIntegers_of_isWhole (isWhole : IsWhole run) :
    widenIntegers run = run ++ ['.', '0'] := by
  obtain ⟨filled, digits⟩ := isWhole
  cases run with
  | nil => exact absurd rfl filled
  | cons first rest =>
      obtain ⟨isDigit, restDigits⟩ := List.forall_mem_cons.mp (List.all_eq_true.mp digits)
      have noneBehind : rest.dropWhile Char.isDigit = [] := List.dropWhile_eq_nil_iff.mpr restDigits
      have all : rest.takeWhile Char.isDigit = rest := List.takeWhile_eq_self_iff.mpr restDigits
      rw [widenIntegers, widenFrom, if_pos (by simp [isDigit])]
      simp [noneBehind, all, widenFrom]

/-- The digits at the start of a name or of a float belong to it. -/
theorem widenIntegers_of_not_isWhole (literal : ∀ character ∈ run, isLiteralChar character = true)
    (other : ¬IsWhole run) : widenIntegers run = run := by
  cases run with
  | nil => exact widenIntegers_nil
  | cons first rest =>
      obtain ⟨firstLiteral, restLiteral⟩ := List.forall_mem_cons.mp literal
      rw [widenIntegers, widenFrom]
      by_cases isDigit : first.isDigit = true
      · have behindLiteral : ∀ character ∈ rest.dropWhile Char.isDigit,
            isLiteralChar character = true := fun character member =>
          restLiteral character ((List.dropWhile_suffix Char.isDigit).subset member)
        have named : (rest.dropWhile Char.isDigit).head?.any isLiteralChar = true := by
          cases behind : rest.dropWhile Char.isDigit with
          | nil =>
              have digits : ∀ character ∈ first :: rest, character.isDigit = true :=
                List.forall_mem_cons.mpr ⟨isDigit, List.dropWhile_eq_nil_iff.mp behind⟩
              exact absurd ⟨List.cons_ne_nil _ _, List.all_eq_true.mpr digits⟩ other
          | cons next after => exact behindLiteral next (behind ▸ List.mem_cons_self)
        rw [if_pos (by simp [isDigit])]
        simp only [named, if_true]
        rw [widenFrom_true_of_literal behindLiteral, List.cons_append,
          List.takeWhile_append_dropWhile]
      · rw [if_neg (by simp [isDigit]), firstLiteral, widenFrom_true_of_literal restLiteral]

/-- A number or a name by itself. -/
theorem widenIntegers_of_literal (literal : ∀ character ∈ run, isLiteralChar character = true) :
    widenIntegers run = widened run := by
  unfold widened
  split
  · exact widenIntegers_of_isWhole ‹_›
  · exact widenIntegers_of_not_isWhole literal ‹_›

end Alone

/-- What stands behind a number or a name belongs to none. -/
theorem plain_of_head?_flatten {run : List Char} {runs : List (List Char)} (filled : [] ∉ runs)
    (longest : ∀ next ∈ runs.head?, ∀ first ∈ run, ∀ second ∈ next,
      isLiteralChar first ≠ isLiteralChar second)
    {own : Char} (isOwn : own ∈ run) (literal : isLiteralChar own = true) :
    ∀ next ∈ runs.flatten.head?, isLiteralChar next = false := by
  intro next isNext
  cases runs with
  | nil => cases isNext
  | cons following runs =>
      have nextFilled : following ≠ [] := ne_of_mem_of_not_mem List.mem_cons_self filled
      rw [List.flatten_cons, List.head?_append_of_ne_nil _ nextFilled] at isNext
      have differ := longest following rfl own isOwn next (List.mem_of_mem_head? isNext)
      rw [literal] at differ
      exact Bool.eq_false_iff.mpr differ.symm

theorem AreRuns.widenIntegers_eq {text : List Char} {runs : List (List Char)}
    (areRuns : AreRuns text runs) : widenIntegers text = runs.flatMap widened := by
  obtain ⟨rfl, filled, alike, longest⟩ := areRuns
  induction runs with
  | nil => rw [List.flatten_nil, widenIntegers_nil, List.flatMap_nil]
  | cons run runs ih =>
      rw [List.mem_cons, not_or] at filled
      obtain ⟨runFilled, restFilled⟩ := filled
      obtain ⟨runAlike, restAlike⟩ := List.forall_mem_cons.mp alike
      obtain ⟨runLongest, restLongest⟩ := List.isChain_cons.mp longest
      have later := ih restFilled restAlike restLongest
      obtain ⟨own, isOwn⟩ := List.exists_mem_of_ne_nil run (Ne.symm runFilled)
      rw [List.flatten_cons, List.flatMap_cons, ← later]
      cases kind : isLiteralChar own with
      | false =>
          have plain : ∀ character ∈ run, isLiteralChar character = false :=
            fun character member => (runAlike character member own isOwn).trans kind
          have other := not_isWhole_of_mem isOwn (isDigit_of_not_literal kind)
          rw [widenIntegers_plain_append plain, widened_of_not_isWhole other]
      | true =>
          have literal : ∀ character ∈ run, isLiteralChar character = true :=
            fun character member => (runAlike character member own isOwn).trans kind
          rw [widenIntegers_append (plain_of_head?_flatten restFilled runLongest isOwn kind),
            widenIntegers_of_literal literal]

/-- The runs of a text are widened one by one: the whole numbers among them get a decimal and
are whole numbers no longer, and all else stays, however often a text is widened. -/
theorem widenIntegers_runs (text : List Char) :
    (∃! runs, AreRuns text runs) ∧
      (∀ runs, AreRuns text runs →
        widenIntegers text = runs.flatMap widened ∧
          AreRuns (widenIntegers text) (runs.map widened) ∧
          ∀ run ∈ runs.map widened, ¬IsWhole run) ∧
      widenIntegers (widenIntegers text) = widenIntegers text := by
  have each (runs : List (List Char)) : ∀ run ∈ runs.map widened, ¬IsWhole run := by
    intro run isRun
    obtain ⟨source, -, rfl⟩ := List.mem_map.mp isRun
    exact not_isWhole_widened source
  refine ⟨existsUnique_areRuns text, fun runs areRuns => ?_, ?_⟩
  · rw [areRuns.widenIntegers_eq]
    exact ⟨rfl, areRuns.map_widened, each runs⟩
  · obtain ⟨runs, areRuns, -⟩ := existsUnique_areRuns text
    have again := areRuns.map_widened.widenIntegers_eq
    rw [areRuns.widenIntegers_eq, again, List.flatMap_map]
    exact congrArg List.flatten (List.map_congr_left fun run _ =>
      widened_of_not_isWhole (not_isWhole_widened run))

theorem widenIntegers_runs_mixed :
    AreRuns "1/2.5+a3..4-07".toList (["1", "/", "2.5", "+", "a3..4", "-", "07"].map String.toList) ∧
      widenIntegers "1/2.5+a3..4-07".toList = "1.0/2.5+a3..4-07.0".toList := by
  have areRuns : AreRuns "1/2.5+a3..4-07".toList
      (["1", "/", "2.5", "+", "a3..4", "-", "07"].map String.toList) :=
    areRuns_iff.mpr (by decide)
  exact ⟨areRuns, ((widenIntegers_runs _).2.1 _ areRuns).1.trans (by decide)⟩

end Milling.Program
