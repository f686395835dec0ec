import Mathlib
import Milling.Posting.Poster

/-!
# Registering dialects

A registration takes the place of a dialect with the very same name, and a search passes over
the case of letters.  Names that differ in the case of their letters alone are therefore kept
side by side, and the dialect whose name was registered first answers to all of them.
-/

namespace Milling.Posting

/-- Names that differ at most in the case of their letters. -/
def AreAlike (first second : String) : Prop :=
  Text.lowerAscii first.toList = Text.lowerAscii second.toList

instance (first second : String) : Decidable (AreAlike first second) :=
  inferInstanceAs (Decidable (_ = _))

namespace Registry

/-- The names of the registered dialects, in their order. -/
def ids (registry : Registry) : List String := registry.dialects.map Dialect.id

/-- No name is answered to by two of the registered dialects. -/
def IsUnambiguous (registry : Registry) : Prop :=
  registry.dialects.Pairwise fun first second =>
    ∀ id, ¬(AreAlike first.id id ∧ AreAlike second.id id)

/-- The spelling of a name under which it was registered first. -/
def spelling? (registered : List Dialect) (id : String) : Option String :=
  (registered.map Dialect.id).find? fun other => decide (AreAlike other id)

/-- The dialect that was registered last under one spelling of its name. -/
def latest? (registered : List Dialect) (id : String) : Option Dialect :=
  registered.reverse.find? fun dialect => decide (dialect.id = id)

/-- The built-in dialects after more of them were registered. -/
def after (history : List Dialect) : Registry :=
  history.foldl (fun registry dialect => (registry.register dialect).1) {}

theorem after_concat (history : List Dialect) (dialect : Dialect) :
    after (history ++ [dialect]) = ((after history).register dialect).1 := by
  rw [after, List.foldl_append]
  rfl

section Register

variable (registry : Registry) (dialect : Dialect)

theorem get?_eq (id : String) :
    registry.get? id = registry.dialects.find? fun other => decide (AreAlike other.id id) := by
  unfold get?
  congr 1
  funext other
  exact beq_eq_decide _ _

theorem map_id_get? (id : String) :
    (registry.get? id).map Dialect.id =
      registry.ids.find? fun other => decide (AreAlike other id) := by
  rw [get?_eq, ids, List.find?_map]
  rfl

theorem replaceFirst_cases (dialects : List Dialect) :
    (∃ before old rest, dialects = before ++ old :: rest ∧ old.id = dialect.id ∧
        (∀ other ∈ before, other.id ≠ dialect.id) ∧
        replaceFirst dialect dialects = some (before ++ dialect :: rest, old)) ∨
      ((∀ other ∈ dialects, other.id ≠ dialect.id) ∧
        replaceFirst dialect dialects = none) := by
  induction dialects with
  | nil => exact .inr ⟨List.forall_mem_nil _, rfl⟩
  | cons first rest ih =>
      by_cases same : first.id = dialect.id
      · exact .inl ⟨[], first, rest, rfl, same, List.forall_mem_nil _, if_pos same⟩
      · have step : replaceFirst dialect (first :: rest) =
            (replaceFirst dialect rest).map fun found => (first :: found.1, found.2) :=
          if_neg same
        rcases ih with ⟨before, old, behind, rfl, found, others, replaced⟩ | ⟨others, kept⟩
        · left
          refine ⟨first :: before, old, behind, rfl, found, ?_, ?_⟩
          · exact List.forall_mem_cons.mpr ⟨same, others⟩
          · rw [step, replaced]
            rfl
        · right
          refine ⟨List.forall_mem_cons.mpr ⟨same, others⟩, ?_⟩
          rw [step, kept]
          rfl

/-- A dialect takes the place of the first one with its name, or comes last. -/
theorem dialects_register :
    (∃ before old rest, registry.dialects = before ++ old :: rest ∧ old.id = dialect.id ∧
        (∀ other ∈ before, other.id ≠ dialect.id) ∧
        (registry.register dialect).1.dialects = before ++ dialect :: rest) ∨
      ((∀ other ∈ registry.dialects, other.id ≠ dialect.id) ∧
        (registry.register dialect).1.dialects = registry.dialects ++ [dialect]) := by
  unfold register
  rcases replaceFirst_cases dialect registry.dialects with
    ⟨before, old, rest, split, found, others, replaced⟩ | ⟨others, kept⟩
  · left
    refine ⟨before, old, rest, split, found, others, ?_⟩
    rw [replaced]
  · right
    refine ⟨others, ?_⟩
    rw [kept]

theorem ids_register :
    (registry.register dialect).1.ids =
      if dialect.id ∈ registry.ids then registry.ids else registry.ids ++ [dialect.id] := by
  unfold ids
  rcases registry.dialects_register dialect with
    ⟨before, old, rest, split, found, _, next⟩ | ⟨others, next⟩
  · have known : dialect.id ∈ registry.dialects.map Dialect.id := by
      simp [split, found]
    rw [next, if_pos known, split]
    simp [found]
  · have unknown : dialect.id ∉ registry.dialects.map Dialect.id := by
      simpa using others
    rw [next, if_neg unknown, List.map_append]
    rfl

/-- A registration changes nothing for the names that are not alike. -/
theorem get?_register_of_ne {id : String} (different : ¬AreAlike dialect.id id) :
    (registry.register dialect).1.get? id = registry.get? id := by
  rw [get?_eq, get?_eq]
  rcases registry.dialects_register dialect with
    ⟨before, old, rest, split, found, _, next⟩ | ⟨_, next⟩
  · have oldDifferent : ¬AreAlike old.id id := by rwa [found]
    rw [next, split, List.find?_append, List.find?_append,
      List.find?_cons_of_neg (by simpa using different),
      List.find?_cons_of_neg (by simpa using oldDifferent)]
  · rw [next, List.find?_append, List.find?_cons_of_neg (by simpa using different)]
    simp

theorem isSome_get?_of_mem {registry : Registry} {dialect : Dialect}
    (member : dialect ∈ registry.dialects) : (registry.get? dialect.id).isSome = true := by
  rw [get?_eq, List.find?_isSome]
  exact ⟨dialect, member, decide_eq_true rfl⟩

theorem resolve_eq_of_get? {id : String} {found : Dialect}
    (isFound : registry.get? id = some found) : registry.resolve id = found := by
  rw [resolve, isFound]

end Register

/-! The names in the registry follow from the names that were ever registered. -/

section History

variable (history : List Dialect)

theorem find?_ids_after (holds : String → Bool) :
    (after history).ids.find? holds =
      ((Dialect.builtIn ++ history).map Dialect.id).find? holds := by
  induction history using List.reverseRecOn with
  | nil =>
      rw [List.append_nil]
      rfl
  | append_singleton history dialect ih =>
      rw [after_concat, ids_register, ← List.append_assoc, List.map_append, List.find?_append,
        ← ih]
      split
      · -- the name is known, so one more of it is never the first
        rename_i known
        cases first : (after history).ids.find? holds with
        | some id => rfl
        | none =>
            have isNot := List.find?_eq_none.mp first dialect.id known
            simp [isNot]
      · rw [List.find?_append]
        rfl

theorem mem_ids_after {id : String} :
    id ∈ (after history).ids ↔ id ∈ (Dialect.builtIn ++ history).map Dialect.id := by
  have same := congrArg Option.isSome (find?_ids_after history fun other => other == id)
  rw [Bool.eq_iff_iff, List.find?_isSome, List.find?_isSome] at same
  simpa using same

theorem nodup_ids_after : (after history).ids.Nodup := by
  induction history using List.reverseRecOn with
  | nil => decide
  | append_singleton history dialect ih =>
      rw [after_concat, ids_register]
      split
      · exact ih
      · rename_i unknown
        rw [← List.concat_eq_append]
        exact ih.concat unknown

theorem latest?_concat (registered : List Dialect) (dialect : Dialect) (id : String) :
    latest? (registered ++ [dialect]) id =
      if dialect.id = id then some dialect else latest? registered id := by
  rw [latest?, List.reverse_concat, List.find?_cons]
  by_cases same : dialect.id = id <;> simp [latest?, same]

/-- Of the dialects that were registered under one spelling the last one is kept. -/
theorem latest?_of_mem_after {dialect : Dialect} (member : dialect ∈ (after history).dialects) :
    latest? (Dialect.builtIn ++ history) dialect.id = some dialect := by
  induction history using List.reverseRecOn generalizing dialect with
  | nil =>
      have builtIn : ∀ dialect ∈ Dialect.builtIn,
          latest? Dialect.builtIn dialect.id = some dialect := by decide
      rw [List.append_nil]
      exact builtIn dialect member
  | append_singleton history added ih =>
      have stays (kept : Dialect) (isKept : kept ∈ (after history).dialects)
          (other : kept.id ≠ added.id) :
          latest? (Dialect.builtIn ++ history ++ [added]) kept.id = some kept := by
        rw [latest?_concat, if_neg (Ne.symm other)]
        exact ih isKept
      have isLast : latest? (Dialect.builtIn ++ history ++ [added]) added.id = some added := by
        rw [latest?_concat, if_pos rfl]
      rw [after_concat] at member
      rw [← List.append_assoc]
      rcases (after history).dialects_register added with
        ⟨before, old, rest, split, found, others, next⟩ | ⟨others, next⟩
      · have distinct := nodup_ids_after history
        rw [ids, split, List.map_append, List.map_cons, found, List.nodup_middle,
          List.nodup_cons] at distinct
        rw [next, List.mem_append, List.mem_cons] at member
        rcases member with inFront | rfl | behind
        · exact stays dialect (by simp [split, inFront]) (others dialect inFront)
        · exact isLast
        · refine stays dialect (by simp [split, behind]) fun same => distinct.1 ?_
          exact List.mem_append_right _ (List.mem_map.mpr ⟨dialect, behind, same⟩)
      · rw [next, List.mem_append, List.mem_singleton] at member
        rcases member with isKept | rfl
        · exact stays dialect isKept (others dialect isKept)
        · exact isLast

/-- A name finds the dialect that was registered last under the spelling registered first. -/
theorem get?_after (id : String) :
    (after history).get? id =
      (spelling? (Dialect.builtIn ++ history) id).bind
        (latest? (Dialect.builtIn ++ history)) := by
  rw [spelling?, ← find?_ids_after, ← map_id_get?]
  cases found : (after history).get? id with
  | none => rfl
  | some dialect =>
      rw [get?_eq] at found
      exact (latest?_of_mem_after history (List.mem_of_find?_eq_some found)).symm

end History

theorem isUnambiguous_iff {registry : Registry} (distinct : registry.ids.Nodup) :
    registry.IsUnambiguous ↔
      ∀ first ∈ registry.ids, ∀ second ∈ registry.ids, AreAlike first second →
        first = second := by
  have apart : registry.IsUnambiguous ↔
      registry.ids.Pairwise fun first second => ¬AreAlike first second := by
    rw [ids, List.pairwise_map]
    refine ⟨List.Pairwise.imp ?_, List.Pairwise.imp ?_⟩
    · intro first second none alike
      exact none second.id ⟨alike, rfl⟩
    · rintro first second different id ⟨firstAnswers, secondAnswers⟩
      exact different (firstAnswers.trans secondAnswers.symm)
  rw [apart]
  constructor
  · intro pairwise first isFirst second isSecond alike
    by_contra different
    have symmetric : Std.Symm fun first second => ¬AreAlike first second :=
      ⟨fun _ _ none alike => none alike.symm⟩
    exact pairwise.forall isFirst isSecond different alike
  · intro spelled
    refine distinct.imp_of_mem ?_
    intro first second isFirst isSecond different alike
    exact different (spelled first isFirst second isSecond alike)

/-- Whatever was registered before, a dialect that is registered is found and resolved under
its name exactly if its spelling of the name is the first one; registered dialects of other names
are found and resolved as before; and no name is answered to twice exactly if names that are
alike were always spelled alike. -/
theorem register_answers (history : List Dialect) (dialect : Dialect) :
    let registry := after history
    let next := (registry.register dialect).1
    let registered := Dialect.builtIn ++ history ++ [dialect]
    (next.get? dialect.id = some dialect ↔
        spelling? registered dialect.id = some dialect.id) ∧
      (next.resolve dialect.id = dialect ↔
        spelling? registered dialect.id = some dialect.id) ∧
      (∀ other ∈ registry.dialects, ¬AreAlike dialect.id other.id →
        next.get? other.id = registry.get? other.id ∧
          next.resolve other.id = registry.resolve other.id) ∧
      (next.IsUnambiguous ↔ ∀ first ∈ registered, ∀ second ∈ registered,
        AreAlike first.id second.id → first.id = second.id) := by
  intro registry next registered
  have concat : next = after (history ++ [dialect]) := (after_concat history dialect).symm
  have names : Dialect.builtIn ++ (history ++ [dialect]) = registered :=
    (List.append_assoc _ _ _).symm
  have found : next.get? dialect.id =
      (spelling? registered dialect.id).bind (latest? registered) := by
    rw [concat, get?_after, names]
  have isLast : latest? registered dialect.id = some dialect := by
    rw [latest?_concat, if_pos rfl]
  have getIff : next.get? dialect.id = some dialect ↔
      spelling? registered dialect.id = some dialect.id := by
    constructor
    · intro isFound
      have first := congrArg (Option.map Dialect.id) isFound
      rwa [map_id_get?, concat, find?_ids_after, names] at first
    · intro first
      rw [found, first]
      exact isLast
  have present : dialect ∈ next.dialects := by
    rcases registry.dialects_register dialect with
      ⟨before, old, rest, _, _, _, placed⟩ | ⟨_, placed⟩ <;> simp [next, placed]
  refine ⟨getIff, ?_, ?_, ?_⟩
  · obtain ⟨answer, isAnswer⟩ := Option.isSome_iff_exists.mp (isSome_get?_of_mem present)
    rw [← getIff, isAnswer, resolve_eq_of_get? next isAnswer, Option.some.injEq]
  · intro other isKept different
    have same := registry.get?_register_of_ne dialect different
    obtain ⟨answer, isAnswer⟩ := Option.isSome_iff_exists.mp (isSome_get?_of_mem isKept)
    refine ⟨same, ?_⟩
    rw [resolve_eq_of_get? registry isAnswer]
    exact resolve_eq_of_get? next (same.trans isAnswer)
  · rw [concat, isUnambiguous_iff (nodup_ids_after _)]
    simp only [mem_ids_after, names, List.forall_mem_map]

/-- A dialect under the name of a built-in one, in capitals and with fewer decimals. -/
def coarseGrbl : Dialect :=
  { Dialect.grbl with id := "GRBL", name := "Coarse GRBL", decimals := 2 }

/-- Once it is registered, the built-in dialect goes on answering to its name. -/
theorem register_hidden :
    let next := (({} : Registry).register coarseGrbl).1
    next.get? coarseGrbl.id = some Dialect.grbl ∧ next.resolve coarseGrbl.id = Dialect.grbl ∧
      Dialect.grbl ≠ coarseGrbl ∧ ¬next.IsUnambiguous := by
  intro next
  refine ⟨by decide, by decide, by decide, ?_⟩
  rw [isUnambiguous_iff (by decide)]
  intro spelled
  have same := spelled "grbl" (by decide) "GRBL" (by decide) (by decide)
  exact absurd same (by decide)

end Registry

end Milling.Posting
