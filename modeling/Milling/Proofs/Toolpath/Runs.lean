import Mathlib
import Milling.Toolpath.Basic

/-!
# Runs of one tool

A toolpath is cut where the tool changes and nowhere else.  There is one way to cut it
so: the runs follow one another without a gap, each has points of one tool only, and the
tool is another one in the next run.
-/

namespace Milling.Toolpath

section Distinct

variable {β : Type} [DecidableEq β]

/-- The elements seen so far, latest first, with one more. -/
def see (seen : List β) (item : β) : List β := if item ∈ seen then seen else item :: seen

theorem distinct_eq_foldl_see (items : List β) : distinct items = (items.foldl see []).reverse :=
  rfl

theorem foldl_see (items seen : List β) :
    (items.foldl see seen).reverse =
      seen.reverse ++ (items.filter fun item => item ∉ seen).eraseDups := by
  induction items generalizing seen with
  | nil => simp
  | cons first rest ih =>
      rw [List.foldl_cons, ih]
      by_cases known : first ∈ seen
      · simp [see, known]
      · have later : (rest.filter fun item => item ∉ seen).filter (fun item => !item == first) =
            rest.filter fun item => item ∉ first :: seen := by
          rw [List.filter_filter]
          simp [beq_eq_decide]
        rw [see, if_neg known, List.filter_cons_of_pos (by simpa using known),
          List.eraseDups_cons, later, List.reverse_cons, List.append_assoc]
        rfl

theorem distinct_eq_eraseDups (items : List β) : distinct items = items.eraseDups := by
  rw [distinct_eq_foldl_see, foldl_see]
  simp

theorem foldl_see_of_equal {items : List β} {only : β} (nonempty : items ≠ [])
    (equal : ∀ item ∈ items, item = only) (seen : List β) :
    items.foldl see seen = see seen only := by
  induction items generalizing seen with
  | nil => exact absurd rfl nonempty
  | cons first rest ih =>
      obtain ⟨rfl, restEqual⟩ := List.forall_mem_cons.mp equal
      have again : see (see seen first) first = see seen first := by
        by_cases known : first ∈ seen
        · simp [see, known]
        · simp [see, known]
      rw [List.foldl_cons]
      cases rest with
      | nil => rfl
      | cons next rest => rw [ih (List.cons_ne_nil next rest) restEqual, again]

theorem distinct_eq_singleton_iff {items : List β} {only : β} :
    distinct items = [only] ↔ items ≠ [] ∧ ∀ item ∈ items, item = only := by
  constructor
  · intro single
    constructor
    · rintro rfl
      cases single
    · intro item isItem
      rw [distinct_eq_eraseDups] at single
      have listed := List.mem_eraseDups.mpr isItem
      rw [single] at listed
      exact List.mem_singleton.mp listed
  · rintro ⟨nonempty, equal⟩
    rw [distinct_eq_foldl_see, foldl_see_of_equal nonempty equal]
    rfl

end Distinct

variable {α : Type}

section RunsOf

/-- A point joins the run behind it if that has its tool, and is a run of its own if not. -/
theorem runsOf_cons (point : MotionPoint α) (rest : List (MotionPoint α)) :
    (∃ run runs, runsOf rest = (point.tool, run) :: runs ∧
        runsOf (point :: rest) = (point.tool, point :: run) :: runs) ∨
      ((∀ next ∈ (runsOf rest).head?, point.tool ≠ next.1) ∧
        runsOf (point :: rest) = (point.tool, [point]) :: runsOf rest) := by
  rw [runsOf]
  cases later : runsOf rest with
  | nil =>
      right
      simp
  | cons next runs =>
      obtain ⟨tool, run⟩ := next
      by_cases same : point.tool = tool
      · subst tool
        left
        exact ⟨run, runs, rfl, if_pos rfl⟩
      · right
        constructor
        · rintro next ⟨⟩
          exact same
        · exact if_neg same

theorem flatMap_runsOf (points : List (MotionPoint α)) :
    (runsOf points).flatMap Prod.snd = points := by
  induction points with
  | nil => rfl
  | cons point rest ih =>
      rcases runsOf_cons point rest with ⟨run, runs, later, joined⟩ | ⟨_, alone⟩
      · rw [later, List.flatMap_cons] at ih
        rw [joined, List.flatMap_cons, List.cons_append, ih]
      · rw [alone, List.flatMap_cons, ih]
        rfl

theorem forall_mem_runsOf (points : List (MotionPoint α)) :
    ∀ run ∈ runsOf points, run.2 ≠ [] ∧ ∀ point ∈ run.2, point.tool = run.1 := by
  induction points with
  | nil => exact List.forall_mem_nil _
  | cons point rest ih =>
      rcases runsOf_cons point rest with ⟨run, runs, later, joined⟩ | ⟨_, alone⟩
      · rw [later, List.forall_mem_cons] at ih
        rw [joined, List.forall_mem_cons]
        constructor
        · exact ⟨List.cons_ne_nil point run, List.forall_mem_cons.mpr ⟨rfl, ih.1.2⟩⟩
        · exact ih.2
      · rw [alone, List.forall_mem_cons]
        constructor
        · exact ⟨List.cons_ne_nil point [], List.forall_mem_singleton.mpr rfl⟩
        · exact ih

theorem isChain_runsOf (points : List (MotionPoint α)) :
    (runsOf points).IsChain fun run next => run.1 ≠ next.1 := by
  induction points with
  | nil => exact .nil
  | cons point rest ih =>
      rcases runsOf_cons point rest with ⟨run, runs, later, joined⟩ | ⟨changes, alone⟩
      · rw [later, List.isChain_cons] at ih
        rw [joined, List.isChain_cons]
        exact ih
      · rw [alone, List.isChain_cons]
        exact ⟨changes, ih⟩

/-- Points of one tool in front of another's are a run. -/
theorem runsOf_append {tool : Nat} {run rest : List (MotionPoint α)} (filled : run ≠ [])
    (oneTool : ∀ point ∈ run, point.tool = tool)
    (changes : ∀ next ∈ (runsOf rest).head?, tool ≠ next.1) :
    runsOf (run ++ rest) = (tool, run) :: runsOf rest := by
  induction run with
  | nil => exact absurd rfl filled
  | cons point run ih =>
      obtain ⟨rfl, restOneTool⟩ := List.forall_mem_cons.mp oneTool
      rw [List.cons_append, runsOf]
      cases run with
      | nil =>
          rw [List.nil_append]
          cases later : runsOf rest with
          | nil => rfl
          | cons next runs => exact if_neg (changes next (by simp [later]))
      | cons second run =>
          rw [ih (List.cons_ne_nil second run) restOneTool]
          exact if_pos rfl

end RunsOf

/-- Runs of a toolpath that are as long as they can be. -/
structure IsSplit (path : Toolpath α) (runs : List (Toolpath α)) : Prop where
  whole : runs.flatMap points = path.points
  filled : ∀ run ∈ runs, run.points ≠ []
  oneTool : ∀ run ∈ runs, ∀ point ∈ run.points, run.tool = some point.tool
  changes : runs.IsChain fun run next => run.tool ≠ next.tool

def ofRun (run : Nat × List (MotionPoint α)) : Toolpath α :=
  { points := run.2, tool := some run.1 }

theorem splitByTool_eq (path : Toolpath α) : path.splitByTool = (runsOf path.points).map ofRun :=
  rfl

theorem isSplit_splitByTool (path : Toolpath α) : path.IsSplit path.splitByTool := by
  rw [splitByTool_eq]
  constructor
  · rw [List.flatMap_map]
    exact flatMap_runsOf path.points
  · intro run isRun
    obtain ⟨own, isOwn, rfl⟩ := List.mem_map.mp isRun
    exact (forall_mem_runsOf path.points own isOwn).1
  · intro run isRun point isPoint
    obtain ⟨own, isOwn, rfl⟩ := List.mem_map.mp isRun
    exact congrArg some ((forall_mem_runsOf path.points own isOwn).2 point isPoint).symm
  · rw [List.isChain_map]
    apply (isChain_runsOf path.points).imp
    intro run next changes same
    exact changes (Option.some.inj same)

/-- What a split says of a run is no more than its tool and its points. -/
def withoutDiameter (path : Toolpath α) : Toolpath α := { path with diameter := none }

namespace IsSplit

theorem runsOf_eq {runs : List (Toolpath α)} {path : Toolpath α} (isSplit : path.IsSplit runs) :
    (runsOf path.points).map ofRun = runs.map withoutDiameter := by
  obtain ⟨whole, filled, oneTool, changes⟩ := isSplit
  rw [← whole]
  clear whole
  induction runs with
  | nil => rfl
  | cons run runs ih =>
      obtain ⟨runFilled, restFilled⟩ := List.forall_mem_cons.mp filled
      obtain ⟨runOneTool, restOneTool⟩ := List.forall_mem_cons.mp oneTool
      obtain ⟨runChanges, restChanges⟩ := List.isChain_cons.mp changes
      have later := ih restFilled restOneTool restChanges
      -- The points of a run know its tool, and there is one at least.
      obtain ⟨first, isFirst⟩ := List.exists_mem_of_ne_nil _ runFilled
      have tool := runOneTool first isFirst
      have own : ∀ point ∈ run.points, point.tool = first.tool := fun point isPoint =>
        Option.some.inj ((runOneTool point isPoint).symm.trans tool)
      have next : ∀ next ∈ (runsOf (runs.flatMap points)).head?, first.tool ≠ next.1 := by
        intro next isNext
        have mapped : (runs.map withoutDiameter).head? = some (ofRun next) := by
          rw [← later, List.head?_map, Option.mem_def.mp isNext]
          rfl
        rw [List.head?_map, Option.map_eq_some_iff] at mapped
        obtain ⟨second, isSecond, same⟩ := mapped
        have secondTool : second.tool = some next.1 := congrArg Toolpath.tool same
        intro equal
        apply runChanges second isSecond
        rw [tool, secondTool, equal]
      rw [List.flatMap_cons, runsOf_append runFilled own next, List.map_cons, List.map_cons,
        later]
      congr 1
      simp [ofRun, withoutDiameter, tool]

theorem tools_eq {runs : List (Toolpath α)} {path : Toolpath α} (isSplit : path.IsSplit runs) :
    path.tools = (runs.filterMap Toolpath.tool).eraseDups := by
  rw [← distinct_eq_eraseDups, tools, distinct_eq_foldl_see, distinct_eq_foldl_see,
    ← isSplit.whole, List.map_flatMap, List.foldl_flatMap, List.filterMap_eq_flatMap_toList,
    List.foldl_flatMap]
  congr 1
  apply List.foldl_ext
  intro seen run isRun
  obtain ⟨first, isFirst⟩ := List.exists_mem_of_ne_nil _ (isSplit.filled run isRun)
  have tool := isSplit.oneTool run isRun first isFirst
  rw [tool]
  apply foldl_see_of_equal
  · simpa using isSplit.filled run isRun
  · intro item isItem
    obtain ⟨point, isPoint, rfl⟩ := List.mem_map.mp isItem
    exact Option.some.inj ((isSplit.oneTool run isRun point isPoint).symm.trans tool)

end IsSplit

/-- Splitting by tool gives the one list of longest runs, and the tools of the path are
theirs, each where it is first used. -/
theorem splitByTool_unique (path : Toolpath α) :
    path.IsSplit path.splitByTool ∧
      (∀ runs, path.IsSplit runs → runs.map withoutDiameter = path.splitByTool) ∧
      path.tools = (path.splitByTool.filterMap tool).eraseDups := by
  refine ⟨path.isSplit_splitByTool, ?_, path.isSplit_splitByTool.tools_eq⟩
  intro runs isSplit
  exact isSplit.runsOf_eq.symm

/-- A path on which tool 1 comes back behind tool 0. -/
def returningPath : Toolpath Nat :=
  { points := [1, 0, 0, 1].map fun tool => { MotionPoint.rapid 0 0 5 with tool } }

theorem splitByTool_unique_returning :
    let runs : List (Toolpath Nat) :=
      [{ points := [{ MotionPoint.rapid 0 0 5 with tool := 1 }], tool := some 1 },
       { points := [.rapid 0 0 5, .rapid 0 0 5], tool := some 0, diameter := some 6 },
       { points := [{ MotionPoint.rapid 0 0 5 with tool := 1 }], tool := some 1 }]
    returningPath.IsSplit runs ∧ runs.map withoutDiameter = returningPath.splitByTool ∧
      returningPath.tools = [1, 0] := by
  intro runs
  have isSplit : returningPath.IsSplit runs := by
    constructor
    · decide
    · decide
    · decide
    · simp [runs]
  exact ⟨isSplit, (splitByTool_unique returningPath).2.1 runs isSplit, by decide⟩

end Milling.Toolpath
