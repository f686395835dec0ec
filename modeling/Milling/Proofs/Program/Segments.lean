import Milling.Proofs.Program.Effect
import Milling.Proofs.Program.Gathering
import Milling.Proofs.Toolpath.Runs

/-!
# Segments partition the points

The segments of a program are its points cut at the changes of tool.  A run
between two changes that has no point gives no segment, so a segment starts
after a point exactly where some tool word was accepted since and named
another tool than the one then in force.
-/

namespace Milling.Program

variable {α : Type}

/-- Lists cut their concatenation after its beginning `front`. -/
def CutAfter {β : Type} (front : List β) (lists : List (List β)) : Prop :=
  ∃ before after, lists = before ++ after ∧ before.flatten = front

theorem cutAfter_cons {β : Type} {front first : List β} {rest : List (List β)} :
    CutAfter front (first :: rest) ↔
      front = [] ∨ ∃ more, front = first ++ more ∧ CutAfter more rest := by
  constructor
  · rintro ⟨before, after, split, rfl⟩
    cases before with
    | nil => exact .inl rfl
    | cons list before =>
        obtain ⟨rfl, rfl⟩ := List.cons.inj split
        exact .inr ⟨before.flatten, rfl, before, after, rfl, rfl⟩
  · rintro (rfl | ⟨more, rfl, before, after, rfl, rfl⟩)
    · exact ⟨[], first :: rest, rfl, rfl⟩
    · exact ⟨first :: before, after, rfl, rfl⟩

/-- Empty lists cut nowhere else. -/
theorem cutAfter_filter {β : Type} {front : List β} {lists : List (List β)} :
    CutAfter front (lists.filter fun list => !list.isEmpty) ↔ CutAfter front lists := by
  induction lists generalizing front with
  | nil => rfl
  | cons first rest ih =>
      cases first with
      | nil =>
          have dropped : (([] : List β) :: rest).filter (fun list => !list.isEmpty) =
              rest.filter fun list => !list.isEmpty := rfl
          rw [dropped, ih, cutAfter_cons]
          constructor
          · intro cut
            exact .inr ⟨front, rfl, cut⟩
          · rintro (rfl | ⟨more, rfl, cut⟩)
            · exact ⟨[], rest, rfl, rfl⟩
            · exact cut
      | cons item first =>
          have kept : ((item :: first) :: rest).filter (fun list => !list.isEmpty) =
              (item :: first) :: rest.filter fun list => !list.isEmpty := rfl
          rw [kept, cutAfter_cons, cutAfter_cons]
          simp only [ih]

theorem flatten_filter {β : Type} (lists : List (List β)) :
    (lists.filter fun list => !list.isEmpty).flatten = lists.flatten := by
  induction lists with
  | nil => rfl
  | cons first rest ih =>
      cases first with
      | nil => exact ih
      | cons item first => exact congrArg ((item :: first) ++ ·) ih

def runPoints (effects : List (LineEffect α)) : List (List (MotionPoint α)) :=
  (runsBetweenChanges effects).1 :: (runsBetweenChanges effects).2.map Prod.snd

theorem points_cons (effect : LineEffect α) (rest : List (LineEffect α)) :
    (effect :: rest).filterMap LineEffect.point =
      effect.point.toList ++ rest.filterMap LineEffect.point := by
  cases given : effect.point with
  | none => simp [given]
  | some point => simp [given]

theorem runPoints_flatten (effects : List (LineEffect α)) :
    (runPoints effects).flatten = effects.filterMap LineEffect.point := by
  induction effects with
  | nil => rfl
  | cons effect rest ih =>
      rw [points_cons, ← ih]
      cases change : effect.toolChange with
      | none => simp [runPoints, runsBetweenChanges, change]
      | some tool => simp [runPoints, runsBetweenChanges, change]

theorem segmentsOf_points (tool : Nat) (effects : List (LineEffect α)) :
    (segmentsOf tool effects).map Toolpath.points =
      (runPoints effects).filter fun points => !points.isEmpty := by
  simp only [segmentsOf, runPoints, List.map_map]
  have mapped : (runsBetweenChanges effects).1 ::
      (runsBetweenChanges effects).2.map Prod.snd =
        ((tool, (runsBetweenChanges effects).1) :: (runsBetweenChanges effects).2).map
          Prod.snd := rfl
  rw [mapped, List.filter_map]
  rfl

theorem segmentsOf_flatMap (tool : Nat) (effects : List (LineEffect α)) :
    (segmentsOf tool effects).flatMap Toolpath.points =
      effects.filterMap LineEffect.point := by
  rw [List.flatMap_def, segmentsOf_points, flatten_filter, runPoints_flatten]

/-- A line after the points `front` and before any other point changes the tool. -/
def ChangedAfter (front : List (MotionPoint α)) (effects : List (LineEffect α)) : Prop :=
  ∃ before effect after, effects = before ++ effect :: after ∧
    before.filterMap LineEffect.point = front ∧ effect.toolChange.isSome = true

theorem changedAfter_cons {front : List (MotionPoint α)} {effect : LineEffect α}
    {rest : List (LineEffect α)} :
    ChangedAfter front (effect :: rest) ↔
      (front = [] ∧ effect.toolChange.isSome = true) ∨
        ∃ more, front = effect.point.toList ++ more ∧ ChangedAfter more rest := by
  constructor
  · rintro ⟨before, changing, after, split, rfl, changes⟩
    cases before with
    | nil =>
        obtain ⟨rfl, rfl⟩ := List.cons.inj split
        exact .inl ⟨rfl, changes⟩
    | cons first before =>
        obtain ⟨rfl, rfl⟩ := List.cons.inj split
        exact .inr ⟨_, points_cons effect before, before, changing, after, rfl, rfl, changes⟩
  · rintro (⟨rfl, changes⟩ | ⟨more, rfl, before, changing, after, rfl, rfl, changes⟩)
    · exact ⟨[], effect, rest, rfl, rfl, changes⟩
    · exact ⟨effect :: before, changing, after, rfl, points_cons effect before, changes⟩

/-- Every change of tool begins a run, and every run but the first begins with one. -/
theorem changedAfter_iff {front : List (MotionPoint α)} {effects : List (LineEffect α)} :
    ChangedAfter front effects ↔
      ∃ before run after, (runsBetweenChanges effects).2 = before ++ run :: after ∧
        (runsBetweenChanges effects).1 ++ (before.map Prod.snd).flatten = front := by
  induction effects generalizing front with
  | nil =>
      constructor
      · rintro ⟨before, effect, after, split, _⟩
        cases before with
        | nil => cases split
        | cons first before => cases split
      · rintro ⟨before, run, after, split, _⟩
        cases before with
        | nil => cases split
        | cons first before => cases split
  | cons effect rest ih =>
      rw [changedAfter_cons]
      simp only [ih]
      cases change : effect.toolChange with
      | none =>
          simp only [runsBetweenChanges, change]
          constructor
          · rintro (⟨_, impossible⟩ | ⟨more, rfl, before, run, after, split, rfl⟩)
            · cases impossible
            · exact ⟨before, run, after, split, List.append_assoc _ _ _⟩
          · rintro ⟨before, run, after, split, rfl⟩
            exact .inr ⟨_, List.append_assoc _ _ _, before, run, after, split, rfl⟩
      | some tool =>
          simp only [runsBetweenChanges, change]
          constructor
          · rintro (⟨rfl, _⟩ | ⟨more, rfl, before, run, after, split, rfl⟩)
            · exact ⟨[], _, _, rfl, rfl⟩
            · refine ⟨_ :: before, run, after, congrArg (_ :: ·) split, ?_⟩
              simp
          · rintro ⟨before, run, after, split, rfl⟩
            cases before with
            | nil => exact .inl ⟨rfl, rfl⟩
            | cons first before =>
                obtain ⟨rfl, others⟩ := List.cons.inj split
                refine .inr ⟨_, ?_, before, run, after, others, rfl⟩
                simp

theorem cutAfter_segmentsOf (tool : Nat) {effects : List (LineEffect α)}
    {front back : List (MotionPoint α)} {point : MotionPoint α} (nonempty : front ≠ [])
    (points : effects.filterMap LineEffect.point = front ++ point :: back) :
    CutAfter front ((segmentsOf tool effects).map Toolpath.points) ↔
      ChangedAfter front effects := by
  rw [segmentsOf_points, cutAfter_filter, changedAfter_iff, runPoints, cutAfter_cons]
  constructor
  · rintro (empty | ⟨more, isFront, before, after, split, rfl⟩)
    · exact absurd empty nonempty
    · obtain ⟨runs, others, isRuns, rfl, isAfter⟩ := List.map_eq_append_iff.mp split
      cases others with
      | nil =>
          -- the cut would be after the last point
          have all := runPoints_flatten effects
          rw [runPoints, List.flatten_cons, isRuns, points, isFront] at all
          simp at all
      | cons run others => exact ⟨runs, run, others, isRuns, isFront.symm⟩
  · rintro ⟨before, run, after, split, rfl⟩
    refine .inr ⟨_, rfl, before.map Prod.snd, (run :: after).map Prod.snd, ?_, rfl⟩
    rw [split, List.map_append]

/-- A segment starts at a point, after the points `front`. -/
def StartsAt (front : List (MotionPoint α)) (point : MotionPoint α)
    (segments : List (Toolpath α)) : Prop :=
  ∃ before segment after, segments = before ++ segment :: after ∧
    before.flatMap Toolpath.points = front ∧ segment.points.head? = some point

theorem startsAt_iff_cutAfter {front back : List (MotionPoint α)} {point : MotionPoint α}
    {segments : List (Toolpath α)} (nonempty : ∀ segment ∈ segments, segment.points ≠ [])
    (flat : segments.flatMap Toolpath.points = front ++ point :: back) :
    StartsAt front point segments ↔ CutAfter front (segments.map Toolpath.points) := by
  constructor
  · rintro ⟨before, segment, after, rfl, isFront, _⟩
    refine ⟨before.map Toolpath.points, (segment :: after).map Toolpath.points, ?_, ?_⟩
    · rw [List.map_append]
    · rw [← List.flatMap_def, isFront]
  · rintro ⟨lists, others, split, isFront⟩
    obtain ⟨before, after, rfl, rfl, rfl⟩ := List.map_eq_append_iff.mp split
    rw [← List.flatMap_def] at isFront
    rw [List.flatMap_append, isFront, List.append_cancel_left_eq] at flat
    cases after with
    | nil => cases flat
    | cons segment after =>
        refine ⟨before, segment, after, rfl, isFront, ?_⟩
        have filled := nonempty segment (List.mem_append_right before List.mem_cons_self)
        rw [List.flatMap_cons] at flat
        cases points : segment.points with
        | nil => exact absurd points filled
        | cons head rest =>
            rw [points] at flat
            exact congrArg some (List.cons.inj flat).1

theorem wholePath_tool {points : List (MotionPoint α)} {used : Nat} :
    (wholePath points).tool = some used ↔
      points ≠ [] ∧ ∀ point ∈ points, point.tool = used := by
  have single : Toolpath.distinct (points.map MotionPoint.tool) = [used] ↔
      points ≠ [] ∧ ∀ point ∈ points, point.tool = used := by
    rw [Toolpath.distinct_eq_singleton_iff, List.forall_mem_map, ne_eq,
      List.map_eq_nil_iff]
  rw [← single]
  simp only [wholePath, Toolpath.tools]
  split
  · rename_i only isSingle
    simp [isSingle]
  · rename_i several
    simp only [reduceCtorEq, false_iff]
    exact several used

variable [Scalar α]

theorem LineEffect.Follows.next {line tool : Nat} {effect : LineEffect α}
    (follows : effect.Follows line tool) :
    effect.selected?.getD tool = effect.toolChange.getD tool := by
  rw [follows.change]
  cases effect.selected? with
  | none => rfl
  | some selected =>
      by_cases same : selected = tool
      · simp [same, Option.filter]
      · simp [same, Option.filter]

theorem Runs.oneTool {line tool : Nat} {effects : List (LineEffect α)}
    (runs : Runs line tool effects) :
    ∀ run ∈ (tool, (runsBetweenChanges effects).1) :: (runsBetweenChanges effects).2,
      ∀ point ∈ run.2, point.tool = run.1 := by
  induction runs with
  | nil =>
      intro run isRun point isPoint
      obtain rfl := List.mem_singleton.mp isRun
      cases isPoint
  | @cons line tool effect effects follows _ ih =>
      rw [follows.next] at ih
      have own : ∀ point ∈ effect.point.toList, point.tool = effect.toolChange.getD tool := by
        intro point isPoint
        rw [← follows.next]
        exact (follows.point point (Option.mem_toList.mp isPoint)).2
      have leading : ∀ point ∈ effect.point.toList ++ (runsBetweenChanges effects).1,
          point.tool = effect.toolChange.getD tool := by
        intro point isPoint
        rcases List.mem_append.mp isPoint with first | later
        · exact own point first
        · exact ih _ List.mem_cons_self point later
      cases change : effect.toolChange with
      | none =>
          simp only [change, Option.getD_none] at leading
          simp only [runsBetweenChanges, change]
          intro run isRun
          rcases List.mem_cons.mp isRun with rfl | later
          · exact leading
          · exact ih run (List.mem_cons_of_mem _ later)
      | some next =>
          simp only [change, Option.getD_some] at leading
          simp only [runsBetweenChanges, change]
          intro run isRun
          rcases List.mem_cons.mp isRun with rfl | isRun
          · intro point isPoint
            cases isPoint
          · rcases List.mem_cons.mp isRun with rfl | later
            · exact leading
            · exact ih run (List.mem_cons_of_mem _ later)

/-- Among commands, one in the lines after `first` and up to `last` has an
accepted tool word for another tool than the one then in force. -/
def ChangedBetween (tool first last : Nat) (commands : List (Command α)) : Prop :=
  ∃ earlier command later, commands = earlier ++ command :: later ∧
    first < command.line ∧ command.line ≤ last ∧
      ∃ next, command.selected? = some next ∧ next ≠ toolAfter tool earlier

theorem LineEffect.Follows.changes_iff {line tool : Nat} {effect : LineEffect α}
    (follows : effect.Follows line tool) :
    effect.toolChange.isSome = true ↔
      ∃ command next, effect.command = some command ∧
        command.selected? = some next ∧ next ≠ tool := by
  rw [follows.change]
  constructor
  · intro changes
    obtain ⟨next, isNext⟩ := Option.isSome_iff_exists.mp changes
    obtain ⟨selected, different⟩ := Option.filter_eq_some_iff.mp isNext
    obtain ⟨command, given, accepted⟩ := Option.bind_eq_some_iff.mp selected
    exact ⟨command, next, given, accepted, of_decide_eq_true different⟩
  · rintro ⟨command, next, given, accepted, different⟩
    have selected : effect.selected? = some next := by
      rw [LineEffect.selected?, given, Option.bind_some, accepted]
    rw [selected]
    simp [Option.filter, different]

section Between

variable {line tool : Nat} {front back : List (MotionPoint α)} {before point : MotionPoint α}

omit [Scalar α] in
/-- What is split between two neighbours is split there when neither is on the
other's side. -/
theorem eq_concat_of_split {left right : List (MotionPoint α)}
    (split : left ++ right = front ++ before :: point :: back) (isLeft : before ∉ right)
    (isRight : point ∉ left) : left = front ++ [before] := by
  rcases List.append_eq_append_iff.mp split with ⟨more, _, isLate⟩ | ⟨more, isEarly, isBack⟩
  · exact absurd (by rw [isLate]; simp) isLeft
  · cases more with
    | nil =>
        rw [List.nil_append] at isBack
        exact absurd (by rw [← isBack]; exact List.mem_cons_self) isLeft
    | cons head more =>
        obtain ⟨rfl, isMore⟩ := List.cons.inj isBack
        cases more with
        | nil => exact isEarly
        | cons second more =>
            obtain ⟨rfl, _⟩ := List.cons.inj isMore
            exact absurd (by rw [isEarly]; simp) isRight

/-- The tool before the effect of a line is the one that the commands before it leave. -/
theorem Runs.follows_at {early late : List (LineEffect α)} {effect : LineEffect α}
    (runs : Runs line tool (early ++ effect :: late)) :
    effect.Follows (line + early.length)
      (toolAfter tool (early.filterMap LineEffect.command)) := by
  obtain ⟨_, lateRuns⟩ := runs.append_inv
  cases lateRuns with
  | cons follows _ => exact follows

theorem Runs.changedBetween {effects : List (LineEffect α)} (runs : Runs line tool effects)
    (points : effects.filterMap LineEffect.point = front ++ before :: point :: back)
    (changed : ChangedAfter (front ++ [before]) effects) :
    ∃ first last, before.line = some first ∧ point.line = some last ∧
      ChangedBetween tool first last (effects.filterMap LineEffect.command) := by
  obtain ⟨early, effect, late, rfl, gathered, changes⟩ := changed
  have lateFollows := runs.follows_at
  obtain ⟨earlyRuns, lateRuns⟩ := runs.append_inv
  obtain ⟨command, next, given, accepted, different⟩ := lateFollows.changes_iff.mp changes
  have onLine := lateFollows.command command given
  have latePoints : (effect :: late).filterMap LineEffect.point = point :: back := by
    rw [List.filterMap_append, gathered, List.append_assoc, List.append_cancel_left_eq,
      List.singleton_append, List.cons.injEq] at points
    exact points.2
  have isBefore : before ∈ early.filterMap LineEffect.point := by
    rw [gathered]
    exact List.mem_append_right front List.mem_cons_self
  have isPoint : point ∈ (effect :: late).filterMap LineEffect.point := by
    rw [latePoints]
    exact List.mem_cons_self
  obtain ⟨first, firstLine, _, firstHigh⟩ := earlyRuns.point_line before isBefore
  obtain ⟨last, lastLine, lastLow, _⟩ := lateRuns.point_line point isPoint
  refine ⟨first, last, firstLine, lastLine, early.filterMap LineEffect.command, command,
    late.filterMap LineEffect.command, ?_, by omega, by omega, next, accepted, different⟩
  rw [List.filterMap_append, List.filterMap_cons_some given]

/-- A command on a line between two points that changes the tool changes it between them. -/
theorem Runs.changedAfter {effects : List (LineEffect α)} (runs : Runs line tool effects)
    (points : effects.filterMap LineEffect.point = front ++ before :: point :: back)
    {first last : Nat} (firstLine : before.line = some first) (lastLine : point.line = some last)
    (changed : ChangedBetween tool first last (effects.filterMap LineEffect.command)) :
    ChangedAfter (front ++ [before]) effects := by
  obtain ⟨earlier, command, later, split, low, high, next, accepted, different⟩ := changed
  obtain ⟨early, others, rfl, rfl, isLater⟩ := List.filterMap_eq_append_iff.mp split
  obtain ⟨silent, effect, late, rfl, isSilent, given, rfl⟩ :=
    List.filterMap_eq_cons_iff.mp isLater
  rw [← List.append_assoc] at runs points ⊢
  have noCommand : (early ++ silent).filterMap LineEffect.command =
      early.filterMap LineEffect.command := by
    rw [List.filterMap_append, List.filterMap_eq_nil_iff.mpr isSilent, List.append_nil]
  have lateFollows := runs.follows_at
  rw [noCommand] at lateFollows
  have onLine := lateFollows.command command given
  obtain ⟨earlyRuns, lateRuns⟩ := runs.append_inv
  -- the lines of the points say on which side of the command they are
  have beforeEarly : before ∉ (effect :: late).filterMap LineEffect.point := by
    intro isLate
    obtain ⟨number, isNumber, lowest, _⟩ := lateRuns.point_line before isLate
    rw [firstLine] at isNumber
    obtain rfl := Option.some.inj isNumber
    omega
  have pointLate : point ∉ (early ++ silent).filterMap LineEffect.point := by
    intro isEarly
    obtain ⟨number, isNumber, _, highest⟩ := earlyRuns.point_line point isEarly
    rw [lastLine] at isNumber
    obtain rfl := Option.some.inj isNumber
    omega
  rw [List.filterMap_append] at points
  exact ⟨early ++ silent, effect, late, rfl, eq_concat_of_split points beforeEarly pointLate,
    lateFollows.changes_iff.mpr ⟨command, next, given, accepted, different⟩⟩

/-- Between two consecutive points the tool changes where a command on a line
after the first and up to the second changes it. -/
theorem Runs.changedAfter_iff {effects : List (LineEffect α)} (runs : Runs line tool effects)
    (points : effects.filterMap LineEffect.point = front ++ before :: point :: back) :
    ChangedAfter (front ++ [before]) effects ↔
      ∃ first last, before.line = some first ∧ point.line = some last ∧
        ChangedBetween tool first last (effects.filterMap LineEffect.command) := by
  constructor
  · exact runs.changedBetween points
  · rintro ⟨first, last, firstLine, lastLine, changed⟩
    exact runs.changedAfter points firstLine lastLine changed

end Between

/-- The segments of a program partition its points by tool. -/
structure Outcome.Partitioned (tool : Nat) (outcome : Outcome α) : Prop where
  flat : outcome.segments.flatMap Toolpath.points = outcome.toolpath.points
  nonempty : ∀ segment ∈ outcome.segments, segment.points ≠ []
  oneTool : ∀ segment ∈ outcome.segments, ∃ used, segment.tool = some used ∧
    ∀ point ∈ segment.points, point.tool = used
  starts : ∀ front before point back,
    outcome.toolpath.points = front ++ before :: point :: back →
      (StartsAt (front ++ [before]) point outcome.segments ↔
        ∃ first last, before.line = some first ∧ point.line = some last ∧
          ChangedBetween tool first last outcome.commands)
  tool : ∀ used, outcome.toolpath.tool = some used ↔
    outcome.toolpath.points ≠ [] ∧
      ∀ point ∈ outcome.toolpath.points, point.tool = used

theorem readProgram_partitioned (calculate : String → Except String α) (tool : Nat)
    (text : String) : (readProgram calculate tool text).Partitioned tool := by
  have runs : Runs 1 tool
      (readLines calculate 1 (.start tool) (textLines text.toList)).1 :=
    readLines_runs calculate 1 (.start tool) (textLines text.toList)
  generalize isEffects :
    (readLines calculate 1 (.start tool) (textLines text.toList)).1 = effects at runs
  have segments : (readProgram calculate tool text).segments = segmentsOf tool effects := by
    rw [← isEffects]
    rfl
  have path : (readProgram calculate tool text).toolpath =
      wholePath (effects.filterMap LineEffect.point) := by
    rw [← isEffects]
    rfl
  have commands : (readProgram calculate tool text).commands =
      effects.filterMap LineEffect.command := by
    rw [← isEffects]
    rfl
  have flat := segmentsOf_flatMap tool effects
  have origin : ∀ segment ∈ segmentsOf tool effects, ∃ run,
      run ∈ (tool, (runsBetweenChanges effects).1) :: (runsBetweenChanges effects).2 ∧
        run.2 ≠ [] ∧ segment = { points := run.2, tool := some run.1 } := by
    intro segment isSegment
    obtain ⟨run, isRun, rfl⟩ := List.mem_map.mp isSegment
    obtain ⟨listed, nonempty⟩ := List.mem_filter.mp isRun
    refine ⟨run, listed, ?_, rfl⟩
    simpa using nonempty
  have nonempty : ∀ segment ∈ segmentsOf tool effects, segment.points ≠ [] := by
    intro segment isSegment
    obtain ⟨run, _, filled, rfl⟩ := origin segment isSegment
    exact filled
  refine { flat := ?_, nonempty := ?_, oneTool := ?_, starts := ?_, tool := ?_ }
  · rw [segments, path, wholePath_points, flat]
  · rw [segments]
    exact nonempty
  · rw [segments]
    intro segment isSegment
    obtain ⟨run, listed, _, rfl⟩ := origin segment isSegment
    exact ⟨run.1, rfl, runs.oneTool run listed⟩
  · intro front before point back points
    rw [path, wholePath_points] at points
    have split : effects.filterMap LineEffect.point =
        (front ++ [before]) ++ point :: back := by
      rw [points, List.append_assoc, List.singleton_append]
    rw [segments, commands, startsAt_iff_cutAfter nonempty (flat.trans split),
      cutAfter_segmentsOf tool (by simp) split, runs.changedAfter_iff points]
  · intro used
    rw [path, wholePath_points, wholePath_tool]

end Milling.Program
