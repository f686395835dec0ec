import Milling.Proofs.Machining.Trail

/-!
# Moves keep the trail

Each move of a tool adds an allowed point to its trail and forgets none.  A
round is what an operation repeats, for each level or for each hole: it leads
from above the stock to the final height and cuts at its level.
-/

namespace Milling.Cutter

variable {α : Type}

def HasCut (height : α) (cutter : Cutter α) : Prop :=
  ∃ point ∈ cutter.passed, point.isCutting = true ∧ point.position.z = height

/-- The last move of the tool was a rapid to a height. -/
structure EndsAt (height : α) (cutter : Cutter α) : Prop where
  rapid : ∃ last earlier, cutter.passed = last :: earlier ∧ last.motion = .rapid ∧
    last.position.z = height
  position : cutter.position.z = height

theorem linearAt_hasCut (cutter : Cutter α) (x y z feed : α) :
    (cutter.linearAt x y z feed).HasCut z :=
  ⟨_, List.mem_cons_self, rfl, rfl⟩

theorem linear_hasCut (cutter : Cutter α) (x y z : α) : (cutter.linear x y z).HasCut z :=
  linearAt_hasCut cutter x y z cutter.cut.feed

theorem rapidHeight_endsAt (cutter : Cutter α) (z : α) : (cutter.rapidHeight z).EndsAt z :=
  { rapid := ⟨_, _, rfl, rfl, rfl⟩
    position := rfl }

variable [ExactScalar α]

/-- The points that a tool has passed are a trail up to where it is. -/
structure Sound (operation : Operation α) (cutter : Cutter α) : Prop where
  cut : cutter.cut = operation.cut
  trail : operation.Trail cutter.passed
  position : ∃ last earlier, cutter.passed = last :: earlier ∧
    last.position = cutter.position

/-- Moves that keep a trail and forget no point of it. -/
structure Leads (operation : Operation α) (first second : Cutter α) : Prop where
  sound : first.Sound operation → second.Sound operation
  kept : ∀ point ∈ first.passed, point ∈ second.passed

/-- Moves that cut at a level and end at the final height. -/
structure Round (operation : Operation α) (level : α) (first second : Cutter α) :
    Prop where
  leads : first.Leads operation second
  cuts : second.HasCut level
  ends : second.EndsAt operation.finalHeight

variable {operation : Operation α}

namespace Leads

theorem refl (cutter : Cutter α) : cutter.Leads operation cutter :=
  { sound := id
    kept := fun _ isPoint => isPoint }

theorem trans {first second third : Cutter α} (front : first.Leads operation second)
    (back : second.Leads operation third) : first.Leads operation third :=
  { sound := back.sound ∘ front.sound
    kept := fun point isPoint => back.kept point (front.kept point isPoint) }

theorem hasCut {first second : Cutter α} (leads : first.Leads operation second)
    {height : α} (cut : first.HasCut height) : second.HasCut height := by
  obtain ⟨point, isPoint, cutting, deep⟩ := cut
  exact ⟨point, leads.kept point isPoint, cutting, deep⟩

theorem foldl {β : Type} {step : Cutter α → β → Cutter α} {items : List β}
    (each : ∀ item ∈ items, ∀ cutter, Leads operation cutter (step cutter item))
    (cutter : Cutter α) : cutter.Leads operation (items.foldl step cutter) := by
  induction items generalizing cutter with
  | nil => exact refl cutter
  | cons item items ih =>
      have first := each item List.mem_cons_self cutter
      have rest := ih (fun other isOther => each other (List.mem_cons_of_mem item isOther))
        (step cutter item)
      exact first.trans rest

end Leads

/-- A point that may follow the last one may be passed. -/
theorem push_leads {cutter : Cutter α} {point : MotionPoint α}
    (allowed : cutter.cut = operation.cut → ∀ before ∈ cutter.passed.head?,
      before.position = cutter.position →
        operation.Allows before
          { point with
            tool := cutter.cut.tool.number
            spindle := some cutter.cut.spindle }) :
    cutter.Leads operation (cutter.push point) := by
  constructor
  · intro sound
    obtain ⟨last, earlier, passed, there⟩ := sound.position
    have follows := allowed sound.cut last (by rw [passed]; rfl) there
    have trail := sound.trail
    rw [passed] at trail
    refine { cut := sound.cut, trail := ?_, position := ⟨_, _, rfl, rfl⟩ }
    rw [push, passed]
    exact .step follows trail
  · intro other isOther
    exact List.mem_cons_of_mem _ isOther

/-- A rapid may be passed that ends above the stock and starts above it unless
it goes straight up or down. -/
private theorem rapid_leads_of {cutter : Cutter α} {x y z : α}
    (below : operation.depth ≤ 0) (high : 0 ≤ z)
    (across : cutter.position.x ≠ x ∨ cutter.position.y ≠ y → 0 ≤ cutter.position.z) :
    cutter.Leads operation (cutter.rapid x y z) := by
  refine push_leads fun isCut before _ there => ?_
  refine
    { tool := by rw [isCut]; rfl
      spindle := by rw [isCut]
      feed := fun cutting => nomatch cutting
      deep := below.trans high
      rapid := fun _ => high
      across := fun _ different => ?_ }
  rw [there] at different ⊢
  exact across different

theorem rapid_leads {cutter : Cutter α} {z : α} (below : operation.depth ≤ 0)
    (high : 0 ≤ z) (above : 0 ≤ cutter.position.z) (x y : α) :
    cutter.Leads operation (cutter.rapid x y z) :=
  rapid_leads_of below high fun _ => above

theorem rapidHeight_leads (cutter : Cutter α) {z : α} (below : operation.depth ≤ 0)
    (high : 0 ≤ z) : cutter.Leads operation (cutter.rapidHeight z) := by
  refine rapid_leads_of below high fun different => ?_
  rcases different with sideways | sideways
  · exact absurd rfl sideways
  · exact absurd rfl sideways

/-- A point that is no rapid may be passed above the depth, at the feed if it cuts. -/
private theorem feed_leads {cutter : Cutter α} {point : MotionPoint α}
    (noRapid : point.motion ≠ .rapid) (deep : operation.depth ≤ point.position.z)
    (feed : point.isCutting = true → point.feed = some cutter.cut.feed) :
    cutter.Leads operation (cutter.push point) := by
  refine push_leads fun isCut before _ _ => ?_
  exact
    { tool := by rw [isCut]; rfl
      spindle := by rw [isCut]
      feed := fun cutting => .inl (by rw [← isCut]; exact feed cutting)
      deep := deep
      rapid := fun motion => absurd motion noRapid
      across := fun motion => absurd motion noRapid }

theorem linear_leads (cutter : Cutter α) (x y : α) {z : α} (deep : operation.depth ≤ z) :
    cutter.Leads operation (cutter.linear x y z) :=
  feed_leads (fun motion => nomatch motion) deep fun _ => rfl

theorem followOne_leads (cutter : Cutter α) (vertex : PathVertex α) {z : α}
    (deep : operation.depth ≤ z) : cutter.Leads operation (followOne z cutter vertex) := by
  cases turning : vertex.arc with
  | none =>
      simp only [followOne, turning]
      exact linear_leads cutter vertex.point.x vertex.point.y deep
  | some arc =>
      simp only [followOne, turning]
      exact feed_leads (fun motion => nomatch motion) deep fun _ => rfl

theorem follow_leads (cutter : Cutter α) (path : List (PathVertex α)) {z : α}
    (deep : operation.depth ≤ z) : cutter.Leads operation (cutter.follow path z) :=
  Leads.foldl (fun vertex _ cutter => followOne_leads cutter vertex deep) cutter

theorem dwell_leads {cutter : Cutter α} (deep : operation.depth ≤ cutter.position.z)
    (seconds : α) : cutter.Leads operation (cutter.dwell seconds) :=
  feed_leads (fun motion => nomatch motion) deep fun cutting => nomatch cutting

theorem start_sound (operation : Operation α) : (start operation.cut).Sound operation :=
  { cut := rfl
    trail := .start rfl rfl rfl (by simp only [MotionPoint.rapid, ExactScalar.literal_zero])
    position := ⟨_, _, rfl, rfl⟩ }

/-- Rounds one after the other cut at all of their levels. -/
theorem foldl_rounds {β : Type} {round : Cutter α → β → Cutter α} {level : β → α}
    (travels : 0 ≤ operation.finalHeight) {items : List β}
    (each : ∀ item ∈ items, ∀ cutter : Cutter α, 0 ≤ cutter.position.z →
      cutter.Round operation (level item) (round cutter item))
    {cutter : Cutter α} (above : 0 ≤ cutter.position.z) :
    cutter.Leads operation (items.foldl round cutter) ∧
      (∀ item ∈ items, (items.foldl round cutter).HasCut (level item)) ∧
      (items ≠ [] → (items.foldl round cutter).EndsAt operation.finalHeight) := by
  induction items generalizing cutter with
  | nil =>
      refine ⟨.refl cutter, fun item isItem => ?_, fun some => absurd rfl some⟩
      cases isItem
  | cons item items ih =>
      have first := each item List.mem_cons_self cutter above
      have high : 0 ≤ (round cutter item).position.z := by
        rw [first.ends.position]
        exact travels
      obtain ⟨leads, cuts, ends⟩ :=
        ih (fun other isOther => each other (List.mem_cons_of_mem item isOther)) high
      refine ⟨first.leads.trans leads, ?_, fun _ => ?_⟩
      · intro other isOther
        rcases List.mem_cons.mp isOther with rfl | later
        · exact leads.hasCut first.cuts
        · exact cuts other later
      · cases items with
        | nil => exact first.ends
        | cons second items => exact ends (List.cons_ne_nil second items)

theorem safe_of_rounds {β : Type} {round : Cutter α → β → Cutter α} (level : β → α)
    (below : operation.depth ≤ 0) (travels : operation.TravelsAbove)
    (final : 0 ≤ operation.finalHeight) {items : List β}
    (each : ∀ item ∈ items, ∀ cutter : Cutter α, 0 ≤ cutter.position.z →
      cutter.Round operation (level item) (round cutter item))
    {deepest : β} (isItem : deepest ∈ items) (atDepth : level deepest = operation.depth) :
    operation.Safe (items.foldl round (start operation.cut)).toolpath := by
  have high : 0 ≤ (start operation.cut).position.z := travels.first
  obtain ⟨leads, cuts, ends⟩ := foldl_rounds final each high
  have nonempty : items ≠ [] := List.ne_nil_of_mem isItem
  have sound := leads.sound (start_sound operation)
  have bottom := cuts deepest isItem
  obtain ⟨last, earlier, passed, rapid, height⟩ := (ends nonempty).rapid
  have trail := sound.trail
  rw [atDepth] at bottom
  rw [HasCut, passed] at bottom
  rw [passed] at trail
  refine trail.safe ?_ below travels bottom rapid height
  rw [toolpath, passed]

end Milling.Cutter
