import Mathlib
import Milling.Proofs.Entries
import Milling.Proofs.Json.Record
import Milling.Shop.Interchange

/-!
# Tool libraries over their changes

A library starts empty or with the standard tools.  Tools are added under their own numbers and
removed, and data puts a whole library in its place, each tool under the key that it has there.
What stands under a number is what the last change of that number has put there.
-/

namespace Milling.ToolLibrary

section Operations

variable {α : Type}

theorem insert_eq (key : Nat) (tool : Tool α) (entries : List (Nat × Tool α)) :
    insert key tool entries = Entries.insert key tool entries := by
  induction entries with
  | nil => rfl
  | cons entry rest ih => rw [insert, Entries.insert, ih]

theorem get?_add (library : ToolLibrary α) (tool : Tool α) (number : Nat) :
    (library.add tool).1.get? number =
      if number = tool.number then some tool else library.get? number := by
  rw [get?, add, insert_eq, Entries.lookup_insert]
  rfl

theorem get?_remove (library : ToolLibrary α) (removed number : Nat) :
    (library.remove removed).1.get? number =
      if number = removed then none else library.get? number :=
  Entries.lookup_filter_ne removed number library.entries

theorem entries_ofEntries (entries : List (Nat × Tool α)) :
    (ofEntries entries).entries =
      entries.foldl (fun kept entry => Entries.insert entry.1 entry.2 kept) [] := by
  have same : (fun (kept : List (Nat × Tool α)) (entry : Nat × Tool α) =>
      insert entry.1 entry.2 kept) = fun kept entry => Entries.insert entry.1 entry.2 kept := by
    funext kept entry
    exact insert_eq entry.1 entry.2 kept
  rw [← same]
  rfl

/-- Of entries with one key the last one counts. -/
theorem get?_ofEntries (entries : List (Nat × Tool α)) (number : Nat) :
    (ofEntries entries).get? number = entries.reverse.lookup number := by
  rw [get?, entries_ofEntries, Entries.lookup_foldl_insert]
  exact Option.or_none

/-- A library in order, all of its keys numbers that tools can have. -/
structure IsSound (library : ToolLibrary α) : Prop where
  sorted : Entries.IsSorted library.entries
  bounded : ∀ entry ∈ library.entries, entry.1 ≤ greatestNumber

theorem isSound_empty : ({} : ToolLibrary α).IsSound :=
  ⟨List.Pairwise.nil, List.forall_mem_nil _⟩

theorem IsSound.add {library : ToolLibrary α} (sound : library.IsSound) {tool : Tool α}
    (fits : tool.number ≤ greatestNumber) : (library.add tool).1.IsSound where
  sorted := by
    rw [ToolLibrary.add, insert_eq]
    exact sound.sorted.insert
  bounded entry member := by
    rw [ToolLibrary.add, insert_eq] at member
    rcases Entries.mem_insert member with rfl | kept
    · exact fits
    · exact sound.bounded entry kept

theorem IsSound.remove {library : ToolLibrary α} (sound : library.IsSound) (removed : Nat) :
    (library.remove removed).1.IsSound where
  sorted := sound.sorted.filter _
  bounded entry member := sound.bounded entry (List.mem_of_mem_filter member)

theorem isSound_ofEntries {entries : List (Nat × Tool α)}
    (bounded : ∀ entry ∈ entries, entry.1 ≤ greatestNumber) : (ofEntries entries).IsSound := by
  induction entries using List.reverseRecOn with
  | nil => exact isSound_empty
  | append_singleton entries entry ih =>
      have before := ih fun entry member => bounded entry (List.mem_append_left _ member)
      have step : (ofEntries (entries ++ [entry])).entries =
          Entries.insert entry.1 entry.2 (ofEntries entries).entries := by
        rw [entries_ofEntries, entries_ofEntries, List.foldl_append]
        rfl
      refine ⟨step ▸ before.sorted.insert, fun other member => ?_⟩
      rw [step] at member
      rcases Entries.mem_insert member with rfl | kept
      · exact bounded _ (List.mem_append_right _ (List.mem_singleton_self _))
      · exact before.bounded other kept

theorem IsSound.mem_iff {library : ToolLibrary α} (sound : library.IsSound) {number : Nat}
    {tool : Tool α} : (number, tool) ∈ library.entries ↔ library.get? number = some tool :=
  sound.sorted.mem_iff

/-- No number is left exactly if the greatest one is taken. -/
theorem IsSound.nextNumber?_eq_none_iff {library : ToolLibrary α} (sound : library.IsSound) :
    library.nextNumber? = none ↔ (library.get? greatestNumber).isSome = true := by
  rw [nextNumber?]
  cases last : library.entries.getLast? with
  | none =>
      rw [List.getLast?_eq_none_iff] at last
      simp [get?, last]
  | some entry =>
      obtain ⟨key, tool⟩ := entry
      have member := List.mem_of_getLast? last
      have fits : key ≤ greatestNumber := sound.bounded _ member
      dsimp only
      constructor
      · intro none
        have isGreatest : key = greatestNumber := by
          by_contra other
          rw [if_pos (by omega)] at none
          cases none
        rw [← isGreatest, sound.mem_iff.mp member]
        rfl
      · intro taken
        obtain ⟨greatest, isGreatest⟩ := Option.isSome_iff_exists.mp taken
        have below := sound.sorted.le_getLast? last (sound.mem_iff.mpr isGreatest)
        rw [if_neg (not_lt.mpr below)]

theorem IsSound.lt_of_nextNumber? {library : ToolLibrary α} (sound : library.IsSound)
    {next : Nat} (isNext : library.nextNumber? = some next) {number : Nat} {tool : Tool α}
    (found : library.get? number = some tool) : number < next := by
  have member := sound.mem_iff.mpr found
  rw [nextNumber?] at isNext
  cases last : library.entries.getLast? with
  | none =>
      rw [List.getLast?_eq_none_iff] at last
      simp [last] at member
  | some entry =>
      have below := sound.sorted.le_getLast? last member
      rw [last] at isNext
      dsimp only at isNext below
      split at isNext
      · cases isNext
        omega
      · cases isNext

theorem nextNumber?_le {library : ToolLibrary α} {next : Nat}
    (isNext : library.nextNumber? = some next) : next ≤ greatestNumber := by
  rw [nextNumber?] at isNext
  split at isNext
  · cases isNext
    decide
  · split at isNext
    · cases isNext
      omega
    · cases isNext

/-- A tool that gets the next number replaces none. -/
theorem IsSound.add_next {library : ToolLibrary α} (sound : library.IsSound) {tool : Tool α}
    (isNext : library.nextNumber? = some tool.number) :
    (library.add tool).2 = none ∧
      (library.add tool).1.entries.length = library.entries.length + 1 := by
  have free : library.get? tool.number = none := by
    cases found : library.get? tool.number with
    | none => rfl
    | some kept => exact absurd (sound.lt_of_nextNumber? isNext found) (lt_irrefl _)
  refine ⟨free, ?_⟩
  rw [ToolLibrary.add, insert_eq]
  exact Entries.length_insert free tool

/-- Every tool stands under its own number. -/
def IsKeyed (library : ToolLibrary α) : Prop :=
  ∀ number tool, library.get? number = some tool → tool.number = number

theorem isKeyed_empty : ({} : ToolLibrary α).IsKeyed := fun _ _ found => nomatch found

theorem IsKeyed.add {library : ToolLibrary α} (keyed : library.IsKeyed) (tool : Tool α) :
    (library.add tool).1.IsKeyed := by
  intro number kept found
  rw [get?_add] at found
  split at found
  · rename_i same
    cases found
    exact same.symm
  · exact keyed number kept found

section Standard

variable [Scalar α]

theorem isKeyed_standard : (standard : ToolLibrary α).IsKeyed :=
  List.foldlRecOn standardTools _ isKeyed_empty fun _ keyed tool _ => keyed.add tool

theorem isSound_standard : (standard : ToolLibrary α).IsSound := by
  have numbers : (standardTools : List (Tool α)).map Tool.number = [1, 2, 3, 4, 5, 6, 7, 8] := rfl
  have fits : ∀ tool ∈ (standardTools : List (Tool α)), tool.number ≤ greatestNumber := by
    intro tool member
    have bounded : ∀ number ∈ [1, 2, 3, 4, 5, 6, 7, 8], number ≤ greatestNumber := by decide
    exact bounded tool.number (numbers ▸ List.mem_map_of_mem member)
  exact List.foldlRecOn standardTools _ isSound_empty fun _ sound tool member =>
    sound.add (fits tool member)

end Standard

end Operations

/-- The tools of a library in data, under their keys, in the order of the data. -/
def filed? (data : Json) : Option (List (Nat × Tool Float)) :=
  Members.read? (Members.required "tools" entries?) data

theorem ofJson?_eq (data : Json) : ofJson? data = (filed? data).map ofEntries :=
  Members.read?_map ofEntries (Members.required "tools" entries?) data

/-- The keys in data are numbers that tools can have. -/
theorem key_le_of_filed? {data : Json} {entries : List (Nat × Tool Float)}
    (isFiled : filed? data = some entries) : ∀ entry ∈ entries, entry.1 ≤ greatestNumber := by
  intro entry member
  obtain ⟨json, isRead⟩ := Members.exists_of_read?_required isFiled
  cases json with
  | record fields =>
      obtain ⟨⟨name, json⟩, _, found⟩ := Members.exists_of_mem_mapM isRead member
      obtain ⟨key, isKey, more⟩ := Option.bind_eq_some_iff.mp found
      obtain ⟨tool, _, both⟩ := Option.bind_eq_some_iff.mp more
      cases both
      unfold key? at isKey
      dsimp only at isKey
      split at isKey
      · cases isKey
      · exact of_decide_eq_true (Option.filter_eq_some_iff.mp isKey).2
  | _ => cases isRead

/-- A change of a library. -/
inductive Change where
  /-- A tool with a number that tools can have is added. -/
  | add (tool : Tool Float) (fits : tool.number ≤ greatestNumber)
  | remove (number : Nat)
  /-- The library in some data takes the place of this one, if it can be read. -/
  | load (data : Json)

namespace Change

def apply (library : ToolLibrary Float) : Change → ToolLibrary Float
  | .add tool _ => (library.add tool).1
  | .remove number => (library.remove number).1
  | .load data => (ofJson? data).getD library

/-- What a change leaves under a number, if it touches the number: a tool, or none. -/
def written? (number : Nat) : Change → Option (Option (Tool Float))
  | .add tool _ => if number = tool.number then some (some tool) else none
  | .remove removed => if number = removed then some none else none
  | .load data => (filed? data).map fun entries => entries.reverse.lookup number

variable (change : Change) (library : ToolLibrary Float)

theorem get?_apply (number : Nat) :
    (change.apply library).get? number =
      (change.written? number).getD (library.get? number) := by
  cases change with
  | add tool fits =>
      rw [apply, get?_add, written?]
      split <;> rfl
  | remove removed =>
      rw [apply, get?_remove, written?]
      split <;> rfl
  | load data =>
      rw [apply, ofJson?_eq, written?]
      cases filed? data with
      | none => rfl
      | some entries => exact get?_ofEntries entries number

theorem isSound_apply {library : ToolLibrary Float} (sound : library.IsSound) :
    (change.apply library).IsSound := by
  cases change with
  | add tool fits => exact sound.add fits
  | remove removed => exact sound.remove removed
  | load data =>
      rw [apply, ofJson?_eq]
      cases isFiled : filed? data with
      | none => exact sound
      | some entries => exact isSound_ofEntries (key_le_of_filed? isFiled)

/-- Only data puts a tool under a number that is not its own. -/
theorem isOwn_or_load {change : Change} {number : Nat} {tool : Tool Float}
    (written : change.written? number = some (some tool)) :
    tool.number = number ∨ ∃ data, change = .load data := by
  cases change with
  | add added fits =>
      rw [written?] at written
      split at written
      · rename_i same
        cases written
        exact .inl same.symm
      · cases written
  | remove removed =>
      rw [written?] at written
      split at written <;> cases written
  | load data => exact .inr ⟨data, rfl⟩

end Change

/-- What the last of the changes that touch a number leaves there. -/
def lastWritten? (number : Nat) (changes : List Change) : Option (Option (Tool Float)) :=
  changes.reverse.findSome? (Change.written? number)

theorem lastWritten?_eq_some_iff {number : Nat} {changes : List Change}
    {kept : Option (Tool Float)} :
    lastWritten? number changes = some kept ↔
      ∃ earlier change later, changes = earlier ++ change :: later ∧
        change.written? number = some kept ∧
          ∀ other ∈ later, other.written? number = none := by
  rw [lastWritten?, List.findSome?_eq_some_iff]
  constructor
  · rintro ⟨later, change, earlier, split, written, untouched⟩
    refine ⟨earlier.reverse, change, later.reverse, ?_, written, ?_⟩
    · rw [← List.reverse_reverse changes, split]
      simp
    · exact fun other member => untouched other (List.mem_reverse.mp member)
  · rintro ⟨earlier, change, later, rfl, written, untouched⟩
    refine ⟨later.reverse, change, earlier.reverse, by simp, written, ?_⟩
    exact fun other member => untouched other (List.mem_reverse.mp member)

/-- The library that the changes start from. -/
inductive Stock where
  | empty
  | standard

namespace Stock

def library : Stock → ToolLibrary Float
  | .empty => {}
  | .standard => ToolLibrary.standard

variable (stock : Stock) (changes : List Change)

def after : ToolLibrary Float :=
  changes.foldl (fun library change => change.apply library) stock.library

theorem after_concat (change : Change) :
    stock.after (changes ++ [change]) = change.apply (stock.after changes) := by
  rw [after, List.foldl_append]
  rfl

theorem isKeyed_library : stock.library.IsKeyed := by
  cases stock with
  | empty => exact isKeyed_empty
  | standard => exact isKeyed_standard

theorem isSound_after : (stock.after changes).IsSound := by
  induction changes using List.reverseRecOn with
  | nil =>
      cases stock with
      | empty => exact isSound_empty
      | standard => exact isSound_standard
  | append_singleton changes change ih =>
      rw [after_concat]
      exact change.isSound_apply ih

/-- The last change that touches a number decides what stands under it. -/
theorem get?_after (number : Nat) :
    (stock.after changes).get? number =
      (lastWritten? number changes).getD (stock.library.get? number) := by
  induction changes using List.reverseRecOn with
  | nil => rfl
  | append_singleton changes change ih =>
      rw [after_concat, Change.get?_apply, ih, lastWritten?, lastWritten?, List.reverse_concat,
        List.findSome?_cons]
      cases change.written? number <;> rfl

end Stock

/-- Each tool that data has under a number other than its own goes again: a later change touches
that number. -/
def MisplacedGo (changes : List Change) : Prop :=
  ∀ earlier data later number tool, changes = earlier ++ Change.load data :: later →
    (Change.load data).written? number = some (some tool) → tool.number ≠ number →
      ∃ change ∈ later, (change.written? number).isSome = true

namespace Stock

variable (stock : Stock) (changes : List Change)

theorem isKeyed_after_iff : (stock.after changes).IsKeyed ↔ MisplacedGo changes := by
  constructor
  · intro keyed earlier data later number tool split written misplaced
    by_contra none
    push Not at none
    have last : lastWritten? number changes = some (some tool) :=
      lastWritten?_eq_some_iff.mpr ⟨earlier, .load data, later, split, written,
        fun other member => Option.not_isSome_iff_eq_none.mp (none other member)⟩
    refine misplaced (keyed number tool ?_)
    rw [get?_after, last]
    rfl
  · intro go number tool found
    rw [get?_after] at found
    cases last : lastWritten? number changes with
    | none =>
        rw [last] at found
        exact stock.isKeyed_library number tool found
    | some kept =>
        rw [last] at found
        rw [show kept = some tool from found] at last
        obtain ⟨earlier, change, later, split, written, untouched⟩ :=
          lastWritten?_eq_some_iff.mp last
        rcases Change.isOwn_or_load written with isOwn | ⟨data, rfl⟩
        · exact isOwn
        · by_contra misplaced
          obtain ⟨other, member, touches⟩ :=
            go earlier data later number tool split written misplaced
          rw [untouched other member] at touches
          cases touches

/-- Over every sequence of changes, tools stand under their own numbers exactly if each one that
data had misplaced went again.  There is a next number exactly if the greatest one is free.  It
is above all keys, and above the numbers of all tools if these are under their own; a tool that
gets it replaces none and makes one tool more. -/
theorem numbers_after :
    let library := stock.after changes
    (library.IsKeyed ↔ MisplacedGo changes) ∧
      (library.nextNumber? = none ↔ (library.get? greatestNumber).isSome = true) ∧
      ∀ next, library.nextNumber? = some next →
        next ≤ greatestNumber ∧
          (∀ number tool, library.get? number = some tool → number < next) ∧
          (library.IsKeyed → ∀ number tool, library.get? number = some tool →
            tool.number < next) ∧
          ∀ tool : Tool Float, tool.number = next →
            (library.add tool).2 = none ∧
              (library.add tool).1.entries.length = library.entries.length + 1 := by
  intro library
  have sound : library.IsSound := stock.isSound_after changes
  refine ⟨stock.isKeyed_after_iff changes, sound.nextNumber?_eq_none_iff, ?_⟩
  intro next isNext
  refine ⟨nextNumber?_le isNext, ?_, ?_, ?_⟩
  · intro number tool found
    exact sound.lt_of_nextNumber? isNext found
  · intro keyed number tool found
    rw [keyed number tool found]
    exact sound.lt_of_nextNumber? isNext found
  · rintro tool rfl
    exact sound.add_next isNext

/-- A drill with number six. -/
def sixthTool : Tool Float where
  number := 6
  kind := .drill
  diameter := 6
  flutes := 1
  material := .carbide
  surfaceSpeed := 100
  feedPerTooth := 0.1
  description := "drill"

/-- Data with the drill under number five. -/
def misfiled : Json := .record [("tools", .record [("5", sixthTool.toJson)])]

/-- The drill is found under five, and the next number is its own. -/
theorem after_misfiled :
    let library := Stock.empty.after [.load misfiled]
    library.get? 5 = some sixthTool ∧ sixthTool.number = 6 ∧ ¬library.IsKeyed ∧
      library.nextNumber? = some sixthTool.number := by
  intro library
  have loaded : library = ofEntries [(5, sixthTool)] := by rfl
  have found : library.get? 5 = some sixthTool := by
    rw [loaded]
    rfl
  refine ⟨found, rfl, fun keyed => ?_, ?_⟩
  · exact absurd (keyed 5 sixthTool found) (by decide)
  · rw [loaded]
    rfl

end Stock

end Milling.ToolLibrary
