import Mathlib

/-!
# Entries by key

Values are kept under keys in lists of entries, the keys strictly increasing.  An entry that is
put in takes the place of the one with its key, and what stands under the other keys stays.
-/

namespace Milling.Entries

variable {κ β : Type} [LinearOrder κ]

/-- Entries with one put in its place, in the stead of one with the same key. -/
def insert (key : κ) (value : β) : List (κ × β) → List (κ × β)
  | [] => [(key, value)]
  | (other, kept) :: rest =>
      if key < other then (key, value) :: (other, kept) :: rest
      else if key = other then (key, value) :: rest
      else (other, kept) :: insert key value rest

/-- Keys strictly increasing. -/
def IsSorted (entries : List (κ × β)) : Prop :=
  entries.Pairwise fun first second => first.1 < second.1

theorem lookup_cons (key wanted : κ) (value : β) (entries : List (κ × β)) :
    ((key, value) :: entries).lookup wanted =
      if wanted = key then some value else entries.lookup wanted := by
  by_cases same : wanted = key
  · simp [same]
  · have unequal : (wanted == key) = false := by simp [same]
    simp [List.lookup_cons, same, unequal]

theorem lookup_insert (key wanted : κ) (value : β) (entries : List (κ × β)) :
    (insert key value entries).lookup wanted =
      if wanted = key then some value else entries.lookup wanted := by
  induction entries with
  | nil => exact lookup_cons key wanted value []
  | cons entry rest ih =>
      obtain ⟨other, kept⟩ := entry
      simp only [insert]
      split
      · exact lookup_cons key wanted value _
      · split
        · rename_i equal
          subst equal
          rw [lookup_cons, lookup_cons]
          by_cases same : wanted = key <;> simp [same]
        · rename_i different
          rw [lookup_cons, lookup_cons, ih]
          by_cases same : wanted = key
          · simp [same, different]
          · simp [same]

/-- Of entries with one key the last one counts. -/
theorem lookup_foldl_insert (entries kept : List (κ × β)) (wanted : κ) :
    (entries.foldl (fun kept entry => insert entry.1 entry.2 kept) kept).lookup wanted =
      (entries.reverse.lookup wanted).or (kept.lookup wanted) := by
  induction entries generalizing kept with
  | nil => rfl
  | cons entry rest ih =>
      rw [List.foldl_cons, ih, lookup_insert, List.reverse_cons, List.lookup_append,
        lookup_cons entry.1 wanted entry.2 [], Option.or_assoc]
      by_cases same : wanted = entry.1 <;> simp [same]

theorem lookup_filter_ne (key wanted : κ) (entries : List (κ × β)) :
    (entries.filter fun entry => decide (entry.1 ≠ key)).lookup wanted =
      if wanted = key then none else entries.lookup wanted := by
  induction entries with
  | nil => simp
  | cons entry rest ih =>
      obtain ⟨other, kept⟩ := entry
      by_cases goes : other = key
      · rw [List.filter_cons_of_neg (by simp [goes]), ih, lookup_cons, goes]
        by_cases same : wanted = key <;> simp [same]
      · rw [List.filter_cons_of_pos (by simp [goes]), lookup_cons, lookup_cons, ih]
        by_cases same : wanted = other
        · simp [same, goes]
        · simp [same]

theorem mem_insert {key : κ} {value : β} {entries : List (κ × β)} {entry : κ × β}
    (member : entry ∈ insert key value entries) : entry = (key, value) ∨ entry ∈ entries := by
  induction entries with
  | nil => exact .inl (List.mem_singleton.mp member)
  | cons first rest ih =>
      obtain ⟨other, kept⟩ := first
      unfold insert at member
      split at member
      · exact List.mem_cons.mp member
      · split at member
        · exact (List.mem_cons.mp member).imp_right (List.mem_cons_of_mem _)
        · rcases List.mem_cons.mp member with rfl | later
          · exact .inr List.mem_cons_self
          · exact (ih later).imp_right (List.mem_cons_of_mem _)

theorem IsSorted.insert {key : κ} {value : β} {entries : List (κ × β)}
    (sorted : IsSorted entries) : IsSorted (insert key value entries) := by
  induction entries with
  | nil => exact List.pairwise_singleton _ _
  | cons first rest ih =>
      obtain ⟨other, kept⟩ := first
      obtain ⟨above, restSorted⟩ := List.pairwise_cons.mp sorted
      unfold Entries.insert
      split
      · rename_i before
        refine List.pairwise_cons.mpr ⟨?_, sorted⟩
        intro entry member
        rcases List.mem_cons.mp member with rfl | later
        · exact before
        · exact lt_trans before (above entry later)
      · rename_i notBefore
        split
        · rename_i same
          subst same
          exact List.pairwise_cons.mpr ⟨above, restSorted⟩
        · rename_i different
          have after : other < key := lt_of_le_of_ne (not_lt.mp notBefore) (Ne.symm different)
          refine List.pairwise_cons.mpr ⟨?_, ih restSorted⟩
          intro entry member
          rcases mem_insert member with rfl | inRest
          · exact after
          · exact above entry inRest

theorem IsSorted.filter {entries : List (κ × β)} (sorted : IsSorted entries)
    (keeps : κ × β → Bool) : IsSorted (entries.filter keeps) :=
  List.Pairwise.filter keeps sorted

/-- The last key is the greatest. -/
theorem IsSorted.le_getLast? {entries : List (κ × β)} (sorted : IsSorted entries)
    {last entry : κ × β} (isLast : entries.getLast? = some last) (member : entry ∈ entries) :
    entry.1 ≤ last.1 := by
  obtain ⟨front, rfl⟩ := List.getLast?_eq_some_iff.mp isLast
  rcases List.mem_append.mp member with before | same
  · exact le_of_lt ((List.pairwise_append.mp sorted).2.2 entry before last List.mem_cons_self)
  · rw [List.mem_singleton.mp same]

/-- A new key makes one entry more. -/
theorem length_insert {key : κ} {entries : List (κ × β)} (free : entries.lookup key = none)
    (value : β) : (insert key value entries).length = entries.length + 1 := by
  induction entries with
  | nil => rfl
  | cons entry rest ih =>
      obtain ⟨other, kept⟩ := entry
      rw [lookup_cons] at free
      split at free
      · cases free
      · rename_i different
        rw [insert, if_neg different]
        split
        · rfl
        · rw [List.length_cons, List.length_cons, ih free]

/-- In sorted entries the value under a key is that of its only entry. -/
theorem IsSorted.mem_iff {entries : List (κ × β)} (sorted : IsSorted entries) {key : κ}
    {value : β} : (key, value) ∈ entries ↔ entries.lookup key = some value := by
  induction entries with
  | nil => simp
  | cons entry rest ih =>
      obtain ⟨other, kept⟩ := entry
      obtain ⟨above, restSorted⟩ := List.pairwise_cons.mp sorted
      rw [lookup_cons, List.mem_cons, ih restSorted]
      by_cases same : key = other
      · have absent : rest.lookup key ≠ some value := fun found =>
          absurd (above _ ((ih restSorted).mpr found)) (by simp [same])
        simp [same, same ▸ absent, eq_comm]
      · simp [same]

end Milling.Entries
