import Milling.Command.Run
import Milling.Workplace.Desk

/-!
# Commands at a desk

What a command does at a desk, step by step: a step that goes well leaves a desk
for the next one, files that were written can be read, and a program that was
delivered is where it was asked for.
-/

namespace Milling

namespace Desk

/-- How a command that is run at a desk ends, and what the desk is like then. -/
def perform (desk : Desk) (calculate : String → Except String Float) (settings : Settings Float)
    (command : Command) : Except CommandError Unit × Desk :=
  ((command.run settings calculate : ExceptT CommandError Work Unit).run).run desk

/-- A program was put out, or stands in the file that was asked for. -/
def Delivered (before after : Desk) (out : Option String) (text : String) : Prop :=
  match out with
  | none => after.printed = text :: before.printed
  | some path => after.read? path = some text.toUTF8.toList

variable {β γ : Type} {desk after : Desk}

/-- Work that goes well goes well in both its parts. -/
theorem bind_eq_ok {first : ExceptT CommandError Work β}
    {second : β → ExceptT CommandError Work γ} {result : γ}
    (done : ((first >>= second).run).run desk = (.ok result, after)) :
    ∃ value middle, (first.run).run desk = (.ok value, middle) ∧
      ((second value).run).run middle = (.ok result, after) := by
  rw [ExceptT.run_bind, StateT.run_bind] at done
  cases outcome : (first.run).run desk with
  | mk ended middle =>
      cases ended with
      | ok value =>
          rw [outcome] at done
          exact ⟨value, middle, rfl, done⟩
      | error reason =>
          rw [outcome] at done
          cases done

theorem ofExcept_eq_ok {given : Except CommandError β} {value : β}
    (done : ((ofExcept given : ExceptT CommandError Work β).run).run desk = (.ok value, after)) :
    given = .ok value ∧ after = desk := by
  cases given with
  | error reason => cases done
  | ok value =>
      obtain ⟨same, rfl⟩ := Prod.mk.inj done
      exact ⟨same, rfl⟩

theorem mapError_eq_ok {ε δ : Type} {given : Except ε β} {rename : ε → δ} {value : β}
    (done : given.mapError rename = .ok value) : given = .ok value := by
  cases given with
  | error reason => cases done
  | ok result => exact congrArg Except.ok (Except.ok.inj done)

theorem exists_bytes_of_load {calculate : String → Except String Float} {path : String}
    {program : LoadedProgram}
    (done : ((LoadedProgram.load path calculate :
      ExceptT CommandError Work LoadedProgram).run).run desk = (.ok program, after)) :
    ∃ bytes, desk.read? path = some bytes ∧
      LoadedProgram.ofBytes path bytes calculate = .ok program ∧ after = desk := by
  obtain ⟨found, middle, read, decoded⟩ := bind_eq_ok done
  obtain ⟨isFound, rfl⟩ := Prod.mk.inj read
  obtain rfl := Except.ok.inj isFound
  split at decoded
  · cases decoded
  · rename_i bytes isBytes
    obtain ⟨loaded, unchanged⟩ := ofExcept_eq_ok decoded
    exact ⟨bytes, isBytes, mapError_eq_ok loaded, unchanged⟩

/-- The files below the folder that paths start from are those with its names in front. -/
theorem lookup_files (desk : Desk) (names : List String) :
    desk.files.lookup names = desk.stored.lookup (desk.home ++ names) := by
  rw [files]
  induction desk.stored with
  | nil => rfl
  | cons file stored ih =>
      obtain ⟨place, bytes⟩ := file
      rw [List.filterMap_cons, List.lookup_cons, ← ih]
      dsimp only
      by_cases below : desk.home.isPrefixOf place = true
      · obtain ⟨rest, rfl⟩ := List.isPrefixOf_iff_prefix.mp below
        have same : (desk.home ++ names == desk.home ++ rest) = (names == rest) := by
          rw [Bool.eq_iff_iff, beq_iff_eq, beq_iff_eq, List.append_cancel_left_eq]
        rw [if_pos below, List.drop_left, List.lookup_cons, same]
      · have other : (desk.home ++ names == place) = false := by
          refine beq_false_of_ne ?_
          rintro rfl
          exact below (List.isPrefixOf_iff_prefix.mpr (List.prefix_append _ _))
        rw [if_neg below, other]

/-- Desks with the same folders, and paths that start from the same one. -/
structure SameFolders (desk other : Desk) : Prop where
  folders : other.folders = desk.folders
  home : other.home = desk.home

namespace SameFolders

variable {other : Desk}

theorem hasFolder (same : SameFolders desk other) (names : List String) :
    other.hasFolder names = desk.hasFolder names := by
  rw [Desk.hasFolder, Desk.hasFolder, same.folders, same.home]

theorem follow? (same : SameFolders desk other) (place names : List String) :
    other.follow? place names = desk.follow? place names := by
  induction names generalizing place with
  | nil => rfl
  | cons name names ih => simp only [Desk.follow?, same.hasFolder, ih]

theorem filePlace? (same : SameFolders desk other) (path : String) :
    other.filePlace? path = desk.filePlace? path := by
  simp only [Desk.filePlace?, place?, origin, same.home, same.follow?, same.hasFolder]

theorem read? (same : SameFolders desk other) (stored : other.stored = desk.stored)
    (path : String) : other.read? path = desk.read? path := by
  simp only [Desk.read?, stored, same.filePlace?]

end SameFolders

/-- A file that was written is there. -/
theorem read?_of_write? {path text : String} {next : Desk}
    (written : desk.write? path text = some next) :
    next.read? path = some text.toUTF8.toList := by
  obtain ⟨place, isPlace, put⟩ := Option.bind_eq_some_iff.mp written
  obtain rfl := Option.some.inj put
  have folders : SameFolders desk (desk.put place text.toUTF8.toList) := ⟨rfl, rfl⟩
  have same : (desk.put place text.toUTF8.toList).filePlace? path = some place :=
    (folders.filePlace? path).trans isPlace
  have others : (desk.stored.filter (·.1 != place)).lookup place = none := by
    refine List.lookup_eq_none_iff.mpr ?_
    intro entry member
    have other := (List.mem_filter.mp member).2
    rw [bne_iff_ne] at other ⊢
    exact other.symm
  rw [read?, same]
  change (desk.stored.filter (·.1 != place) ++ [(place, text.toUTF8.toList)]).lookup place = _
  rw [List.lookup_append, others]
  simp

theorem write?_of_writeFile {path text : String}
    (done : ((Workplace.writeFile path text : ExceptT CommandError Work Bool).run).run desk =
      (.ok true, after)) : desk.write? path text = some after := by
  have performed : ((Workplace.writeFile path text : ExceptT CommandError Work Bool).run).run desk =
      (desk.write? path text).elim (.ok false, desk) fun next => (.ok true, next) := by
    change StateT.run (replace (desk.write? path text) >>= fun value =>
      pure (Except.ok value : Except CommandError Bool)) desk = _
    cases desk.write? path text <;> rfl
  rw [performed] at done
  cases written : desk.write? path text with
  | none =>
      rw [written] at done
      cases done
  | some next =>
      rw [written] at done
      rw [(Prod.mk.inj done).2]

theorem delivered_of_writeTo {path text line : String}
    (done : ((Command.writeTo path text >>= fun _ =>
      Workplace.report line : ExceptT CommandError Work Unit).run).run desk = (.ok (), after)) :
    after.read? path = some text.toUTF8.toList := by
  obtain ⟨_, next, wrote, reported⟩ := bind_eq_ok done
  have same : after.stored = next.stored ∧ SameFolders next after := by
    rw [← (Prod.mk.inj reported).2]
    exact ⟨rfl, rfl, rfl⟩
  rw [same.2.read? same.1]
  obtain ⟨went, middle, replaced, checked⟩ := bind_eq_ok wrote
  cases went with
  | false => cases checked
  | true =>
      obtain ⟨_, rfl⟩ := Prod.mk.inj checked
      exact read?_of_write? (write?_of_writeFile replaced)

theorem delivered_of_deliver {out : Option String} {text : String}
    (done : ((Command.deliver out text : ExceptT CommandError Work Unit).run).run desk =
      (.ok (), after)) : Delivered desk after out text := by
  cases out with
  | none =>
      obtain ⟨_, rfl⟩ := Prod.mk.inj done
      rfl
  | some path =>
      unfold Command.deliver at done
      dsimp only at done
      split at done
      · obtain ⟨made, middle, _, rest⟩ := bind_eq_ok done
        split at rest
        · obtain ⟨_, _, thrown, _⟩ := bind_eq_ok rest
          cases thrown
        · exact delivered_of_writeTo rest
      · exact delivered_of_writeTo done

end Desk

end Milling
