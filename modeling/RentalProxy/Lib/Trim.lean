import Mathlib.Data.List.DropRight

/-!
# Trimming a list at both ends

`trim p` drops what satisfies `p` from the front and from the back.  What it leaves neither
starts nor ends so (`head?_trim`, `getLast?_trim`), a list that does not is left alone
(`trim_eq_self`), and what is put around a list is gone again (`trim_surround`).
-/

namespace Trim

variable {α : Type*} {p : α → Bool} {l front back : List α}

/-- Drop from both ends. -/
def trim (p : α → Bool) (l : List α) : List α := (l.dropWhile p).rdropWhile p

theorem head?_dropWhile {a : α} (h : a ∈ (l.dropWhile p).head?) : p a = false := by
  have hnot := List.head?_dropWhile_not p l
  rw [Option.mem_def.mp h] at hnot
  simpa using hnot

theorem getLast?_trim {a : α} (h : a ∈ (trim p l).getLast?) : p a = false := by
  rw [trim, List.rdropWhile, List.getLast?_reverse] at h
  exact head?_dropWhile h

theorem head?_trim {a : α} (h : a ∈ (trim p l).head?) : p a = false := by
  have hprefix : trim p l <+: l.dropWhile p := List.rdropWhile_prefix p _
  obtain ⟨rest, hrest⟩ := hprefix
  refine head?_dropWhile (l := l) ?_
  rw [← hrest, List.head?_append, Option.mem_def.mp h]
  rfl

/-- An element that trimming leaves was in the list. -/
theorem mem_of_mem_trim {a : α} (h : a ∈ trim p l) : a ∈ l :=
  (List.dropWhile_suffix p).subset ((List.rdropWhile_prefix p _).subset h)

/-- A list that neither starts nor ends with such an element is left alone. -/
theorem trim_eq_self (hhead : ∀ a ∈ l.head?, p a = false)
    (hlast : ∀ a ∈ l.getLast?, p a = false) : trim p l = l := by
  have hdrop : l.dropWhile p = l := by
    cases l with
    | nil => rfl
    | cons a l => exact List.dropWhile_cons_of_neg (by simp [hhead a rfl])
  rw [trim, hdrop, List.rdropWhile_eq_self_iff]
  intro hne
  simp [hlast _ (List.getLast?_eq_getLast_of_ne_nil hne)]

/-- Trimming a second time changes nothing. -/
theorem trim_trim : trim p (trim p l) = trim p l :=
  trim_eq_self (fun _ => head?_trim) fun _ => getLast?_trim

/-- Elements of the trimmed kind at either end do not change what trimming leaves. -/
theorem trim_surround (hfront : ∀ a ∈ front, p a = true) (hback : ∀ a ∈ back, p a = true) :
    trim p (front ++ l ++ back) = trim p l := by
  have hrdrop : ∀ m : List α, (m ++ back).rdropWhile p = m.rdropWhile p := by
    intro m
    rw [List.rdropWhile, List.rdropWhile, List.reverse_append,
      List.dropWhile_append_of_pos fun a ha => hback a (List.mem_reverse.mp ha)]
  rw [trim, List.append_assoc, List.dropWhile_append_of_pos hfront, List.dropWhile_append, trim]
  split
  · rename_i hempty
    rw [List.isEmpty_iff.mp hempty, List.dropWhile_eq_nil_iff.mpr hback]
  · exact hrdrop _

end Trim
