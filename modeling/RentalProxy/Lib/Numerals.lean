import Mathlib.Data.List.Basic

/-!
# Decimal numerals

What the printed form of a number determines.

* `repr_injective` and `int_repr_injective`: a number is read off its numeral.
* `pair_injective`: so are two numbers with a hyphen in between, if the first is not negative.
-/

namespace Numerals

theorem repr_injective {n n' : Nat} (h : n.repr = n'.repr) : n = n' := by
  have hdigits := congrArg String.toList h
  rw [Nat.toList_repr, Nat.toList_repr] at hdigits
  rw [← Nat.ofDigitChars_ten_toDigits (n := n), hdigits, Nat.ofDigitChars_ten_toDigits]

theorem isDigit_of_mem_repr {n : Nat} {c : Char} (h : c ∈ n.repr.toList) : c.isDigit = true := by
  rw [Nat.toList_repr] at h
  exact Nat.isDigit_of_mem_toDigits (by decide) (by decide) h

theorem hyphen_notMem_repr (n : Nat) : '-' ∉ n.repr.toList := by
  intro h
  have hdigit := isDigit_of_mem_repr h
  revert hdigit
  decide

theorem int_repr_injective {t t' : Int} (h : t.repr = t'.repr) : t = t' := by
  rw [Int.repr_eq_if, Int.repr_eq_if] at h
  have hsign : ∀ n n' : Nat, n.repr ≠ "-" ++ n'.repr := by
    intro n n' heq
    refine hyphen_notMem_repr n ?_
    rw [heq, String.toList_append]
    exact List.mem_append_left _ (by decide)
  split at h <;> split at h
  · have hnat := repr_injective h
    omega
  · exact absurd h (hsign _ _)
  · exact absurd h.symm (hsign _ _)
  · have hlist := congrArg String.toList h
    rw [String.toList_append, String.toList_append, List.append_cancel_left_eq] at hlist
    have hnat := repr_injective (String.toList_inj.mp hlist)
    omega

theorem hyphen_notMem_int {t : Int} (ht : 0 ≤ t) : '-' ∉ t.repr.toList := by
  rw [Int.repr_eq_if, if_pos ht]
  exact hyphen_notMem_repr _

/-- Two numbers with a hyphen in between. -/
theorem pair_injective {t t' : Int} {n n' : Nat} (ht : 0 ≤ t)
    (h : t.repr.toList ++ '-' :: n.repr.toList = t'.repr.toList ++ '-' :: n'.repr.toList) :
    t = t' ∧ n = n' := by
  obtain ⟨htime, _, hcount⟩ :=
    (List.append_cons_inj_of_notMem (hyphen_notMem_int ht) (hyphen_notMem_repr n)).mp h
  exact ⟨int_repr_injective (String.toList_inj.mp htime),
    repr_injective (String.toList_inj.mp hcount)⟩

end Numerals
