import RentalProxy.Lib.Runs
import Mathlib.Algebra.BigOperators.Group.List.Basic
import Mathlib.Algebra.Order.BigOperators.Group.List
import Mathlib.Algebra.Order.Group.Nat

/-!
# Concurrent calls over a shared state

Any number of calls run over one shared state.  A call is where it stands, and
`atomic` executes its next piece: what the piece does to the shared state, and
where the call stands then.  Which call goes next is chosen by the events, so a
run is an interleaving of the calls.  A call that has returned stays in the pool.

* `cases_of_step` is what a step can do.
* `Pool.Holds.step` is the rule of Owicki and Gries: an invariant of the shared
  state with an assertion about every call is kept if each piece keeps it, and
  keeps the assertions about the other calls.
* `Pool.total` adds up what the calls hold.
-/

namespace Calls

variable {σ π ε : Type*}

/-- A shared state and the calls that were made. -/
structure Pool (σ π : Type*) where
  shared : σ
  calls : List π

inductive Event (π ε : Type*) where
  /-- A call is made. -/
  | call (p : π)
  /-- The next piece of a call. -/
  | run (k : Nat) (e : ε)

variable (entry : π → Bool) (atomic : σ → π → ε → Option (σ × π))

/-- One step of one call. -/
def step (x : Pool σ π) : Event π ε → Option (Pool σ π)
  | .call p => if entry p then some { x with calls := x.calls ++ [p] } else none
  | .run k e => (x.calls[k]?).bind fun p =>
      (atomic x.shared p e).map fun y => ⟨y.1, x.calls.set k y.2⟩

variable {entry atomic} {x y : Pool σ π} {e : Event π ε}

/-- What a step can do. -/
theorem cases_of_step (h : step entry atomic x e = some y) :
    (∃ p, e = .call p ∧ entry p = true ∧ y = { x with calls := x.calls ++ [p] }) ∨
      ∃ k a p s q, e = .run k a ∧ x.calls[k]? = some p ∧ atomic x.shared p a = some (s, q) ∧
        y = ⟨s, x.calls.set k q⟩ := by
  cases e with
  | call p =>
    simp only [step] at h
    split at h
    · cases h
      exact Or.inl ⟨p, rfl, ‹_›, rfl⟩
    · cases h
  | run k a =>
    simp only [step, Option.bind_eq_some_iff, Option.map_eq_some_iff] at h
    obtain ⟨p, hp, ⟨s, q⟩, hatomic, rfl⟩ := h
    exact Or.inr ⟨k, a, p, s, q, rfl, hp, hatomic, rfl⟩

/-! ## Assertions about the calls -/

/-- An invariant of the shared state, and an assertion about every call. -/
structure Pool.Holds (I : σ → Prop) (P : σ → π → Prop) (x : Pool σ π) : Prop where
  shared : I x.shared
  calls : ∀ p ∈ x.calls, P x.shared p

/-- No piece of one call interferes with what is asserted about another. -/
theorem Pool.Holds.step {I : σ → Prop} {P : σ → π → Prop} (h : x.Holds I P)
    (hstep : step entry atomic x e = some y)
    (hentry : ∀ s p, I s → entry p = true → P s p)
    (hown : ∀ k a p s q, e = .run k a → x.calls[k]? = some p → I x.shared → P x.shared p →
      atomic x.shared p a = some (s, q) → I s ∧ P s q)
    (hother : ∀ k a p s q r, e = .run k a → x.calls[k]? = some p → r ∈ x.calls → I x.shared →
      P x.shared p → P x.shared r → atomic x.shared p a = some (s, q) → P s r) :
    y.Holds I P := by
  rcases cases_of_step hstep with ⟨p, _, hp, rfl⟩ | ⟨k, a, p, s, q, he, hp, hatomic, rfl⟩
  · refine ⟨h.shared, fun r hr => ?_⟩
    rcases List.mem_append.mp hr with hr | hr
    · exact h.calls r hr
    · rw [List.mem_singleton.mp hr]
      exact hentry _ p h.shared hp
  · have hmem : p ∈ x.calls := List.mem_of_getElem? hp
    obtain ⟨hshared, hq⟩ := hown k a p s q he hp h.shared (h.calls p hmem) hatomic
    refine ⟨hshared, fun r hr => ?_⟩
    rcases List.mem_or_eq_of_mem_set hr with hr | rfl
    · exact hother k a p s q r he hp hr h.shared (h.calls p hmem) (h.calls r hr) hatomic
    · exact hq

/-! ## What the calls hold -/

variable {M : Type*} [AddCommMonoid M]

/-- What the calls hold together. -/
def Pool.total (f : π → M) (x : Pool σ π) : M := (x.calls.map f).sum

/-- One entry of a list is replaced. -/
theorem sum_map_set (f : π → M) {l : List π} {k : Nat} {p : π} (h : l[k]? = some p) (q : π) :
    ((l.set k q).map f).sum + f p = (l.map f).sum + f q := by
  induction l generalizing k with
  | nil => simp at h
  | cons r l ih =>
    cases k with
    | zero =>
      obtain rfl : r = p := by simpa using h
      simp only [List.set_cons_zero, List.map_cons, List.sum_cons]
      rw [add_right_comm, add_comm (f q), add_right_comm]
    | succ k =>
      rw [List.getElem?_cons_succ] at h
      simp only [List.set_cons_succ, List.map_cons, List.sum_cons, add_assoc, ih h]

theorem Pool.total_call (f : π → M) (s : σ) (calls : List π) (p : π) :
    Pool.total f (⟨s, calls ++ [p]⟩ : Pool σ π) = Pool.total f (⟨s, calls⟩ : Pool σ π) + f p := by
  simp [Pool.total]

/-- The piece of one call changes the total by what that call holds. -/
theorem Pool.total_run (f : π → M) {k : Nat} {p : π} (hp : x.calls[k]? = some p) (s : σ) (q : π) :
    Pool.total f (⟨s, x.calls.set k q⟩ : Pool σ π) + f p = x.total f + f q :=
  sum_map_set f hp q

/-- Two different calls hold no more than all of them. -/
theorem Pool.add_le_total (f : π → ℕ) {p q : π} (hp : p ∈ x.calls) (hq : q ∈ x.calls)
    (hne : p ≠ q) : f p + f q ≤ x.total f := by
  unfold Pool.total
  generalize x.calls = l at hp hq
  obtain ⟨front, back, rfl⟩ := List.append_of_mem hp
  have hrest : q ∈ front ++ back := by
    simpa [hne.symm] using hq
  have hle : f q ≤ ((front ++ back).map f).sum :=
    List.le_sum_of_mem (List.mem_map_of_mem hrest)
  simp only [List.map_append, List.map_cons, List.sum_append, List.sum_cons] at hle ⊢
  omega

end Calls
