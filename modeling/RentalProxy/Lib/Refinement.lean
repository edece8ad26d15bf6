import RentalProxy.Lib.Calls

/-!
# Refinement by an abstraction function

A concrete system refines an abstract one when each of its steps is a step of the abstract one under
`abs`.  An invariant of the concrete system may be needed for it, and a guard on its steps.

* `Run.refine` carries a whole run over.
* `Calls.step_map` is the case of concurrent calls: it is enough that their pieces commute with the
  abstraction of the shared state.
-/

namespace StepSystem

variable {σ τ ε : Type*} {step : σ → ε → Option σ} {step' : τ → ε → Option τ}

/-- A run of the concrete system is a run of the abstract one. -/
theorem Run.refine {G : σ → ε → Prop} {H : τ → ε → Prop} {I : σ → Prop} (abs : σ → τ) {s t : σ}
    (h : Run step G s t) (hstart : I s)
    (hstep : ∀ x e y, I x → G x e → step x e = some y →
      I y ∧ H (abs x) e ∧ step' (abs x) e = some (abs y)) :
    I t ∧ Run step' H (abs s) (abs t) := by
  induction h with
  | refl => exact ⟨hstart, .refl⟩
  | tail _ hnext hguard ih =>
    obtain ⟨hmid, hrun⟩ := ih
    obtain ⟨hinv, hguard', hnext'⟩ := hstep _ _ _ hmid hguard hnext
    exact ⟨hinv, .tail hrun hnext' hguard'⟩

end StepSystem

namespace Calls

variable {σ τ π ε : Type*} {entry : π → Bool} {atomic : σ → π → ε → Option (σ × π)}
  {atomic' : τ → π → ε → Option (τ × π)}

/-- The pool over the abstract state, with the same calls. -/
def Pool.map (abs : σ → τ) (x : Pool σ π) : Pool τ π := ⟨abs x.shared, x.calls⟩

/-- Pieces that commute with the abstraction make steps that do. -/
theorem step_map (abs : σ → τ) {x y : Pool σ π} {e : Event π ε}
    (hatomic : ∀ k a p, e = .run k a → x.calls[k]? = some p →
      (atomic x.shared p a).map (fun z => (abs z.1, z.2)) = atomic' (abs x.shared) p a)
    (h : step entry atomic x e = some y) : step entry atomic' (x.map abs) e = some (y.map abs) := by
  rcases cases_of_step h with ⟨p, rfl, hp, rfl⟩ | ⟨k, a, p, s, q, rfl, hp, hpiece, rfl⟩
  · show (if entry p then _ else _) = _
    rw [if_pos hp]
    rfl
  · have habs := hatomic k a p rfl hp
    rw [hpiece, Option.map_some] at habs
    show ((x.calls[k]?).bind _) = _
    rw [hp, Option.bind_some]
    show (atomic' (abs x.shared) p a).map _ = _
    rw [← habs, Option.map_some]
    rfl

end Calls
