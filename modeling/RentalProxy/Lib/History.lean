import RentalProxy.Lib.Runs

/-!
# Runs that are observed

A property of a whole run is a property of a history that is kept along it.
`observed step note` is the system `step` with a history: `note s e` says what the
step of `e` in state `s` makes of it.  No step reads the history, so the two
systems have the same runs.

* `Run.unobserved` forgets the history.
* `Run.exists_history` keeps one along a given run.
-/

namespace StepSystem

variable {σ ε γ : Type*} {step : σ → ε → Option σ} {note : σ → ε → γ → γ}

/-- The system with a history. -/
def observed (step : σ → ε → Option σ) (note : σ → ε → γ → γ) (x : σ × γ) (e : ε) :
    Option (σ × γ) :=
  (step x.1 e).map fun s => (s, note x.1 e x.2)

theorem observed_eq_some {x y : σ × γ} {e : ε} :
    observed step note x e = some y ↔ step x.1 e = some y.1 ∧ y.2 = note x.1 e x.2 := by
  unfold observed
  rw [Option.map_eq_some_iff]
  constructor
  · rintro ⟨s, hs, rfl⟩
    exact ⟨hs, rfl⟩
  · rintro ⟨hs, hhistory⟩
    exact ⟨y.1, hs, Prod.ext rfl hhistory.symm⟩

/-- A run without its history. -/
theorem Run.unobserved {G : σ × γ → ε → Prop} {H : σ → ε → Prop} {x y : σ × γ}
    (h : Run (observed step note) G x y) (hGH : ∀ z e, G z e → H z.1 e) :
    Run step H x.1 y.1 := by
  induction h with
  | refl => exact .refl
  | tail _ hnext hguard ih => exact .tail ih (observed_eq_some.mp hnext).1 (hGH _ _ hguard)

/-- Every run has a history. -/
theorem Run.exists_history (note : σ → ε → γ → γ) {G : σ → ε → Prop} {s t : σ}
    (h : Run step G s t) (past : γ) :
    ∃ history, Run (observed step note) (fun z e => G z.1 e) (s, past) (t, history) := by
  induction h with
  | refl => exact ⟨past, .refl⟩
  | @tail u v e _ hnext hguard ih =>
    obtain ⟨history, hhistory⟩ := ih
    exact ⟨note u e history, .tail hhistory (observed_eq_some.mpr ⟨hnext, rfl⟩) hguard⟩

end StepSystem
