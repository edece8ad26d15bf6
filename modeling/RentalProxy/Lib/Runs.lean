import Mathlib.Order.Defs.Unbundled

/-!
# Runs of a partial step function

A system is a step function `step : σ → ε → Option σ`: in state `s` the event
`e` is either impossible (`none`) or leads to one state.  All nondeterminism
sits in the choice of the event, so one list of events is one schedule of the
tasks of the system.

`Run step G s t` says that some schedule leads from `s` to `t` and that every
step of it was taken in a state and with an event that satisfy `G`.  With
`G := fun _ _ => True` this is plain reachability (`Reachable`).  A guard is
how a conditional result is stated: "in every run whose steps all meet `G`".

* `Run.invariant` is the induction rule: a predicate that holds at the start
  and is kept by every guarded step holds at the end.
* `Run.invariant_until` is the rule for what is kept only until something happens.
* `Run.relation` is its two-state form: a preorder that relates the two ends
  of every guarded step relates the two ends of the run.
* `run` executes a schedule and `Run.of_run` turns an executed schedule into
  a `Run`, so a concrete run is checked by evaluation.
-/

namespace StepSystem

variable {σ ε : Type*} (step : σ → ε → Option σ)

/-- Some schedule of steps that all satisfy `G` leads from `s` to the indexed
state. -/
inductive Run (G : σ → ε → Prop) (s : σ) : σ → Prop where
  | refl : Run G s s
  | tail {t u : σ} {e : ε} :
      Run G s t → step t e = some u → G t e → Run G s u

/-- Reachability: a run with no condition on its steps. -/
abbrev Reachable (s t : σ) : Prop := Run step (fun _ _ => True) s t

/-- Execute a schedule.  `none` when one of its steps is impossible. -/
def run (s : σ) : List ε → Option σ
  | [] => some s
  | e :: es => (step s e).bind fun t => run t es

/-- Execute a schedule, and stop with `none` at a step that fails `g`. -/
def runWhile (g : σ → ε → Bool) (s : σ) : List ε → Option σ
  | [] => some s
  | e :: es => if g s e then (step s e).bind fun t => runWhile g t es else none

variable {step}

/-- A schedule of one step. -/
theorem run_one {s t : σ} {e : ε} (h : step s e = some t) : run step s [e] = some t := by
  simp only [run, h, Option.bind_some]

/-- One schedule after another. -/
theorem run_append (s : σ) (es es' : List ε) :
    run step s (es ++ es') = (run step s es).bind fun t => run step t es' := by
  induction es generalizing s with
  | nil => rfl
  | cons e es ih =>
      simp only [List.cons_append, run, Option.bind_assoc, ih]

theorem runWhile_true (s : σ) (es : List ε) :
    runWhile step (fun _ _ => true) s es = run step s es := by
  induction es generalizing s with
  | nil => rfl
  | cons e es ih => simp only [runWhile, run, ih, if_true]

namespace Run

variable {G H : σ → ε → Prop} {s t u : σ}

/-- The induction rule: what holds at the start and is kept by every step
that meets the guard holds at the end of the run. -/
theorem invariant {I : σ → Prop} (hrun : Run step G s t) (hstart : I s)
    (hstep : ∀ x e y, I x → G x e → step x e = some y → I y) : I t := by
  induction hrun with
  | refl => exact hstart
  | tail _ hnext hguard ih => exact hstep _ _ _ ih hguard hnext

/-- What holds at the start and is kept by every step that meets the guard, unless `Q` holds where
the step begins, holds at the end of the run, or `Q` holds on the way. -/
theorem invariant_until {I Q : σ → Prop} (hrun : Run step G s t) (hstart : I s)
    (hstep : ∀ x e y, I x → G x e → step x e = some y → I y ∨ Q x) :
    I t ∨ ∃ x, Run step G s x ∧ Run step G x t ∧ Q x := by
  induction hrun with
  | refl => exact Or.inl hstart
  | @tail x y e hprefix hnext hguard ih =>
      rcases ih with hx | ⟨z, hz, hzx, hq⟩
      · rcases hstep x e y hx hguard hnext with hy | hq
        · exact Or.inl hy
        · exact Or.inr ⟨x, hprefix, .tail .refl hnext hguard, hq⟩
      · exact Or.inr ⟨z, hz, .tail hzx hnext hguard, hq⟩

/-- The two-state rule: a preorder that relates the ends of every guarded
step relates the ends of the run. -/
theorem relation {R : σ → σ → Prop} (hrun : Run step G s t)
    (hrefl : ∀ x, R x x) (htrans : ∀ x y z, R x y → R y z → R x z)
    (hstep : ∀ x e y, Run step G s x → G x e → step x e = some y → R x y) :
    R s t := by
  induction hrun with
  | refl => exact hrefl _
  | tail hprefix hnext hguard ih =>
      exact htrans _ _ _ ih (hstep _ _ _ hprefix hguard hnext)

/-- A weaker guard admits more runs. -/
theorem mono (hrun : Run step G s t) (hGH : ∀ x e, G x e → H x e) :
    Run step H s t := by
  induction hrun with
  | refl => exact .refl
  | tail _ hnext hguard ih => exact .tail ih hnext (hGH _ _ hguard)

/-- Runs compose. -/
theorem trans (hst : Run step G s t) (htu : Run step G t u) :
    Run step G s u := by
  induction htu with
  | refl => exact hst
  | tail _ hnext hguard ih => exact .tail ih hnext hguard

/-- A first step in front of a run. -/
theorem head {e : ε} (hnext : step s e = some t) (hguard : G s e)
    (htu : Run step G t u) : Run step G s u :=
  Run.trans (.tail .refl hnext hguard) htu

/-- An executed schedule whose steps all pass the test `g` is a run under
every guard that the test implies for its events. -/
theorem of_runWhile_forall {g : σ → ε → Bool} {es : List ε}
    (hguard : ∀ e ∈ es, ∀ x, g x e = true → G x e)
    (h : runWhile step g s es = some t) : Run step G s t := by
  induction es generalizing s with
  | nil =>
      cases h
      exact .refl
  | cons e es ih =>
      simp only [runWhile] at h
      split at h
      · rename_i hpass
        obtain ⟨mid, hmid, hrest⟩ := Option.bind_eq_some_iff.mp h
        exact head hmid (hguard e List.mem_cons_self _ hpass)
          (ih (fun e' he' => hguard e' (List.mem_cons_of_mem e he')) hrest)
      · cases h

theorem of_runWhile {g : σ → ε → Bool} {es : List ε}
    (hguard : ∀ x e, g x e = true → G x e)
    (h : runWhile step g s es = some t) : Run step G s t :=
  of_runWhile_forall (fun e _ x => hguard x e) h

/-- An executed schedule whose events meet the guard in every state. -/
theorem of_run_forall {es : List ε} (hguard : ∀ e ∈ es, ∀ x, G x e) (h : run step s es = some t) :
    Run step G s t :=
  of_runWhile_forall (fun e he x _ => hguard e he x) ((runWhile_true s es).trans h)

/-- An executed schedule is a run. -/
theorem of_run {es : List ε} (h : run step s es = some t) : Reachable step s t :=
  of_run_forall (fun _ _ _ => trivial) h

/-- Two executed schedules, one after the other, whose steps all pass the test `g`. -/
theorem exists_of_runWhile {g : σ → ε → Bool} {test : σ → σ → Bool} (es es' : List ε)
    (hguard : ∀ x e, g x e = true → G x e)
    (h : ((runWhile step g s es).any fun x => (runWhile step g x es').any (test x)) = true) :
    ∃ x y, Run step G s x ∧ Run step G x y ∧ test x y = true := by
  obtain ⟨x, hx, hrest⟩ := (Option.any_eq_true ..).mp h
  obtain ⟨y, hy, htest⟩ := (Option.any_eq_true ..).mp hrest
  exact ⟨x, y, of_runWhile hguard hx, of_runWhile hguard hy, htest⟩

end Run

end StepSystem
