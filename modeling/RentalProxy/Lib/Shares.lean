import RentalProxy.Lib.Runs
import Mathlib.Data.List.AList
import Mathlib.Algebra.Group.Basic
import Mathlib.Tactic.Abel

/-!
# Weighing accepted shares

A connection on which shares are submitted and answered while the weight of a
share changes.  `Ledger.step` is the account of such a connection: an accepted
share is billed at the weight that was in force when it was submitted.

* `Ledger.drift` is how far the weight in force has moved between the submission
  and the acceptance, summed over the accepted shares.  Weighing at acceptance
  bills `billed + drift`, which is `accept_settled`.
* `driveTrace` puts a system through a trace, and `Simulates.run` turns a
  simulation of the ledger, step by step, into one of whole traces.
-/

namespace ShareLedger

open StepSystem

variable {T W : Type*}

/-- What happens on the connection.  Shares are numbered in the order in which
they are submitted. -/
inductive Event (T : Type*) where
  /-- Shares weigh differently from here on. -/
  | retarget (target : T)
  | submit
  /-- Shares that are accepted together. -/
  | accept (shares : List Nat)
  | reject (share : Nat)

/-- Fewer shares than this are accepted together. -/
def Event.BatchBelow (bound : Nat) : Event T → Prop
  | .accept shares => shares.length < bound
  | .retarget _ | .submit | .reject _ => True

instance (bound : Nat) (e : Event T) : Decidable (e.BatchBelow bound) := by
  cases e <;> unfold Event.BatchBelow <;> infer_instance

/-- The account of a connection. -/
structure Ledger (W : Type*) where
  inForce : W
  submitted : Nat
  /-- The shares without an answer, each with the weight at its submission. -/
  unanswered : AList fun _ : Nat => W
  billed : W
  drift : W

namespace Ledger

/-- A connection without shares. -/
def fresh [Zero W] (inForce : W) : Ledger W := ⟨inForce, 0, ∅, 0, 0⟩

/-- The number of a new share. -/
def submit (l : Ledger W) : Ledger W :=
  { l with
    submitted := l.submitted + 1
    unanswered := l.unanswered.insert l.submitted l.inForce }

/-- A share is accepted, which happens once. -/
def accept [AddGroup W] (l : Ledger W) (share : Nat) : Option (Ledger W) :=
  (l.unanswered.lookup share).map fun weight => { l with
    unanswered := l.unanswered.erase share
    billed := l.billed + weight
    drift := l.drift + (l.inForce - weight) }

/-- One event, `none` when it answers a share that has no answer due. -/
def step [AddGroup W] (weight : T → W) (l : Ledger W) : Event T → Option (Ledger W)
  | .retarget target => some { l with inForce := weight target }
  | .submit => some l.submit
  | .accept shares => shares.foldlM accept l
  | .reject share =>
    if (l.unanswered.lookup share).isSome then
      some { l with unanswered := l.unanswered.erase share }
    else none

/-- Accepting shares settles each of them at the weight in force now. -/
theorem accept_settled [AddCommGroup W] {shares : List Nat} {l l' : Ledger W}
    (h : shares.foldlM accept l = some l') :
    l'.inForce = l.inForce ∧ l'.submitted = l.submitted ∧
      l'.billed + l'.drift = l.billed + l.drift + shares.length • l.inForce := by
  induction shares generalizing l with
  | nil =>
    cases h
    simp
  | cons share shares ih =>
    simp only [List.foldlM_cons, accept, Option.bind_eq_bind, Option.bind_eq_some_iff,
      Option.map_eq_some_iff] at h
    obtain ⟨_, ⟨weight, _, rfl⟩, hrest⟩ := h
    obtain ⟨hforce, hcount, hsum⟩ := ih hrest
    refine ⟨hforce, hcount, ?_⟩
    rw [hsum, List.length_cons, succ_nsmul]
    dsimp only
    abel

end Ledger

/-! ## Systems that follow a trace -/

/-- How many shares an event submits. -/
def Event.submits : Event T → Nat
  | .submit => 1
  | .retarget _ | .accept _ | .reject _ => 0

section Simulation

variable {σ τ : Type*}

/-- Put a system through a trace.  An event comes with its time, and with the
number of shares submitted so far. -/
def driveTrace (drive : Nat → τ → Event T → σ → Option σ) (n : Nat) :
    List (τ × Event T) → σ → Option σ
  | [], s => some s
  | (t, e) :: trace, s => (drive n t e s).bind (driveTrace drive (n + e.submits) trace)

/-- The system follows the ledger, along events that meet `P`. -/
def Simulates [AddGroup W] (weight : T → W) (P : Event T → Prop)
    (drive : Nat → τ → Event T → σ → Option σ) (R : Ledger W → σ → Prop) : Prop :=
  ∀ l l' s t e, R l s → P e → l.step weight e = some l' →
    ∃ s', drive l.submitted t e s = some s' ∧ R l' s'

theorem Ledger.step_submitted [AddCommGroup W] {weight : T → W} {l l' : Ledger W} {e : Event T}
    (h : l.step weight e = some l') : l'.submitted = l.submitted + e.submits := by
  cases e with
  | retarget target =>
    cases h
    rfl
  | submit =>
    cases h
    rfl
  | accept shares => exact (accept_settled h).2.1
  | reject share =>
    simp only [Ledger.step] at h
    split at h <;> cases h
    rfl

/-- A system that follows the ledger step by step follows whole traces. -/
theorem Simulates.run [AddCommGroup W] {weight : T → W} {P : Event T → Prop}
    {drive : Nat → τ → Event T → σ → Option σ} {R : Ledger W → σ → Prop}
    (h : Simulates weight P drive R) {trace : List (τ × Event T)} {l l' : Ledger W} {s : σ}
    (hR : R l s) (hP : ∀ te ∈ trace, P te.2)
    (hrun : StepSystem.run (Ledger.step weight) l (trace.map Prod.snd) = some l') :
    ∃ s', driveTrace drive l.submitted trace s = some s' ∧ R l' s' := by
  induction trace generalizing l s with
  | nil =>
    cases hrun
    exact ⟨s, rfl, hR⟩
  | cons te trace ih =>
    obtain ⟨t, e⟩ := te
    simp only [List.map_cons, StepSystem.run, Option.bind_eq_some_iff] at hrun
    obtain ⟨mid, hmid, hrest⟩ := hrun
    obtain ⟨s', hdrive, hR'⟩ := h l mid s t e hR (hP _ List.mem_cons_self) hmid
    obtain ⟨s'', hdrive', hR''⟩ :=
      ih hR' (fun te hte => hP te (List.mem_cons_of_mem _ hte)) hrest
    refine ⟨s'', ?_, hR''⟩
    rw [Ledger.step_submitted hmid] at hdrive'
    simp only [driveTrace, hdrive, Option.bind_some, hdrive']

/-- Shares that are accepted together, one after the other. -/
theorem simulates_each [AddGroup W] {ε : Type*} {sys : σ → ε → Option σ} {es : Nat → List ε}
    {R : Ledger W → σ → Prop}
    (hone : ∀ l l' s k, R l s → l.accept k = some l' →
      ∃ s', StepSystem.run sys s (es k) = some s' ∧ R l' s')
    {shares : List Nat} {l l' : Ledger W} {s : σ} (hR : R l s)
    (h : shares.foldlM Ledger.accept l = some l') :
    ∃ s', StepSystem.run sys s (shares.flatMap es) = some s' ∧ R l' s' := by
  induction shares generalizing l s with
  | nil =>
    cases h
    exact ⟨s, rfl, hR⟩
  | cons k shares ih =>
    simp only [List.foldlM_cons, Option.bind_eq_bind, Option.bind_eq_some_iff] at h
    obtain ⟨mid, hmid, hrest⟩ := h
    obtain ⟨s', hs', hR'⟩ := hone l mid s k hR hmid
    obtain ⟨s'', hs'', hR''⟩ := ih hR' hrest
    refine ⟨s'', ?_, hR''⟩
    rw [List.flatMap_cons, run_append, hs']
    exact hs''

end Simulation

end ShareLedger
