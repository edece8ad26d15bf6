import RentalProxy.Billing
import RentalProxy.Sv1.AcceptedShares
import RentalProxy.Sv2.AcceptedShares

/-!
# The accept ratio, across protocols

`accepted_le_submitted`: a session of either protocol accepts no more shares than
were submitted, so that its accept ratio stays in the unit interval, as long as the
pools whose counts it takes over count no more than what is left.
-/

namespace RentalProxy

open StepSystem
open Sv2 (Decoder Sv1Library wireDecoder plainLibrary)

namespace Session

/-- The states that a session can reach along steps that meet `G`. -/
def ReachesUnder (decode : Decoder) (lib : Sv1Library) (G : Session → SessionEvent → Prop) :
    Session → Prop
  | .sv1 r => Sv1.ReachesUnder (fun x e => G (.sv1 x) (.sv1 e)) r
  | .sv2 r => Sv2.ReachesUnder decode lib (fun x e => G (.sv2 x) (.sv2 e)) r

def acceptedShares : Session → Nat
  | .sv1 r => r.inner.acceptedShares
  | .sv2 r => r.inner.acceptedShares

def submittedShares : Session → Nat
  | .sv1 r => r.inner.submittedShares
  | .sv2 r => r.inner.submittedShares

/-- The accept ratio that the API and the flag read. -/
def acceptRatio (s : Session) : Rat :=
  RentalProxy.acceptRatio s.acceptedShares s.submittedShares

/-- A pool that sends counts sends no more than what was submitted and not yet
accepted. -/
def CountsSubmitted (decode : Decoder) : Session → SessionEvent → Prop
  | .sv1 r, .sv1 e => Sv1.CountsSubmitted r e
  | .sv2 r, .sv2 e => Sv2.CountsSubmitted decode r e
  | _, _ => True

end Session

theorem acceptRatio_nonneg (accepted submitted : Nat) : 0 ≤ acceptRatio accepted submitted := by
  unfold acceptRatio
  split
  · exact zero_le_one
  · exact div_nonneg (Nat.cast_nonneg _) (Nat.cast_nonneg _)

theorem acceptRatio_le_one {accepted submitted : Nat} (h : accepted ≤ submitted) :
    acceptRatio accepted submitted ≤ 1 := by
  unfold acceptRatio
  split
  · exact le_rfl
  · exact div_le_one_of_le₀ (Nat.cast_le.mpr h) (Nat.cast_nonneg _)

/-- What carries the bound through the run of a session of either protocol. -/
def Session.Within : Session → Prop
  | .sv1 r => Sv1.SharesInv r.inner
  | .sv2 r => Sv2.Within r

theorem Session.Within.accepted_le {s : Session} (h : s.Within) :
    s.acceptedShares ≤ s.submittedShares := by
  cases s with
  | sv1 r => exact Sv1.SharesInv.accepted_le h
  | sv2 r => exact Sv2.Within.accepted_le h

theorem Session.Within.of_reaches {decode : Decoder} {lib : Sv1Library}
    (htagged : decode.Tagged) {s : Session}
    (h : s.ReachesUnder decode lib (Session.CountsSubmitted decode)) : s.Within := by
  cases s with
  | sv1 r =>
    exact Sv1.ReachesUnder.invariant h (fun _ _ _ _ _ => Sv1.SharesInv.start)
      fun _ _ _ hold hguard hstep => (hold.step_iff hstep).2 hguard
  | sv2 r =>
    exact Sv2.ReachesUnder.invariant h (fun _ _ _ _ _ _ _ _ _ => Sv2.Within.start)
      fun _ _ _ hold hguard hstep => (hold.step_iff htagged hstep).2 hguard

/-- Accepted never exceeds submitted, and the ratio stays in the unit interval, as
long as the pools count no more than what is left.  The first step that counts more
breaks it. -/
theorem accepted_le_submitted {decode : Decoder} {lib : Sv1Library} (htagged : decode.Tagged)
    {s : Session} (h : s.ReachesUnder decode lib (Session.CountsSubmitted decode)) :
    (s.acceptedShares ≤ s.submittedShares ∧ 0 ≤ s.acceptRatio ∧ s.acceptRatio ≤ 1) ∧
      ∀ e s', s.step decode lib e = some s' →
        (s'.acceptedShares ≤ s'.submittedShares ↔ s.CountsSubmitted decode e) := by
  have hwithin : s.Within := .of_reaches htagged h
  have hle := hwithin.accepted_le
  refine ⟨⟨hle, acceptRatio_nonneg .., acceptRatio_le_one hle⟩, ?_⟩
  intro e s' hstep
  cases s with
  | sv1 r =>
    cases e with
    | sv1 e =>
      obtain ⟨r', hr', rfl⟩ := Option.map_eq_some_iff.mp hstep
      exact (Sv1.SharesInv.step_iff hwithin hr').1
    | sv2 e => cases hstep
  | sv2 r =>
    cases e with
    | sv1 e => cases hstep
    | sv2 e =>
      obtain ⟨r', hr', rfl⟩ := Option.map_eq_some_iff.mp hstep
      exact (Sv2.Within.step_iff htagged hwithin hr').1

instance (decode : Decoder) (r : Sv2.Rig) : DecidablePred (Sv2.CountsSubmitted decode r) :=
  fun e => by
    rcases e with _ | _ <;> dsimp only [Sv2.CountsSubmitted] <;> infer_instance

/-- A miner opens a channel and submits a share, and the pool counts so many. -/
def countedShare (count : Nat) : List Sv2.Event :=
  [.upstreamFrame 0 (Sv2.openedFrame 1 10 0) 0, .minerFrame 1 ((Sv2.wireShares 1 1).frame 0),
    .upstreamFrame 0 ((Sv2.wireFrames 10).success 0 count) 0]

theorem accepted_le_submitted_counted :
    ∃ s : Session, s.acceptedShares = 1 ∧ s.submittedShares = 1 ∧
      s.acceptedShares ≤ s.submittedShares ∧ 0 ≤ s.acceptRatio ∧ s.acceptRatio ≤ 1 := by
  obtain ⟨r, hr, hp⟩ := Sv2.exists_of_idleRig (G := Sv2.CountsSubmitted wireDecoder)
    (countedShare 1) (p := fun r => decide (r.inner.acceptedShares = 1) &&
      decide (r.inner.submittedShares = 1)) (by decide +kernel)
  simp only [Bool.and_eq_true, decide_eq_true_eq] at hp
  exact ⟨.sv2 r, hp.1, hp.2,
    (@accepted_le_submitted _ plainLibrary Sv2.wireDecoder_tagged (.sv2 r) hr).1⟩

/-- The pool counts five shares after one was submitted. -/
theorem pool_counts_more :
    ∃ s : Session, s.ReachesUnder wireDecoder plainLibrary (fun _ _ => True) ∧
      s.acceptedShares = 5 ∧ s.submittedShares = 1 ∧ s.acceptRatio = 5 := by
  obtain ⟨r, hr, hp⟩ := Sv2.exists_of_idleRig (G := fun _ _ => True)
    (countedShare 5) (p := fun r => decide (r.inner.acceptedShares = 5) &&
      decide (r.inner.submittedShares = 1)) (by decide +kernel)
  simp only [Bool.and_eq_true, decide_eq_true_eq] at hp
  refine ⟨.sv2 r, hr, hp.1, hp.2, ?_⟩
  rw [Session.acceptRatio]
  simp only [Session.acceptedShares, Session.submittedShares, hp.1, hp.2]
  decide +kernel

end RentalProxy
