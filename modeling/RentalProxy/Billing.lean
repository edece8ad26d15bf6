import RentalProxy.Sv1.Billing
import RentalProxy.Sv2.Billing

/-!
# Measured work, across protocols

* `work_kept_iff`: a step of a session of either protocol keeps the measured work,
  unless an SV1 pool accepts a share that was entered at a negative difficulty.
* `billing_agrees_iff`: the four ways to connect a miner to a pool credit the same
  work for the same trace exactly when the difficulty has not drifted, on balance,
  between the submission and the acceptance of the accepted shares.
-/

namespace RentalProxy

open StepSystem ShareLedger
open Sv2 (Decoder Sv1Library)

/-! ## Work never decreases -/

/-- A session of either protocol. -/
inductive Session where
  | sv1 (r : Sv1.Relay)
  | sv2 (r : Sv2.Rig)

/-- A step of a session. -/
inductive SessionEvent where
  | sv1 (e : Sv1.Event)
  | sv2 (e : Sv2.Event)

namespace Session

/-- The states that a session can reach. -/
def Reaches (decode : Decoder) (lib : Sv1Library) : Session → Prop
  | .sv1 r => Sv1.Reaches r
  | .sv2 r => Sv2.Reaches decode lib r

def step (decode : Decoder) (lib : Sv1Library) : Session → SessionEvent → Option Session
  | .sv1 r, .sv1 e => (Sv1.step r e).map .sv1
  | .sv2 r, .sv2 e => (Sv2.step decode lib r e).map .sv2
  | _, _ => none

def deliveredWork : Session → Rat
  | .sv1 r => r.inner.deliveredWork
  | .sv2 r => r.inner.deliveredWork

/-- The work that is buffered for the orders. -/
def buffered : Session → WorkBuffer
  | .sv1 r => r.orders
  | .sv2 r => r.store.pending

/-- An SV1 pool accepts a share that was entered at a negative difficulty. -/
def CreditsNegative : Session → SessionEvent → Prop
  | .sv1 r, .sv1 e => Sv1.CreditsNegative r e
  | _, _ => False

end Session

/-- A step keeps the measured work of the session and of every order exactly when
it credits no negative share.  A flush moves what is buffered into the rows. -/
theorem work_kept_iff {decode : Decoder} {lib : Sv1Library} {s s' : Session} {e : SessionEvent}
    (hstep : s.step decode lib e = some s') (hflush : e ≠ .sv2 .flushOrders) :
    WorkKept s.deliveredWork s'.deliveredWork s.buffered s'.buffered ↔ ¬s.CreditsNegative e := by
  cases s with
  | sv1 r =>
    cases e with
    | sv1 e =>
      obtain ⟨r', hr', rfl⟩ := Option.map_eq_some_iff.mp hstep
      exact Sv1.step_workKept_iff hr'
    | sv2 e => cases hstep
  | sv2 r =>
    cases e with
    | sv1 e => cases hstep
    | sv2 e =>
      obtain ⟨r', hr', rfl⟩ := Option.map_eq_some_iff.mp hstep
      have hkept := Sv2.step_workKept hr' fun he => hflush (by rw [he])
      exact iff_of_true hkept not_false

/-- The pool sets a difficulty, and the miner submits a share. -/
def submitAt (difficulty : Rat) : List Sv1.Event :=
  [.upstreamLine 1 (Sv1.setDifficultyLine difficulty) 0, .readerForward 1,
    .minerMsg (Sv1.minerRequest 7 "mining.submit")]

/-- The pool accepts the share. -/
def acceptShare : Sv1.Event := .upstreamLine 1 (Sv1.poolAnswer 7 true) 0

/-- The pool can accept a share that is worth this much. -/
def Accepts (weight : Rat) (r : Sv1.Relay) : Bool :=
  decide (Sv1.acceptedSubmit 1 (Sv1.poolAnswer 7 true) r.inner = some weight) &&
    (Sv1.step r acceptShare).isSome

theorem exists_accepts (weight : Rat)
    (h : ((Sv1.eagerSession 1).bind (run Sv1.step · (submitAt weight))).any (Accepts weight) =
      true) :
    ∃ r r', Sv1.Reaches r ∧ Sv1.step r acceptShare = some r' ∧
      Sv1.acceptedSubmit 1 (Sv1.poolAnswer 7 true) r.inner = some weight := by
  obtain ⟨r, hreach, haccepts⟩ := Sv1.exists_of_eager 1 (submitAt weight) h
  simp only [Accepts, Bool.and_eq_true, decide_eq_true_eq] at haccepts
  obtain ⟨r', hr'⟩ := Option.isSome_iff_exists.mp haccepts.2
  exact ⟨r, r', hreach, hr', haccepts.1⟩

theorem work_kept_iff_accepted :
    ∃ s s' : Session, s.Reaches Sv2.wireDecoder Sv2.plainLibrary ∧
      s.step Sv2.wireDecoder Sv2.plainLibrary (.sv1 acceptShare) = some s' ∧
      WorkKept s.deliveredWork s'.deliveredWork s.buffered s'.buffered := by
  obtain ⟨r, r', hreach, hr', haccepted⟩ := exists_accepts 8 (by decide +kernel)
  have hstep : Session.step Sv2.wireDecoder Sv2.plainLibrary (.sv1 r) (.sv1 acceptShare) =
      some (.sv1 r') := congrArg (Option.map Session.sv1) hr'
  refine ⟨.sv1 r, .sv1 r', hreach, hstep, (work_kept_iff hstep (by rintro ⟨⟩)).mpr ?_⟩
  rintro ⟨w, hw, hneg⟩
  rw [haccepted] at hw
  cases hw
  exact absurd hneg (by decide +kernel)

/-- The pool of an SV1 session sets the difficulty to -8 and accepts a share: the
work of the session goes down. -/
theorem negative_share_credited :
    ∃ s s' : Session, s.Reaches Sv2.wireDecoder Sv2.plainLibrary ∧
      s.step Sv2.wireDecoder Sv2.plainLibrary (.sv1 acceptShare) = some s' ∧
      ¬WorkKept s.deliveredWork s'.deliveredWork s.buffered s'.buffered := by
  obtain ⟨r, r', hreach, hr', haccepted⟩ := exists_accepts (-8) (by decide +kernel)
  refine ⟨.sv1 r, .sv1 r', hreach, congrArg (Option.map Session.sv1) hr', fun hkept => ?_⟩
  exact (Sv1.step_workKept_iff hr').mp hkept ⟨-8, haccepted, by decide +kernel⟩

/-! ## Billing across protocols -/

/-- The four ways to connect a miner to a pool all credit the bill, which is the
sum over the accepted shares of the difficulty at their submission, exactly when
the difficulty has not drifted on balance until their acceptance. -/
theorem billing_agrees_iff {inForce : Rat} (sv1 : Sv1.PassthroughSession inForce)
    (sv2 : Sv2.NativeSession inForce) (sv2OnSv1 : Sv2.TranslatedSession inForce)
    (sv1OnSv2 : Sv1.TranslatedSession inForce) {trace : List (Rat × ShareLedger.Event Target)}
    {l : Ledger Rat} (hfits : ∀ te ∈ trace, te.2.BatchBelow (2 ^ 32))
    (htrace : run (Ledger.step Target.difficulty) (.fresh inForce) (trace.map Prod.snd) = some l) :
    (sv1.credited trace = some l.billed ∧ sv2.credited trace = some l.billed ∧
      sv2OnSv1.credited trace = some l.billed ∧ sv1OnSv2.credited trace = some l.billed) ↔
        l.drift = 0 := by
  rw [sv1.credited_eq hfits htrace, sv2.credited_eq hfits htrace,
    sv2OnSv1.credited_eq hfits htrace, sv1OnSv2.credited_eq hfits htrace]
  simp only [Option.some.injEq, add_eq_left, true_and, and_self]

/-- The target of difficulty 1. -/
def unitTarget : Target := ⟨leBytes 32 diff1Target, leBytes_length 32 _⟩

/-- The target of difficulty 2. -/
def halfTarget : Target := ⟨leBytes 32 (diff1Target / 2), leBytes_length 32 _⟩

/-- A bootstrap session at difficulty 1. -/
def sv1Session : Sv1.PassthroughSession 1 where
  generation := 1
  params _ := .arr []
  relay := (Sv1.eagerSession 1).get rfl
  established := by
    refine ⟨⟨rfl, rfl, rfl, rfl⟩, by decide +kernel, fun k => rfl, by decide +kernel⟩

/-- A rig behind an SV2 pool, at difficulty 1. -/
def sv2Session : Sv2.NativeSession 1 where
  decode := Sv2.wireDecoder
  lib := Sv2.plainLibrary
  up := 10
  frames := Sv2.wireFrames 10
  cid := 1
  jobId := 1
  miner := Sv2.wireShares 1 1
  generation := 0
  member := 1
  rig := ((Sv2.idleRig.bind (run (Sv2.step Sv2.wireDecoder Sv2.plainLibrary) ·
    [.upstreamFrame 0 (Sv2.openedFrame 1 10 0) 0,
      .upstreamFrame 0 ((Sv2.wireFrames 10).setTarget unitTarget) 0]))).get rfl
  established := by
    refine ⟨⟨rfl, rfl, by decide, rfl⟩, by decide +kernel, by decide +kernel, by decide +kernel⟩

/-- A library that takes every `mining.notify` for one job. -/
def jobLibrary : Sv2.Sv1Library where
  notify line := if line.method = some "mining.notify" then
      some ⟨"j1", List.replicate 32 0, [], [], [], 0, 0, 0, true⟩
    else none
  setDifficulty := RpcMessage.setDifficulty?
  merkleRoot _ _ _ _ := none

theorem jobLibrary_readsLines : Sv2.ReadsLines jobLibrary where
  difficulty _ := ⟨rfl, rfl⟩
  answer line hline := by simp [jobLibrary, RpcMessage.setDifficulty?, hline]

/-- A rig that an order has moved to an SV1 pool, at difficulty 1. -/
def sv2OnSv1Rig : Option Sv2.Rig :=
  Sv2.idleRig.bind (run (Sv2.step Sv2.wireDecoder jobLibrary) ·
    [.upstreamFrame 0 (Sv2.openedFrame 1 10 0) 0, .createOrder Sv2.buyerOrder,
      .swapOrder .supervisor "o1" false, .swapNotSv2, .swapTranslated Sv2.sv1Handshake,
      .translateLine (.request .null "mining.notify" (.arr [])), .translateCall 1 0,
      .translateCall 1 0])

def sv2OnSv1Session : Sv2.TranslatedSession 1 where
  decode := Sv2.wireDecoder
  lib := jobLibrary
  reads := jobLibrary_readsLines
  cid := 1
  jobId := 1
  miner := Sv2.wireShares 1 1
  member := 1
  firstId := 1
  state := ((sv2OnSv1Rig.get rfl).translator.get rfl).state
  rig := sv2OnSv1Rig.get rfl
  established := by
    refine ⟨⟨rfl, rfl, by decide, rfl, rfl⟩, rfl, fun k => rfl, by decide +kernel,
      by decide +kernel, by decide +kernel⟩

/-- A translated session of an SV1 miner, at difficulty 1. -/
def sv1OnSv2Session : Sv1.TranslatedSession 1 where
  generation := 1
  params _ := .arr []
  decode := Sv2.wireDecoder
  channelId := 5
  frames := Sv2.wireFrames 5
  lib := { submit _ := none, share _ _ _ _ _ := none, notifyLine _ _ _ := none }
  relay := {
    relay := ((Sv1.start Sv2.sellerPool "peer" ∅ { sv2 := some ⟨5, "0a", 4, 1⟩ }).bind
      (run Sv1.step · Sv1.subscribeEvents)).get rfl
    state := { channelId := 5 } }
  established := by
    refine ⟨⟨rfl, rfl, rfl, rfl, rfl⟩, by decide +kernel, by decide +kernel, by decide +kernel⟩

/-- The pool accepts a share, and then moves the target and rejects another. -/
def steadyTrace : List (Rat × ShareLedger.Event Target) :=
  [(0, .retarget halfTarget), (1, .submit), (2, .submit), (3, .accept [0]),
    (4, .retarget unitTarget), (5, .reject 1)]

theorem billing_agrees_iff_steady :
    ∃ work, 0 < work ∧ sv1Session.credited steadyTrace = some work ∧
      sv2Session.credited steadyTrace = some work ∧
      sv2OnSv1Session.credited steadyTrace = some work ∧
      sv1OnSv2Session.credited steadyTrace = some work := by
  have htrace : run (Ledger.step Target.difficulty) (.fresh 1) (steadyTrace.map Prod.snd) =
      some _ := rfl
  refine ⟨_, by decide +kernel, (billing_agrees_iff sv1Session sv2Session sv2OnSv1Session
    sv1OnSv2Session (by decide) htrace).mpr (by decide +kernel)⟩

/-- The pool moves the target between a share and its acceptance. -/
def movedTrace : List (Rat × ShareLedger.Event Target) :=
  [(0, .submit), (1, .retarget halfTarget), (2, .accept [0])]

/-- The share is worth 1.  Only the SV1 passthrough session credits that. -/
theorem billing_differs :
    ∃ l, run (Ledger.step Target.difficulty) (.fresh 1) (movedTrace.map Prod.snd) = some l ∧
      l.billed = 1 ∧ sv1Session.credited movedTrace = some 1 ∧
      sv2Session.credited movedTrace ≠ some 1 ∧ sv2OnSv1Session.credited movedTrace ≠ some 1 ∧
      sv1OnSv2Session.credited movedTrace ≠ some 1 := by
  have htrace : run (Ledger.step Target.difficulty) (.fresh 1) (movedTrace.map Prod.snd) =
      some _ := rfl
  have hfits : ∀ te ∈ movedTrace, te.2.BatchBelow (2 ^ 32) := by decide
  refine ⟨_, htrace, by decide +kernel, ?_, ?_, ?_, ?_⟩
  · rw [sv1Session.credited_eq hfits htrace]
    decide +kernel
  · rw [sv2Session.credited_eq hfits htrace]
    decide +kernel
  · rw [sv2OnSv1Session.credited_eq hfits htrace]
    decide +kernel
  · rw [sv1OnSv2Session.credited_eq hfits htrace]
    decide +kernel

end RentalProxy
