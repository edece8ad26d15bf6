import RentalProxy.ConnectFailover
import RentalProxy.Sv2.AcceptedShares

/-!
# The writer of a translated upstream

The writer of an SV1 upstream reads the payload of everything that it is handed.  A frame that
the proxy built has none until it is serialized, and the read panics (`payload?`).  The places
that build a frame ask the `translating` flag in the same critical section, so the flag must say
what kind of writer is behind `active.to_up`.

* `Reach.connected` is the connection of a fresh session with its driver, the fallback included.
* `UpStep` is what a step can do to the frames of `to_up`, `WriterOk` the invariant.
* `writer_sees_received` is the result, over every run from every connection.
-/

namespace RentalProxy.Sv2

open StepSystem
open Sv1 (upstreamWorker)

/-! ## The writer -/

/-- `payload()`.  `none` is the panic on a frame that is not serialized yet. -/
def EitherFrame.payload? : EitherFrame → Option (List UInt8)
  | .received frame => some frame.payload
  | .built _ => none

/-- Every frame that is queued to a translate writer is a received one. -/
def Rig.WriterSafe (r : Rig) : Prop :=
  r.translator.isSome = true → ∀ frame ∈ r.inner.active.toUp, frame.payload?.isSome = true

/-- The writer takes a frame that it can read. -/
theorem Rig.WriterSafe.takes {r : Rig} (h : r.WriterSafe) (decode : Decoder) (lib : Sv1Library)
    {t : Translator} (ht : r.translator = some t)
    (hqueued : t.written < r.inner.active.toUp.length) :
    (step decode lib r .translateWrite).isSome = true := by
  obtain ⟨cid, state, calls, written⟩ := t
  have hread := h (by rw [ht]; rfl) _ (List.getElem_mem hqueued)
  simp only [step, ht]
  rw [List.getElem?_eq_getElem hqueued]
  cases hframe : r.inner.active.toUp[written] with
  | received frame => rfl
  | built msg =>
    rw [hframe] at hread
    cases hread

/-! ## The first upstream -/

section Connected

variable (reach : Reach)

/-- The driver of the upstream that the first connect installs.  Its user is told to the pool in
the handshake. -/
def Reach.driver (spec : OpenSpec) (target : UpstreamTarget) (i : Inner) : Option Translator :=
  match reach target with
  | some (.sv1 conn) => some {
      downCid := i.nextDownCid
      state := .new conn (upstreamWorker target.user i.label) spec.isExtended
      calls := [], written := 0 }
  | _ => none

/-- `Reach.openFresh`, and the driver of the upstream. -/
def Reach.connected (spec : OpenSpec) (order : Option Order) (target : UpstreamTarget)
    (routing : Routing) (i : Inner) : Option (Inner × Option Translator) :=
  match reach.connectAndInstallInitial spec target routing i with
  | (installed, true) => some (installed, reach.driver spec target i)
  | (failed, false) =>
    match order.bind Order.fallback with
    | some fb =>
      match reach.connectAndInstallInitial spec fb routing failed with
      | (installed, true) => some (installed, reach.driver spec fb failed)
      | (_, false) => none
    | none => none

variable {reach} {spec : OpenSpec} {order : Option Order} {target : UpstreamTarget}
  {routing : Routing} {i : Inner}

theorem Reach.connected_inner :
    (reach.connected spec order target routing i).map Prod.fst =
      reach.openFresh spec order target routing i := by
  unfold Reach.connected Reach.openFresh Reach.connectFresh
  obtain ⟨first, ok⟩ := reach.connectAndInstallInitial spec target routing i
  cases ok with
  | true => rfl
  | false =>
    cases order.bind Order.fallback with
    | none => rfl
    | some fb =>
      dsimp only
      obtain ⟨second, ok⟩ := reach.connectAndInstallInitial spec fb routing first
      cases ok <;> rfl

/-- A rig starts as a connect leaves it, on what an earlier one has left. -/
theorem start_connected {lib : Sv1Library} {worker : String} {store : OrderStore}
    {idlePool : Option UpstreamTarget} {now : Int} {failed : Option InitialAnswer}
    {answer : InitialAnswer} {r : Rig}
    (h : start lib worker spec store idlePool now failed answer = some r) :
    ∃ (reach : Reach) (target : UpstreamTarget) (routing : Routing) (i : Inner),
      reach.connected spec none target routing i = some (r.inner, r.translator) := by
  obtain ⟨_, routing, target, _, _, hinstall⟩ := start_firstInstall h
  cases hinstall with
  | @native cid up pending frame hleft hframe =>
    refine ⟨fun _ => some (.native fun _ => reopenedInfo 1), target, routing,
      { placeholder target routing idlePool worker with
        nextDownCid := cid, nextUpReq := up, pending }, ?_⟩
    simp only [Reach.connected, Reach.connectAndInstallInitial, Reach.driver,
      Inner.installSv2Initial, placeholder, hframe]
    rfl
  | @sv1 cid up pending lines conn reply hleft hconn hreply =>
    refine ⟨fun _ => some (.sv1 conn), target, routing,
      { placeholder target routing idlePool worker with
        nextDownCid := cid, nextUpReq := up, pending }, ?_⟩
    simp only [Reach.connected, Reach.connectAndInstallInitial, Reach.driver,
      Inner.installSv1TranslateInitial, placeholder, hreply]
    rfl

end Connected

/-! ## The invariant -/

/-- The flag says which kind of writer is behind `to_up`, and one that translates is handed
received frames. -/
structure WriterOk (i : Inner) (translator : Option Translator) : Prop where
  flag : translator.isSome = i.translating
  received : i.translating = true → ∀ frame ∈ i.active.toUp, frame.payload?.isSome = true

theorem WriterOk.safe {r : Rig} (h : WriterOk r.inner r.translator) : r.WriterSafe :=
  fun hsome => h.received (h.flag.symm.trans hsome)

/-- A native upstream may be handed what the proxy built. -/
theorem WriterOk.of_native {i : Inner} (h : i.translating = false) : WriterOk i none where
  flag := h.symm
  received htranslating := by
    rw [h] at htranslating
    cases htranslating

/-- An upstream of either kind that was handed nothing yet. -/
theorem WriterOk.of_empty {i : Inner} {translator : Option Translator}
    (hflag : translator.isSome = i.translating) (hempty : i.active.toUp = []) :
    WriterOk i translator where
  flag := hflag
  received _ frame hframe := by
    rw [hempty] at hframe
    cases hframe

/-- Every install path of the first connect sets the flag of its writer. -/
theorem WriterOk.of_install {reach : Reach} {spec : OpenSpec} {target : UpstreamTarget}
    {routing : Routing} {i j : Inner}
    (h : reach.connectAndInstallInitial spec target routing i = (j, true)) :
    WriterOk j (reach.driver spec target i) := by
  unfold Reach.connectAndInstallInitial at h
  unfold Reach.driver
  cases hanswer : reach target with
  | none =>
    rw [hanswer] at h
    cases h
  | some answer =>
    rw [hanswer] at h
    cases answer with
    | native info =>
      unfold Inner.installSv2Initial at h
      dsimp only at h
      split at h <;> cases h
      exact .of_native rfl
    | sv1 conn =>
      simp only [Inner.installSv1TranslateInitial] at h
      split at h <;> cases h
      exact .of_empty rfl rfl

theorem WriterOk.of_connected {reach : Reach} {spec : OpenSpec} {order : Option Order}
    {target : UpstreamTarget} {routing : Routing} {i j : Inner} {translator : Option Translator}
    (h : reach.connected spec order target routing i = some (j, translator)) :
    WriterOk j translator := by
  unfold Reach.connected at h
  split at h
  · cases h
    exact .of_install ‹_›
  · split at h
    · split at h
      · cases h
        exact .of_install ‹_›
      · cases h
    · cases h

/-! ## Steps -/

/-- What a step can do to the frames of `to_up`. -/
inductive UpStep (r r' : Rig) : Prop where
  /-- More frames for the same writer.  What is built is not for one that translates. -/
  | hands (new : List EitherFrame)
      (htoUp : r'.inner.active.toUp = r.inner.active.toUp ++ new)
      (hflag : r'.inner.translating = r.inner.translating)
      (hdriver : r'.translator.isSome = r.translator.isSome)
      (hnew : r.inner.translating = true → ∀ frame ∈ new, frame.payload?.isSome = true)
  /-- A new writer, with its flag. -/
  | installs (htoUp : r'.inner.active.toUp = [])
      (hflag : r'.translator.isSome = r'.inner.translating)

/-- Nothing is handed to the upstream. -/
theorem UpStep.quiet {r r' : Rig} (htoUp : r'.inner.active.toUp = r.inner.active.toUp)
    (hflag : r'.inner.translating = r.inner.translating)
    (hdriver : r'.translator.isSome = r.translator.isSome) : UpStep r r' :=
  .hands [] (by rw [htoUp, List.append_nil]) hflag hdriver fun _ _ h => nomatch h

theorem WriterOk.step {r r' : Rig} (h : WriterOk r.inner r.translator) (hstep : UpStep r r') :
    WriterOk r'.inner r'.translator := by
  cases hstep with
  | installs htoUp hflag => exact .of_empty hflag htoUp
  | hands new htoUp hflag hdriver hnew =>
    refine ⟨by rw [hdriver, hflag, h.flag], ?_⟩
    intro htranslating frame hframe
    rw [hflag] at htranslating
    rw [htoUp] at hframe
    rcases List.mem_append.mp hframe with hold | hnext
    · exact h.received htranslating frame hold
    · exact hnew htranslating frame hnext

/-- An additional open is refused on a translated upstream. -/
theorem openChannel_translating {member : Nat} {spec : OpenSpec} {i : Inner}
    (h : i.translating = true) : (openChannel member spec i).1 = i := by
  unfold openChannel
  rw [if_pos h]

/-- What a miner sends goes up as it was received. -/
theorem minerFrame_received (frame : Sv2Frame) (i : Inner) :
    ∃ new, (minerFrame frame i).1.active.toUp = i.active.toUp ++ new ∧
      ∀ f ∈ new, f.payload?.isSome = true := by
  rcases minerFrame_cases frame i with h | ⟨n, up, h⟩ <;> rw [h]
  · exact ⟨[], (List.append_nil _).symm, fun f hf => nomatch hf⟩
  · refine ⟨[.received up], rfl, ?_⟩
    intro f hf
    rw [List.mem_singleton.mp hf]
    rfl

/-- A member that leaves closes no channel of a translated upstream. -/
theorem detachMember_translating {member : Nat} {i : Inner} (h : i.translating = true) :
    (detachMember member i).1.active.toUp = i.active.toUp := by
  simp only [detachMember, if_pos h, List.append_nil]

/-- What a step does to the frames of `to_up`, in one place. -/
theorem upStep_of_transition {decode : Decoder} {lib : Sv1Library} {r r' : Rig} {e : Event}
    (ht : Transition decode lib r e r') : UpStep r r' := by
  cases ht with
  | attach hnative =>
    obtain ⟨_, new, htoUp, _⟩ := forwardOpen_shares r.inner.nextMemberId ‹_› r.inner.addMember.1
    refine .hands new htoUp (forwardOpen_upstream ..).translating rfl fun htranslating => ?_
    rw [hnative] at htranslating
    cases htranslating
  | @openChannel member spec hmember =>
    obtain ⟨_, new, htoUp, _⟩ := openChannel_shares member spec r.inner
    by_cases htranslating : r.inner.translating = true
    · refine .quiet ?_ (openChannel_upstream ..).translating rfl
      simp only [Rig.queue_inner, openChannel_translating htranslating]
    · exact .hands new htoUp (openChannel_upstream ..).translating rfl fun h =>
        absurd h htranslating
  | @minerFrame member frame hmember =>
    obtain ⟨new, htoUp, hnew⟩ := minerFrame_received frame r.inner
    refine .hands new ?_ ?_ (by rw [(SameTasks.submitted _ _).translator]) fun _ => hnew
    · rw [Rig.submitted_inner, htoUp]
    · rw [Rig.submitted_inner, (minerFrame_upstream frame r.inner).translating]
  | @detach member hmember =>
    by_cases htranslating : r.inner.translating = true
    · exact .quiet (detachMember_translating htranslating) rfl rfl
    · exact .hands _ rfl rfl rfl fun h => absurd h htranslating
  | upstreamFrame hnative =>
    exact .quiet (onUpstreamFrame_shares ..).2.2 (onUpstreamFrame_upstream ..).translating rfl
  | translateLine htranslator =>
    exact .quiet rfl rfl (by rw [htranslator]; rfl)
  | translateCall htranslator =>
    refine .quiet ?_ (translateCall_sameRig ..).upstream.translating ?_
    · rw [translateCall_active]
    · rw [(translateCall_sameTasks ..).translator, htranslator]
      rfl
  | translateWrite htranslator =>
    exact .quiet rfl rfl (by rw [htranslator]; rfl)
  | swapReopened hswap hlength => exact .installs rfl rfl
  | swapTranslated hswap hconn => exact .installs rfl rfl
  | _ => exact .quiet rfl rfl rfl

/-! ## The result -/

/-- In every state of every run, what is queued to a translate writer is received from a miner,
and the writer takes the next frame. -/
theorem writer_sees_received {decode : Decoder} {lib : Sv1Library} {reach : Reach}
    {spec : OpenSpec} {order : Option Order} {target : UpstreamTarget} {routing : Routing}
    {i : Inner} {r₀ r : Rig}
    (hconnected : reach.connected spec order target routing i = some (r₀.inner, r₀.translator))
    (hrun : Reachable (step decode lib) r₀ r) :
    r.WriterSafe ∧ ∀ t, r.translator = some t → t.written < r.inner.active.toUp.length →
      (step decode lib r .translateWrite).isSome = true := by
  have hok : WriterOk r.inner r.translator :=
    hrun.invariant (I := fun r => WriterOk r.inner r.translator) (.of_connected hconnected)
      fun _ _ _ hx _ hstep => hx.step (upStep_of_transition (transition_of_step hstep))
  exact ⟨hok.safe, fun _ ht hqueued => hok.safe.takes decode lib ht hqueued⟩

/-- A rig of two members switches to an SV1 pool.  The second member leaves, and the first one
submits a share. -/
def leavesTranslated : List Event :=
  [.upstreamFrame 0 (openedFrame 1 10 0) 0, .attach (extendedOpen 8),
    .upstreamFrame 0 (openedFrame 2 11 0) 0, .swapRevert .supervisor, .swapNotSv2,
    .swapTranslated sv1Handshake, .detach 2,
    .minerFrame 1 { msgType := .submitSharesExtended, payload := leBytes 4 1 }]

/-- The share is in the queue of the writer. -/
theorem writer_sees_received_share :
    ∃ r, Reaches wireDecoder plainLibrary r ∧ r.translator.isSome = true ∧
      r.inner.active.toUp.length = 1 ∧ r.WriterSafe := by
  obtain ⟨r, hr, hp⟩ := exists_of_idleRig (G := fun _ _ => True) leavesTranslated
    (p := fun r => r.translator.isSome && decide (r.inner.active.toUp.length = 1))
    (by decide +kernel)
  simp only [Bool.and_eq_true, decide_eq_true_eq] at hp
  have hreaches := hr
  obtain ⟨_, _, _, _, _, _, _, _, _, hstart, hrun⟩ := hr
  obtain ⟨_, _, _, _, hconnected⟩ := start_connected hstart
  exact ⟨r, hreaches, hp.1, hp.2, (writer_sees_received hconnected hrun).1⟩

end RentalProxy.Sv2
