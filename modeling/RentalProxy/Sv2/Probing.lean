import RentalProxy.Lib.History
import RentalProxy.Lib.Logs
import RentalProxy.Sv2.Swaps
import RentalProxy.Text

/-!
# An outage is no protocol

A rig probes a pool before it connects to it.  A pool that does not complete the SV2 setup is
translated to SV1, and nothing asks it again, so a pool that is merely down must not look like
one.  `probe_sv2` keeps apart what it has heard before the connection was accepted, which is
nothing, and after.

* `probeSv2` is the probe, over what the pool does (`SetupAnswer`).
* `ProbedRig` is a rig whose swaps go by the answers to their probes.  `ProbeLog` has the probes,
  under the generation that the connect or the swap is to install.
* `protocol_follows_probe` is the result: the probe that was made for the active upstream was
  accepted, and the rig is translated exactly if the pool did not complete the setup.
-/

namespace RentalProxy.Sv2

open StepSystem Text

/-! ## The probe -/

/-- How the TCP connect of a probe ends. -/
inductive TcpConnect where
  | connected
  | refused
  /-- Nothing within `UPSTREAM_PROBE_TIMEOUT`. -/
  | timedOut
deriving DecidableEq

/-- What a pool does with a probe.  `Key` is a Noise authority. -/
structure SetupAnswer (Key : Type) where
  tcp : TcpConnect
  /-- The Noise handshake succeeds, with this authority. -/
  noise : Option Key → Bool
  /-- What the pool sends after `SetupConnection`, until it closes or the time is up. -/
  frames : List Sv2Frame

/-- `SetupConnection.Success`. -/
def setupConnectionSuccess : MsgType := .other 0x01

/-- `SetupConnection.Error`. -/
def setupConnectionError : MsgType := .other 0x02

inductive ProbeFailure where
  | unreachable
  | notSv2
deriving DecidableEq

/-- `ProbeFailure::allow_translation`. -/
def ProbeFailure.allowTranslation : ProbeFailure → Bool
  | .unreachable => false
  | .notSv2 => true

/-- The loop of `setup_over`: whether the setup succeeds. -/
def setupLoop : List Sv2Frame → Bool
  | [] => false
  | frame :: frames =>
    if frame.msgType = setupConnectionSuccess then true
    else if frame.msgType = setupConnectionError then false
    else setupLoop frames

section Probe

variable {Key : Type} (parseKey : String → Option Key)

/-- `parse_authority`.  `none` is a key that cannot be read. -/
def parseAuthority (pubkey : Option String) : Option (Option Key) :=
  match (pubkey.map trim).filter (fun s => decide (s ≠ "")) with
  | some s => (parseKey s).map some
  | none => some none

/-- `setup_over`. -/
def setupOver (target : UpstreamTarget) (answer : SetupAnswer Key) : Bool :=
  match parseAuthority parseKey target.authorityPubkey with
  | some authority => answer.noise authority && setupLoop answer.frames
  | none => false

/-- `probe_sv2`. -/
def probeSv2 (target : UpstreamTarget) (answer : SetupAnswer Key) : Except ProbeFailure Unit :=
  match answer.tcp with
  | .refused | .timedOut => .error .unreachable
  | .connected => if setupOver parseKey target answer then .ok () else .error .notSv2

/-- How a pool that sends these lines to an SV1 client meets `connect_and_install_initial`. -/
def initialAnswer (target : UpstreamTarget) (answer : SetupAnswer Key) (lines : List RpcMessage) :
    InitialAnswer :=
  match probeSv2 parseKey target answer with
  | .ok _ => .native
  | .error f => if f.allowTranslation then .sv1 lines else .unreachable

end Probe

/-! ## A rig whose swaps probe -/

/-- A rig, and whether the probe of the swap under way has connected. -/
structure ProbedRig where
  rig : Rig
  native : Bool

inductive ProbedEvent (Key : Type) where
  /-- The swap probes its pool. -/
  | probe (answer : SetupAnswer Key)
  | rig (e : Event)

/-- The swap under way is still to install a native upstream. -/
def SwapTask.isConnecting : SwapTask → Bool
  | .connecting _ => true
  | .idle | .translating .. | .repointing .. => false

namespace ProbedRig

variable {Key : Type}

/-- A swap re-opens its channels, or fails to, on the connection of its probe, and whether it
translates is for the probe to say. -/
def allows (x : ProbedRig) : Event → Bool
  | .swapReopened _ => x.native
  | .swapFailed => x.native || !x.rig.swap.isConnecting
  | .swapNotSv2 => false
  | _ => true

variable (parseKey : String → Option Key) (decode : Decoder) (lib : Sv1Library)

/-- One step. -/
def step (x : ProbedRig) : ProbedEvent Key → Option ProbedRig
  | .probe answer =>
    match x.rig.swap with
    | .connecting plan =>
      if x.native then none
      else match probeSv2 parseKey plan.target answer with
        | .ok _ => some { x with native := true }
        | .error f =>
          (Sv2.step decode lib x.rig (if f.allowTranslation then .swapNotSv2 else .swapFailed)).map
            fun rig => ⟨rig, false⟩
    | _ => none
  | .rig e =>
    if x.allows e then
      (Sv2.step decode lib x.rig e).map fun rig => ⟨rig, x.native && rig.swap.isConnecting⟩
    else none

end ProbedRig

/-- A pool was probed, and did this. -/
structure Probe (Key : Type) where
  /-- The number of the upstream that is to be installed. -/
  generation : Nat
  target : UpstreamTarget
  answer : SetupAnswer Key

/-- The probes, in order. -/
abbrev ProbeLog (Key : Type) := List (Probe Key)

/-- What a probe for this upstream has found. -/
def Probe.found {Key : Type} (generation : Nat) (p : Probe Key) :
    Option (UpstreamTarget × SetupAnswer Key) :=
  if p.generation = generation then some (p.target, p.answer) else none

def noteProbe {Key : Type} (x : ProbedRig) (e : ProbedEvent Key) (log : ProbeLog Key) :
    ProbeLog Key :=
  match e, x.rig.swap with
  | .probe answer, .connecting plan => log ++ [⟨plan.snapshot.generation, plan.target, answer⟩]
  | _, _ => log

/-- A rig that has connected for the first time, with the probes of the first pool, if the connect
to it has failed, and of the pool that it is on. -/
def StartsProbed {Key : Type} (parseKey : String → Option Key) (lib : Sv1Library)
    (x : ProbedRig × ProbeLog Key) : Prop :=
  ∃ worker spec store idlePool now first routing target answer lines,
    ∃ failed : Option (SetupAnswer Key × List RpcMessage),
      let order := store.activeForWorker worker now
      let bad := failed.map fun p => initialAnswer parseKey first p.1 p.2
      initialTarget order idlePool = some (first, routing) ∧ OpensOn order first target bad ∧
        start lib worker spec store idlePool now bad (initialAnswer parseKey target answer lines) =
          some x.1.rig ∧
        x.1.native = false ∧
        x.2 = (failed.map fun p => ⟨0, first, p.1⟩).toList ++ [⟨0, target, answer⟩]

/-- The states that a probed rig can reach, with the probes. -/
def ProbedReaches {Key : Type} (parseKey : String → Option Key) (decode : Decoder)
    (lib : Sv1Library) (x : ProbedRig × ProbeLog Key) : Prop :=
  ∃ x₀, StartsProbed parseKey lib x₀ ∧
    Reachable (observed (ProbedRig.step parseKey decode lib) noteProbe) x₀ x

/-- The last probe for this upstream was of this pool, which has accepted it, and has completed the
setup or not. -/
def Answered {Key : Type} (parseKey : String → Option Key) (log : ProbeLog Key) (generation : Nat)
    (target : UpstreamTarget) (completed : Bool) : Prop :=
  ∃ answer, Log.latest (Probe.found generation) log = some (target, answer) ∧
    answer.tcp = .connected ∧ setupOver parseKey target answer = completed

/-! ## What a step does to the protocol -/

section Protocol

variable {decode : Decoder} {lib : Sv1Library} {r r' : Rig} {e : Event}

/-- Pool and protocol change together, when a swap installs. -/
inductive Protocol (r : Rig) (e : Event) (r' : Rig) : Prop where
  | same (hgeneration : r'.inner.active.generation = r.inner.active.generation)
      (htarget : r'.inner.active.target = r.inner.active.target)
      (htranslating : r'.inner.translating = r.inner.translating)
  | native {infos : List ChannelInfo} {plan : SwapPlan} (he : e = .swapReopened infos)
      (hswap : r.swap = .connecting plan)
      (hgeneration : r'.inner.active.generation = plan.snapshot.generation)
      (htarget : r'.inner.active.target = plan.target)
      (htranslating : r'.inner.translating = false)
  | translated {plan : SwapPlan} {channel : Reopen} {members : List Nat}
      (hswap : r.swap = .translating plan channel members)
      (hgeneration : r'.inner.active.generation = plan.snapshot.generation)
      (htarget : r'.inner.active.target = plan.target)
      (htranslating : r'.inner.translating = true)

theorem protocol_of_transition (ht : Transition decode lib r e r') : Protocol r e r' := by
  have hsame : SameUpstream r.inner r'.inner → Protocol r e r' :=
    fun hup => .same hup.generation hup.target hup.translating
  cases ht with
  | attach hnative =>
    have hadd : SameUpstream r.inner r.inner.addMember.1 := ⟨rfl, rfl, rfl, rfl, rfl, rfl⟩
    exact hsame (hadd.trans (forwardOpen_upstream ..))
  | openChannel => exact hsame (openChannel_upstream ..)
  | @minerFrame member frame =>
    apply hsame
    rw [Rig.submitted_inner]
    exact minerFrame_upstream frame r.inner
  | upstreamFrame => exact hsame (onUpstreamFrame_upstream ..)
  | @translateCall member cid written now state call calls =>
    let s : Rig := { r with translator := some ⟨cid, state, calls, written⟩ }
    exact hsame (translateCall_sameRig s call cid member now).upstream
  | swapReopened hswap => exact .native rfl hswap rfl rfl rfl
  | swapTranslated hswap => exact .translated hswap rfl rfl rfl
  | _ => exact .same rfl rfl rfl

/-- Only an answer to a probe makes a swap translate. -/
theorem translating_of_transition (ht : Transition decode lib r e r') (he : e ≠ .swapNotSv2)
    {plan : SwapPlan} {channel : Reopen} {members : List Nat}
    (hswap : r'.swap = .translating plan channel members) :
    r.swap = .translating plan channel members := by
  cases ht with
  | minerFrame =>
    rwa [(SameTasks.submitted ..).swap] at hswap
  | translateCall =>
    rwa [(translateCall_sameTasks ..).swap] at hswap
  | swapNotSv2 => exact absurd rfl he
  | swapOrder | swapRevert | swapFailed | swapReopened | swapTranslated | repoint | repointFailed
  | notice | swapDone => cases hswap
  | _ => exact hswap

end Protocol

/-! ## The invariant -/

section Invariant

variable {Key : Type} {parseKey : String → Option Key} {decode : Decoder} {lib : Sv1Library}
  {x x' : ProbedRig} {e : ProbedEvent Key} {log : ProbeLog Key} {target : UpstreamTarget}
  {answer : SetupAnswer Key}

theorem probeSv2_ok (h : probeSv2 parseKey target answer = .ok ()) :
    answer.tcp = .connected ∧ setupOver parseKey target answer = true := by
  unfold probeSv2 at h
  split at h
  · cases h
  · cases h
  · split at h
    · exact ⟨‹_›, ‹_›⟩
    · cases h

/-- A pool that is not there is not judged. -/
theorem probeSv2_notSv2 {f : ProbeFailure} (h : probeSv2 parseKey target answer = .error f)
    (hallow : f.allowTranslation = true) :
    answer.tcp = .connected ∧ setupOver parseKey target answer = false := by
  unfold probeSv2 at h
  split at h
  · cases h
    cases hallow
  · cases h
    cases hallow
  · split at h
    · cases h
    · rename_i hsetup
      exact ⟨‹_›, Bool.not_eq_true _ ▸ hsetup⟩

variable {generation : Nat} {completed : Bool}

/-- A probe for another upstream. -/
theorem Answered.snoc (h : Answered parseKey log generation target completed) {p : Probe Key}
    (hother : p.generation ≠ generation) :
    Answered parseKey (log ++ [p]) generation target completed := by
  obtain ⟨found, hlatest, hrest⟩ := h
  refine ⟨found, ?_, hrest⟩
  rw [Log.latest_append, Log.latest_singleton, Probe.found, if_neg hother]
  exact hlatest

/-- A probe for this upstream. -/
theorem Answered.of_probe (hconnected : answer.tcp = .connected)
    (hsetup : setupOver parseKey target answer = completed) :
    Answered parseKey (log ++ [⟨generation, target, answer⟩]) generation target completed := by
  refine ⟨answer, ?_, hconnected, hsetup⟩
  rw [Log.latest_append, Log.latest_singleton, Probe.found, if_pos rfl]
  rfl

/-- Every upstream, installed or about to be, has answered its probe as it is treated. -/
structure FollowsProbe (parseKey : String → Option Key) (x : ProbedRig) (log : ProbeLog Key) :
    Prop where
  generations : Generations x.rig
  active : Answered parseKey log x.rig.inner.active.generation x.rig.inner.active.target
    (!x.rig.inner.translating)
  native : x.native = true → ∃ plan, x.rig.swap = .connecting plan ∧
    Answered parseKey log plan.snapshot.generation plan.target true
  translating : ∀ plan channel members, x.rig.swap = .translating plan channel members →
    Answered parseKey log plan.snapshot.generation plan.target false

/-- The upstream that a swap is to install has a new number. -/
theorem FollowsProbe.active_snoc (h : FollowsProbe parseKey x log) {plan : SwapPlan}
    (hplan : x.rig.swap = .connecting plan) (answer : SetupAnswer Key) :
    Answered parseKey (log ++ [⟨plan.snapshot.generation, plan.target, answer⟩])
      x.rig.inner.active.generation x.rig.inner.active.target (!x.rig.inner.translating) :=
  h.active.snoc (h.generations.plan plan (Or.inl hplan)).1.ne'

/-- A step of the rig that the probe has nothing to say about. -/
theorem FollowsProbe.rig {f : Event} {rig : Rig} (h : FollowsProbe parseKey x log)
    (hallows : x.allows f = true) (hstep : Sv2.step decode lib x.rig f = some rig) :
    FollowsProbe parseKey ⟨rig, x.native && rig.swap.isConnecting⟩ log := by
  have ht := transition_of_step hstep
  have hnot : f ≠ .swapNotSv2 := by
    rintro rfl
    cases hallows
  refine ⟨h.generations.step ht, ?_, ?_, ?_⟩
  · show Answered parseKey log rig.inner.active.generation rig.inner.active.target
      (!rig.inner.translating)
    cases protocol_of_transition ht with
    | same hgeneration htarget htranslating =>
      rw [hgeneration, htarget, htranslating]
      exact h.active
    | native he hswap hgeneration htarget htranslating =>
      subst he
      obtain ⟨plan, hplan, hanswered⟩ := h.native hallows
      rw [hswap] at hplan
      cases hplan
      rw [hgeneration, htarget, htranslating]
      exact hanswered
    | translated hswap hgeneration htarget htranslating =>
      rw [hgeneration, htarget, htranslating]
      exact h.translating _ _ _ hswap
  · intro hnative
    obtain ⟨hbefore, hconnecting⟩ := Bool.and_eq_true_iff.mp hnative
    obtain ⟨plan, hplan, hanswered⟩ := h.native hbefore
    refine ⟨plan, ?_, hanswered⟩
    show rig.swap = .connecting plan
    cases hswap : rig.swap with
    | connecting plan' =>
      obtain ⟨hsame, _⟩ := connecting_of_transition ht (by rw [hplan]; rfl) (Or.inl hswap)
      rw [hplan, connecting_connecting] at hsame
      rw [hsame]
    | _ =>
      rw [hswap] at hconnecting
      cases hconnecting
  · intro plan channel members hswap
    exact h.translating plan channel members (translating_of_transition ht hnot hswap)

/-- A probe that fails ends the swap, or makes it translate. -/
theorem FollowsProbe.failed {plan : SwapPlan} {f : ProbeFailure} {rig : Rig}
    (h : FollowsProbe parseKey x log) (hplan : x.rig.swap = .connecting plan)
    (hfailed : probeSv2 parseKey plan.target answer = .error f)
    (hstep : Sv2.step decode lib x.rig (if f.allowTranslation then .swapNotSv2 else .swapFailed) =
      some rig) : FollowsProbe parseKey ⟨rig, false⟩
        (log ++ [⟨plan.snapshot.generation, plan.target, answer⟩]) := by
  have hgenerations := h.generations.step (transition_of_step hstep)
  have hactive := h.active_snoc hplan answer
  cases hallow : f.allowTranslation with
  | false =>
    simp only [hallow, Bool.false_eq_true, if_false, step, hplan] at hstep
    cases hstep
    refine ⟨hgenerations, hactive, by rintro ⟨⟩, ?_⟩
    rintro _ _ _ ⟨⟩
  | true =>
    obtain ⟨hconnected, hsetup⟩ := probeSv2_notSv2 hfailed hallow
    simp only [hallow, if_true, step, hplan] at hstep
    split at hstep
    · cases hstep
      refine ⟨hgenerations, hactive, by rintro ⟨⟩, ?_⟩
      rintro _ _ _ ⟨⟩
      exact .of_probe hconnected hsetup
    · cases hstep
      refine ⟨hgenerations, hactive, by rintro ⟨⟩, ?_⟩
      rintro _ _ _ ⟨⟩

theorem FollowsProbe.step (h : FollowsProbe parseKey x log)
    (hstep : x.step parseKey decode lib e = some x') :
    FollowsProbe parseKey x' (noteProbe x e log) := by
  cases e with
  | probe answer =>
    simp only [ProbedRig.step] at hstep
    split at hstep
    · rename_i plan hplan
      have hnote : noteProbe x (.probe answer) log =
          log ++ [⟨plan.snapshot.generation, plan.target, answer⟩] := by
        simp only [noteProbe, hplan]
      rw [hnote]
      split at hstep
      · cases hstep
      · split at hstep
        · rename_i hok
          cases hstep
          obtain ⟨hconnected, hsetup⟩ := probeSv2_ok hok
          refine ⟨h.generations, h.active_snoc hplan answer,
            fun _ => ⟨plan, hplan, .of_probe hconnected hsetup⟩, fun _ _ _ hswap => ?_⟩
          cases hplan.symm.trans hswap
        · rename_i f hfailed
          obtain ⟨rig, hrig, rfl⟩ := Option.map_eq_some_iff.mp hstep
          exact h.failed hplan hfailed hrig
    · cases hstep
  | rig f =>
    simp only [ProbedRig.step] at hstep
    split at hstep
    · obtain ⟨rig, hrig, rfl⟩ := Option.map_eq_some_iff.mp hstep
      exact h.rig ‹_› hrig
    · cases hstep

/-- A first connect that succeeds goes by the answer to its probe. -/
theorem answered_of_firstInstall {worker : String} {spec : OpenSpec} {store : OrderStore}
    {idlePool : Option UpstreamTarget} {routing : Routing} {lines : List RpcMessage} {r : Rig}
    (h : FirstInstall lib worker spec store idlePool target routing
      (initialAnswer parseKey target answer lines) r) :
    answer.tcp = .connected ∧ setupOver parseKey target answer = !r.inner.translating := by
  generalize hinitial : initialAnswer parseKey target answer lines = initial at h
  unfold initialAnswer at hinitial
  split at hinitial
  · rename_i hok
    subst hinitial
    cases h
    exact probeSv2_ok hok
  · rename_i f hfailed
    split at hinitial
    · subst hinitial
      cases h
      exact probeSv2_notSv2 hfailed ‹_›
    · subst hinitial
      cases h

/-- The first upstream of a rig. -/
theorem FollowsProbe.start {x : ProbedRig × ProbeLog Key} (h : StartsProbed parseKey lib x) :
    FollowsProbe parseKey x.1 x.2 := by
  obtain ⟨⟨rig, native⟩, log⟩ := x
  obtain ⟨worker, spec, store, idlePool, now, first, routing, target, answer, lines, failed, hfirst,
    hopens, hstart, hnative, hlog⟩ := h
  obtain ⟨first', routing', target', hfirst', hopens', hinstall⟩ := start_firstInstall hstart
  obtain ⟨rfl, rfl⟩ := Prod.mk.inj (Option.some.inj (hfirst.symm.trans hfirst'))
  obtain rfl := hopens.unique hopens'
  have hstarted := hinstall.started
  obtain ⟨hconnected, hsetup⟩ := answered_of_firstInstall hinstall
  have hnone : native = false := hnative
  subst hnone
  refine ⟨.of_started hstarted, ?_, by rintro ⟨⟩, fun _ _ _ hswap => ?_⟩
  · show Answered parseKey log rig.inner.active.generation rig.inner.active.target
      (!rig.inner.translating)
    rw [hstarted.target, hstarted.generation, show log = _ from hlog]
    exact .of_probe hconnected hsetup
  · cases hstarted.swap.symm.trans hswap

/-- In every run, the last probe for the active upstream was of its pool, which has accepted it, and
the rig is translated exactly if the pool did not complete the setup.  So no outage makes a rig
translate. -/
theorem protocol_follows_probe {x : ProbedRig × ProbeLog Key}
    (h : ProbedReaches parseKey decode lib x) :
    ∃ answer, Log.latest (Probe.found x.1.rig.inner.active.generation) x.2 =
        some (x.1.rig.inner.active.target, answer) ∧ answer.tcp = .connected ∧
      (x.1.rig.inner.translating = true ↔
        setupOver parseKey x.1.rig.inner.active.target answer = false) := by
  obtain ⟨x₀, hstart, hrun⟩ := h
  have hinv : FollowsProbe parseKey x.1 x.2 := by
    refine hrun.invariant (I := fun z => FollowsProbe parseKey z.1 z.2) (.start hstart) ?_
    intro z e z' hz _ hstep
    obtain ⟨hnext, hnote⟩ := observed_eq_some.mp hstep
    rw [hnote]
    exact hz.step hnext
  obtain ⟨answer, hlatest, hconnected, hsetup⟩ := hinv.active
  refine ⟨answer, hlatest, hconnected, ?_⟩
  rw [hsetup, Bool.not_eq_false']

end Invariant

/-- A pool that completes the setup. -/
def speaksSv2 : SetupAnswer Nat where
  tcp := .connected
  noise _ := true
  frames := [⟨0, .other 0x15, []⟩, ⟨0, setupConnectionSuccess, []⟩]

/-- A pool that is being restarted. -/
def restarting : SetupAnswer Nat where
  tcp := .refused
  noise _ := true
  frames := []

/-- The buyer's pool refuses a connection, and then is back. -/
def restartedPool : List (ProbedEvent Nat) :=
  [.rig (.upstreamFrame 0 (openedFrame 1 10 0) 0), .rig (.createOrder buyerOrder),
    .rig (.swapOrder .attach "o1" false), .probe restarting, .rig (.swapOrder .retry "o1" false),
    .probe speaksSv2, .rig (.swapReopened [reopenedInfo 30])]

theorem protocol_follows_probe_restart :
    ∃ x : ProbedRig × ProbeLog Nat, x.1.rig.inner.active.target = buyerOrder.target ∧
      x.2.map Probe.generation = [0, 1, 2] ∧ ∃ answer,
        Log.latest (Probe.found x.1.rig.inner.active.generation) x.2 =
          some (x.1.rig.inner.active.target, answer) ∧ answer.tcp = .connected ∧
        (x.1.rig.inner.translating = true ↔
          setupOver (fun _ => none) x.1.rig.inner.active.target answer = false) := by
  have hrun : (idleRig.bind fun r => run
      (observed (ProbedRig.step (fun _ => none) wireDecoder plainLibrary) noteProbe)
      (⟨r, false⟩, [⟨0, sellerPool, speaksSv2⟩]) restartedPool).any (fun x =>
        decide (x.1.rig.inner.active.target = buyerOrder.target) &&
          decide (x.2.map Probe.generation = [0, 1, 2])) = true := by decide +kernel
  obtain ⟨x, hx, hlast⟩ := (Option.any_eq_true ..).mp hrun
  obtain ⟨r₀, hstart, hsteps⟩ := Option.bind_eq_some_iff.mp hx
  rw [Bool.and_eq_true, decide_eq_true_eq, decide_eq_true_eq] at hlast
  have hreach : ProbedReaches (fun _ => none) wireDecoder plainLibrary x :=
    ⟨(⟨r₀, false⟩, [⟨0, sellerPool, speaksSv2⟩]), ⟨"bc1q.rig", extendedOpen 7, {}, some sellerPool,
      0, sellerPool, .idle, sellerPool, speaksSv2, [], none, rfl, rfl, hstart, rfl, rfl⟩,
      .of_run hsteps⟩
  exact ⟨x, hlast.1, hlast.2, protocol_follows_probe hreach⟩

end RentalProxy.Sv2
