import RentalProxy.Sv2.FailedSwitch
import RentalProxy.Sv2.Reopening

/-!
# Switching a rig without channels

Between the last member that leaves and the next one that attaches a rig is a hull without
channels.  The native swap moves the hull: its loops have nothing to do.  It fails on an open that
cannot be built for the pool.  The swap onto an SV1 pool translates the first channel, and returns
an error when there is none, before it has talked to the pool.

* `PoolSends.swapUpstream` is the call, against what the pool sends.
* `Underway` is the invariant of a swap whose pool completes the handshake, with the other tasks
  of the rig between its steps.
* `switch_succeeds_iff` is the result: the swap succeeds exactly when the opens can be built for a
  native pool, or an SV1 pool finds a channel.
-/

namespace RentalProxy.Sv2

open StepSystem SelectiveReceive
open Sv1 (upstreamWorker)

variable (decode : Decoder) (lib : Sv1Library)

/-! ## The call -/

/-- What a pool sends on the connection that a swap makes. -/
inductive PoolSends where
  | native (frames : List Sv2Frame)
  | sv1 (lines : List RpcMessage)

namespace PoolSends

def isNative : PoolSends → Bool
  | .native _ => true
  | .sv1 _ => false

/-- `swap_upstream`, with `swap_to_sv1_translate` for a pool that does not speak SV2: the state
it leaves, and whether it returned `Ok`. -/
def swapUpstream (sends : PoolSends) (target : UpstreamTarget) (routing : Routing) (i : Inner) :
    Inner × Bool :=
  let plan := i.attachPlan target routing
  let i := i.snapshot.1
  match sends with
  | .native frames =>
    match reopenChannels decode plan.identity plan.snapshot.specs [] frames with
    | some (opened, _, _) =>
      ((installNative plan.snapshot.generation target routing opened i).1,
        (repointSteps plan.snapshot.members
          (opened.map fun (r, info) => repointOf r info)).all (·.frame.isSome))
    | none => (i, false)
  | .sv1 lines =>
    match i.translateSnapshot with
    | some (channel, members) =>
      match connectSv1Upstream lib lines with
      | some conn =>
        ((installTranslate plan.snapshot.generation target routing channel conn.initialDiff i).1,
          (repointSteps members [Rig.translateRepoint channel conn]).all (·.frame.isSome))
      | none => (i, false)
    | none => (i, false)

/-- The pool completes the handshake: it answers the open of every channel with a success, or its
lines make an SV1 connection with an extranonce1 that an SV2 message can carry. -/
def Completes (sends : PoolSends) (i : Inner) : Prop :=
  match sends with
  | .native frames => Answers (openReply decode) i.channels.length frames
  | .sv1 lines => ∃ conn, connectSv1Upstream lib lines = some conn ∧ conn.extranonce1.length ≤ 32

/-- The condition on the state before the call: the open of every channel can be built for a pool
that speaks SV2, and a pool that speaks SV1 finds a channel. -/
def CanSwitch (sends : PoolSends) (target : UpstreamTarget) (i : Inner) : Prop :=
  match sends with
  | .native _ => ∀ c ∈ i.channels, (openChannelUpstream c.spec
      (upstreamWorker target.user i.label) c.spec.requestId).isSome = true
  | .sv1 _ => i.channels ≠ []

end PoolSends

/-- The rig is on the pool and the routing that were asked for. -/
structure Inner.Switched (native : Bool) (target : UpstreamTarget) (routing : Routing)
    (i : Inner) : Prop where
  target : i.active.target = target
  routing : i.routing = routing
  translating : i.translating = !native

variable {decode lib}

section Call

variable {sends : PoolSends} {i : Inner} {target : UpstreamTarget} {routing : Routing}

/-- What a channel is bound to comes from a success of the pool. -/
theorem exists_success_of_reopened {account : String} {rs : List Reopen}
    {deferred frames deferred' read : List Sv2Frame} {opened : List (Reopen × ChannelInfo)}
    (h : reopenChannels decode account rs deferred frames = some (opened, deferred', read)) :
    ∀ p ∈ opened, ∃ frame, parseOpenSuccess decode frame = some p.2 := by
  induction rs generalizing deferred frames opened with
  | nil =>
    cases h
    exact List.forall_mem_nil _
  | cons r rs ih =>
    simp only [reopenChannels, Option.bind_eq_bind, Option.bind_eq_some_iff, Prod.exists] at h
    obtain ⟨info, kept, rest, hopen, opened', _, _, hrest, heq⟩ := h
    cases heq
    intro p hp
    rcases List.mem_cons.mp hp with rfl | hmem
    · unfold openOn at hopen
      split at hopen
      · cases hopen
      · split at hopen
        · rename_i hawait
          cases hopen
          obtain ⟨_, frame, _, _, _, hanswer⟩ := await_cases hawait
          exact ⟨frame, (isOpenSuccess_of_answer hanswer).2⟩
        · cases hopen
    · exact ih hrest p hmem

/-- What a native pool opens can be re-pointed to. -/
theorem repointSteps_opened {account : String} {rs : List Reopen} {frames : List Sv2Frame}
    {deferred deferred' read : List Sv2Frame} {opened : List (Reopen × ChannelInfo)}
    (hsized : decode.Sized)
    (h : reopenChannels decode account rs deferred frames = some (opened, deferred', read))
    (members : List Nat) :
    (repointSteps members (opened.map fun (r, info) => repointOf r info)).all (·.frame.isSome) =
      true := by
  rw [repointSteps_all]
  intro rp hrp _
  obtain ⟨p, hp, rfl⟩ := List.mem_map.mp hrp
  obtain ⟨f, hf⟩ := exists_success_of_reopened h p hp
  exact (hsized f p.2 hf).symm

/-- The loop is through only when every open could be built. -/
theorem isSome_open_of_reopened {account : String} {rs : List Reopen}
    {deferred frames deferred' read : List Sv2Frame} {opened : List (Reopen × ChannelInfo)}
    (h : reopenChannels decode account rs deferred frames = some (opened, deferred', read)) :
    ∀ r ∈ rs, (openChannelUpstream r.spec account r.spec.requestId).isSome = true := by
  induction rs generalizing deferred frames opened with
  | nil => exact List.forall_mem_nil _
  | cons r rs ih =>
    simp only [reopenChannels, Option.bind_eq_bind, Option.bind_eq_some_iff, Prod.exists] at h
    obtain ⟨info, kept, rest, hopen, opened', _, _, hrest, heq⟩ := h
    cases heq
    intro s hs
    rcases List.mem_cons.mp hs with rfl | hmem
    · unfold openOn at hopen
      split at hopen
      · cases hopen
      · rename_i hbuilt
        rw [hbuilt]
        rfl
    · exact ih hrest s hmem

/-- The swap onto a native pool, whatever the number of channels. -/
theorem swapUpstream_native {frames : List Sv2Frame} (hsized : decode.Sized)
    (h : (PoolSends.native frames).Completes decode lib i) :
    ((PoolSends.native frames).swapUpstream decode lib target routing i).2 = true ∧
      ((PoolSends.native frames).swapUpstream decode lib target routing i).1.Switched true target
        routing ↔ (PoolSends.native frames).CanSwitch target i := by
  have hlength : i.snapshot.2.specs.length = i.channels.length := List.length_map _
  change Answers (openReply decode) i.channels.length frames at h
  rw [← hlength] at h
  -- the opens of the snapshot are those of the channels
  have hspecs : (PoolSends.native frames).CanSwitch target i ↔
      (i.attachPlan target routing).canReopen = true := canReopen_attachPlan.symm
  rw [hspecs, SwapPlan.canReopen, List.all_eq_true]
  unfold PoolSends.swapUpstream
  constructor
  · rintro ⟨hok, _⟩
    dsimp only at hok
    split at hok
    · rename_i hloop
      exact isSome_open_of_reopened hloop
    · cases hok
  · intro hbuilt
    have hopens : ∀ r ∈ i.snapshot.2.specs,
        (openChannelUpstream r.spec (i.attachPlan target routing).identity
          r.spec.requestId).isSome = true := hbuilt
    obtain ⟨opened, deferred, read, hloop, _⟩ := reopenChannels_answered [] hopens h
    have hsteps := repointSteps_opened hsized hloop i.snapshot.2.members
    simp only [Inner.attachPlan] at hloop ⊢
    simp only [hloop]
    exact ⟨hsteps, rfl, rfl, rfl⟩

/-- The swap onto an SV1 pool needs a channel. -/
theorem swapUpstream_sv1 {lines : List RpcMessage}
    (h : (PoolSends.sv1 lines).Completes decode lib i) :
    if i.channels = [] then
      (PoolSends.sv1 lines).swapUpstream decode lib target routing i = (i.snapshot.1, false)
    else ((PoolSends.sv1 lines).swapUpstream decode lib target routing i).2 = true ∧
      ((PoolSends.sv1 lines).swapUpstream decode lib target routing i).1.Switched false target
        routing := by
  obtain ⟨conn, hconn, hlen⟩ := h
  unfold PoolSends.swapUpstream
  cases hchannels : i.channels with
  | nil => simp [Inner.translateSnapshot, Inner.snapshot, hchannels]
  | cons c cs =>
    simp only [Inner.translateSnapshot, Inner.snapshot, hchannels, List.head?_cons,
      Option.map_some, hconn, reduceCtorEq, if_false]
    refine ⟨repointSteps_all.mpr fun rp hrp _ => ?_, rfl, rfl, rfl⟩
    rw [List.mem_singleton.mp hrp]
    exact ⟨hlen, targetFromDifficulty_length _⟩

end Call

/-! ## The tasks -/

variable (decode lib) in
/-- The pool of the swap that is under way completes the handshake.  The swap fails only on an open
that cannot be built. -/
def Handshakes (native : Bool) (r : Rig) : Event → Prop
  | .swapFailed => native = true ∧ ∃ plan, r.swap = .connecting plan ∧ plan.canReopen = false
  | .swapReopened infos => native = true ∧ ∀ plan, r.swap = .connecting plan →
      ∃ frames opened deferred read,
        reopenChannels decode plan.identity plan.snapshot.specs [] frames =
          some (opened, deferred, read) ∧ infos = opened.map Prod.snd
  | .swapNotSv2 => native = false
  | .swapTranslated lines =>
      ∃ conn, connectSv1Upstream lib lines = some conn ∧ conn.extranonce1.length ≤ 32
  | _ => True

variable (decode lib) in
/-- The swap has not returned, and its pool completes the handshake.  The opens can be built for a
pool that speaks SV2, and one that speaks SV1 finds a channel. -/
structure SwitchesOn (native : Bool) (r : Rig) (e : Event) : Prop where
  waiting : r.swap.isIdle = false
  handshake : Handshakes decode lib native r e
  built : native = true → ∀ plan, r.swap = .connecting plan → plan.canReopen = true
  channel : e = .swapNotSv2 → r.inner.channels ≠ []

/-- The swap that is under way is the one that was asked for, and has installed its pool when it
sends the re-point frames. -/
structure Underway (native : Bool) (target : UpstreamTarget) (routing : Routing) (r : Rig) :
    Prop where
  plan : ∀ plan, r.swap.Connecting plan → plan.target = target ∧ plan.routing = routing
  sv1 : ∀ plan channel members, r.swap = .translating plan channel members → native = false
  installed : ∀ plan todo abandoned members, r.swap = .repointing plan todo abandoned members →
    r.inner.Switched native target routing ∧ ∀ s ∈ todo, s.frame.isSome = true

theorem upstream_of_other {r r' : Rig} {e : Event} (ht : Transition decode lib r e r')
    (he : e.ofSwap = false) : SameUpstream r.inner r'.inner := by
  cases ht with
  | attach hnative =>
    have hadd : SameUpstream r.inner r.inner.addMember.1 := ⟨rfl, rfl, rfl, rfl, rfl, rfl⟩
    exact hadd.trans (forwardOpen_upstream ..)
  | openChannel hmember => exact openChannel_upstream ..
  | @minerFrame member frame hmember =>
    rw [Rig.submitted_inner]
    exact minerFrame_upstream frame r.inner
  | upstreamFrame hnative => exact onUpstreamFrame_upstream ..
  | @translateCall member cid written now state call calls htranslator =>
    let s : Rig := { r with translator := some ⟨cid, state, calls, written⟩ }
    exact (translateCall_sameRig s call cid member now).upstream
  | swapOrder | swapRevert | swapReopened | swapTranslated => cases he
  | _ => exact ⟨rfl, rfl, rfl, rfl, rfl, rfl⟩

namespace Underway

variable {native : Bool} {target : UpstreamTarget} {routing : Routing} {r r' : Rig} {e : Event}

/-- A step of another task. -/
theorem other (h : Underway native target routing r) (hswap : r'.swap = r.swap)
    (hup : SameUpstream r.inner r'.inner) : Underway native target routing r' := by
  refine ⟨by rw [hswap]; exact h.plan, by rw [hswap]; exact h.sv1, ?_⟩
  intro plan todo abandoned members hrepoint
  rw [hswap] at hrepoint
  obtain ⟨hswitched, hbuilt⟩ := h.installed plan todo abandoned members hrepoint
  exact ⟨⟨hup.target.trans hswitched.target, hup.routing.trans hswitched.routing,
    hup.translating.trans hswitched.translating⟩, hbuilt⟩

/-- The swap has installed, and has frames to send. -/
theorem sends {plan : SwapPlan} {todo : List RepointStep} {abandoned : List (Nat × Nat)}
    {members : List Nat} (hswap : r.swap = .repointing plan todo abandoned members)
    (hswitched : r.inner.Switched native target routing)
    (hbuilt : ∀ s ∈ todo, s.frame.isSome = true) : Underway native target routing r := by
  refine ⟨?_, ?_, ?_⟩
  · rw [hswap]
    rintro _ (hplan | ⟨_, _, hplan⟩) <;> cases hplan
  · intro _ _ _ htranslating
    rw [hswap] at htranslating
    cases htranslating
  · intro _ _ _ _ hrepoint
    rw [hswap] at hrepoint
    cases hrepoint
    exact ⟨hswitched, hbuilt⟩

/-- The swap goes on, and ends only when it returns `Ok`. -/
theorem step (h : Underway native target routing r) (hsized : decode.Sized)
    (hguard : SwitchesOn decode lib native r e) (hstep : Sv2.step decode lib r e = some r') :
    Underway native target routing r' ∧ (r'.swap.isIdle = true →
      r.swap.returning = true ∧ r'.inner.Switched native target routing) := by
  obtain ⟨hwaiting, hshake, hbuilt, hchannel⟩ := hguard
  by_cases he : e.ofSwap = true
  swap
  · have he : e.ofSwap = false := by simpa using he
    have hswap := swap_of_other hstep he
    refine ⟨h.other hswap (upstream_of_other (transition_of_step hstep) he), fun hended => ?_⟩
    rw [hswap, hwaiting] at hended
    cases hended
  cases e with
  | swapOrder caller id fallback =>
    simp only [Sv2.step] at hstep
    split at hstep
    · rename_i hidle _
      rw [hidle] at hwaiting
      cases hwaiting
    · cases hstep
  | swapRevert caller =>
    simp only [Sv2.step] at hstep
    split at hstep <;> cases hstep
    rename_i hidle _
    rw [hidle] at hwaiting
    cases hwaiting
  | swapFailed =>
    -- the opens can be built
    obtain ⟨hnative, plan, hswap, hnone⟩ := hshake
    rw [hbuilt hnative plan hswap] at hnone
    cases hnone
  | swapReopened infos =>
    simp only [Sv2.step] at hstep
    split at hstep
    · rename_i plan hswap
      split at hstep <;> cases hstep
      obtain ⟨rfl, hopens⟩ := hshake
      obtain ⟨frames, opened, _, _, hloop, rfl⟩ := hopens plan hswap
      obtain ⟨htarget, hrouting⟩ := h.plan plan (Or.inl hswap)
      refine ⟨sends rfl ⟨htarget, hrouting, rfl⟩ fun s hs => ?_, fun hended => by cases hended⟩
      refine repointSteps_built (fun rp hrp _ => ?_) hs
      obtain ⟨p, hp, rfl⟩ := List.mem_map.mp hrp
      obtain ⟨q, hq, hinfo⟩ := List.mem_map.mp (List.of_mem_zip hp).2
      obtain ⟨frame, hframe⟩ := exists_success_of_reopened hloop q hq
      rw [hinfo] at hframe
      exact (hsized frame p.2 hframe).symm
    · cases hstep
  | swapNotSv2 =>
    simp only [Sv2.step] at hstep
    split at hstep
    · rename_i plan hswap
      split at hstep <;> cases hstep
      · refine ⟨⟨?_, fun _ _ _ _ => hshake, fun _ _ _ _ hrepoint => by cases hrepoint⟩,
          fun hended => by cases hended⟩
        rintro _ (hplan | ⟨_, _, hplan⟩) <;> cases hplan
        exact h.plan plan (Or.inl hswap)
      · -- there is a channel
        rename_i hnone
        obtain ⟨c, cs, hcs⟩ := List.exists_cons_of_ne_nil (hchannel rfl)
        simp [Inner.translateSnapshot, hcs] at hnone
    · cases hstep
  | swapTranslated lines =>
    simp only [Sv2.step] at hstep
    obtain ⟨conn, hconn, hlen⟩ := hshake
    split at hstep
    · rename_i plan channel members hswap
      rw [hconn] at hstep
      cases hstep
      obtain ⟨htarget, hrouting⟩ := h.plan plan (Or.inr ⟨_, _, hswap⟩)
      have hnative := h.sv1 plan channel members hswap
      subst hnative
      refine ⟨sends rfl ⟨htarget, hrouting, rfl⟩ fun s hs => ?_, fun hended => by cases hended⟩
      refine repointSteps_built (fun rp hrp _ => ?_) hs
      rw [List.mem_singleton.mp hrp]
      exact ⟨hlen, targetFromDifficulty_length _⟩
    · cases hstep
  | swapSend =>
    simp only [Sv2.step] at hstep
    split at hstep
    · rename_i plan s todo abandoned members hswap
      obtain ⟨hswitched, hbuilt⟩ := h.installed _ _ _ _ hswap
      split at hstep <;> cases hstep
      · exact ⟨sends rfl hswitched fun t ht => hbuilt t (List.mem_cons_of_mem _ ht),
          fun hended => by cases hended⟩
      · -- the frame can be built
        rename_i hnone
        have hsome := hbuilt s List.mem_cons_self
        rw [hnone] at hsome
        cases hsome
    · rename_i hswap
      cases hstep
      obtain ⟨hswitched, _⟩ := h.installed _ _ _ _ hswap
      exact ⟨sends rfl hswitched (List.forall_mem_nil _), fun hended => by cases hended⟩
    · rename_i plan members hswap
      cases hstep
      obtain ⟨hswitched, _⟩ := h.installed _ _ _ _ hswap
      refine ⟨⟨?_, fun _ _ _ hidle => (by cases hidle), fun _ _ _ _ hidle => (by cases hidle)⟩,
        fun _ => ⟨by rw [hswap]; rfl, hswitched⟩⟩
      rintro _ (hplan | ⟨_, _, hplan⟩) <;> cases hplan
    · cases hstep
  | _ => cases he

/-- A swap that has begun. -/
theorem begin (r : Rig) (caller : SwapCaller) (target : UpstreamTarget) (routing : Routing) :
    Underway native target routing (r.beginSwap caller target routing) := by
  refine ⟨?_, fun _ _ _ hswap => (by cases hswap), fun _ _ _ _ hswap => (by cases hswap)⟩
  rintro _ (hplan | ⟨_, _, hplan⟩) <;> cases hplan
  exact ⟨rfl, rfl⟩

end Underway

/-! ## The result -/

/-- A pool completes the handshake of a swap: for the call in any state, `Ok` on the requested
pool and routing comes back exactly when the opens can be built for a native pool, or an SV1 pool
finds a channel; and a swap that any rig begins, with its other tasks between the steps, ends only
so under this condition. -/
theorem switch_succeeds_iff {decode : Decoder} {lib : Sv1Library} (hsized : decode.Sized) :
    (∀ (sends : PoolSends) (target : UpstreamTarget) (routing : Routing) (i : Inner),
      sends.Completes decode lib i →
        (((sends.swapUpstream decode lib target routing i).2 = true ∧
          (sends.swapUpstream decode lib target routing i).1.Switched sends.isNative target
            routing) ↔ sends.CanSwitch target i)) ∧
    ∀ (r : Rig) caller target routing native x e r',
      Run (step decode lib) (SwitchesOn decode lib native) (r.beginSwap caller target routing) x →
      SwitchesOn decode lib native x e → step decode lib x e = some r' →
      r'.swap.isIdle = true →
        x.swap.returning = true ∧ r'.inner.Switched native target routing := by
  constructor
  · intro sends target routing i hcompletes
    cases sends with
    | native frames => exact swapUpstream_native hsized hcompletes
    | sv1 lines =>
      have hswap := @swapUpstream_sv1 _ _ i target routing lines hcompletes
      split at hswap
      · rename_i hnone
        rw [hswap]
        exact iff_of_false (fun h => by cases h.1) fun hsome => hsome hnone
      · exact iff_of_true hswap ‹_›
  · intro r caller target routing native x e r' hrun hguard hstep hended
    have hunderway : Underway native target routing x :=
      hrun.invariant (.begin r caller target routing)
        fun _ _ _ hx hnext hcall => (hx.step hsized hnext hcall).1
    exact (hunderway.step hsized hguard hstep).2 hended

/-- A miner with a channel on its idle pool. -/
def oneChannel : List Event :=
  [.upstreamFrame 0 (openedFrame 1 10 0) 0]

theorem sv1Handshake_completes (i : Inner) :
    (PoolSends.sv1 sv1Handshake).Completes wireDecoder plainLibrary i := by
  obtain ⟨conn, hconn⟩ := Option.isSome_iff_exists.mp
    (show (connectSv1Upstream plainLibrary sv1Handshake).isSome = true by decide +kernel)
  refine ⟨conn, hconn, ?_⟩
  have hshort : ((connectSv1Upstream plainLibrary sv1Handshake).all
      fun conn => decide (conn.extranonce1.length ≤ 32)) = true := by decide +kernel
  rw [hconn] at hshort
  exact of_decide_eq_true hshort

/-- The rig with a channel switches to the SV1 pool of the buyer, and the hull to a native one. -/
theorem switch_succeeds_iff_rented :
    (∃ r, Reaches wireDecoder plainLibrary r ∧ r.inner.channels ≠ [] ∧
      ((PoolSends.sv1 sv1Handshake).swapUpstream wireDecoder plainLibrary buyerOrder.target
        (.rented "o1") r.inner).1.Switched false buyerOrder.target (.rented "o1")) ∧
    ∃ r r', Reaches wireDecoder plainLibrary r ∧ r.inner.channels = [] ∧
      Reachable (step wireDecoder plainLibrary)
        (r.beginSwap .attach buyerOrder.target (.rented "o1")) r' ∧
      r'.inner.Switched true buyerOrder.target (.rented "o1") := by
  obtain ⟨hcall, hrun⟩ := @switch_succeeds_iff wireDecoder plainLibrary wireDecoder_sized
  constructor
  · obtain ⟨r, hr, hp⟩ := exists_of_idleRig (G := fun _ _ => True) oneChannel
      (p := fun r => !r.inner.channels.isEmpty) (by decide +kernel)
    have hchannels : r.inner.channels ≠ [] := by simpa using hp
    exact ⟨r, hr, hchannels,
      ((hcall _ _ _ r.inner (sv1Handshake_completes r.inner)).mpr hchannels).2⟩
  · obtain ⟨r, hr, hp⟩ := exists_of_idleRig (G := fun _ _ => True) rentedHull
      (p := fun r => r.inner.channels.isEmpty && r.inner.pending.entries.isEmpty)
      (by decide +kernel)
    simp only [Bool.and_eq_true, List.isEmpty_iff] at hp
    obtain ⟨hchannels, hpending⟩ := hp
    let begun := r.beginSwap .attach buyerOrder.target (.rented "o1")
    let plan := r.inner.attachPlan buyerOrder.target (.rented "o1")
    have hspecs : plan.snapshot.specs = [] := by
      simp [plan, Inner.attachPlan, Inner.snapshot, hchannels]
    have hreopened : step wireDecoder plainLibrary begun (.swapReopened []) =
        some (begun.swapNative plan []) := by
      simp [step, begun, plan, Rig.beginSwap, Inner.attachPlan, Inner.snapshot, hchannels,
        SwapPlan.canReopen]
    have hswap : (begun.swapNative plan []).swap =
        .repointing plan [] [] plan.snapshot.members := by
      simp [Rig.swapNative, installNative, begun, Rig.beginSwap, Inner.snapshot, hpending,
        repointSteps]
    have hreturned : step wireDecoder plainLibrary (begun.swapNative plan []) .swapSend =
        some ((begun.swapNative plan []).endSwap plan) := by
      simp only [step, hswap]
    have hshake : SwitchesOn wireDecoder plainLibrary true begun (.swapReopened []) := by
      refine ⟨rfl, ⟨rfl, ?_⟩, ?_, fun h => by cases h⟩
      swap
      · rintro _ plan' hplan'
        cases hplan'
        simp [SwapPlan.canReopen, Inner.snapshot, hchannels]
      intro plan' hplan'
      cases hplan'
      have hloop : reopenChannels wireDecoder plan.identity plan.snapshot.specs [] [] =
          some ([], [], []) := by
        rw [hspecs]
        rfl
      exact ⟨[], [], [], [], hloop, rfl⟩
    have hsend : SwitchesOn wireDecoder plainLibrary true (begun.swapNative plan []) .swapSend :=
      ⟨by rw [hswap]; rfl, trivial, fun _ _ h => (by rw [hswap] at h; cases h),
        fun h => by cases h⟩
    refine ⟨r, _, hr, hchannels, .tail (.tail .refl hreopened trivial) hreturned trivial, ?_⟩
    exact (hrun r .attach _ _ true _ _ _ (.tail .refl hreopened hshake) hsend hreturned rfl).2

/-- The hull stays where it is when the pool of the order speaks SV1. -/
theorem hull_misses_sv1_pool :
    ∃ r, Reaches wireDecoder plainLibrary r ∧ r.inner.channels = [] ∧
      (PoolSends.sv1 sv1Handshake).Completes wireDecoder plainLibrary r.inner ∧
      ((PoolSends.sv1 sv1Handshake).swapUpstream wireDecoder plainLibrary buyerOrder.target
        (.rented "o1") r.inner).2 = false ∧
      ¬((PoolSends.sv1 sv1Handshake).swapUpstream wireDecoder plainLibrary buyerOrder.target
        (.rented "o1") r.inner).1.Switched false buyerOrder.target (.rented "o1") := by
  obtain ⟨r, hr, hp⟩ := exists_of_idleRig (G := fun _ _ => True) rentedHull
    (p := fun r => r.inner.channels.isEmpty && decide (r.inner.routing = .idle))
    (by decide +kernel)
  simp only [Bool.and_eq_true, List.isEmpty_iff, decide_eq_true_eq] at hp
  obtain ⟨hchannels, hrouting⟩ := hp
  have hswap := @swapUpstream_sv1 wireDecoder plainLibrary r.inner buyerOrder.target
    (.rented "o1") sv1Handshake (sv1Handshake_completes r.inner)
  rw [if_pos hchannels] at hswap
  refine ⟨r, hr, hchannels, sv1Handshake_completes r.inner, by rw [hswap],
    fun hswitched => ?_⟩
  rw [hswap] at hswitched
  have hidle : r.inner.routing = .rented "o1" := hswitched.routing
  rw [hrouting] at hidle
  cases hidle

end RentalProxy.Sv2
