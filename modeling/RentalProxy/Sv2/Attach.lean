import RentalProxy.Sv2.Transitions

/-!
# Attaching lands on the pool that the stores name

A connection that is bundled onto an existing rig mines on whatever the rig is on
after `reconcile_routing`.  That should be a pool of the worker's live order, or
without one the idle pool that the seller store holds now.

The code compares routings, not targets, and reverts to the idle pool that the
rig was created with.  So an edit of the idle pool does not reach a rig that
outlives the reconnect of its members (`attach_misses_edited_pool`), and a hull
without channels cannot move to an SV1 pool.

* `Inner.reconcileRouting` is the call, made of the parts of a swap.
  `reconcile_reaches` says that the tasks of `step` execute it.
* `Serving` is the invariant: the upstream serves the routing.
* `attach_lands_iff` is the result: the rig lands on the pool of the stores
  exactly when `LandsWhen` holds before the call.
-/

namespace RentalProxy.Sv2

open StepSystem
open Sv1 (upstreamWorker)

/-! ## The call -/

/-- How a pool meets a swap that connects. -/
inductive SwapAnswer where
  /-- It speaks SV2, and answers every re-open. -/
  | native (info : Reopen → ChannelInfo)
  /-- It speaks SV1, and its handshake is done. -/
  | sv1 (conn : Sv1UpConn)

def SwapAnswer.isNative : SwapAnswer → Bool
  | .native _ => true
  | .sv1 _ => false

namespace Inner

/-- The plan of the swap that `reconcile_routing` asks for. -/
def attachPlan (target : UpstreamTarget) (routing : Routing) (i : Inner) : SwapPlan :=
  { caller := .attach, target, routing, snapshot := i.snapshot.2 }

/-- `swap_upstream`: the state it leaves, and whether it returned `Ok`. -/
def swapUpstream (answer : SwapAnswer) (target : UpstreamTarget) (routing : Routing)
    (i : Inner) : Inner × Bool :=
  let plan := i.attachPlan target routing
  let i := i.snapshot.1
  match answer with
  | .native info =>
    if plan.canReopen then
      let opened := plan.snapshot.specs.zip (plan.snapshot.specs.map info)
      ((installNative plan.snapshot.generation target routing opened i).1,
        (repointSteps plan.snapshot.members
          (opened.map fun (r, info) => repointOf r info)).all (·.frame.isSome))
    else (i, false)
  | .sv1 conn =>
    match i.translateSnapshot with
    | some (channel, members) =>
      ((installTranslate plan.snapshot.generation target routing channel conn.initialDiff i).1,
        (repointSteps members [Rig.translateRepoint channel conn]).all (·.frame.isSome))
    | none => (i, false)

variable (answers : UpstreamTarget → SwapAnswer)

/-- `switch_to_order`: the target of the order, then its fallback. -/
def switchToOrder (store : OrderStore) (orderId : String) (i : Inner) : Inner × Bool :=
  match store.get orderId with
  | none => (i, false)
  | some order =>
    match i.swapUpstream (answers order.target) order.target (.rented orderId) with
    | (i, true) => (i, true)
    | (i, false) =>
      match order.fallback with
      | some fb => i.swapUpstream (answers fb) fb (.rented orderId)
      | none => (i, false)

/-- `revert`.  Without an idle pool the members are dropped. -/
def revert (i : Inner) : Inner × Bool :=
  match i.defaultTarget with
  | some target => i.swapUpstream (answers target) target .idle
  | none => (i, true)

/-- `reconcile_routing`. -/
def reconcileRouting (store : OrderStore) (desired : Option Order) (i : Inner) : Inner :=
  match desired, i.routing.orderId? with
  | some o, current => if current ≠ some o.id then (i.switchToOrder answers store o.id).1 else i
  | none, some _ => (i.revert answers).1
  | none, none => i

/-- The connects of a swap succeed: a pool that speaks SV2 can be asked for every
channel. -/
def ConnectsSucceed (i : Inner) : Prop :=
  ∀ target, (answers target).isNative = true → ∀ c ∈ i.channels,
    (openChannelUpstream c.spec (upstreamWorker target.user i.label) c.spec.requestId).isSome

end Inner

/-! ## The property and its condition -/

/-- The order that is live for the worker of the rig. -/
def Rig.liveOrder (r : Rig) (now : Int) : Option Order :=
  r.store.activeForWorker r.inner.label now

/-- The worker may connect: it has a live order or an idle pool. -/
def Rig.Admits (r : Rig) (now : Int) : Prop :=
  (r.liveOrder now).isSome = true ∨ r.idlePool.isSome = true

/-- The target is a pool of the live order, or without one the idle pool of the
seller store. -/
def Rig.Named (r : Rig) (now : Int) (target : UpstreamTarget) : Prop :=
  match r.liveOrder now with
  | some o => target ∈ o.pools
  | none => r.idlePool = some target

/-- A swap to the target gets as far as the install. -/
def Inner.CanInstall (answers : UpstreamTarget → SwapAnswer) (i : Inner)
    (target : UpstreamTarget) : Prop :=
  (answers target).isNative = true ∨ i.channels ≠ []

/-- The condition on the state before the call. -/
def Rig.LandsWhen (answers : UpstreamTarget → SwapAnswer) (r : Rig) (now : Int) : Prop :=
  match r.liveOrder now with
  | some o => r.inner.active.target ∈ o.pools ∨ ∃ pool ∈ o.pools, r.inner.CanInstall answers pool
  | none =>
    match r.inner.routing with
    | .idle => r.idlePool = r.inner.defaultTarget
    | .rented _ =>
      (∃ idle, r.inner.defaultTarget = some idle ∧ r.inner.CanInstall answers idle ∧
        r.idlePool = some idle) ∨
      ((∀ idle, r.inner.defaultTarget = some idle → ¬ r.inner.CanInstall answers idle) ∧
        r.idlePool = some r.inner.active.target)

/-! ## Swaps -/

section Swaps

variable {answers : UpstreamTarget → SwapAnswer} {i : Inner} {target : UpstreamTarget}

/-- A native pool can be asked for the channels that the rig has. -/
theorem canReopen_attachPlan {routing : Routing} :
    (i.attachPlan target routing).canReopen = true ↔ ∀ c ∈ i.channels,
      (openChannelUpstream c.spec (upstreamWorker target.user i.label)
        c.spec.requestId).isSome := by
  rw [SwapPlan.canReopen, List.all_eq_true]
  exact List.forall_mem_map

theorem Inner.ConnectsSucceed.canReopen (h : i.ConnectsSucceed answers) (routing : Routing)
    (hnative : (answers target).isNative = true) :
    (i.attachPlan target routing).canReopen = true :=
  canReopen_attachPlan.mpr (h target hnative)

/-- A swap that installs is at its target, however the re-pointing ends. -/
theorem swapUpstream_target (h : i.ConnectsSucceed answers) (routing : Routing)
    (hinstall : i.CanInstall answers target) :
    (i.swapUpstream (answers target) target routing).1.active.target = target := by
  unfold Inner.swapUpstream
  cases hanswer : answers target with
  | native info =>
    have hnative : (answers target).isNative = true := by rw [hanswer]; rfl
    have hreopen := h.canReopen routing hnative
    simp only [hreopen, if_true]
    rfl
  | sv1 conn =>
    rcases hinstall with hnative | hchannels
    · rw [hanswer] at hnative
      cases hnative
    · obtain ⟨c, cs, hcs⟩ := List.exists_cons_of_ne_nil hchannels
      simp only [Inner.translateSnapshot, Inner.snapshot, hcs, List.head?_cons, Option.map_some]
      rfl

/-- Without a channel, an SV1 pool is not installed. -/
theorem swapUpstream_refused (routing : Routing) (hinstall : ¬ i.CanInstall answers target) :
    i.swapUpstream (answers target) target routing = (i.snapshot.1, false) := by
  simp only [Inner.CanInstall, not_or, not_not, Bool.not_eq_true] at hinstall
  obtain ⟨hsv1, hchannels⟩ := hinstall
  unfold Inner.swapUpstream
  cases hanswer : answers target with
  | native info =>
    rw [hanswer] at hsv1
    cases hsv1
  | sv1 conn => simp [Inner.translateSnapshot, Inner.snapshot, hchannels]

/-- A swap is at its target, or where it was. -/
theorem swapUpstream_target_or (answer : SwapAnswer) (target : UpstreamTarget)
    (routing : Routing) (i : Inner) :
    (i.swapUpstream answer target routing).1.active.target = target ∨
      (i.swapUpstream answer target routing).1.active.target = i.active.target := by
  unfold Inner.swapUpstream
  cases answer with
  | native info =>
    dsimp only
    split
    · exact Or.inl rfl
    · exact Or.inr rfl
  | sv1 conn =>
    dsimp only
    split
    · exact Or.inl rfl
    · exact Or.inr rfl

/-- The switch to an order is at one of its pools when one of them installs, and
where it was otherwise. -/
theorem switchToOrder_target {store : OrderStore} {o : Order} (h : i.ConnectsSucceed answers)
    (hget : store.get o.id = some o) :
    ((∃ pool ∈ o.pools, i.CanInstall answers pool) ∧
      (i.switchToOrder answers store o.id).1.active.target ∈ o.pools) ∨
    ((∀ pool ∈ o.pools, ¬ i.CanInstall answers pool) ∧
      (i.switchToOrder answers store o.id).1.active.target = i.active.target) := by
  have hpool : o.target ∈ o.pools := List.mem_cons_self
  have hfallback : ∀ fb, o.fallback = some fb → fb ∈ o.pools := by
    intro fb hfb
    simp [Order.pools, hfb]
  unfold Inner.switchToOrder
  simp only [hget]
  by_cases hprimary : i.CanInstall answers o.target
  · left
    refine ⟨⟨o.target, hpool, hprimary⟩, ?_⟩
    have htarget := swapUpstream_target h (.rented o.id) hprimary
    split
    · rename_i j hswap
      rw [hswap] at htarget
      rw [htarget]
      exact hpool
    · rename_i j hswap
      rw [hswap] at htarget
      -- The pool is installed, but the channels could not be re-pointed.
      split
      · rename_i fb hfb
        rcases swapUpstream_target_or (answers fb) fb (.rented o.id) j with heq | heq <;> rw [heq]
        · exact hfallback fb hfb
        · rw [htarget]
          exact hpool
      · rw [htarget]
        exact hpool
  · simp only [swapUpstream_refused (.rented o.id) hprimary]
    cases hfb : o.fallback with
    | none =>
      right
      refine ⟨?_, rfl⟩
      intro pool hmem
      simp only [Order.pools, hfb, Option.toList_none, List.mem_singleton] at hmem
      rw [hmem]
      exact hprimary
    | some fb =>
      by_cases hsecond : i.CanInstall answers fb
      · left
        refine ⟨⟨fb, hfallback fb hfb, hsecond⟩, ?_⟩
        rw [swapUpstream_target (i := i.snapshot.1) h (.rented o.id) hsecond]
        exact hfallback fb hfb
      · right
        refine ⟨?_, ?_⟩
        · intro pool hmem
          simp only [Order.pools, hfb, Option.toList_some, List.mem_cons, List.not_mem_nil,
            or_false] at hmem
          rcases hmem with rfl | rfl
          · exact hprimary
          · exact hsecond
        · simp only [swapUpstream_refused (i := i.snapshot.1) (.rented o.id) hsecond]
          rfl

end Swaps

/-! ## The upstream serves the routing -/

/-- The target is the idle pool of the rig, or a pool of the order that the
routing names. -/
def Serves (store : OrderStore) (defaultTarget : Option UpstreamTarget)
    (target : UpstreamTarget) : Routing → Prop
  | .idle => defaultTarget = some target
  | .rented id => ∃ o, store.get id = some o ∧ target ∈ o.pools

/-- The active upstream serves the routing, and so does the pool that a swap is
about to install. -/
structure Serving (r : Rig) : Prop where
  store : r.store.OneActive
  active : Serves r.store r.inner.defaultTarget r.inner.active.target r.inner.routing
  swap : ∀ plan, r.swap.Connecting plan →
    Serves r.store r.inner.defaultTarget plan.target plan.routing

theorem Serves.of_samePools {s s' : OrderStore} (hpools : OrderStore.SamePools s s')
    {idle : Option UpstreamTarget} {target : UpstreamTarget} {routing : Routing}
    (h : Serves s idle target routing) : Serves s' idle target routing := by
  cases routing with
  | idle => exact h
  | rented id =>
    obtain ⟨o, hget, hmem⟩ := h
    obtain ⟨o', hget', heq⟩ := hpools id o hget
    exact ⟨o', hget', heq ▸ hmem⟩

/-- A step that keeps the upstream and begins no swap. -/
theorem Serving.keep {r r' : Rig} (h : Serving r) (hup : SameUpstream r.inner r'.inner)
    (hswap : ∀ plan, r'.swap.Connecting plan → r.swap.Connecting plan)
    (hstore : r'.store.rows = r.store.rows) : Serving r' where
  store := by
    unfold OrderStore.OneActive
    rw [hstore]
    exact h.store
  active := by
    have hpools : OrderStore.SamePools r.store r'.store := by
      simpa only [OrderStore.SamePools, OrderStore.get, hstore] using
        OrderStore.SamePools.refl r.store
    rw [hup.target, hup.routing, hup.defaultTarget]
    exact h.active.of_samePools hpools
  swap := by
    have hpools : OrderStore.SamePools r.store r'.store := by
      simpa only [OrderStore.SamePools, OrderStore.get, hstore] using
        OrderStore.SamePools.refl r.store
    intro plan hplan
    rw [hup.defaultTarget]
    exact (h.swap plan (hswap plan hplan)).of_samePools hpools

/-- An install of the pool that the swap has been talking to. -/
theorem Serving.install {r r' : Rig} {plan : SwapPlan} (h : Serving r)
    (hplan : r.swap.Connecting plan) (htarget : r'.inner.active.target = plan.target)
    (hrouting : r'.inner.routing = plan.routing)
    (hdefault : r'.inner.defaultTarget = r.inner.defaultTarget)
    (hswap : ∀ plan, ¬ r'.swap.Connecting plan) (hstore : r'.store = r.store) : Serving r' where
  store := hstore ▸ h.store
  active := by
    rw [htarget, hrouting, hdefault, hstore]
    exact h.swap plan hplan
  swap plan' hplan' := absurd hplan' (hswap plan')

/-- A swap that begins with a pool that serves its routing. -/
theorem Serving.begin {r : Rig} (h : Serving r) (caller : SwapCaller) {target : UpstreamTarget}
    {routing : Routing} (hserves : Serves r.store r.inner.defaultTarget target routing) :
    Serving (r.beginSwap caller target routing) where
  store := h.store
  active := h.active
  swap := by
    rintro plan (hplan | ⟨_, _, hplan⟩) <;> cases hplan
    exact hserves

theorem Serving.step {decode : Decoder} {lib : Sv1Library} {r r' : Rig} {e : Event}
    (h : Serving r) (ht : Transition decode lib r e r') : Serving r' := by
  cases ht with
  | @attach spec hnative =>
    have hup := forwardOpen_upstream r.inner.nextMemberId spec r.inner.addMember.1
    exact h.keep ⟨hup.generation, hup.target, hup.routing, hup.defaultTarget, hup.translating,
      hup.generationCounter⟩ (fun _ hp => hp) rfl
  | openChannel hmember => exact h.keep (openChannel_upstream ..) (fun _ hp => hp) rfl
  | @minerFrame member frame hmember =>
    refine h.keep ?_ ?_ ?_
    · rw [Rig.submitted_inner]
      exact minerFrame_upstream ..
    · rw [(SameTasks.submitted _ _).swap]
      exact fun _ hp => hp
    · cases (minerFrame frame r.inner).2 <;> rfl
  | upstreamFrame hnative =>
    refine h.keep (onUpstreamFrame_upstream ..) (fun _ hp => hp) ?_
    rfl
  | @translateCall member cid written now state call calls htranslator =>
    have hrig := translateCall_sameRig { r with translator := some ⟨cid, state, calls, written⟩ }
      call cid member now
    refine h.keep hrig.upstream ?_ ?_
    · rw [(translateCall_sameTasks ..).swap]
      exact fun _ hp => hp
    · cases call <;> rfl
  | swapOrder hswap horder htarget => exact h.begin _ ⟨_, horder, htarget⟩
  | swapRevert hswap hdefault => exact h.begin _ hdefault
  | swapReopened hswap hlength =>
    refine h.install (Or.inl hswap) rfl rfl rfl ?_ rfl
    rintro _ (hplan | ⟨_, _, hplan⟩) <;> cases hplan
  | swapTranslated hswap hconn =>
    refine h.install (Or.inr ⟨_, _, hswap⟩) rfl rfl rfl ?_ rfl
    rintro _ (hplan | ⟨_, _, hplan⟩) <;> cases hplan
  | @swapNotSv2 plan channel members hswap hchannel =>
    refine h.keep (.refl _) ?_ rfl
    rintro _ (hplan | ⟨_, _, hplan⟩) <;> cases hplan
    exact Or.inl hswap
  | store hstep =>
    exact ⟨hstep.oneActive h.store, h.active.of_samePools hstep.samePools,
      fun plan hplan => (h.swap plan hplan).of_samePools hstep.samePools⟩
  | detach | translateLine | translateWrite | reconnect | setSeller =>
    exact h.keep ⟨rfl, rfl, rfl, rfl, rfl, rfl⟩ (fun _ hp => hp) rfl
  | swapFailed | repoint | repointFailed | notice | swapDone =>
    refine h.keep (.refl _) ?_ rfl
    rintro _ (hplan | ⟨_, _, hplan⟩) <;> cases hplan

/-- A rig starts on a pool of its order, or on its idle pool. -/
theorem Serving.start {lib : Sv1Library} {worker : String} {spec : OpenSpec}
    {store : OrderStore} {idlePool : Option UpstreamTarget} {now : Int}
    {failed : Option InitialAnswer} {answer : InitialAnswer} {r : Rig} (hone : store.OneActive)
    (h : start lib worker spec store idlePool now failed answer = some r) : Serving r := by
  obtain ⟨first, routing, target, hinitial, htarget, hstarted⟩ := start_started h
  refine ⟨by rw [hstarted.store]; exact hone, ?_, ?_⟩
  · rw [hstarted.store, hstarted.defaultTarget, hstarted.target, hstarted.routing]
    unfold initialTarget at hinitial
    split at hinitial
    · rename_i o horder
      cases hinitial
      rw [horder] at htarget
      refine ⟨o, hone.get_activeForWorker horder, ?_⟩
      cases failed with
      | none =>
        rw [show target = o.target from htarget]
        exact List.mem_cons_self
      | some bad =>
        have hfb : o.fallback = some target := htarget
        simp [Order.pools, hfb]
    · rename_i hnone
      cases hinitial
      cases failed with
      | none =>
        rw [show target = first from htarget]
        rfl
      | some bad =>
        -- without an order there is no fallback
        rw [hnone] at htarget
        cases htarget
    · cases hinitial
  · intro plan hplan
    rw [hstarted.swap] at hplan
    rcases hplan with hplan | ⟨_, _, hplan⟩ <;> cases hplan

theorem Serving.of_reaches {decode : Decoder} {lib : Sv1Library} {r : Rig}
    (h : Reaches decode lib r) : Serving r :=
  h.invariant (fun _ _ _ _ _ _ _ _ hone hstart => .start hone hstart)
    fun _ _ _ hinv _ hstep => hinv.step (transition_of_step hstep)

/-! ## The result -/

theorem revert_target {answers : UpstreamTarget → SwapAnswer} {i : Inner}
    (h : i.ConnectsSucceed answers) :
    (∃ idle, i.defaultTarget = some idle ∧ i.CanInstall answers idle ∧
      (i.revert answers).1.active.target = idle) ∨
    ((∀ idle, i.defaultTarget = some idle → ¬ i.CanInstall answers idle) ∧
      (i.revert answers).1.active.target = i.active.target) := by
  unfold Inner.revert
  cases hdefault : i.defaultTarget with
  | none =>
    right
    refine ⟨?_, rfl⟩
    rintro idle ⟨⟩
  | some idle =>
    by_cases hinstall : i.CanInstall answers idle
    · exact Or.inl ⟨idle, rfl, hinstall, swapUpstream_target h .idle hinstall⟩
    · right
      refine ⟨?_, ?_⟩
      · rintro _ ⟨⟩
        exact hinstall
      · simp only [swapUpstream_refused .idle hinstall]
        rfl

/-- A connection that attaches lands on the pool of the stores exactly when the
condition holds. -/
theorem attach_lands_iff {decode : Decoder} {lib : Sv1Library}
    {answers : UpstreamTarget → SwapAnswer} {r : Rig} {now : Int} (hreach : Reaches decode lib r)
    (hconnects : r.inner.ConnectsSucceed answers) :
    r.Named now (r.inner.reconcileRouting answers r.store (r.liveOrder now)).active.target ↔
      r.LandsWhen answers now := by
  have hserving := Serving.of_reaches hreach
  unfold Rig.Named Rig.LandsWhen Inner.reconcileRouting
  cases horder : r.liveOrder now with
  | some o =>
    have hget := hserving.store.get_activeForWorker horder
    simp only
    split
    · rcases switchToOrder_target hconnects hget with ⟨hsome, htarget⟩ | ⟨hnone, htarget⟩
      · exact iff_of_true htarget (Or.inr hsome)
      · rw [htarget]
        constructor
        · exact Or.inl
        · rintro (hold | ⟨pool, hpool, hinstall⟩)
          · exact hold
          · exact absurd hinstall (hnone pool hpool)
    · -- The routing names the order: its pool is the one the rig is on.
      rename_i hrouted
      have hactive := hserving.active
      cases hrouting : r.inner.routing with
      | idle => simp [hrouting] at hrouted
      | rented id =>
        simp only [hrouting, Routing.orderId?_rented, ne_eq, Option.some.injEq, not_not] at hrouted
        rw [hrouting] at hactive
        obtain ⟨o', hget', hmem⟩ := hactive
        rw [hrouted, hget] at hget'
        cases hget'
        exact iff_of_true hmem (Or.inl hmem)
  | none =>
    cases hrouting : r.inner.routing with
    | idle =>
      have hactive := hserving.active
      rw [hrouting] at hactive
      simp only [Routing.orderId?_idle]
      rw [show r.inner.defaultTarget = some r.inner.active.target from hactive]
    | rented id =>
      simp only [Routing.orderId?_rented]
      rcases revert_target hconnects with
        ⟨idle, hdefault, hinstall, htarget⟩ | ⟨hnone, htarget⟩ <;> rw [htarget]
      · constructor
        · exact fun hidle => Or.inl ⟨idle, hdefault, hinstall, hidle⟩
        · rintro (⟨idle', hdefault', _, hidle⟩ | ⟨hnone, _⟩)
          · rw [hdefault] at hdefault'
            cases hdefault'
            exact hidle
          · exact absurd hinstall (hnone idle hdefault)
      · constructor
        · exact fun hidle => Or.inr ⟨hnone, hidle⟩
        · rintro (⟨idle, hdefault, hinstall, _⟩ | ⟨_, hidle⟩)
          · exact absurd hinstall (hnone idle hdefault)
          · exact hidle

/-- Every pool speaks SV2. -/
def nativeAnswers : UpstreamTarget → SwapAnswer := fun _ => .native fun _ => reopenedInfo 1

/-- The order is created while the miner is away. -/
def rentedHull : List Event :=
  [.upstreamFrame 0 (openedFrame 1 10 0) 0, .createOrder buyerOrder, .detach 1]

theorem attach_lands_on_order :
    ∃ r, Reaches wireDecoder plainLibrary r ∧ r.liveOrder 0 = some buyerOrder ∧
      r.inner.routing = .idle ∧ r.Named 0 (r.inner.reconcileRouting nativeAnswers r.store
        (r.liveOrder 0)).active.target := by
  have hrun : Reaches wireDecoder plainLibrary _ := run_of_idleRig rentedHull rfl
  refine ⟨_, hrun, by rfl, by rfl, (attach_lands_iff hrun ?_).mpr ?_⟩
  · rintro target _ c ⟨⟩
  · exact Or.inr ⟨buyerOrder.target, List.mem_cons_self, Or.inl rfl⟩

/-- The idle pool that the seller moves to. -/
def editedPool : UpstreamTarget := ⟨"new:34254", "bc1q", "", none⟩

/-- The seller moves the idle rig to another pool, and its miner is dropped. -/
def poolEdit : List Event :=
  [.upstreamFrame 0 (openedFrame 1 10 0) 0, .setSeller (some editedPool), .detach 1]

/-- The miner that comes back is put on the pool that the seller has left. -/
theorem attach_misses_edited_pool :
    ∃ r, Reaches wireDecoder plainLibrary r ∧ r.Admits 0 ∧
      r.inner.ConnectsSucceed nativeAnswers ∧
      ¬r.Named 0
        (r.inner.reconcileRouting nativeAnswers r.store (r.liveOrder 0)).active.target := by
  refine ⟨_, run_of_idleRig poolEdit rfl, Or.inr rfl, ?_, ?_⟩
  · rintro target _ c ⟨⟩
  · intro hnamed
    have hpool : some editedPool = some sellerPool := hnamed
    exact absurd hpool (by decide)

/-! ## The tasks execute the call -/

/-- The SV1 pools answer with lines that the connect accepts. -/
def FromLines (lib : Sv1Library) (answers : UpstreamTarget → SwapAnswer) : Prop :=
  ∀ target conn, answers target = .sv1 conn → ∃ lines, connectSv1Upstream lib lines = some conn

/-- A schedule leads from the rig to one with this state and no swap under way. -/
structure Settles (decode : Decoder) (lib : Sv1Library) (r : Rig) (i : Inner) (r' : Rig) :
    Prop where
  reach : Reachable (step decode lib) r r'
  inner : r'.inner = i
  swap : r'.swap = .idle
  store : r'.store = r.store
  idlePool : r'.idlePool = r.idlePool

section Tasks

variable {decode : Decoder} {lib : Sv1Library} {answers : UpstreamTarget → SwapAnswer}

/-- A step in front. -/
theorem Settles.head {r s r' : Rig} {i : Inner} {e : Event} (h : Settles decode lib s i r')
    (hstep : step decode lib r e = some s) (hstore : s.store = r.store)
    (hidle : s.idlePool = r.idlePool) : Settles decode lib r i r' :=
  ⟨.head hstep trivial h.reach, h.inner, h.swap, h.store.trans hstore, h.idlePool.trans hidle⟩

/-- One call after another. -/
theorem Settles.trans {r s t : Rig} {i j : Inner} (h : Settles decode lib r i s)
    (h' : Settles decode lib s j t) : Settles decode lib r j t :=
  ⟨h.reach.trans h'.reach, h'.inner, h'.swap, h'.store.trans h.store,
    h'.idlePool.trans h.idlePool⟩

theorem Settles.refl {r : Rig} (h : r.swap = .idle) : Settles decode lib r r.inner r :=
  ⟨.refl, rfl, h, rfl, rfl⟩

/-- The sends after an install do not touch the rig. -/
theorem settles_repointing (decode : Decoder) (lib : Sv1Library) (todo : List RepointStep)
    (abandoned : List (Nat × Nat)) {plan : SwapPlan} {members : List Nat} {r : Rig}
    (h : r.swap = .repointing plan todo abandoned members) :
    ∃ r', Settles decode lib r r.inner r' := by
  induction todo generalizing r with
  | nil =>
    induction abandoned generalizing r with
    | nil =>
      have hend : step decode lib r .swapSend = some (r.endSwap plan) := by simp only [step, h]
      exact ⟨_, (Settles.refl (r := r.endSwap plan) rfl).head hend rfl rfl⟩
    | cons a abandoned ih =>
      let s := { r with swap := .repointing plan [] abandoned members }.queue
        (.notice plan.snapshot.generation) (Rig.notices members a.1 a.2)
      have hnotice : step decode lib r .swapSend = some s := by simp only [step, h, s]
      obtain ⟨r', hr'⟩ := ih (r := s) rfl
      exact ⟨r', hr'.head hnotice rfl rfl⟩
  | cons st todo ih =>
    cases hframe : st.frame with
    | none =>
      have hfail : step decode lib r .swapSend = some { r with swap := .idle } := by
        simp only [step, h, hframe]
      exact ⟨_, (Settles.refl (r := { r with swap := .idle }) rfl).head hfail rfl rfl⟩
    | some frame =>
      let s := { r with swap := .repointing plan todo abandoned members }.queue
        (.repoint plan.snapshot.generation) [⟨st.member, frame⟩]
      have hsend : step decode lib r .swapSend = some s := by simp only [step, h, hframe, s]
      obtain ⟨r', hr'⟩ := ih (r := s) rfl
      exact ⟨r', hr'.head hsend rfl rfl⟩

/-- A swap that has begun ends in the state that `swap_upstream` leaves. -/
theorem settles_beginSwap (hlines : FromLines lib answers) (r : Rig) (target : UpstreamTarget)
    (routing : Routing) :
    ∃ r', Settles decode lib (r.beginSwap .attach target routing)
      (r.inner.swapUpstream (answers target) target routing).1 r' := by
  let plan := r.inner.attachPlan target routing
  let begun := r.beginSwap .attach target routing
  have hfail : Settles decode lib { begun with swap := .idle } begun.inner
      { begun with swap := .idle } := .refl rfl
  unfold Inner.swapUpstream
  cases hanswer : answers target with
  | native info =>
    simp only
    split
    · rename_i hreopen
      have hinstall : step decode lib begun (.swapReopened (plan.snapshot.specs.map info)) =
          some (begun.swapNative plan (plan.snapshot.specs.map info)) :=
        if_pos ⟨List.length_map _, hreopen⟩
      obtain ⟨r', hr'⟩ := settles_repointing decode lib _ _
        (r := begun.swapNative plan (plan.snapshot.specs.map info)) rfl
      exact ⟨r', hr'.head hinstall rfl rfl⟩
    · exact ⟨_, hfail.head (e := .swapFailed) rfl rfl rfl⟩
  | sv1 conn =>
    simp only
    split
    · rename_i channel members hchannel
      obtain ⟨lines, hconn⟩ := hlines target conn hanswer
      have hsv1 : step decode lib begun .swapNotSv2 =
          some { begun with swap := .translating plan channel members } := by
        simp only [step, begun, Rig.beginSwap, hchannel]
        rfl
      have hinstall : step decode lib { begun with swap := .translating plan channel members }
          (.swapTranslated lines) = some (begun.swapTranslate plan channel members conn) := by
        simp only [step, hconn]
        rfl
      obtain ⟨r', hr'⟩ := settles_repointing decode lib _ _
        (r := begun.swapTranslate plan channel members conn) rfl
      exact ⟨r', (hr'.head hinstall rfl rfl).head hsv1 rfl rfl⟩
    · rename_i hchannel
      have hrefused : step decode lib begun .swapNotSv2 = some { begun with swap := .idle } := by
        simp only [step, begun, Rig.beginSwap, hchannel]
      exact ⟨_, hfail.head hrefused rfl rfl⟩

theorem settles_switchToOrder (hlines : FromLines lib answers) {r : Rig} (hidle : r.swap = .idle)
    (id : String) :
    ∃ r', Settles decode lib r (r.inner.switchToOrder answers r.store id).1 r' := by
  unfold Inner.switchToOrder
  cases hget : r.store.get id with
  | none => exact ⟨r, .refl hidle⟩
  | some o =>
    simp only
    have hbegin : step decode lib r (.swapOrder .attach id false) =
        some (r.beginSwap .attach o.target (.rented id)) := by
      simp [step, hidle, hget]
    obtain ⟨s, hs⟩ := settles_beginSwap hlines r o.target (.rented id)
    have hprimary := hs.head hbegin rfl rfl
    split
    · rename_i i hswap
      rw [hswap] at hprimary
      exact ⟨s, hprimary⟩
    · rename_i i hswap
      rw [hswap] at hprimary
      cases hfb : o.fallback with
      | none => exact ⟨s, hprimary⟩
      | some fb =>
        have hbegin' : step decode lib s (.swapOrder .attach id true) =
            some (s.beginSwap .attach fb (.rented id)) := by
          simp [step, hprimary.swap, hprimary.store, hget, hfb]
        obtain ⟨t, ht⟩ := settles_beginSwap hlines s fb (.rented id)
        have hsecond := ht.head hbegin' rfl rfl
        rw [hprimary.inner] at hsecond
        exact ⟨t, hprimary.trans hsecond⟩

theorem settles_revert (hlines : FromLines lib answers) {r : Rig} (hidle : r.swap = .idle) :
    ∃ r', Settles decode lib r (r.inner.revert answers).1 r' := by
  unfold Inner.revert
  cases hdefault : r.inner.defaultTarget with
  | none => exact ⟨r, .refl hidle⟩
  | some target =>
    have hbegin : step decode lib r (.swapRevert .attach) =
        some (r.beginSwap .attach target .idle) := by
      simp only [step, hidle, hdefault]
    obtain ⟨s, hs⟩ := settles_beginSwap hlines r target .idle
    exact ⟨s, hs.head hbegin rfl rfl⟩

/-- The tasks of a rig execute `reconcile_routing`: the state it leaves is one
that the rig can reach. -/
theorem reconcile_reaches (hlines : FromLines lib answers) {r : Rig} (hreach : Reaches decode lib r)
    (hidle : r.swap = .idle) (desired : Option Order) :
    ∃ r', Reaches decode lib r' ∧ r'.swap = .idle ∧ r'.store = r.store ∧
      r'.idlePool = r.idlePool ∧
      r'.inner = r.inner.reconcileRouting answers r.store desired := by
  have hsettles : ∃ r', Settles decode lib r
      (r.inner.reconcileRouting answers r.store desired) r' := by
    unfold Inner.reconcileRouting
    split
    · split
      · exact settles_switchToOrder hlines hidle _
      · exact ⟨r, .refl hidle⟩
    · exact settles_revert hlines hidle
    · exact ⟨r, .refl hidle⟩
  obtain ⟨r', hr'⟩ := hsettles
  obtain ⟨worker, spec, store, idlePool, now, failed, answer, r₀, hone, hstart, hrun⟩ := hreach
  exact ⟨r', ⟨worker, spec, store, idlePool, now, failed, answer, r₀, hone, hstart,
    hrun.trans hr'.reach⟩, hr'.swap, hr'.store, hr'.idlePool, hr'.inner⟩

end Tasks

end RentalProxy.Sv2
