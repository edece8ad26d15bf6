import RentalProxy.Sv2.Translator
import RentalProxy.Lib.History

/-!
# The SV2 relay: tasks and their interleavings

A rig is shared by the tasks of its connections, by the reader and the writer of
its upstream, and by whoever swaps the upstream.  `step` is one atomic piece of
one task, up to the next point where it gives up the lock or awaits the network,
and a list of events is one schedule.

* A swap runs under the lock `switch`, so there is one `SwapTask`.  It takes a
  snapshot, talks to the new pool, installs, and then sends the re-point frames
  one after another without the lock.
* The reader of a native pool processes one frame per step.  The reader of a
  translated pool makes one call to the session per step.
* The caller of a swap that succeeded may owe the members a reconnect signal.

`Rig.sent` is what was queued to the members, in order, and says who queued it.
`Rig.told` are the channels that members were told of.
-/

namespace RentalProxy.Sv2

open StepSystem
open Sv1 (upstreamWorker)

/-! ## Tasks -/

/-- Who queued a frame to a member. -/
inductive FrameSource where
  /-- The connection handler. -/
  | reply
  /-- A re-point frame of the swap to this generation. -/
  | repoint (generation : Nat)
  /-- The notice of an abandoned open, by the swap to this generation. -/
  | notice (generation : Nat)
  /-- The reader of this generation. -/
  | reader (generation : Nat)
deriving DecidableEq

/-- A frame queued to a member. -/
structure Queued where
  source : FrameSource
  member : Nat
  frame : EitherFrame
deriving DecidableEq

/-- Who asked for a swap. -/
inductive SwapCaller where
  /-- `reconcile_routing`, for a connection that is being attached. -/
  | attach
  /-- The supervisor of the upstream. -/
  | supervisor
  /-- The background retry of a failed switch. -/
  | retry
deriving DecidableEq

/-- Whether the caller drops the miners after a swap that succeeded. -/
def SwapCaller.reconnects : SwapCaller → Bool
  | .attach => false
  | .supervisor | .retry => true

/-- A swap that has begun. -/
structure SwapPlan where
  caller : SwapCaller
  target : UpstreamTarget
  routing : Routing
  snapshot : SwapSnapshot

namespace SwapPlan

/-- The user identity on the new pool. -/
def identity (plan : SwapPlan) : String := upstreamWorker plan.target.user plan.snapshot.label

/-- The open of every channel can be built for the new pool. -/
def canReopen (plan : SwapPlan) : Bool :=
  plan.snapshot.specs.all fun r =>
    (openChannelUpstream r.spec plan.identity r.spec.requestId).isSome

end SwapPlan

/-- What a channel is re-pointed with. -/
inductive RepointContent where
  | extranoncePrefix (bytes : List UInt8)
  | target (bytes : List UInt8)
deriving DecidableEq

/-- One send of the re-pointing. -/
structure RepointStep where
  member : Nat
  downChannelId : Nat
  downGroupId : Nat
  content : RepointContent
deriving DecidableEq

/-- The frame to send.  One that cannot be built ends the swap with an error. -/
def RepointStep.frame (s : RepointStep) : Option EitherFrame :=
  match s.content with
  | .extranoncePrefix bytes => setExtranoncePrefix s.downChannelId bytes
  | .target bytes => setTarget s.downChannelId bytes

/-- The work of this id is work of the channel that is re-pointed. -/
def RepointStep.covers (s : RepointStep) (cid : Nat) : Bool :=
  decide (cid = s.downChannelId) || (decide (s.downGroupId ≠ 0) && decide (cid = s.downGroupId))

/-- The sends for one channel: the prefix, then the target. -/
def Repoint.steps (r : Repoint) : List RepointStep :=
  [⟨r.owner, r.downChannelId, r.downGroupId, .extranoncePrefix r.extranoncePrefix⟩,
    ⟨r.owner, r.downChannelId, r.downGroupId, .target r.target⟩]

/-- The re-pointing of the channels whose owner is in the snapshot. -/
def repointSteps (members : List Nat) (rs : List Repoint) : List RepointStep :=
  (rs.filter fun r => decide (r.owner ∈ members)).flatMap Repoint.steps

/-- Where a swap stands. -/
inductive SwapTask where
  | idle
  /-- Talking to the new pool, which may turn out to be native. -/
  | connecting (plan : SwapPlan)
  /-- Not an SV2 pool: talking SV1 to it, with the channel of that moment. -/
  | translating (plan : SwapPlan) (channel : Reopen) (members : List Nat)
  /-- Installed: frames to send, and opens of the old pool to give notice of. -/
  | repointing (plan : SwapPlan) (todo : List RepointStep) (abandoned : List (Nat × Nat))
      (members : List Nat)

/-- The sends that a swap has still to make. -/
def SwapTask.todo : SwapTask → List RepointStep
  | .idle | .connecting _ | .translating .. => []
  | .repointing _ todo _ _ => todo

/-- No swap is under way. -/
def SwapTask.isIdle : SwapTask → Bool
  | .idle => true
  | .connecting _ | .translating .. | .repointing .. => false

/-- The driver of a translated upstream. -/
structure Translator where
  downCid : Nat
  state : Sv1UpState
  /-- The calls of the line in hand that are still to be made. -/
  calls : List SessionCall
  /-- How many of the frames of `to_up` the writer has taken. -/
  written : Nat

/-- What an install owes the members, kept to state the order of frames. -/
structure Install where
  generation : Nat
  owed : List RepointStep

/-- A rig with its tasks. -/
structure Rig where
  inner : Inner
  store : OrderStore
  /-- The idle pool that the seller store holds now. -/
  idlePool : Option UpstreamTarget
  /-- Everything queued to the members, oldest first. -/
  sent : List Queued
  swap : SwapTask
  translator : Option Translator
  /-- Reconnect signals that callers of swaps still owe. -/
  reconnects : Nat
  /-- The channels, by member and id, that were gone when their member was sent
  a reconnect signal. -/
  informed : List (Nat × Nat)
  /-- The swaps that installed an upstream, oldest first. -/
  installs : List Install

/-- A channel that a member was told of in an OpenSuccess: the member, the
channel and the request it answers. -/
def Queued.told? (q : Queued) : Option (Nat × Nat × Nat) :=
  q.frame.openSuccess?.map fun (cid, req) => (q.member, cid, req)

namespace Rig

/-- The channels the members were told of. -/
def told (r : Rig) : List (Nat × Nat × Nat) := r.sent.filterMap Queued.told?

/-- Queue frames to members. -/
def queue (r : Rig) (source : FrameSource) (sends : List Send) : Rig :=
  { r with sent := r.sent ++ sends.map fun s => ⟨source, s.member, s.frame⟩ }

/-- Buffer the credit of accepted shares. -/
def credit (r : Rig) (c : Credit) : Rig :=
  { r with store := { r.store with pending := r.store.pending.credit c } }

/-- Buffer a submitted share. -/
def submitted (r : Rig) (order : Option String) : Rig :=
  match order with
  | some o => { r with store := { r.store with pending := r.store.pending.addSubmitted o 1 } }
  | none => r

/-- The start of a swap: the snapshot. -/
def beginSwap (r : Rig) (caller : SwapCaller) (target : UpstreamTarget) (routing : Routing) :
    Rig :=
  { r with
    inner := r.inner.snapshot.1
    swap := .connecting { caller, target, routing, snapshot := r.inner.snapshot.2 } }

/-- The install of a native pool that opened every channel of the snapshot. -/
def swapNative (r : Rig) (plan : SwapPlan) (infos : List ChannelInfo) : Rig :=
  let opened := plan.snapshot.specs.zip infos
  let (inner, abandoned) :=
    installNative plan.snapshot.generation plan.target plan.routing opened r.inner
  let steps :=
    repointSteps plan.snapshot.members (opened.map fun (spec, info) => repointOf spec info)
  { r with
    inner
    swap := .repointing plan steps abandoned plan.snapshot.members
    translator := none
    installs := r.installs ++ [⟨plan.snapshot.generation, steps⟩] }

/-- What the channel of a translated pool is re-pointed with. -/
def translateRepoint (channel : Reopen) (conn : Sv1UpConn) : Repoint where
  downChannelId := channel.downChannelId
  owner := channel.owner
  extranoncePrefix := conn.extranonce1
  target := targetFromDifficulty conn.initialDiff
  downGroupId := 0

/-- The install of a translated pool. -/
def swapTranslate (r : Rig) (plan : SwapPlan) (channel : Reopen) (members : List Nat)
    (conn : Sv1UpConn) : Rig :=
  let (inner, abandoned) :=
    installTranslate plan.snapshot.generation plan.target plan.routing channel conn.initialDiff
      r.inner
  let steps := repointSteps members [translateRepoint channel conn]
  { r with
    inner
    swap := .repointing plan steps abandoned members
    translator := some {
      downCid := channel.downChannelId
      state := .new conn plan.identity channel.spec.isExtended
      calls := [], written := 0 }
    installs := r.installs ++ [⟨plan.snapshot.generation, steps⟩] }

/-- The notice of an abandoned open, under the request id of the upstream. -/
def notices (members : List Nat) (member requestId : Nat) : List Send :=
  match openChannelError requestId "upstream switched; please reopen" with
  | some frame => if member ∈ members then [⟨member, frame⟩] else []
  | none => []

/-- The end of a swap that succeeded. -/
def endSwap (r : Rig) (plan : SwapPlan) : Rig :=
  { r with
    swap := .idle
    reconnects := r.reconnects + if plan.caller.reconnects then 1 else 0 }

/-- The members hold their channels in the table. -/
def holds (r : Rig) (member cid : Nat) : Bool :=
  r.inner.channels.any fun c => decide (c.downChannelId = cid) && decide (c.owner = member)

/-- `force_reconnect`, which reaches every member. -/
def signal (r : Rig) : Rig :=
  { r with
    reconnects := r.reconnects - 1
    informed := r.informed ++ ((r.told.map fun t => (t.1, t.2.1)).filter fun t =>
      decide (t.1 ∈ r.inner.members) && !r.holds t.1 t.2) }

/-- One call of the translating reader, and the member that the iteration over
the table yields. -/
def translateCall (r : Rig) (call : SessionCall) (downCid member : Nat) (now : Rat) : Rig :=
  let generation := r.inner.active.generation
  match call with
  | .sendTranslateFrame frame =>
    r.queue (.reader generation) (sendTranslateFrame generation member frame r.inner)
  | .setTranslateDiff diff =>
    { r with inner := setTranslateDiff generation downCid diff r.inner }
  | .creditTranslate =>
    let (inner, credit) := creditTranslate now generation downCid r.inner
    { r with inner }.credit credit

end Rig

@[simp] theorem Rig.queue_inner (r : Rig) (source : FrameSource) (sends : List Send) :
    (r.queue source sends).inner = r.inner := rfl
@[simp] theorem Rig.queue_store (r : Rig) (source : FrameSource) (sends : List Send) :
    (r.queue source sends).store = r.store := rfl
@[simp] theorem Rig.queue_sent (r : Rig) (source : FrameSource) (sends : List Send) :
    (r.queue source sends).sent =
      r.sent ++ sends.map fun s => ⟨source, s.member, s.frame⟩ := rfl
@[simp] theorem Rig.credit_inner (r : Rig) (c : Credit) : (r.credit c).inner = r.inner := rfl
@[simp] theorem Rig.credit_sent (r : Rig) (c : Credit) : (r.credit c).sent = r.sent := rfl
@[simp] theorem Rig.submitted_inner (r : Rig) (o : Option String) :
    (r.submitted o).inner = r.inner := by cases o <;> rfl
@[simp] theorem Rig.submitted_sent (r : Rig) (o : Option String) :
    (r.submitted o).sent = r.sent := by cases o <;> rfl

theorem Rig.mem_queue {r : Rig} {source : FrameSource} {sends : List Send} {q : Queued}
    (h : q ∈ (r.queue source sends).sent) :
    q ∈ r.sent ∨ ∃ s ∈ sends, q = ⟨source, s.member, s.frame⟩ := by
  rcases List.mem_append.mp h with hold | hnew
  · exact Or.inl hold
  · obtain ⟨s, hs, rfl⟩ := List.mem_map.mp hnew
    exact Or.inr ⟨s, hs, rfl⟩

/-- Swap, driver, signals and installs are the same. -/
structure SameTasks (r r' : Rig) : Prop where
  swap : r'.swap = r.swap
  translator : r'.translator = r.translator
  reconnects : r'.reconnects = r.reconnects
  informed : r'.informed = r.informed
  installs : r'.installs = r.installs

theorem SameTasks.queue (r : Rig) (source : FrameSource) (sends : List Send) :
    SameTasks r (r.queue source sends) := ⟨rfl, rfl, rfl, rfl, rfl⟩

theorem SameTasks.credit (r : Rig) (c : Credit) : SameTasks r (r.credit c) :=
  ⟨rfl, rfl, rfl, rfl, rfl⟩

theorem SameTasks.submitted (r : Rig) (o : Option String) : SameTasks r (r.submitted o) := by
  cases o <;> exact ⟨rfl, rfl, rfl, rfl, rfl⟩

/-! ## Steps -/

/-- A step of one task. -/
inductive Event where
  /-- A connection is attached to the rig. -/
  | attach (spec : OpenSpec)
  | openChannel (member : Nat) (spec : OpenSpec)
  /-- A channel-scoped frame of a member. -/
  | minerFrame (member : Nat) (frame : Sv2Frame)
  | detach (member : Nat)
  /-- The reader of a native upstream processes a frame. -/
  | upstreamFrame (generation : Nat) (frame : Sv2Frame) (now : Rat)
  /-- The reader of the translated upstream takes a line. -/
  | translateLine (line : RpcMessage)
  | translateCall (member : Nat) (now : Rat)
  /-- The writer of the translated upstream takes a frame. -/
  | translateWrite
  /-- A swap to the target of an order, or to its fallback. -/
  | swapOrder (caller : SwapCaller) (orderId : String) (fallback : Bool)
  /-- A swap to the idle pool of the rig. -/
  | swapRevert (caller : SwapCaller)
  /-- The swap fails before it installs. -/
  | swapFailed
  /-- The new pool is native and has opened every channel. -/
  | swapReopened (infos : List ChannelInfo)
  | swapNotSv2
  /-- The lines of an SV1 pool to the handshake. -/
  | swapTranslated (lines : List RpcMessage)
  /-- The next send of the swap, or its end. -/
  | swapSend
  /-- The caller of a swap sends its signal. -/
  | reconnect
  | createOrder (order : Order)
  | cancelOrder (orderId : String) (now : Int)
  | expireOrders (now : Int)
  | flushOrders
  /-- The seller's row is written or deleted. -/
  | setSeller (pool : Option UpstreamTarget)

variable (decode : Decoder) (lib : Sv1Library)

/-- One step of one task. -/
def step (r : Rig) : Event → Option Rig
  | .attach spec => (attachMember spec r.inner).map fun (inner, _) => { r with inner }
  | .openChannel member spec =>
    if member ∈ r.inner.members then
      let (inner, sends) := openChannel member spec r.inner
      some ({ r with inner }.queue .reply sends)
    else none
  | .minerFrame member frame =>
    if member ∈ r.inner.members then
      let (inner, order) := minerFrame frame r.inner
      some ({ r with inner }.submitted order)
    else none
  | .detach member =>
    if member ∈ r.inner.members then
      some { r with inner := (detachMember member r.inner).1 }
    else none
  | .upstreamFrame generation frame now =>
    if generation = r.inner.active.generation → r.translator = none then
      let (inner, credit, sends) := onUpstreamFrame decode now generation frame r.inner
      some (({ r with inner }.credit credit).queue (.reader generation) sends)
    else none
  | .translateLine line =>
    match r.translator with
    | some ⟨downCid, state, [], written⟩ =>
      let (state, calls) := handleSv1Line lib downCid line state
      some { r with translator := some ⟨downCid, state, calls, written⟩ }
    | _ => none
  | .translateCall member now =>
    match r.translator with
    | some ⟨downCid, state, call :: calls, written⟩ =>
      if r.inner.members ≠ [] → member ∈ r.inner.members then
        some ({ r with translator := some ⟨downCid, state, calls, written⟩ }.translateCall
          call downCid member now)
      else none
    | _ => none
  | .translateWrite =>
    match r.translator with
    | some ⟨downCid, state, calls, written⟩ =>
      match r.inner.active.toUp[written]? with
      | some (.received frame) => some { r with
          translator := some ⟨downCid, (translateSubmit decode frame state).1, calls, written + 1⟩ }
      | _ => none
    | none => none
  | .swapOrder caller orderId fallback =>
    match r.swap, r.store.get orderId with
    | .idle, some o =>
      (if fallback then o.fallback else some o.target).map fun target =>
        r.beginSwap caller target (.rented orderId)
    | _, _ => none
  | .swapRevert caller =>
    match r.swap, r.inner.defaultTarget with
    | .idle, some target => some (r.beginSwap caller target .idle)
    | _, _ => none
  | .swapFailed =>
    match r.swap with
    | .connecting _ | .translating .. => some { r with swap := .idle }
    | _ => none
  | .swapReopened infos =>
    match r.swap with
    | .connecting plan =>
      if infos.length = plan.snapshot.specs.length ∧ plan.canReopen = true then
        some (r.swapNative plan infos)
      else none
    | _ => none
  | .swapNotSv2 =>
    match r.swap with
    | .connecting plan =>
      match r.inner.translateSnapshot with
      | some (channel, members) => some { r with swap := .translating plan channel members }
      | none => some { r with swap := .idle }
    | _ => none
  | .swapTranslated lines =>
    match r.swap with
    | .translating plan channel members =>
      match connectSv1Upstream lib lines with
      | some conn => some (r.swapTranslate plan channel members conn)
      | none => some { r with swap := .idle }
    | _ => none
  | .swapSend =>
    match r.swap with
    | .repointing plan (s :: todo) abandoned members =>
      match s.frame with
      | some frame => some ({ r with swap := .repointing plan todo abandoned members }.queue
          (.repoint plan.snapshot.generation) [⟨s.member, frame⟩])
      | none => some { r with swap := .idle }
    | .repointing plan [] ((member, requestId) :: abandoned) members =>
      some ({ r with swap := .repointing plan [] abandoned members }.queue
        (.notice plan.snapshot.generation) (Rig.notices members member requestId))
    | .repointing plan [] [] _ => some (r.endSwap plan)
    | _ => none
  | .reconnect => if 0 < r.reconnects then some r.signal else none
  | .createOrder order => (r.store.create order).map fun store => { r with store }
  | .cancelOrder orderId now =>
    (r.store.cancel orderId now).map fun (_, store) => { r with store }
  | .expireOrders now => some { r with store := (r.store.takeExpired now).2 }
  | .flushOrders => some { r with store := r.store.flush }
  | .setSeller pool => some { r with idlePool := pool }

/-! ## The first member -/

/-- How a pool meets the first connect of a rig. -/
inductive InitialAnswer where
  /-- There is no connection, or it ends before the setup. -/
  | unreachable
  | native
  | sv1 (lines : List RpcMessage)

/-- The placeholder session with its first member. -/
def placeholder (target : UpstreamTarget) (routing : Routing)
    (defaultTarget : Option UpstreamTarget) (worker : String) : Inner where
  active := { generation := 0, target, toUp := [] }
  generationCounter := 0
  channels := []
  upToDown := ∅
  groupDown := ∅
  pending := ∅
  nextDownCid := 1
  nextUpReq := 1
  members := [1]
  nextMemberId := 2
  routing
  defaultTarget
  hashrate := .new 600
  deliveredWork := 0
  acceptedShares := 0
  submittedShares := 0
  acceptLowLogged := false
  label := worker
  translating := false

/-- The id of the first member. -/
def firstMember : Nat := 1

/-- `install_sv2_initial`: the state that it leaves, and whether it returned `Ok`.  The upstream is
installed and the open is pending when the frame turns out not to fit. -/
def Inner.installSv2Initial (spec : OpenSpec) (target : UpstreamTarget) (routing : Routing)
    (i : Inner) : Inner × Bool :=
  let installed := { i with
    active := { generation := 0, target, toUp := [] }
    routing
    translating := false
    nextUpReq := i.nextUpReq + 1
    pending := i.pending.insert i.nextUpReq (firstMember, spec) }
  match openChannelUpstream spec (upstreamWorker target.user i.label) i.nextUpReq with
  | some frame => (installed.sendUp frame, true)
  | none => (installed, false)

/-- What `install_sv1_translate_initial` makes up as the answer of a pool. -/
def translatedInfo (spec : OpenSpec) (downCid : Nat) (conn : Sv1UpConn) : ChannelInfo where
  requestId := spec.requestId
  upChannelId := downCid
  extranoncePrefix := conn.extranonce1
  target := targetFromDifficulty conn.initialDiff
  extranonceSize := conn.extranonce2Size
  groupChannelId := 0

/-- `install_sv1_translate_initial`: the state that it leaves, and the OpenSuccess of the first
member, `none` when it cannot be built and the install returns an error. -/
def Inner.installSv1TranslateInitial (spec : OpenSpec) (conn : Sv1UpConn)
    (target : UpstreamTarget) (routing : Routing) (i : Inner) : Inner × Option EitherFrame :=
  let cid := i.nextDownCid
  let i := { i with nextDownCid := cid + 1 }
  match openSuccessDownstream spec cid 0 (translatedInfo spec cid conn) with
  | some reply =>
    ({ i with
        active := { generation := i.active.generation, target, toUp := [] }
        channels := [translatedChannel ⟨cid, firstMember, spec, 0⟩ conn.initialDiff]
        upToDown := (∅ : AList fun _ : Nat => Nat).insert cid cid
        groupDown := ∅
        pending := ∅
        routing
        translating := true }, some reply)
  | none => (i, none)

/-- Where the first channel opens: on the pool of the live order, else on the idle pool.  `none`
refuses the worker. -/
def initialTarget (order : Option Order) (idlePool : Option UpstreamTarget) :
    Option (UpstreamTarget × Routing) :=
  match order, idlePool with
  | some o, _ => some (o.target, .rented o.id)
  | none, some idle => some (idle, .idle)
  | none, none => none

/-- A rig that has no upstream yet. -/
def Rig.unconnected (store : OrderStore) (idlePool : Option UpstreamTarget) (inner : Inner) :
    Rig where
  inner
  store
  idlePool
  sent := []
  swap := .idle
  translator := none
  reconnects := 0
  informed := []
  installs := []

/-- `connect_and_install_initial`: the rig that it leaves, and whether it returned `Ok`. -/
def Rig.connectInitial (spec : OpenSpec) (target : UpstreamTarget) (routing : Routing)
    (answer : InitialAnswer) (r : Rig) : Rig × Bool :=
  match answer with
  | .unreachable => (r, false)
  | .native =>
    let (inner, ok) := r.inner.installSv2Initial spec target routing
    ({ r with inner }, ok)
  | .sv1 lines =>
    match connectSv1Upstream lib lines with
    | none => (r, false)
    | some conn =>
      match r.inner.installSv1TranslateInitial spec conn target routing with
      | (inner, none) => ({ r with inner }, false)
      | (inner, some reply) =>
        ({ r with
            inner
            translator := some {
              downCid := r.inner.nextDownCid
              state := .new conn (upstreamWorker target.user r.inner.label) spec.isExtended
              calls := [], written := 0 } }.queue .reply [⟨firstMember, reply⟩], true)

/-- A rig once its first upstream is installed.  `failed` is how the first pool met a connect that
failed.  Then the fallback of the order is next, on the state that this connect has left.  A pool
that was not sent an open is taken to send nothing for a channel. -/
def start (worker : String) (spec : OpenSpec) (store : OrderStore)
    (idlePool : Option UpstreamTarget) (now : Int) (failed : Option InitialAnswer)
    (answer : InitialAnswer) : Option Rig := do
  let order := store.activeForWorker worker now
  let (target, routing) ← initialTarget order idlePool
  let rig := Rig.unconnected store idlePool (placeholder target routing idlePool worker)
  match failed with
  | none =>
    match rig.connectInitial lib spec target routing answer with
    | (r, true) => some r
    | (_, false) => none
  | some first =>
    match rig.connectInitial lib spec target routing first with
    | (_, true) => none
    | (left, false) =>
      let fb ← order.bind Order.fallback
      match left.connectInitial lib spec fb routing answer with
      | (r, true) => some r
      | (_, false) => none

/-- The states that a rig can reach, along steps that meet `G`, from a store
that keeps its unique index. -/
def ReachesUnder (G : Rig → Event → Prop) (r : Rig) : Prop :=
  ∃ worker spec store idlePool now failed answer r₀,
    store.OneActive ∧
      start lib worker spec store idlePool now failed answer = some r₀ ∧
      Run (step decode lib) G r₀ r

/-- The states that a rig can reach. -/
def Reaches (r : Rig) : Prop := ReachesUnder decode lib (fun _ _ => True) r

/-- The induction rule for rigs. -/
theorem ReachesUnder.invariant {decode : Decoder} {lib : Sv1Library}
    {G : Rig → Event → Prop} {I : Rig → Prop} {r : Rig} (h : ReachesUnder decode lib G r)
    (hstart : ∀ worker spec store idlePool now failed answer r₀, store.OneActive →
      start lib worker spec store idlePool now failed answer = some r₀ → I r₀)
    (hstep : ∀ x e y, I x → G x e → step decode lib x e = some y → I y) : I r := by
  obtain ⟨worker, spec, store, idlePool, now, failed, answer, r₀, hstore, hr₀, hrun⟩ := h
  exact hrun.invariant (hstart worker spec store idlePool now failed answer r₀ hstore hr₀) hstep

/-! ## Runs with a history -/

section History

variable {γ : Type} (note : Rig → Event → γ → γ) (init : Rig → γ)

/-- The states that a rig can reach, with the history of how it got there. -/
def ReachesWith (G : Rig × γ → Event → Prop) (x : Rig × γ) : Prop :=
  ∃ worker spec store idlePool now failed answer r₀,
    store.OneActive ∧
      start lib worker spec store idlePool now failed answer = some r₀ ∧
      Run (observed (step decode lib) note) G (r₀, init r₀) x

variable {decode lib note init}

/-- The induction rule for rigs with a history. -/
theorem ReachesWith.invariant {G : Rig × γ → Event → Prop} {I : Rig → γ → Prop} {x : Rig × γ}
    (h : ReachesWith decode lib note init G x)
    (hstart : ∀ worker spec store idlePool now failed answer r₀, store.OneActive →
      start lib worker spec store idlePool now failed answer = some r₀ → I r₀ (init r₀))
    (hstep : ∀ r history e r', I r history → G (r, history) e → step decode lib r e = some r' →
      I r' (note r e history)) : I x.1 x.2 := by
  obtain ⟨worker, spec, store, idlePool, now, failed, answer, r₀, hstore, hr₀, hrun⟩ := h
  refine hrun.invariant (I := fun y => I y.1 y.2)
    (hstart worker spec store idlePool now failed answer r₀ hstore hr₀) ?_
  intro y e z hI hG hnext
  obtain ⟨hnext, hhistory⟩ := observed_eq_some.mp hnext
  rw [hhistory]
  exact hstep y.1 y.2 e z.1 hI hG hnext

/-- The state without its history. -/
theorem ReachesWith.reaches {G : Rig × γ → Event → Prop} {H : Rig → Event → Prop} {x : Rig × γ}
    (h : ReachesWith decode lib note init G x) (hGH : ∀ z e, G z e → H z.1 e) :
    ReachesUnder decode lib H x.1 := by
  obtain ⟨worker, spec, store, idlePool, now, failed, answer, r₀, hstore, hr₀, hrun⟩ := h
  exact ⟨worker, spec, store, idlePool, now, failed, answer, r₀, hstore, hr₀,
    hrun.unobserved hGH⟩

/-- The induction rule, with what holds of every state that a rig can reach. -/
theorem ReachesWith.invariant_reaches {G : Rig × γ → Event → Prop} {I : Rig → γ → Prop}
    {x : Rig × γ} (h : ReachesWith decode lib note init G x)
    (hstart : ∀ worker spec store idlePool now failed answer r₀, store.OneActive →
      start lib worker spec store idlePool now failed answer = some r₀ → I r₀ (init r₀))
    (hstep : ∀ r history e r', Reaches decode lib r → I r history → G (r, history) e →
      step decode lib r e = some r' → I r' (note r e history)) : I x.1 x.2 := by
  have hboth : Reaches decode lib x.1 ∧ I x.1 x.2 := by
    refine h.invariant (I := fun r history => Reaches decode lib r ∧ I r history) ?_ ?_
    · intro worker spec store idlePool now failed answer r₀ hstore hr₀
      exact ⟨⟨worker, spec, store, idlePool, now, failed, answer, r₀, hstore, hr₀, .refl⟩,
        hstart worker spec store idlePool now failed answer r₀ hstore hr₀⟩
    · rintro r history e r' ⟨hreaches, hI⟩ hG hnext
      refine ⟨?_, hstep r history e r' hreaches hI hG hnext⟩
      obtain ⟨worker, spec, store, idlePool, now, failed, answer, r₀, hstore, hr₀, hrun⟩ :=
        hreaches
      exact ⟨worker, spec, store, idlePool, now, failed, answer, r₀, hstore, hr₀,
        .tail hrun hnext trivial⟩
  exact hboth.2

/-- Every state that a rig can reach has a history. -/
theorem ReachesUnder.exists_history {G : Rig → Event → Prop} {r : Rig}
    (h : ReachesUnder decode lib G r) :
    ∃ history, ReachesWith decode lib note init (fun x e => G x.1 e) (r, history) := by
  obtain ⟨worker, spec, store, idlePool, now, failed, answer, r₀, hstore, hr₀, hrun⟩ := h
  obtain ⟨history, hhistory⟩ := hrun.exists_history note (init r₀)
  exact ⟨history, worker, spec, store, idlePool, now, failed, answer, r₀, hstore, hr₀, hhistory⟩

end History

/-! ## A concrete rig -/

/-- The open of an Extended channel. -/
def extendedOpen (requestId : Nat) : OpenSpec := .extended requestId 1000 maxTarget 4

/-- The idle pool of the seller. -/
def sellerPool : UpstreamTarget := ⟨"seller:34254", "bc1q", "", none⟩

/-- An order of the worker. -/
def buyerOrder : Order where
  id := "o1"
  worker := "bc1q.rig"
  target := ⟨"buyer:34254", "bc1p", "", none⟩

/-- What the concrete runs take for the SV1 library. -/
def plainLibrary : Sv1Library where
  notify _ := none
  setDifficulty := RpcMessage.setDifficulty?
  merkleRoot _ _ _ _ := none

/-- A pool answers an open. -/
def openedFrame (requestId channelId groupId : Nat) : Sv2Frame where
  msgType := .openExtendedMiningChannelSuccess
  payload := leBytes 4 requestId ++ leBytes 4 channelId ++ maxTarget ++ leBytes 2 4 ++
    [2, 8, 0] ++ leBytes 4 groupId

/-- What a pool answers the open of a channel with, on a swap. -/
def reopenedInfo (channelId : Nat) : ChannelInfo where
  requestId := 7
  upChannelId := channelId
  extranoncePrefix := [9, 9]
  target := maxTarget
  extranonceSize := 4
  groupChannelId := 0

/-- A frame of work for an upstream channel. -/
def jobFrame (channelId : Nat) : Sv2Frame where
  msgType := .newExtendedMiningJob
  payload := leBytes 4 channelId ++ leBytes 4 1

/-- What an SV1 pool answers the handshake. -/
def sv1Handshake : List RpcMessage :=
  [{ id := some (.num (.int 1)), result := some (.obj [("version-rolling", .bool true)]) },
    { id := some (.num (.int 2)), result := some (.arr [.arr [], .str "0a0b", .num (.int 4)]) },
    { id := some (.num (.int 3)), result := some (.bool true) }]

/-- A rig of one member, at its idle pool. -/
def idleRig : Option Rig :=
  start plainLibrary "bc1q.rig" (extendedOpen 7) {} (some sellerPool) 0 none .native

/-- A schedule executed from this rig is a run of it. -/
theorem run_of_idleRig {G : Rig → Event → Prop} [hG : ∀ r, DecidablePred (G r)]
    (es : List Event) {r : Rig}
    (h : (idleRig.bind (runWhile (step wireDecoder plainLibrary)
      (fun x e => decide (G x e)) · es)) = some r) :
    ReachesUnder wireDecoder plainLibrary G r := by
  obtain ⟨r₀, hstart, hrun⟩ := Option.bind_eq_some_iff.mp h
  exact ⟨_, _, {}, _, _, _, _, r₀, List.Pairwise.nil, hstart,
    .of_runWhile (fun _ _ => of_decide_eq_true) hrun⟩

/-- A test on the state that the schedule ends in. -/
theorem exists_of_idleRig {G : Rig → Event → Prop} [hG : ∀ r, DecidablePred (G r)]
    (es : List Event) {p : Rig → Bool}
    (h : (idleRig.bind (runWhile (step wireDecoder plainLibrary)
      (fun x e => decide (G x e)) · es)).any p = true) :
    ∃ r, ReachesUnder wireDecoder plainLibrary G r ∧ p r = true := by
  obtain ⟨r, hr, hp⟩ := (Option.any_eq_true ..).mp h
  exact ⟨r, run_of_idleRig es hr, hp⟩

/-- A test on the state and the history that a schedule ends in. -/
theorem exists_history_of_start {decode : Decoder} {lib : Sv1Library} {worker : String}
    {spec : OpenSpec} {idlePool : Option UpstreamTarget} {now : Int} {failed : Option InitialAnswer}
    {answer : InitialAnswer} {γ : Type} (note : Rig → Event → γ → γ) (init : Rig → γ)
    {G : Rig × γ → Event → Prop} [hG : ∀ x, DecidablePred (G x)] (es : List Event)
    {p : Rig × γ → Bool}
    (h : ((start lib worker spec {} idlePool now failed answer).bind fun r₀ =>
      runWhile (observed (step decode lib) note) (fun x e => decide (G x e))
        (r₀, init r₀) es).any p = true) :
    ∃ x, ReachesWith decode lib note init G x ∧ p x = true := by
  obtain ⟨x, hx, hp⟩ := (Option.any_eq_true ..).mp h
  obtain ⟨r₀, hstart, hrun⟩ := Option.bind_eq_some_iff.mp hx
  exact ⟨x, ⟨_, _, {}, _, _, _, _, r₀, List.Pairwise.nil, hstart,
    .of_runWhile (fun _ _ => of_decide_eq_true) hrun⟩, hp⟩

/-- A test on the state and the history that a schedule of the concrete rig ends in. -/
theorem exists_history_of_idleRig {γ : Type} (note : Rig → Event → γ → γ) (init : Rig → γ)
    {G : Rig × γ → Event → Prop} [hG : ∀ x, DecidablePred (G x)] (es : List Event)
    {p : Rig × γ → Bool}
    (h : (idleRig.bind fun r₀ => runWhile (observed (step wireDecoder plainLibrary) note)
      (fun x e => decide (G x e)) (r₀, init r₀) es).any p = true) :
    ∃ x, ReachesWith wireDecoder plainLibrary note init G x ∧ p x = true :=
  exists_history_of_start note init es h

end RentalProxy.Sv2
