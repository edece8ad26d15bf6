import RentalProxy.Sv1.Relay

/-!
# The SV2 relay: state and operations

The rig of `proto/sv2/relay.rs`: one swappable upstream shared by the members,
the downstream connections of one worker.  Every definition is one function of
the source, or the part of it that runs under one hold of the session lock.

* `Inner` is the state behind the lock.  A member is its id, and what is sent to
  its sink is returned as a list of `Send`s.
* `onUpstreamFrame` processes a frame of a native pool: it finalizes opens,
  keeps the difficulty of a channel, credits accepted shares and forwards the
  frame to the members it is for.
* `attachMember`, `openChannel`, `minerFrame` and `detachMember` are the steps
  of a connection.
* `Inner.snapshot`, `reopenChannels`, `installNative`, `translateSnapshot` and
  `installTranslate` are the parts of a swap.
* `setTranslateDiff`, `creditTranslate` and `sendTranslateFrame` are the calls
  of the reader that translates an SV1 pool.

The counters of the source are 32-bit and do not wrap within a session; here
they are natural numbers.
-/

namespace RentalProxy.Sv2

open Sv1 (upstreamWorker)

/-! ## State -/

/-- One mining channel. -/
structure Channel where
  /-- The id the miner sees, stable across swaps. -/
  downChannelId : Nat
  upChannelId : Nat
  spec : OpenSpec
  /-- Current share difficulty from the channel's target. -/
  difficulty : Rat
  /-- The member that opened the channel. -/
  owner : Nat
  /-- The group the pool put the channel in, `0` when ungrouped. -/
  upGroupId : Nat
  /-- The group id the miner was told in its OpenSuccess. -/
  downGroupId : Nat
deriving DecidableEq

/-- The live upstream of a rig. -/
structure ActiveUpstream where
  generation : Nat
  target : UpstreamTarget
  /-- The frames handed to `to_up`. -/
  toUp : List EitherFrame

/-- The rig state behind the lock. -/
structure Inner where
  active : ActiveUpstream
  generationCounter : Nat
  channels : List Channel
  /-- Upstream to downstream channel id. -/
  upToDown : AList fun _ : Nat => Nat
  /-- Upstream group id to the downstream group id of its miners. -/
  groupDown : AList fun _ : Nat => Nat
  /-- Opens awaiting the pool, by proxy-assigned request id. -/
  pending : AList fun _ : Nat => Nat × OpenSpec
  nextDownCid : Nat
  nextUpReq : Nat
  members : List Nat
  nextMemberId : Nat
  routing : Routing
  /-- The seller's idle pool when the rig was created. -/
  defaultTarget : Option UpstreamTarget
  hashrate : HashrateWindow
  deliveredWork : Rat
  acceptedShares : Nat
  submittedShares : Nat
  acceptLowLogged : Bool
  label : String
  translating : Bool

/-- A frame for a member. -/
structure Send where
  member : Nat
  frame : EitherFrame
deriving DecidableEq

namespace Inner

/-- A frame for a member, dropped when the member has left. -/
def toMember (i : Inner) (member : Nat) (frame : EitherFrame) : List Send :=
  if member ∈ i.members then [⟨member, frame⟩] else []

/-- Hand a frame to the active upstream. -/
def sendUp (i : Inner) (frame : EitherFrame) : Inner :=
  { i with active := { i.active with toUp := i.active.toUp ++ [frame] } }

/-- `up_for_down`. -/
def upForDown (i : Inner) (downCid : Nat) : Option Nat :=
  (i.channels.find? fun c => decide (c.downChannelId = downCid)).map Channel.upChannelId

/-- `register_channel`. -/
def registerChannel (i : Inner) (c : Channel) : Inner :=
  { i with
    upToDown := i.upToDown.insert c.upChannelId c.downChannelId
    channels := i.channels ++ [c] }

/-- `group_recipients`: the `(down_group_id, member)` pairs of an upstream
group, each once. -/
def groupRecipients (i : Inner) (upCid : Nat) : List (Nat × Nat) :=
  if upCid = 0 then []
  else ((i.channels.filter fun c =>
    decide (c.upGroupId = upCid) && c.spec.isExtended).map fun c =>
      (c.downGroupId, c.owner)).eraseDups

/-- `add_member`. -/
def addMember (i : Inner) : Inner × Nat :=
  ({ i with nextMemberId := i.nextMemberId + 1, members := i.members ++ [i.nextMemberId] },
    i.nextMemberId)

/-- The member that opened the channel behind an upstream id. -/
def ownerOfUp (i : Inner) (upCid : Nat) : Option Nat :=
  (i.channels.find? fun c => decide (c.upChannelId = upCid)).map Channel.owner

/-- Who a frame for an upstream id goes to, and under which id: the members of
the group, or the owner of the channel. -/
def recipients (i : Inner) (upCid : Nat) : List (Nat × Nat) :=
  match i.groupRecipients upCid with
  | [] =>
    match i.upToDown.lookup upCid, i.ownerOfUp upCid with
    | some downCid, some member => [(downCid, member)]
    | _, _ => []
  | group => group

/-- `map_group`: the downstream id of an Extended channel's group. -/
def mapGroup (i : Inner) (upGroupId : Nat) (isExtended : Bool) : Inner × Nat :=
  if !isExtended || decide (upGroupId = 0) then (i, upGroupId)
  else match i.groupDown.lookup upGroupId with
    | some down => (i, down)
    | none =>
      ({ i with
          nextDownCid := i.nextDownCid + 1
          groupDown := i.groupDown.insert upGroupId i.nextDownCid },
        i.nextDownCid)

/-- The edge-triggered low-accept-ratio flag. -/
def flagLowRatio (i : Inner) : Inner :=
  if !i.acceptLowLogged && acceptRatioLow i.acceptedShares i.submittedShares then
    { i with acceptLowLogged := true }
  else i

/-- The accounting of accepted shares: only positive work counts. -/
def creditAccepted (i : Inner) (now work : Rat) (count : Nat) : Inner × Credit :=
  if 0 < work then
    (({ i with
        hashrate := i.hashrate.recordAt now work
        deliveredWork := i.deliveredWork + work
        acceptedShares := i.acceptedShares + count } : Inner).flagLowRatio,
      i.routing.orderId?.map fun o => (o, work, count))
  else (i.flagLowRatio, none)

/-- The difficulty of the first channel that meets a test, `0` without one. -/
def difficultyOf (i : Inner) (p : Channel → Bool) : Rat :=
  ((i.channels.find? p).map Channel.difficulty).getD 0

end Inner

/-- Set the difficulty of the first channel that meets a test. -/
def setDifficulty (p : Channel → Bool) (diff : Rat) : List Channel → List Channel
  | [] => []
  | c :: cs => if p c then { c with difficulty := diff } :: cs else c :: setDifficulty p diff cs

/-! ## Frames of a native pool -/

variable (decode : Decoder)

/-- The OpenSuccess arm of `on_upstream_frame`. -/
def finalizeOpen (frame : Sv2Frame) (i : Inner) : Inner × List Send :=
  match parseOpenSuccess decode frame with
  | none => (i, [])
  | some info =>
    match i.pending.lookup info.requestId with
    | none => (i, [])
    | some (member, spec) =>
      let downCid := i.nextDownCid
      let opened := { i with
        pending := i.pending.erase info.requestId, nextDownCid := i.nextDownCid + 1 }
      let (mapped, downGroupId) := opened.mapGroup info.groupChannelId spec.isExtended
      let done := mapped.registerChannel {
        downChannelId := downCid
        upChannelId := info.upChannelId
        spec
        difficulty := difficultyFromTarget info.target
        owner := member
        upGroupId := if spec.isExtended then info.groupChannelId else 0
        downGroupId }
      (done, match openSuccessDownstream spec downCid downGroupId info with
        | some reply => done.toMember member reply
        | none => [])

/-- The OpenError arm: the member that asked is told, or all when the request
is unknown. -/
def rejectOpen (frame : Sv2Frame) (i : Inner) : Inner × List Send :=
  match parseOpenErrorRequestId decode frame with
  | none => (i, i.members.map (⟨·, .received frame⟩))
  | some req =>
    match i.pending.lookup req with
    | none => (i, i.members.map (⟨·, .received frame⟩))
    | some (member, spec) =>
      ({ i with pending := i.pending.erase req },
        match openChannelError spec.requestId "upstream rejected channel open" with
        | some reply => i.toMember member reply
        | none => [])

/-- The vardiff arm: a new target changes the difficulty of the channel. -/
def retarget (frame : Sv2Frame) (upCid : Nat) (i : Inner) : Inner :=
  if frame.msgType = .setTarget then
    match parseSetTarget decode frame with
    | some target => { i with
        channels := setDifficulty (fun c => decide (c.upChannelId = upCid))
          (difficultyFromTarget target) i.channels }
    | none => i
  else i

/-- The accounting arm: accepted shares weigh the channel's difficulty of now. -/
def creditFrame (now : Rat) (frame : Sv2Frame) (upCid : Nat) (i : Inner) : Inner × Credit :=
  if frame.msgType = .submitSharesSuccess then
    let count := (parseAcceptedCount decode frame).getD 0
    i.creditAccepted now (i.difficultyOf (fun c => decide (c.upChannelId = upCid)) * count) count
  else (i, none)

/-- A channel-scoped frame, rewritten for everyone it goes to. -/
def forward (frame : Sv2Frame) (upCid : Nat) (i : Inner) : List Send :=
  (i.recipients upCid).flatMap fun (cid, member) =>
    i.toMember member (.received (rewriteChannelId frame cid))

/-- `on_upstream_frame`: the new state, the credit of the active order, and
what the members are sent. -/
def onUpstreamFrame (now : Rat) (generation : Nat) (frame : Sv2Frame) (i : Inner) :
    Inner × Credit × List Send :=
  if generation ≠ i.active.generation then (i, none, [])
  else if frame.msgType = .openExtendedMiningChannelSuccess ∨
      frame.msgType = .openStandardMiningChannelSuccess then
    let (i, sends) := finalizeOpen decode frame i
    (i, none, sends)
  else if frame.msgType = .openMiningChannelError then
    let (i, sends) := rejectOpen decode frame i
    (i, none, sends)
  else if !isChannelScoped frame.msgType then (i, none, [])
  else match readChannelId frame with
    | none => (i, none, [])
    | some upCid =>
      let i := retarget decode frame upCid i
      let (i, credit) := creditFrame decode now frame upCid i
      (i, credit, forward frame upCid i)

/-! ## Connections of members -/

/-- An open on the shared upstream, under a fresh request id. -/
def forwardOpen (member : Nat) (spec : OpenSpec) (i : Inner) : Inner :=
  let account := upstreamWorker i.active.target.user i.label
  let asked := { i with nextUpReq := i.nextUpReq + 1 }
  match openChannelUpstream spec account i.nextUpReq with
  | some f => { asked with pending := i.pending.insert i.nextUpReq (member, spec) }.sendUp f
  | none => asked

/-- `attach_member`: refused on a translated upstream. -/
def attachMember (spec : OpenSpec) (i : Inner) : Option (Inner × Nat) :=
  if i.translating then none
  else
    let (i, member) := i.addMember
    some (forwardOpen member spec i, member)

/-- An additional channel of a member. -/
def openChannel (member : Nat) (spec : OpenSpec) (i : Inner) : Inner × List Send :=
  if i.translating then
    (i, match openChannelError spec.requestId
          "additional channels are not supported on an SV1 upstream" with
      | some reply => [⟨member, reply⟩]
      | none => [])
  else (forwardOpen member spec i, [])

/-- A channel-scoped frame of a member, and the order a submitted share counts
for. -/
def minerFrame (frame : Sv2Frame) (i : Inner) : Inner × Option String :=
  match readChannelId frame with
  | none => (i, none)
  | some downCid =>
    match i.upForDown downCid with
    | none => (i, none)
    | some upCid =>
      let isSubmit := decide (frame.msgType = .submitSharesStandard) ||
        decide (frame.msgType = .submitSharesExtended)
      ({ i with submittedShares := i.submittedShares + if isSubmit then 1 else 0 }.sendUp
          (.received (rewriteChannelId frame upCid)),
        if isSubmit then i.routing.orderId? else none)

/-- `detach_member`: the member's channels and opens are forgotten.  The flag
says that it was the last one. -/
def detachMember (member : Nat) (i : Inner) : Inner × Bool :=
  let owned := i.channels.filter fun c => decide (c.owner = member)
  let closes := if i.translating then []
    else owned.filterMap fun c => closeChannelUpstream c.upChannelId
  let members := i.members.filter fun m => decide (m ≠ member)
  ({ i with
      active := { i.active with toUp := i.active.toUp ++ closes }
      members
      upToDown := owned.foldl (fun m c => m.erase c.upChannelId) i.upToDown
      channels := i.channels.filter fun c => decide (c.owner ≠ member)
      pending := i.pending.entries.foldl
        (fun p e => if e.2.1 = member then p.erase e.1 else p) i.pending },
    members.isEmpty)

/-! ## Swaps -/

/-- A channel to re-open on the new upstream. -/
structure Reopen where
  downChannelId : Nat
  owner : Nat
  spec : OpenSpec
  downGroupId : Nat
deriving DecidableEq

/-- What a swap remembers from before it connects. -/
structure SwapSnapshot where
  specs : List Reopen
  generation : Nat
  label : String
  members : List Nat

/-- What one channel is re-pointed with. -/
structure Repoint where
  downChannelId : Nat
  owner : Nat
  extranoncePrefix : List UInt8
  target : List UInt8
  /-- The other id that work of the channel comes under, `0` when ungrouped.
  The source does not carry it: it is there to state the order of frames. -/
  downGroupId : Nat
deriving DecidableEq

/-- The snapshot at the start of `swap_upstream`. -/
def Inner.snapshot (i : Inner) : Inner × SwapSnapshot :=
  ({ i with generationCounter := i.generationCounter + 1 },
    { specs := i.channels.map fun c => ⟨c.downChannelId, c.owner, c.spec, c.downGroupId⟩
      generation := i.generationCounter + 1
      label := i.label
      members := i.members })

/-- The upstream group of a re-opened channel. -/
def reopenGroup (spec : OpenSpec) (info : ChannelInfo) : Nat :=
  if spec.isExtended then info.groupChannelId else 0

/-- The channel a re-open leaves. -/
def reopened (r : Reopen) (info : ChannelInfo) : Channel where
  downChannelId := r.downChannelId
  upChannelId := info.upChannelId
  spec := r.spec
  difficulty := difficultyFromTarget info.target
  owner := r.owner
  upGroupId := reopenGroup r.spec info
  downGroupId := r.downGroupId

/-- The frames a re-opened channel is re-pointed with. -/
def repointOf (r : Reopen) (info : ChannelInfo) : Repoint where
  downChannelId := r.downChannelId
  owner := r.owner
  extranoncePrefix := info.extranoncePrefix
  target := info.target
  downGroupId := if r.spec.isExtended then r.downGroupId else 0

/-- The install of a native SV2 upstream.  The second component are the opens
of the old upstream that are abandoned, by member and request id. -/
def installNative (generation : Nat) (target : UpstreamTarget) (routing : Routing)
    (opened : List (Reopen × ChannelInfo)) (i : Inner) : Inner × List (Nat × Nat) :=
  ({ i with
      active := { generation, target, toUp := [] }
      channels := opened.map fun (r, info) => reopened r info
      upToDown := opened.foldl (fun m (r, info) => m.insert info.upChannelId r.downChannelId) ∅
      groupDown := opened.foldl (fun m (r, info) =>
        if reopenGroup r.spec info ≠ 0 ∧ r.downGroupId ≠ 0 then
          m.insert (reopenGroup r.spec info) r.downGroupId else m) ∅
      pending := ∅
      routing
      translating := false },
    i.pending.entries.map fun e => (e.2.1, e.1))

/-- The second snapshot, of `swap_to_sv1_translate`: the first channel. -/
def Inner.translateSnapshot (i : Inner) : Option (Reopen × List Nat) :=
  i.channels.head?.map fun c => (⟨c.downChannelId, c.owner, c.spec, c.downGroupId⟩, i.members)

/-- An SV1 pool connection for translation, positioned after the handshake. -/
structure Sv1UpConn where
  extranonce1 : List UInt8
  extranonce2Size : Nat
  versionMask : Option Nat
  initialDiff : Rat
  /-- The notifications seen during the handshake, which the reader replays. -/
  handshakeLines : List RpcMessage
  /-- What the pool sent after the handshake. -/
  reader : List RpcMessage

/-- The one channel of a translated upstream. -/
def translatedChannel (r : Reopen) (diff : Rat) : Channel where
  downChannelId := r.downChannelId
  upChannelId := r.downChannelId
  spec := r.spec
  difficulty := diff
  owner := r.owner
  upGroupId := 0
  downGroupId := 0

/-- The install of an SV1 upstream reached through translation. -/
def installTranslate (generation : Nat) (target : UpstreamTarget) (routing : Routing)
    (r : Reopen) (diff : Rat) (i : Inner) : Inner × List (Nat × Nat) :=
  ({ i with
      active := { generation, target, toUp := [] }
      channels := [translatedChannel r diff]
      upToDown := (∅ : AList fun _ : Nat => Nat).insert r.downChannelId r.downChannelId
      groupDown := ∅
      pending := ∅
      routing
      translating := true },
    i.pending.entries.map fun e => (e.2.1, e.1))

/-! ## The reader of a translated upstream -/

/-- `set_translate_diff`. -/
def setTranslateDiff (generation downCid : Nat) (diff : Rat) (i : Inner) : Inner :=
  if generation ≠ i.active.generation then i
  else { i with
    channels := setDifficulty (fun c => decide (c.downChannelId = downCid)) diff i.channels }

/-- `credit_translate`. -/
def creditTranslate (now : Rat) (generation downCid : Nat) (i : Inner) : Inner × Credit :=
  if generation ≠ i.active.generation then (i, none)
  else i.creditAccepted now (i.difficultyOf fun c => decide (c.downChannelId = downCid)) 1

/-- `send_translate_frame`, to whichever member the iteration over the table
yields first. -/
def sendTranslateFrame (generation member : Nat) (frame : EitherFrame) (i : Inner) : List Send :=
  if generation ≠ i.active.generation then [] else i.toMember member frame

end RentalProxy.Sv2
