import RentalProxy.Sv2.Tasks

/-!
# The SV2 relay: what a step can do

`Transition r e r'` lists what one step of a rig can do, with the guards it was
taken under and the state it leaves.  `transition_of_step` is the one place where
`step` is taken apart.

The second part says what each operation leaves alone: `SameUpstream` for the
upstream and its routing, and the lemmas on channels, members and sends that the
invariants of a rig are made of.
-/

namespace RentalProxy.Sv2

open StepSystem
open Sv1 (upstreamWorker)

variable (decode : Decoder) (lib : Sv1Library)

/-! ## Transitions -/

/-- The swap talks to the new pool and has installed nothing. -/
def SwapTask.Connecting (t : SwapTask) (plan : SwapPlan) : Prop :=
  t = .connecting plan ∨ ∃ channel members, t = .translating plan channel members

/-- What one step can do. -/
inductive Transition (r : Rig) : Event → Rig → Prop where
  | attach {spec : OpenSpec} (hnative : r.inner.translating = false) :
      Transition r (.attach spec)
        { r with inner := forwardOpen r.inner.nextMemberId spec r.inner.addMember.1 }
  | openChannel {member : Nat} {spec : OpenSpec} (hmember : member ∈ r.inner.members) :
      Transition r (.openChannel member spec)
        ({ r with inner := (openChannel member spec r.inner).1 }.queue .reply
          (openChannel member spec r.inner).2)
  | minerFrame {member : Nat} {frame : Sv2Frame} (hmember : member ∈ r.inner.members) :
      Transition r (.minerFrame member frame)
        ({ r with inner := (minerFrame frame r.inner).1 }.submitted (minerFrame frame r.inner).2)
  | detach {member : Nat} (hmember : member ∈ r.inner.members) :
      Transition r (.detach member) { r with inner := (detachMember member r.inner).1 }
  | upstreamFrame {g : Nat} {frame : Sv2Frame} {now : Rat}
      (hnative : g = r.inner.active.generation → r.translator = none) :
      Transition r (.upstreamFrame g frame now)
        (({ r with inner := (onUpstreamFrame decode now g frame r.inner).1 }.credit
          (onUpstreamFrame decode now g frame r.inner).2.1).queue (.reader g)
          (onUpstreamFrame decode now g frame r.inner).2.2)
  | translateLine {line : RpcMessage} {cid written : Nat} {state : Sv1UpState}
      (htranslator : r.translator = some ⟨cid, state, [], written⟩) :
      Transition r (.translateLine line) { r with
        translator := some ⟨cid, (handleSv1Line lib cid line state).1,
          (handleSv1Line lib cid line state).2, written⟩ }
  | translateCall {member cid written : Nat} {now : Rat} {state : Sv1UpState}
      {call : SessionCall} {calls : List SessionCall}
      (htranslator : r.translator = some ⟨cid, state, call :: calls, written⟩) :
      Transition r (.translateCall member now)
        ({ r with translator := some ⟨cid, state, calls, written⟩ }.translateCall call cid member
          now)
  | translateWrite {cid written : Nat} {state : Sv1UpState} {calls : List SessionCall}
      {frame : Sv2Frame} (htranslator : r.translator = some ⟨cid, state, calls, written⟩) :
      Transition r .translateWrite { r with
        translator := some ⟨cid, (translateSubmit decode frame state).1, calls, written + 1⟩ }
  | swapOrder {caller : SwapCaller} {id : String} {fallback : Bool} {o : Order}
      {target : UpstreamTarget} (hswap : r.swap = .idle) (horder : r.store.get id = some o)
      (htarget : target ∈ o.pools) :
      Transition r (.swapOrder caller id fallback) (r.beginSwap caller target (.rented id))
  | swapRevert {caller : SwapCaller} {target : UpstreamTarget} (hswap : r.swap = .idle)
      (hdefault : r.inner.defaultTarget = some target) :
      Transition r (.swapRevert caller) (r.beginSwap caller target .idle)
  | swapFailed {e : Event} {plan : SwapPlan} (hswap : r.swap.Connecting plan) :
      Transition r e { r with swap := .idle }
  | swapReopened {infos : List ChannelInfo} {plan : SwapPlan} (hswap : r.swap = .connecting plan)
      (hlength : infos.length = plan.snapshot.specs.length) :
      Transition r (.swapReopened infos) (r.swapNative plan infos)
  | swapNotSv2 {plan : SwapPlan} {channel : Reopen} {members : List Nat}
      (hswap : r.swap = .connecting plan)
      (hchannel : r.inner.translateSnapshot = some (channel, members)) :
      Transition r .swapNotSv2 { r with swap := .translating plan channel members }
  | swapTranslated {lines : List RpcMessage} {plan : SwapPlan} {channel : Reopen}
      {members : List Nat} {conn : Sv1UpConn} (hswap : r.swap = .translating plan channel members)
      (hconn : connectSv1Upstream lib lines = some conn) :
      Transition r (.swapTranslated lines) (r.swapTranslate plan channel members conn)
  | repoint {plan : SwapPlan} {s : RepointStep} {todo : List RepointStep}
      {abandoned : List (Nat × Nat)} {members : List Nat} {frame : EitherFrame}
      (hswap : r.swap = .repointing plan (s :: todo) abandoned members)
      (hframe : s.frame = some frame) :
      Transition r .swapSend ({ r with swap := .repointing plan todo abandoned members }.queue
        (.repoint plan.snapshot.generation) [⟨s.member, frame⟩])
  | repointFailed {plan : SwapPlan} {s : RepointStep} {todo : List RepointStep}
      {abandoned : List (Nat × Nat)} {members : List Nat}
      (hswap : r.swap = .repointing plan (s :: todo) abandoned members) (hframe : s.frame = none) :
      Transition r .swapSend { r with swap := .idle }
  | notice {plan : SwapPlan} {member req : Nat} {abandoned : List (Nat × Nat)}
      {members : List Nat}
      (hswap : r.swap = .repointing plan [] ((member, req) :: abandoned) members) :
      Transition r .swapSend ({ r with swap := .repointing plan [] abandoned members }.queue
        (.notice plan.snapshot.generation) (Rig.notices members member req))
  | swapDone {plan : SwapPlan} {members : List Nat}
      (hswap : r.swap = .repointing plan [] [] members) :
      Transition r .swapSend (r.endSwap plan)
  | reconnect (howed : 0 < r.reconnects) : Transition r .reconnect r.signal
  | store {e : Event} {s : OrderStore} (h : OrderStore.Step r.store s) :
      Transition r e { r with store := s }
  | setSeller {pool : Option UpstreamTarget} :
      Transition r (.setSeller pool) { r with idlePool := pool }

variable {decode lib}

/-- What a step can do, in one place. -/
theorem transition_of_step {r r' : Rig} {e : Event} (h : step decode lib r e = some r') :
    Transition decode lib r e r' := by
  cases e with
  | attach spec =>
    simp only [step, attachMember] at h
    split at h
    · cases h
    · cases h
      exact .attach (by simpa using ‹¬r.inner.translating = true›)
  | openChannel member spec =>
    simp only [step] at h
    split at h <;> cases h
    exact .openChannel ‹_›
  | minerFrame member frame =>
    simp only [step] at h
    split at h <;> cases h
    exact .minerFrame ‹_›
  | detach member =>
    simp only [step] at h
    split at h <;> cases h
    exact .detach ‹_›
  | upstreamFrame g frame now =>
    simp only [step] at h
    split at h <;> cases h
    exact .upstreamFrame ‹_›
  | translateLine line =>
    simp only [step] at h
    split at h <;> cases h
    exact .translateLine ‹_›
  | translateCall member now =>
    simp only [step] at h
    split at h
    · split at h <;> cases h
      exact .translateCall ‹_›
    · cases h
  | translateWrite =>
    simp only [step] at h
    split at h
    · split at h <;> cases h
      exact .translateWrite ‹_›
    · cases h
  | swapOrder caller id fallback =>
    simp only [step] at h
    split at h
    · rename_i o hswap horder
      obtain ⟨target, htarget, rfl⟩ := Option.map_eq_some_iff.mp h
      refine .swapOrder hswap horder ?_
      cases fallback <;> simp_all [Order.pools]
    · cases h
  | swapRevert caller =>
    simp only [step] at h
    split at h <;> cases h
    exact .swapRevert ‹_› ‹_›
  | swapFailed =>
    simp only [step] at h
    split at h <;> cases h
    · exact .swapFailed (Or.inl ‹_›)
    · exact .swapFailed (Or.inr ⟨_, _, ‹_›⟩)
  | swapReopened infos =>
    simp only [step] at h
    split at h
    · split at h <;> cases h
      exact .swapReopened ‹_› (And.left ‹_›)
    · cases h
  | swapNotSv2 =>
    simp only [step] at h
    split at h
    · split at h <;> cases h
      · exact .swapNotSv2 ‹_› ‹_›
      · exact .swapFailed (Or.inl ‹_›)
    · cases h
  | swapTranslated lines =>
    simp only [step] at h
    split at h
    · split at h <;> cases h
      · exact .swapTranslated ‹_› ‹_›
      · exact .swapFailed (Or.inr ⟨_, _, ‹_›⟩)
    · cases h
  | swapSend =>
    simp only [step] at h
    split at h
    · split at h <;> cases h
      · exact .repoint ‹_› ‹_›
      · exact .repointFailed ‹_› ‹_›
    · cases h
      exact .notice ‹_›
    · cases h
      exact .swapDone ‹_›
    · cases h
  | reconnect =>
    simp only [step] at h
    split at h <;> cases h
    exact .reconnect ‹_›
  | createOrder o =>
    obtain ⟨s, hs, rfl⟩ := Option.map_eq_some_iff.mp h
    exact .store (.create hs)
  | cancelOrder id now =>
    obtain ⟨⟨o, s⟩, hs, rfl⟩ := Option.map_eq_some_iff.mp h
    exact .store (.cancel hs)
  | expireOrders now =>
    cases h
    exact .store (.expire now)
  | flushOrders =>
    cases h
    exact .store .flush
  | setSeller pool =>
    cases h
    exact .setSeller

/-! ## The upstream -/

/-- The active upstream and the routing are the same. -/
structure SameUpstream (i i' : Inner) : Prop where
  generation : i'.active.generation = i.active.generation
  target : i'.active.target = i.active.target
  routing : i'.routing = i.routing
  defaultTarget : i'.defaultTarget = i.defaultTarget
  translating : i'.translating = i.translating
  generationCounter : i'.generationCounter = i.generationCounter

theorem SameUpstream.refl (i : Inner) : SameUpstream i i := ⟨rfl, rfl, rfl, rfl, rfl, rfl⟩

theorem SameUpstream.trans {i j k : Inner} (hij : SameUpstream i j) (hjk : SameUpstream j k) :
    SameUpstream i k where
  generation := hjk.generation.trans hij.generation
  target := hjk.target.trans hij.target
  routing := hjk.routing.trans hij.routing
  defaultTarget := hjk.defaultTarget.trans hij.defaultTarget
  translating := hjk.translating.trans hij.translating
  generationCounter := hjk.generationCounter.trans hij.generationCounter

/-- The members and the ids that were given out are the same. -/
structure SameMembers (i i' : Inner) : Prop where
  members : i'.members = i.members
  nextMemberId : i'.nextMemberId = i.nextMemberId

theorem SameMembers.refl (i : Inner) : SameMembers i i := ⟨rfl, rfl⟩

/-- What tells a channel from another: everything but its difficulty. -/
def Channel.identity (c : Channel) : Channel := { c with difficulty := 0 }

@[simp] theorem identity_downChannelId (c : Channel) :
    c.identity.downChannelId = c.downChannelId := rfl
@[simp] theorem identity_owner (c : Channel) : c.identity.owner = c.owner := rfl
@[simp] theorem identity_withDifficulty (c : Channel) (d : Rat) :
    Channel.identity { c with difficulty := d } = c.identity := rfl

/-- The channels are the same up to their difficulty. -/
def SameChannels (i i' : Inner) : Prop :=
  i'.channels.map Channel.identity = i.channels.map Channel.identity

theorem setDifficulty_identity (p : Channel → Bool) (d : Rat) (cs : List Channel) :
    (setDifficulty p d cs).map Channel.identity = cs.map Channel.identity := by
  induction cs with
  | nil => rfl
  | cons c cs ih =>
    unfold setDifficulty
    split
    · simp
    · simp [ih]

/-- A channel is still there, under its id and with its owner. -/
theorem SameChannels.kept {i i' : Inner} (h : SameChannels i i') {c : Channel}
    (hc : c ∈ i.channels) :
    ∃ c' ∈ i'.channels, c'.downChannelId = c.downChannelId ∧ c'.owner = c.owner := by
  have hmem : c.identity ∈ i'.channels.map Channel.identity := by
    rw [h]
    exact List.mem_map_of_mem hc
  obtain ⟨c', hc', heq⟩ := List.mem_map.mp hmem
  refine ⟨c', hc', ?_, ?_⟩
  · rw [← identity_downChannelId, heq, identity_downChannelId]
  · rw [← identity_owner, heq, identity_owner]

/-! ## Operations of the members -/

theorem forwardOpen_upstream (member : Nat) (spec : OpenSpec) (i : Inner) :
    SameUpstream i (forwardOpen member spec i) := by
  unfold forwardOpen
  dsimp only
  split <;> exact ⟨rfl, rfl, rfl, rfl, rfl, rfl⟩

theorem forwardOpen_members (member : Nat) (spec : OpenSpec) (i : Inner) :
    SameMembers i (forwardOpen member spec i) := by
  unfold forwardOpen
  dsimp only
  split <;> exact ⟨rfl, rfl⟩

@[simp] theorem forwardOpen_channels (member : Nat) (spec : OpenSpec) (i : Inner) :
    (forwardOpen member spec i).channels = i.channels := by
  unfold forwardOpen
  dsimp only
  split <;> rfl

theorem openChannel_upstream (member : Nat) (spec : OpenSpec) (i : Inner) :
    SameUpstream i (openChannel member spec i).1 := by
  unfold openChannel
  split
  · exact .refl i
  · exact forwardOpen_upstream ..

theorem openChannel_members (member : Nat) (spec : OpenSpec) (i : Inner) :
    SameMembers i (openChannel member spec i).1 := by
  unfold openChannel
  split
  · exact ⟨rfl, rfl⟩
  · exact forwardOpen_members ..

@[simp] theorem openChannel_channels (member : Nat) (spec : OpenSpec) (i : Inner) :
    (openChannel member spec i).1.channels = i.channels := by
  unfold openChannel
  split
  · rfl
  · exact forwardOpen_channels ..

/-- A refused open is answered with an OpenError. -/
theorem openChannel_sends {member : Nat} {spec : OpenSpec} {i : Inner} {s : Send}
    (hs : s ∈ (openChannel member spec i).2) :
    s.frame.openSuccess? = none := by
  unfold openChannel at hs
  split at hs
  · simp only [openChannelError] at hs
    split at hs
    · rename_i hreply
      obtain ⟨_, _, rfl⟩ := Option.map_eq_some_iff.mp hreply
      rw [List.mem_singleton.mp hs]
      rfl
    · cases hs
  · cases hs

theorem minerFrame_cases (frame : Sv2Frame) (i : Inner) :
    (minerFrame frame i).1 = i ∨ ∃ n up, (minerFrame frame i).1 =
      { i with submittedShares := i.submittedShares + n }.sendUp (.received up) := by
  unfold minerFrame
  split
  · exact Or.inl rfl
  · split
    · exact Or.inl rfl
    · exact Or.inr ⟨_, _, rfl⟩

theorem minerFrame_upstream (frame : Sv2Frame) (i : Inner) :
    SameUpstream i (minerFrame frame i).1 := by
  rcases minerFrame_cases frame i with h | ⟨n, up, h⟩ <;> rw [h]
  · exact .refl i
  · exact ⟨rfl, rfl, rfl, rfl, rfl, rfl⟩

theorem minerFrame_members (frame : Sv2Frame) (i : Inner) :
    SameMembers i (minerFrame frame i).1 := by
  rcases minerFrame_cases frame i with h | ⟨n, up, h⟩ <;> rw [h] <;> exact ⟨rfl, rfl⟩

@[simp] theorem minerFrame_channels (frame : Sv2Frame) (i : Inner) :
    (minerFrame frame i).1.channels = i.channels := by
  rcases minerFrame_cases frame i with h | ⟨n, up, h⟩ <;> rw [h]
  rfl

/-! ## Accounting -/

theorem flagLowRatio_cases (i : Inner) :
    ∃ flag, i.flagLowRatio = { i with acceptLowLogged := flag } := by
  unfold Inner.flagLowRatio
  split
  · exact ⟨_, rfl⟩
  · exact ⟨i.acceptLowLogged, rfl⟩

/-- What crediting changes. -/
theorem creditAccepted_cases (i : Inner) (now work : Rat) (count : Nat) :
    ∃ window delivered accepted flag, (i.creditAccepted now work count).1 = { i with
      hashrate := window, deliveredWork := delivered, acceptedShares := accepted
      acceptLowLogged := flag } := by
  unfold Inner.creditAccepted
  split
  · obtain ⟨flag, h⟩ := flagLowRatio_cases { i with
      hashrate := i.hashrate.recordAt now work
      deliveredWork := i.deliveredWork + work
      acceptedShares := i.acceptedShares + count }
    exact ⟨_, _, _, flag, h⟩
  · obtain ⟨flag, h⟩ := flagLowRatio_cases i
    exact ⟨_, _, _, flag, h⟩

/-- Crediting and retargeting leave the rig around them alone. -/
structure SameRig (i i' : Inner) : Prop where
  upstream : SameUpstream i i'
  members : SameMembers i i'
  channels : SameChannels i i'
  upToDown : i'.upToDown = i.upToDown

theorem SameRig.refl (i : Inner) : SameRig i i := ⟨.refl i, ⟨rfl, rfl⟩, rfl, rfl⟩

theorem SameRig.trans {i j k : Inner} (hij : SameRig i j) (hjk : SameRig j k) : SameRig i k where
  upstream := hij.upstream.trans hjk.upstream
  members := ⟨hjk.members.members.trans hij.members.members,
    hjk.members.nextMemberId.trans hij.members.nextMemberId⟩
  channels := Eq.trans hjk.channels hij.channels
  upToDown := hjk.upToDown.trans hij.upToDown

theorem creditAccepted_sameRig (i : Inner) (now work : Rat) (count : Nat) :
    SameRig i (i.creditAccepted now work count).1 := by
  obtain ⟨_, _, _, _, h⟩ := creditAccepted_cases i now work count
  rw [h]
  exact ⟨⟨rfl, rfl, rfl, rfl, rfl, rfl⟩, ⟨rfl, rfl⟩, rfl, rfl⟩

theorem creditFrame_sameRig (now : Rat) (frame : Sv2Frame) (upCid : Nat) (i : Inner) :
    SameRig i (creditFrame decode now frame upCid i).1 := by
  unfold creditFrame
  split
  · exact creditAccepted_sameRig ..
  · exact .refl i

theorem setDifficulty_sameRig (p : Channel → Bool) (d : Rat) (i : Inner) :
    SameRig i { i with channels := setDifficulty p d i.channels } :=
  ⟨⟨rfl, rfl, rfl, rfl, rfl, rfl⟩, ⟨rfl, rfl⟩, setDifficulty_identity p d i.channels, rfl⟩

theorem retarget_sameRig (frame : Sv2Frame) (upCid : Nat) (i : Inner) :
    SameRig i (retarget decode frame upCid i) := by
  unfold retarget
  split
  · split
    · exact setDifficulty_sameRig ..
    · exact .refl i
  · exact .refl i

theorem setTranslateDiff_sameRig (g cid : Nat) (d : Rat) (i : Inner) :
    SameRig i (setTranslateDiff g cid d i) := by
  unfold setTranslateDiff
  split
  · exact .refl i
  · exact setDifficulty_sameRig ..

theorem creditTranslate_sameRig (now : Rat) (g cid : Nat) (i : Inner) :
    SameRig i (creditTranslate now g cid i).1 := by
  unfold creditTranslate
  split
  · exact .refl i
  · exact creditAccepted_sameRig ..

/-- Who a frame goes to depends on nothing that accounting changes. -/
theorem SameRig.recipients {i i' : Inner} (h : SameRig i i') (upCid : Nat) :
    i'.recipients upCid = i.recipients upCid := by
  have hgroup : i'.groupRecipients upCid = i.groupRecipients upCid := by
    have hfilter : ∀ cs : List Channel, ((cs.filter fun c =>
        decide (c.upGroupId = upCid) && c.spec.isExtended).map fun c => (c.downGroupId, c.owner)) =
        (((cs.map Channel.identity).filter fun c =>
          decide (c.upGroupId = upCid) && c.spec.isExtended).map
            fun c => (c.downGroupId, c.owner)) := by
      intro cs
      rw [List.filter_map, List.map_map]
      rfl
    unfold Inner.groupRecipients
    rw [hfilter i'.channels, h.channels, ← hfilter]
  have howner : i'.ownerOfUp upCid = i.ownerOfUp upCid := by
    have hfind : ∀ cs : List Channel,
        (cs.find? fun c => decide (c.upChannelId = upCid)).map Channel.owner =
        ((cs.map Channel.identity).find? fun c => decide (c.upChannelId = upCid)).map
          Channel.owner := by
      intro cs
      rw [List.find?_map, Option.map_map]
      rfl
    unfold Inner.ownerOfUp
    rw [hfind i'.channels, h.channels, ← hfind]
  unfold Inner.recipients
  rw [hgroup, howner, h.upToDown]

/-! ## Frames of a native pool -/

theorem mem_toMember {i : Inner} {member : Nat} {frame : EitherFrame} {s : Send}
    (hs : s ∈ i.toMember member frame) : member ∈ i.members ∧ s = ⟨member, frame⟩ := by
  unfold Inner.toMember at hs
  split at hs
  · exact ⟨‹_›, List.mem_singleton.mp hs⟩
  · cases hs

theorem mapGroup_same (i : Inner) (up : Nat) (extended : Bool) :
    SameUpstream i (i.mapGroup up extended).1 ∧ SameMembers i (i.mapGroup up extended).1 ∧
      (i.mapGroup up extended).1.channels = i.channels := by
  unfold Inner.mapGroup
  split
  · exact ⟨.refl i, ⟨rfl, rfl⟩, rfl⟩
  · split
    · exact ⟨.refl i, ⟨rfl, rfl⟩, rfl⟩
    · exact ⟨⟨rfl, rfl, rfl, rfl, rfl, rfl⟩, ⟨rfl, rfl⟩, rfl⟩

/-- An OpenSuccess of the pool opens one channel, and tells its member. -/
theorem finalizeOpen_cases (decode : Decoder) (frame : Sv2Frame) (i : Inner) :
    finalizeOpen decode frame i = (i, []) ∨ ∃ c : Channel,
      (finalizeOpen decode frame i).1.channels = i.channels ++ [c] ∧
      SameUpstream i (finalizeOpen decode frame i).1 ∧
      SameMembers i (finalizeOpen decode frame i).1 ∧
      ∀ s ∈ (finalizeOpen decode frame i).2, s.member = c.owner ∧ c.owner ∈ i.members ∧
        s.frame.isWork = false ∧ ∃ req, s.frame.openSuccess? = some (c.downChannelId, req) := by
  unfold finalizeOpen
  cases hinfo : parseOpenSuccess decode frame with
  | none => exact Or.inl rfl
  | some info =>
    cases hpending : i.pending.lookup info.requestId with
    | none =>
      left
      simp only [hpending]
    | some entry =>
      obtain ⟨member, spec⟩ := entry
      right
      simp only [hpending]
      obtain ⟨hup, hmembers, hchannels⟩ := mapGroup_same { i with
        pending := i.pending.erase info.requestId, nextDownCid := i.nextDownCid + 1 }
        info.groupChannelId spec.isExtended
      refine ⟨_, congrArg (· ++ [_]) hchannels, ?_, ?_, ?_⟩
      · exact ⟨hup.generation, hup.target, hup.routing, hup.defaultTarget, hup.translating,
          hup.generationCounter⟩
      · exact ⟨hmembers.members, hmembers.nextMemberId⟩
      · intro s hs
        split at hs
        · rename_i reply hreply
          obtain ⟨hmember, rfl⟩ := mem_toMember hs
          have hmem : member ∈ i.members := by
            rw [← hmembers.members]
            exact hmember
          refine ⟨rfl, hmem, ?_⟩
          simp only [openSuccessDownstream, Option.bind_eq_bind, Option.bind_eq_some_iff] at hreply
          obtain ⟨_, _, _, _, hbuilt⟩ := hreply
          cases spec <;> cases hbuilt <;> exact ⟨rfl, _, rfl⟩
        · cases hs

theorem rejectOpen_inner (decode : Decoder) (frame : Sv2Frame) (i : Inner) :
    ∃ p, (rejectOpen decode frame i).1 = { i with pending := p } := by
  unfold rejectOpen
  split
  · exact ⟨i.pending, rfl⟩
  · split
    · exact ⟨i.pending, rfl⟩
    · exact ⟨_, rfl⟩

/-- An OpenError is passed on as an OpenError. -/
theorem rejectOpen_sends {frame : Sv2Frame} {i : Inner} {s : Send}
    (htype : frame.msgType = .openMiningChannelError) (hs : s ∈ (rejectOpen decode frame i).2) :
    s.frame.isWork = false ∧ s.frame.openSuccess? = none := by
  have hreceived : ∀ s ∈ i.members.map fun m => (⟨m, .received frame⟩ : Send),
      s.frame.isWork = false ∧ s.frame.openSuccess? = none := by
    intro s hs
    obtain ⟨m, _, rfl⟩ := List.mem_map.mp hs
    exact ⟨by simp [EitherFrame.isWork, htype, MsgType.isWork], rfl⟩
  unfold rejectOpen at hs
  split at hs
  · exact hreceived s hs
  · split at hs
    · exact hreceived s hs
    · split at hs
      · rename_i hreply
        obtain ⟨_, rfl⟩ := mem_toMember hs
        obtain ⟨_, _, rfl⟩ := Option.map_eq_some_iff.mp hreply
        exact ⟨rfl, rfl⟩
      · cases hs

/-- What `on_upstream_frame` does with a frame. -/
theorem onUpstreamFrame_cases (decode : Decoder) (now : Rat) (g : Nat) (frame : Sv2Frame)
    (i : Inner) :
    onUpstreamFrame decode now g frame i = (i, none, []) ∨
    (g = i.active.generation ∧ onUpstreamFrame decode now g frame i =
      ((finalizeOpen decode frame i).1, none, (finalizeOpen decode frame i).2)) ∨
    (g = i.active.generation ∧ frame.msgType = .openMiningChannelError ∧
      onUpstreamFrame decode now g frame i =
        ((rejectOpen decode frame i).1, none, (rejectOpen decode frame i).2)) ∨
    ∃ upCid, g = i.active.generation ∧ readChannelId frame = some upCid ∧
      onUpstreamFrame decode now g frame i =
        ((creditFrame decode now frame upCid (retarget decode frame upCid i)).1,
          (creditFrame decode now frame upCid (retarget decode frame upCid i)).2,
          forward frame upCid
            (creditFrame decode now frame upCid (retarget decode frame upCid i)).1) := by
  unfold onUpstreamFrame
  split_ifs with hstale hopen herror hscoped
  · exact Or.inl rfl
  · exact Or.inr (Or.inl ⟨not_not.mp hstale, rfl⟩)
  · exact Or.inr (Or.inr (Or.inl ⟨not_not.mp hstale, herror, rfl⟩))
  · exact Or.inl rfl
  · cases hid : readChannelId frame with
    | none => exact Or.inl rfl
    | some upCid => exact Or.inr (Or.inr (Or.inr ⟨upCid, not_not.mp hstale, rfl, rfl⟩))

/-- A routed frame leaves the rig around it alone. -/
theorem routed_sameRig (now : Rat) (frame : Sv2Frame) (upCid : Nat) (i : Inner) :
    SameRig i (creditFrame decode now frame upCid (retarget decode frame upCid i)).1 :=
  (retarget_sameRig frame upCid i).trans (creditFrame_sameRig now frame upCid _)

theorem onUpstreamFrame_upstream (now : Rat) (g : Nat) (frame : Sv2Frame) (i : Inner) :
    SameUpstream i (onUpstreamFrame decode now g frame i).1 := by
  rcases onUpstreamFrame_cases decode now g frame i with
    h | ⟨_, h⟩ | ⟨_, _, h⟩ | ⟨upCid, _, _, h⟩ <;> rw [h]
  · exact .refl i
  · rcases finalizeOpen_cases decode frame i with hnone | ⟨_, _, hup, _⟩
    · rw [hnone]
      exact .refl i
    · exact hup
  · obtain ⟨p, hp⟩ := rejectOpen_inner decode frame i
    rw [hp]
    exact ⟨rfl, rfl, rfl, rfl, rfl, rfl⟩
  · exact (routed_sameRig now frame upCid i).upstream

theorem onUpstreamFrame_members (now : Rat) (g : Nat) (frame : Sv2Frame) (i : Inner) :
    SameMembers i (onUpstreamFrame decode now g frame i).1 := by
  rcases onUpstreamFrame_cases decode now g frame i with
    h | ⟨_, h⟩ | ⟨_, _, h⟩ | ⟨upCid, _, _, h⟩ <;> rw [h]
  · exact ⟨rfl, rfl⟩
  · rcases finalizeOpen_cases decode frame i with hnone | ⟨_, _, _, hmembers, _⟩
    · rw [hnone]
      exact ⟨rfl, rfl⟩
    · exact hmembers
  · obtain ⟨p, hp⟩ := rejectOpen_inner decode frame i
    rw [hp]
    exact ⟨rfl, rfl⟩
  · exact (routed_sameRig now frame upCid i).members

/-! ## Calls of the translating reader -/

/-- A call sends at most its frame, to the member. -/
theorem translateCall_sends (r : Rig) (call : SessionCall) (cid member : Nat) (now : Rat) :
    ∃ new, (r.translateCall call cid member now).sent = r.sent ++ new ∧
      ∀ q ∈ new, member ∈ r.inner.members ∧ ∃ frame, call = .sendTranslateFrame frame ∧
        q = ⟨.reader r.inner.active.generation, member, frame⟩ := by
  cases call with
  | sendTranslateFrame frame =>
    refine ⟨_, rfl, ?_⟩
    intro q hq
    obtain ⟨s, hs, rfl⟩ := List.mem_map.mp hq
    unfold sendTranslateFrame at hs
    rw [if_neg (by simp)] at hs
    obtain ⟨hmember, rfl⟩ := mem_toMember hs
    exact ⟨hmember, frame, rfl, rfl⟩
  | setTranslateDiff diff => exact ⟨[], (List.append_nil _).symm, by simp⟩
  | creditTranslate => exact ⟨[], (List.append_nil _).symm, by simp⟩

theorem translateCall_sameRig (r : Rig) (call : SessionCall) (cid member : Nat) (now : Rat) :
    SameRig r.inner (r.translateCall call cid member now).inner := by
  cases call with
  | sendTranslateFrame frame => exact .refl _
  | setTranslateDiff diff => exact setTranslateDiff_sameRig ..
  | creditTranslate => exact creditTranslate_sameRig ..

theorem translateCall_sameTasks (r : Rig) (call : SessionCall) (cid member : Nat) (now : Rat) :
    SameTasks r (r.translateCall call cid member now) := by
  cases call <;> exact ⟨rfl, rfl, rfl, rfl, rfl⟩

/-- The idle frame of a stale reader, and what the active one sends. -/
theorem onUpstreamFrame_sends {now : Rat} {g : Nat} {frame : Sv2Frame} {i : Inner} {s : Send}
    (hs : s ∈ (onUpstreamFrame decode now g frame i).2.2) :
    g = i.active.generation ∧ (s.frame.isWork = true → ∃ upCid p,
      readChannelId frame = some upCid ∧ p ∈ i.recipients upCid ∧ s.member = p.2 ∧
        s.frame = .received (rewriteChannelId frame p.1)) := by
  rcases onUpstreamFrame_cases decode now g frame i with
    h | ⟨hg, h⟩ | ⟨hg, htype, h⟩ | ⟨upCid, hg, hid, h⟩ <;> rw [h] at hs
  · cases hs
  · refine ⟨hg, fun hwork => ?_⟩
    rcases finalizeOpen_cases decode frame i with hnone | ⟨c, _, _, _, hsends⟩
    · rw [hnone] at hs
      cases hs
    · rw [(hsends s hs).2.2.1] at hwork
      cases hwork
  · refine ⟨hg, fun hwork => ?_⟩
    rw [(rejectOpen_sends htype hs).1] at hwork
    cases hwork
  · refine ⟨hg, fun _ => ?_⟩
    obtain ⟨p, hp, hsend⟩ := List.mem_flatMap.mp hs
    obtain ⟨_, rfl⟩ := mem_toMember hsend
    rw [(routed_sameRig now frame upCid i).recipients] at hp
    exact ⟨upCid, p, hid, hp, rfl, rfl⟩

/-! ## Re-point frames and notices -/

theorem SwapTask.Connecting.todo {t : SwapTask} {plan : SwapPlan} (h : t.Connecting plan) :
    t.todo = [] := by
  rcases h with rfl | ⟨_, _, rfl⟩ <;> rfl

/-- A re-point frame opens no channel. -/
theorem RepointStep.frame_openSuccess {s : RepointStep} {frame : EitherFrame}
    (h : s.frame = some frame) : frame.openSuccess? = none := by
  unfold RepointStep.frame at h
  split at h <;> obtain ⟨_, _, rfl⟩ := Option.map_eq_some_iff.mp h <;> rfl

/-- The frames can be built from a prefix and a target of the right length. -/
theorem repointSteps_built {members : List Nat} {rs : List Repoint} {s : RepointStep}
    (hrs : ∀ r ∈ rs, r.owner ∈ members → r.extranoncePrefix.length ≤ 32 ∧ r.target.length = 32)
    (hs : s ∈ repointSteps members rs) : s.frame.isSome := by
  obtain ⟨r, hr, hmem⟩ := List.mem_flatMap.mp hs
  obtain ⟨hr, howner⟩ := List.mem_filter.mp hr
  obtain ⟨hlen, htarget⟩ := hrs r hr (of_decide_eq_true howner)
  simp only [Repoint.steps, List.mem_cons, List.not_mem_nil, or_false] at hmem
  rcases hmem with rfl | rfl
  · simp [RepointStep.frame, setExtranoncePrefix, b032, hlen]
  · simp [RepointStep.frame, setTarget, u256, htarget]

/-- A notice opens no channel. -/
theorem notices_openSuccess {members : List Nat} {member req : Nat} {s : Send}
    (hs : s ∈ Rig.notices members member req) : s.frame.openSuccess? = none := by
  unfold Rig.notices at hs
  split at hs
  · rename_i hframe
    obtain ⟨_, _, rfl⟩ := Option.map_eq_some_iff.mp hframe
    split at hs
    · rw [List.mem_singleton.mp hs]
      rfl
    · cases hs
  · cases hs

/-! ## The start -/

/-- What the connect of a first pool that failed has left of the next downstream id, of the next
request id and of the pending opens: what they were, an open that was not sent, or a downstream id
that is used up. -/
inductive Leftover (spec : OpenSpec) :
    Nat → Nat → (AList fun _ : Nat => Nat × OpenSpec) → Prop
  | nothing : Leftover spec 1 1 ∅
  | unsent : Leftover spec 1 2
      ((∅ : AList fun _ : Nat => Nat × OpenSpec).insert 1 (firstMember, spec))
  | usedId : Leftover spec 2 1 ∅

namespace Leftover

variable {spec : OpenSpec} {cid up : Nat} {pending : AList fun _ : Nat => Nat × OpenSpec}

theorem cid_pos (h : Leftover spec cid up pending) : 0 < cid := by
  cases h <;> omega

/-- The opens are all of the first member, under the ids that were given. -/
theorem entries (h : Leftover spec cid up pending) {e : Sigma fun _ : Nat => Nat × OpenSpec}
    (he : e ∈ pending.entries) : e.1 < up ∧ e.2 = (firstMember, spec) := by
  cases h with
  | nothing | usedId => cases he
  | unsent =>
    rw [List.mem_singleton.mp (he : e ∈ [(⟨1, firstMember, spec⟩ : Sigma _)])]
    exact ⟨Nat.one_lt_two, rfl⟩

/-- The next open comes before them. -/
theorem insert_entries (h : Leftover spec cid up pending) (v : Nat × OpenSpec) :
    (pending.insert up v).entries = ⟨up, v⟩ :: pending.entries := by
  cases h <;> rfl

end Leftover

/-- The install of the first upstream, on what an earlier connect has left. -/
inductive FirstInstall (lib : Sv1Library) (worker : String) (spec : OpenSpec) (store : OrderStore)
    (idlePool : Option UpstreamTarget) (target : UpstreamTarget) (routing : Routing) :
    InitialAnswer → Rig → Prop
  | native {cid up : Nat} {pending : AList fun _ : Nat => Nat × OpenSpec} {frame : EitherFrame}
      (hleft : Leftover spec cid up pending)
      (hframe : openChannelUpstream spec (upstreamWorker target.user worker) up = some frame) :
      FirstInstall lib worker spec store idlePool target routing .native
        (.unconnected store idlePool { placeholder target routing idlePool worker with
          active := { generation := 0, target, toUp := [frame] }
          nextDownCid := cid
          nextUpReq := up + 1
          pending := pending.insert up (firstMember, spec) })
  | sv1 {cid up : Nat} {pending : AList fun _ : Nat => Nat × OpenSpec} {lines : List RpcMessage}
      {conn : Sv1UpConn} {reply : EitherFrame} (hleft : Leftover spec cid up pending)
      (hconn : connectSv1Upstream lib lines = some conn)
      (hreply : openSuccessDownstream spec cid 0 (translatedInfo spec cid conn) = some reply) :
      FirstInstall lib worker spec store idlePool target routing (.sv1 lines)
        ({ Rig.unconnected store idlePool { placeholder target routing idlePool worker with
            channels := [translatedChannel ⟨cid, firstMember, spec, 0⟩ conn.initialDiff]
            upToDown := (∅ : AList fun _ : Nat => Nat).insert cid cid
            nextDownCid := cid + 1
            nextUpReq := up
            translating := true } with
          translator := some {
            downCid := cid
            state := .new conn (upstreamWorker target.user worker) spec.isExtended
            calls := [], written := 0 } }.queue .reply [⟨firstMember, reply⟩])

/-- A connect that succeeds installs. -/
theorem FirstInstall.of_connect {lib : Sv1Library} {worker : String} {spec : OpenSpec}
    {store : OrderStore} {idlePool : Option UpstreamTarget} {first target : UpstreamTarget}
    {routing : Routing} {answer : InitialAnswer} {r : Rig} {cid up : Nat}
    {pending : AList fun _ : Nat => Nat × OpenSpec} (hleft : Leftover spec cid up pending)
    (h : (Rig.unconnected store idlePool { placeholder first routing idlePool worker with
      nextDownCid := cid, nextUpReq := up, pending }).connectInitial lib spec target routing
        answer = (r, true)) :
    FirstInstall lib worker spec store idlePool target routing answer r := by
  cases answer with
  | unreachable => cases h
  | native =>
    simp only [Rig.connectInitial, Rig.unconnected, Inner.installSv2Initial, placeholder] at h
    cases hframe : openChannelUpstream spec (upstreamWorker target.user worker) up with
    | none => simp [hframe] at h
    | some frame =>
      rw [hframe] at h
      cases h
      exact .native hleft hframe
  | sv1 lines =>
    simp only [Rig.connectInitial, Rig.unconnected, Inner.installSv1TranslateInitial,
      placeholder] at h
    cases hconn : connectSv1Upstream lib lines with
    | none => simp [hconn] at h
    | some conn =>
      rw [hconn] at h
      cases hreply : openSuccessDownstream spec cid 0 (translatedInfo spec cid conn) with
      | none => simp [hreply] at h
      | some reply =>
        simp only [hreply] at h
        cases h
        exact .sv1 hleft hconn hreply

/-- What a connect that fails has left. -/
theorem exists_leftover {lib : Sv1Library} {worker : String} {spec : OpenSpec}
    {store : OrderStore} {idlePool : Option UpstreamTarget} {target : UpstreamTarget}
    {routing : Routing} {answer : InitialAnswer} {r : Rig}
    (h : (Rig.unconnected store idlePool
      (placeholder target routing idlePool worker)).connectInitial lib spec target routing
        answer = (r, false)) :
    ∃ cid up pending, Leftover spec cid up pending ∧
      r = .unconnected store idlePool { placeholder target routing idlePool worker with
        nextDownCid := cid, nextUpReq := up, pending } := by
  cases answer with
  | unreachable =>
    cases h
    exact ⟨1, 1, ∅, .nothing, rfl⟩
  | native =>
    simp only [Rig.connectInitial, Rig.unconnected, Inner.installSv2Initial, placeholder] at h
    split at h
    · cases h
    · cases h
      exact ⟨1, 2, _, .unsent, rfl⟩
  | sv1 lines =>
    simp only [Rig.connectInitial, Rig.unconnected, Inner.installSv1TranslateInitial,
      placeholder] at h
    cases hconn : connectSv1Upstream lib lines with
    | none =>
      rw [hconn] at h
      cases h
      exact ⟨1, 1, ∅, .nothing, rfl⟩
    | some conn =>
      rw [hconn] at h
      cases hreply : openSuccessDownstream spec 1 0 (translatedInfo spec 1 conn) with
      | some reply => simp [hreply] at h
      | none =>
        simp only [hreply] at h
        cases h
        exact ⟨2, 1, ∅, .usedId, rfl⟩

/-- The pool that the rig opens on: the first one, or the fallback once that has failed. -/
def OpensOn (order : Option Order) (first : UpstreamTarget) (target : UpstreamTarget) :
    Option InitialAnswer → Prop
  | none => target = first
  | some _ => order.bind Order.fallback = some target

theorem OpensOn.unique {order : Option Order} {first target target' : UpstreamTarget}
    {failed : Option InitialAnswer} (h : OpensOn order first target failed)
    (h' : OpensOn order first target' failed) : target = target' := by
  cases failed with
  | none => exact h.trans h'.symm
  | some _ => exact Option.some.inj (h.symm.trans h')

/-- A rig starts with its first install. -/
theorem start_firstInstall {lib : Sv1Library} {worker : String} {spec : OpenSpec}
    {store : OrderStore} {idlePool : Option UpstreamTarget} {now : Int}
    {failed : Option InitialAnswer} {answer : InitialAnswer} {r : Rig}
    (h : start lib worker spec store idlePool now failed answer = some r) :
    ∃ first routing target,
      initialTarget (store.activeForWorker worker now) idlePool = some (first, routing) ∧
        OpensOn (store.activeForWorker worker now) first target failed ∧
        FirstInstall lib worker spec store idlePool target routing answer r := by
  simp only [start, Option.bind_eq_bind, Option.bind_eq_some_iff] at h
  obtain ⟨⟨first, routing⟩, hfirst, h⟩ := h
  cases failed with
  | none =>
    dsimp only at h
    split at h
    · cases h
      exact ⟨first, routing, first, hfirst, rfl, .of_connect .nothing ‹_›⟩
    · cases h
  | some bad =>
    dsimp only at h
    split at h
    · cases h
    · rename_i left hleft
      obtain ⟨fb, hfb, h⟩ := Option.bind_eq_some_iff.mp h
      obtain ⟨cid, up, pending, hleftover, rfl⟩ := exists_leftover hleft
      split at h
      · cases h
        exact ⟨first, routing, fb, hfirst, hfb, .of_connect hleftover ‹_›⟩
      · cases h

/-- A rig that has just started, at this target and with this routing. -/
structure Started (orders : OrderStore) (idle : Option UpstreamTarget)
    (pool : UpstreamTarget) (route : Routing) (r : Rig) : Prop where
  store : r.store = orders
  idlePool : r.idlePool = idle
  target : r.inner.active.target = pool
  routing : r.inner.routing = route
  defaultTarget : r.inner.defaultTarget = idle
  generation : r.inner.active.generation = 0
  members : r.inner.members = [firstMember]
  nextMemberId : r.inner.nextMemberId = firstMember + 1
  swap : r.swap = .idle
  installs : r.installs = []
  /-- The one frame that may be queued is the OpenSuccess of a channel. -/
  sent : ∀ q ∈ r.sent, q.source = .reply ∧ q.member = firstMember ∧
    ∃ c ∈ r.inner.channels, c.owner = firstMember ∧
      ∃ req, q.frame.openSuccess? = some (c.downChannelId, req)
  calls : ∀ t ∈ r.translator, t.calls = []

theorem FirstInstall.started {worker : String} {spec : OpenSpec} {store : OrderStore}
    {idlePool : Option UpstreamTarget} {target : UpstreamTarget} {routing : Routing}
    {answer : InitialAnswer} {r : Rig}
    (h : FirstInstall lib worker spec store idlePool target routing answer r) :
    Started store idlePool target routing r := by
  cases h with
  | native =>
    refine ⟨rfl, rfl, rfl, rfl, rfl, rfl, rfl, rfl, rfl, rfl, ?_, ?_⟩
    · intro q hq
      cases hq
    · intro t ht
      cases ht
  | sv1 _ _ hreply =>
    refine ⟨rfl, rfl, rfl, rfl, rfl, rfl, rfl, rfl, rfl, rfl, ?_, ?_⟩
    · intro q hq
      rcases Rig.mem_queue hq with hold | ⟨s, hs, rfl⟩
      · cases hold
      · rw [List.mem_singleton.mp hs]
        refine ⟨rfl, rfl, _, List.mem_cons_self, rfl, ?_⟩
        simp only [openSuccessDownstream, Option.bind_eq_bind, Option.bind_eq_some_iff] at hreply
        obtain ⟨_, _, _, _, hbuilt⟩ := hreply
        cases spec <;> cases hbuilt <;> exact ⟨_, rfl⟩
    · intro t ht
      cases ht
      rfl

theorem start_started {worker : String} {spec : OpenSpec} {store : OrderStore}
    {idlePool : Option UpstreamTarget} {now : Int} {failed : Option InitialAnswer}
    {answer : InitialAnswer} {r : Rig}
    (h : start lib worker spec store idlePool now failed answer = some r) :
    ∃ first routing target,
      initialTarget (store.activeForWorker worker now) idlePool = some (first, routing) ∧
        OpensOn (store.activeForWorker worker now) first target failed ∧
        Started store idlePool target routing r := by
  obtain ⟨first, routing, target, hfirst, htarget, hinstall⟩ := start_firstInstall h
  exact ⟨first, routing, target, hfirst, htarget, hinstall.started⟩

/-! ## The calls in hand -/

/-- The frames that the translating reader is about to send are for its
channel. -/
def CallsInScope (r : Rig) : Prop :=
  ∀ t ∈ r.translator, ∀ frame, .sendTranslateFrame frame ∈ t.calls →
    frame.channelId? = some t.downCid

theorem CallsInScope.of_started {orders : OrderStore} {idle : Option UpstreamTarget}
    {pool : UpstreamTarget} {route : Routing} {r : Rig} (h : Started orders idle pool route r) :
    CallsInScope r := by
  intro t ht frame hframe
  rw [h.calls t ht] at hframe
  cases hframe

theorem CallsInScope.of_eq {r r' : Rig} (h : CallsInScope r)
    (heq : r'.translator = r.translator) : CallsInScope r' := by
  unfold CallsInScope
  rw [heq]
  exact h

theorem CallsInScope.step {r r' : Rig} {e : Event} (h : CallsInScope r)
    (ht : Transition decode lib r e r') : CallsInScope r' := by
  cases ht with
  | @minerFrame member frame hmember => exact h.of_eq (SameTasks.submitted _ _).translator
  | translateLine htranslator =>
    intro t ht frame hframe
    cases ht
    exact handleSv1Line_channel hframe
  | translateWrite htranslator =>
    intro t ht frame hframe
    cases ht
    exact h _ htranslator frame hframe
  | translateCall htranslator =>
    intro t ht frame hframe
    rw [(translateCall_sameTasks ..).translator] at ht
    cases ht
    exact h _ htranslator frame (List.mem_cons_of_mem _ hframe)
  | swapReopened hswap hlength =>
    intro t ht
    cases ht
  | swapTranslated hswap hconn =>
    intro t ht frame hframe
    cases ht
    cases hframe
  | _ => exact h.of_eq rfl

end RentalProxy.Sv2
