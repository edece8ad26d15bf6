import RentalProxy.Sv2.Table

/-!
# Every open is answered once

A member asks for a channel under a request id of its own, and waits.  The open is
kept in `pending` until the pool has decided, and then the member gets one reply.

* `asked` is the history of the opens that a rig has received, `Inner.waiting` and
  `Rig.answered` count the ones that are pending and the replies.
* `AnsweredOnce` is the property.  The code does not give it: a swap drops every
  pending open and tells the member, if at all, under the request id of the
  upstream (`swap_drops_open`), an open that cannot be built is dropped, and an
  OpenError for an unknown request goes to everyone.
* `AnswersOpens`, and `Rig.OpensOnce` for the first open, are the condition under which
  `opens_answered_once` holds.
-/

namespace RentalProxy.Sv2

open StepSystem
open Sv1 (upstreamWorker)

/-! ## Requests and replies -/

/-- The request that a frame for a miner answers. -/
def EitherFrame.answers? (decode : Decoder) : EitherFrame → Option Nat
  | .built (.openExtendedMiningChannelSuccess req ..) => some req
  | .built (.openStandardMiningChannelSuccess req ..) => some req
  | .built (.openMiningChannelError req _) => some req
  | .built _ => none
  | .received frame =>
    if frame.isOpenSuccess then (parseOpenSuccess decode frame).map ChannelInfo.requestId
    else if frame.msgType = .openMiningChannelError then parseOpenErrorRequestId decode frame
    else none

/-- The opens that a rig has received, by member and by the member's request id. -/
def asked (r : Rig) (e : Event) (opens : List (Nat × Nat)) : List (Nat × Nat) :=
  match e with
  | .attach spec => opens ++ [(r.inner.nextMemberId, spec.requestId)]
  | .openChannel member spec => opens ++ [(member, spec.requestId)]
  | _ => opens

/-- The open of the first member is pending, or its channel is there.  A first connect that failed
may have left it pending a second time. -/
def askedAtStart (r : Rig) : List (Nat × Nat) :=
  (r.inner.pending.entries.map (fun e => (e.2.1, e.2.2.requestId)) ++
    r.inner.channels.map fun c => (c.owner, c.spec.requestId)).take 1

/-- How many opens of a member under a request id are pending. -/
def Inner.waiting (i : Inner) (member req : Nat) : Nat :=
  i.pending.entries.countP fun e => decide (e.2.1 = member) && decide (e.2.2.requestId = req)

/-- How many replies to a request id a member was sent. -/
def Rig.answered (decode : Decoder) (r : Rig) (member req : Nat) : Nat :=
  r.sent.countP fun q => decide (q.member = member) &&
    decide (q.frame.answers? decode = some req)

/-- Every open of an attached member is pending, or was answered once. -/
def AnsweredOnce (decode : Decoder) (r : Rig) (opens : List (Nat × Nat)) : Prop :=
  ∀ member ∈ r.inner.members, ∀ req,
    opens.count (member, req) = r.inner.waiting member req + r.answered decode member req

/-- The open of a spec on the active upstream can be built. -/
def Inner.canForward (i : Inner) (spec : OpenSpec) : Bool :=
  (openChannelUpstream spec (upstreamWorker i.active.target.user i.label) i.nextUpReq).isSome

/-- The condition on a step.  An open can be built for the pool; an OpenError is
for a pending open; a swap that installs finds no open pending. -/
def AnswersOpens (decode : Decoder) (lib : Sv1Library) (r : Rig) : Event → Prop
  | .attach spec => r.inner.canForward spec = true
  | .openChannel _ spec => r.inner.translating = false → r.inner.canForward spec = true
  | .upstreamFrame g frame _ =>
    g = r.inner.active.generation → frame.msgType = .openMiningChannelError →
      ∀ req ∈ parseOpenErrorRequestId decode frame,
        (r.inner.pending.lookup req).isSome ∨ r.inner.members = []
  | .swapReopened _ => r.inner.pending.entries = []
  | .swapTranslated lines =>
    (connectSv1Upstream lib lines).isSome → r.inner.pending.entries = []
  | _ => True

instance (decode : Decoder) (lib : Sv1Library) (r : Rig) :
    DecidablePred (AnswersOpens decode lib r) := fun e => by
  rcases e with _ | _ <;> dsimp only [AnswersOpens] <;> infer_instance

/-- The first open is not pending twice: no connect of the rig has failed between the install of
its pool and the open. -/
def Rig.OpensOnce (r : Rig) : Prop := r.inner.pending.entries.length ≤ 1

instance : DecidablePred Rig.OpensOnce := fun r =>
  inferInstanceAs (Decidable (r.inner.pending.entries.length ≤ 1))

section Once

variable (decode : Decoder) (lib : Sv1Library) {γ : Type} (note : Rig → Event → γ → γ)
  (init : Rig → γ)

/-- The states that a rig can reach whose first open is pending once, with the history of how it
got there. -/
def ReachesOnce (G : Rig × γ → Event → Prop) (x : Rig × γ) : Prop :=
  ∃ worker spec store idlePool now failed answer r₀,
    store.OneActive ∧
      start lib worker spec store idlePool now failed answer = some r₀ ∧ r₀.OpensOnce ∧
      Run (observed (step decode lib) note) G (r₀, init r₀) x

variable {decode lib note init}

/-- The induction rule for these rigs. -/
theorem ReachesOnce.invariant {G : Rig × γ → Event → Prop} {I : Rig → γ → Prop} {x : Rig × γ}
    (h : ReachesOnce decode lib note init G x)
    (hstart : ∀ worker spec store idlePool now failed answer r₀,
      start lib worker spec store idlePool now failed answer = some r₀ → r₀.OpensOnce →
        I r₀ (init r₀))
    (hstep : ∀ r history e r', I r history → G (r, history) e → step decode lib r e = some r' →
      I r' (note r e history)) : I x.1 x.2 := by
  obtain ⟨worker, spec, store, idlePool, now, failed, answer, r₀, _, hr₀, honce, hrun⟩ := h
  refine hrun.invariant (I := fun y => I y.1 y.2)
    (hstart worker spec store idlePool now failed answer r₀ hr₀ honce) ?_
  intro y e z hI hG hnext
  obtain ⟨hnext, hhistory⟩ := observed_eq_some.mp hnext
  rw [hhistory]
  exact hstep y.1 y.2 e z.1 hI hG hnext

/-- A test on the state and the history that a schedule of the concrete rig ends in. -/
theorem exists_once_of_idleRig (note : Rig → Event → γ → γ) (init : Rig → γ)
    {G : Rig × γ → Event → Prop} [hG : ∀ x, DecidablePred (G x)] (es : List Event)
    {p : Rig × γ → Bool}
    (h : (idleRig.bind fun r₀ => runWhile (observed (step wireDecoder plainLibrary) note)
      (fun x e => decide (G x e)) (r₀, init r₀) es).any p = true) :
    ∃ x, ReachesOnce wireDecoder plainLibrary note init G x ∧ p x = true := by
  obtain ⟨x, hx, hp⟩ := (Option.any_eq_true ..).mp h
  obtain ⟨r₀, hstart, hrun⟩ := Option.bind_eq_some_iff.mp hx
  have honce : r₀.OpensOnce := by
    cases hstart
    exact le_rfl
  exact ⟨x, ⟨_, _, {}, _, _, _, _, r₀, List.Pairwise.nil, hstart, honce,
    .of_runWhile (fun _ _ => of_decide_eq_true) hrun⟩, hp⟩

end Once

/-! ## Frames that answer nothing -/

theorem answers_of_channelId {decode : Decoder} {frame : EitherFrame} {cid : Nat}
    (h : frame.channelId? = some cid) : frame.answers? decode = none := by
  cases frame with
  | received frame =>
    simp only [EitherFrame.channelId?] at h
    split at h
    · rename_i hscoped
      have hsuccess : frame.isOpenSuccess = false := by
        cases htype : frame.msgType <;> simp_all [isChannelScoped, Sv2Frame.isOpenSuccess]
      have herror : frame.msgType ≠ .openMiningChannelError := by
        intro htype
        rw [htype] at hscoped
        cases hscoped
      rw [EitherFrame.answers?, hsuccess, if_neg (by simp), if_neg herror]
    · cases h
  | built msg => cases msg <;> first | rfl | cases h

theorem forward_answers {decode : Decoder} {frame : Sv2Frame} {upCid : Nat} {i : Inner} {s : Send}
    (hscoped : isChannelScoped frame.msgType = true) (hs : s ∈ forward frame upCid i) :
    s.frame.answers? decode = none := by
  obtain ⟨p, _, hsend⟩ := List.mem_flatMap.mp hs
  obtain ⟨_, rfl⟩ := mem_toMember hsend
  have hsuccess : (rewriteChannelId frame p.1).isOpenSuccess = false := by
    unfold Sv2Frame.isOpenSuccess
    rw [rewriteChannelId_msgType]
    cases htype : frame.msgType <;> simp_all [isChannelScoped]
  have herror : (rewriteChannelId frame p.1).msgType ≠ .openMiningChannelError := by
    rw [rewriteChannelId_msgType]
    intro htype
    rw [htype] at hscoped
    cases hscoped
  rw [EitherFrame.answers?, hsuccess, if_neg (by simp), if_neg herror]

theorem RepointStep.frame_answers {decode : Decoder} {s : RepointStep} {frame : EitherFrame}
    (h : s.frame = some frame) : frame.answers? decode = none := by
  unfold RepointStep.frame at h
  split at h <;> obtain ⟨_, _, rfl⟩ := Option.map_eq_some_iff.mp h <;> rfl

/-- The OpenSuccess for a member answers the request that the member made. -/
theorem openSuccessDownstream_answers {decode : Decoder} {spec : OpenSpec} {cid group : Nat}
    {info : ChannelInfo} {reply : EitherFrame}
    (h : openSuccessDownstream spec cid group info = some reply) :
    reply.answers? decode = some spec.requestId := by
  simp only [openSuccessDownstream, Option.bind_eq_bind, Option.bind_eq_some_iff] at h
  obtain ⟨_, _, _, _, hbuilt⟩ := h
  cases spec <;> cases hbuilt <;> rfl

theorem openSuccessDownstream_isSome {spec : OpenSpec} {cid group : Nat} {info : ChannelInfo} :
    (openSuccessDownstream spec cid group info).isSome ↔
      info.target.length = 32 ∧ info.extranoncePrefix.length ≤ 32 := by
  unfold openSuccessDownstream u256 b032
  by_cases htarget : info.target.length = 32
  · by_cases hprefix : info.extranoncePrefix.length ≤ 32
    · cases spec <;> simp [htarget, hprefix]
    · cases spec <;> simp [htarget, hprefix]
  · cases spec <;> simp [htarget]

/-- The errors that the proxy makes up can be built. -/
theorem openChannelError_rejected (req : Nat) :
    openChannelError req "upstream rejected channel open" =
      some (.built (.openMiningChannelError req "upstream rejected channel open")) := by
  have hshort : "upstream rejected channel open".utf8ByteSize ≤ 255 := by decide
  simp [openChannelError, str0255, hshort]

theorem openChannelError_unsupported (req : Nat) :
    openChannelError req "additional channels are not supported on an SV1 upstream" =
      some (.built (.openMiningChannelError req
        "additional channels are not supported on an SV1 upstream")) := by
  have hshort :
      "additional channels are not supported on an SV1 upstream".utf8ByteSize ≤ 255 := by decide
  simp [openChannelError, str0255, hshort]

/-- An additional channel is refused on a translated pool. -/
theorem openChannel_refused {i : Inner} (member : Nat) (spec : OpenSpec)
    (h : i.translating = true) : openChannel member spec i =
      (i, [⟨member, .built (.openMiningChannelError spec.requestId
        "additional channels are not supported on an SV1 upstream")⟩]) := by
  rw [openChannel, if_pos h, openChannelError_unsupported]

/-- An additional channel is asked for on a native pool. -/
theorem openChannel_forwarded {i : Inner} (member : Nat) (spec : OpenSpec)
    (h : i.translating = false) : openChannel member spec i = (forwardOpen member spec i, []) := by
  rw [openChannel, h, if_neg Bool.false_ne_true]

/-! ## Forwarded opens -/

@[simp] theorem forwardOpen_nextUpReq (member : Nat) (spec : OpenSpec) (i : Inner) :
    (forwardOpen member spec i).nextUpReq = i.nextUpReq + 1 := by
  unfold forwardOpen
  dsimp only
  split <;> rfl

/-- An open that can be built is pending from now on, any other is forgotten. -/
theorem forwardOpen_pending (member : Nat) (spec : OpenSpec) (i : Inner) :
    (forwardOpen member spec i).pending =
      if i.canForward spec then i.pending.insert i.nextUpReq (member, spec) else i.pending := by
  unfold forwardOpen Inner.canForward
  dsimp only
  split
  · rename_i hbuilt
    rw [hbuilt]
    rfl
  · rename_i hnone
    rw [hnone]
    rfl

/-- Every pending open is of an attached member, under a request id that is not
given out again. -/
structure PendingOk (i : Inner) : Prop where
  below : ∀ e ∈ i.pending.entries, e.1 < i.nextUpReq
  attached : ∀ e ∈ i.pending.entries, e.2.1 ∈ i.members
  members : ∀ m ∈ i.members, m < i.nextMemberId

theorem PendingOk.of_start {lib : Sv1Library} {worker : String} {spec : OpenSpec}
    {store : OrderStore} {idlePool : Option UpstreamTarget} {now : Int}
    {failed : Option InitialAnswer} {answer : InitialAnswer} {r : Rig}
    (h : start lib worker spec store idlePool now failed answer = some r) : PendingOk r.inner := by
  have hmembers : ∀ m ∈ [firstMember], m < 2 := by
    intro m hm
    rw [List.mem_singleton.mp hm]
    exact Nat.one_lt_two
  obtain ⟨_, _, _, _, _, hinstall⟩ := start_firstInstall h
  cases hinstall with
  | @native cid up pending frame hleft =>
    have hentries := hleft.insert_entries (firstMember, spec)
    refine ⟨fun e he => ?_, fun e he => ?_, hmembers⟩
    · show e.1 < up + 1
      rcases List.mem_cons.mp (hentries ▸ he) with rfl | hold
      · exact Nat.lt_succ_self up
      · exact (hleft.entries hold).1.trans (Nat.lt_succ_self up)
    · show e.2.1 ∈ [firstMember]
      rcases List.mem_cons.mp (hentries ▸ he) with rfl | hold
      · exact List.mem_cons_self
      · rw [(hleft.entries hold).2]
        exact List.mem_cons_self
  | sv1 => exact ⟨List.forall_mem_nil _, List.forall_mem_nil _, hmembers⟩

theorem PendingOk.fresh {i : Inner} (h : PendingOk i) : i.pending.lookup i.nextUpReq = none := by
  by_contra hsome
  obtain ⟨v, hv⟩ := Option.ne_none_iff_exists'.mp hsome
  exact lt_irrefl _ (h.below _ (AList.mem_lookup_iff.mp hv))

theorem PendingOk.frame {i i' : Inner} (h : PendingOk i)
    (hpending : i'.pending.entries ⊆ i.pending.entries) (hnext : i'.nextUpReq = i.nextUpReq)
    (hmembers : SameMembers i i') : PendingOk i' where
  below e he := hnext ▸ h.below e (hpending he)
  attached e he := hmembers.members ▸ h.attached e (hpending he)
  members := by
    rw [hmembers.members, hmembers.nextMemberId]
    exact h.members

theorem PendingOk.forwardOpen {i : Inner} (h : PendingOk i) {member : Nat}
    (hmember : member ∈ i.members) (spec : OpenSpec) : PendingOk (forwardOpen member spec i) := by
  have hentries : ∀ e ∈ (Sv2.forwardOpen member spec i).pending.entries,
      e ∈ i.pending.entries ∨ e = ⟨i.nextUpReq, member, spec⟩ := by
    intro e he
    rw [forwardOpen_pending] at he
    split at he
    · rw [AList.entries_insert_of_notMem (AList.lookup_eq_none.mp h.fresh)] at he
      exact (List.mem_cons.mp he).symm
    · exact Or.inl he
  have hmembers := forwardOpen_members member spec i
  refine ⟨?_, ?_, ?_⟩
  · intro e he
    rw [forwardOpen_nextUpReq]
    rcases hentries e he with hold | rfl
    · exact (h.below e hold).trans (Nat.lt_succ_self _)
    · exact Nat.lt_succ_self _
  · intro e he
    rw [hmembers.members]
    rcases hentries e he with hold | rfl
    · exact h.attached e hold
    · exact hmember
  · rw [hmembers.members, hmembers.nextMemberId]
    exact h.members

theorem PendingOk.addMember {i : Inner} (h : PendingOk i) : PendingOk i.addMember.1 where
  below := h.below
  attached e he := List.mem_append_left _ (h.attached e he)
  members m hm := by
    rcases List.mem_append.mp hm with hold | hnew
    · exact (h.members m hold).trans (Nat.lt_succ_self _)
    · rw [List.mem_singleton.mp hnew]
      exact Nat.lt_succ_self _

theorem mem_detach_pending {member : Nat} {i : Inner} {e : Sigma fun _ : Nat => Nat × OpenSpec}
    (he : e ∈ (detachMember member i).1.pending.entries) :
    e ∈ i.pending.entries ∧ e.2.1 ≠ member := by
  have hlookup := AList.mem_lookup_iff.mpr he
  have hloop : (detachMember member i).1.pending.lookup e.1 =
      if ∃ x ∈ i.pending.entries, x.2.1 = member ∧ x.1 = e.1 then none
      else i.pending.lookup e.1 :=
    KeyedTable.lookup_foldl_erase_if
      (p := fun x : Sigma fun _ : Nat => Nat × OpenSpec => x.2.1 = member) Sigma.fst _ _ _
  rw [hloop] at hlookup
  split at hlookup
  · cases hlookup
  · rename_i hkept
    have hold := AList.mem_lookup_iff.mp hlookup
    exact ⟨hold, fun hmember => hkept ⟨e, hold, hmember, rfl⟩⟩

theorem PendingOk.detach {i : Inner} (h : PendingOk i) (member : Nat) :
    PendingOk (detachMember member i).1 where
  below e he := h.below e (mem_detach_pending he).1
  attached e he := by
    obtain ⟨hold, hother⟩ := mem_detach_pending he
    exact List.mem_filter.mpr ⟨h.attached e hold, by simpa using hother⟩
  members m hm := h.members m (List.mem_filter.mp hm).1

theorem PendingOk.install {i i' : Inner} (h : PendingOk i) (hpending : i'.pending = ∅)
    (hmembers : SameMembers i i') : PendingOk i' where
  below e he := by
    rw [hpending] at he
    cases he
  attached e he := by
    rw [hpending] at he
    cases he
  members := by
    rw [hmembers.members, hmembers.nextMemberId]
    exact h.members

/-! ## Frames of a pool -/

theorem creditAccepted_pending (i : Inner) (now work : Rat) (count : Nat) :
    (i.creditAccepted now work count).1.pending = i.pending := by
  obtain ⟨_, _, _, _, h⟩ := creditAccepted_cases i now work count
  rw [h]

theorem routed_pending (decode : Decoder) (now : Rat) (frame : Sv2Frame) (upCid : Nat)
    (i : Inner) :
    (creditFrame decode now frame upCid (retarget decode frame upCid i)).1.pending =
      i.pending := by
  have hretarget : (retarget decode frame upCid i).pending = i.pending := by
    unfold retarget
    split
    · split <;> rfl
    · rfl
  rw [← hretarget]
  unfold creditFrame
  split
  · exact creditAccepted_pending ..
  · rfl

theorem onUpstreamFrame_nextUpReq (decode : Decoder) (now : Rat) (g : Nat) (frame : Sv2Frame)
    (i : Inner) : (onUpstreamFrame decode now g frame i).1.nextUpReq = i.nextUpReq := by
  have hmap : ∀ (j : Inner) (up : Nat) (extended : Bool),
      (j.mapGroup up extended).1.nextUpReq = j.nextUpReq := by
    intro j up extended
    unfold Inner.mapGroup
    split
    · rfl
    · split <;> rfl
  rcases onUpstreamFrame_cases decode now g frame i with
    h | ⟨_, h⟩ | ⟨_, _, h⟩ | ⟨upCid, _, _, h⟩ <;> rw [h]
  · unfold finalizeOpen
    split
    · rfl
    · split
      · rfl
      · exact hmap ..
  · obtain ⟨p, hp⟩ := rejectOpen_inner decode frame i
    rw [hp]
  · have hretarget : (retarget decode frame upCid i).nextUpReq = i.nextUpReq := by
      unfold retarget
      split
      · split <;> rfl
      · rfl
    rw [← hretarget]
    unfold creditFrame
    split
    · obtain ⟨_, _, _, _, hcredit⟩ := creditAccepted_cases (retarget decode frame upCid i) now
        ((retarget decode frame upCid i).difficultyOf
            (fun c => decide (c.upChannelId = upCid)) *
          ((parseAcceptedCount decode frame).getD 0 : Nat))
        ((parseAcceptedCount decode frame).getD 0)
      simp only [hcredit]
    · rfl

theorem translateCall_pending (r : Rig) (call : SessionCall) (cid member : Nat) (now : Rat) :
    (r.translateCall call cid member now).inner.pending = r.inner.pending ∧
      (r.translateCall call cid member now).inner.nextUpReq = r.inner.nextUpReq := by
  cases call with
  | sendTranslateFrame frame => exact ⟨rfl, rfl⟩
  | setTranslateDiff diff =>
    simp only [Rig.translateCall, setTranslateDiff]
    split <;> exact ⟨rfl, rfl⟩
  | creditTranslate =>
    simp only [Rig.translateCall, creditTranslate]
    split
    · exact ⟨rfl, rfl⟩
    · obtain ⟨_, _, _, _, hcredit⟩ := creditAccepted_cases r.inner now
        (r.inner.difficultyOf fun c => decide (c.downChannelId = cid)) 1
      simp only [hcredit, Rig.credit_inner, and_self]

/-- A frame of the pool answers nothing, answers a pending open, or is an OpenError
for an open that nobody waits for. -/
theorem onUpstreamFrame_answers {decode : Decoder} (hsized : decode.Sized) (now : Rat) (g : Nat)
    (frame : Sv2Frame) (i : Inner) :
    ((onUpstreamFrame decode now g frame i).1.pending = i.pending ∧
      ∀ s ∈ (onUpstreamFrame decode now g frame i).2.2, s.frame.answers? decode = none) ∨
    (∃ up member spec reply, i.pending.lookup up = some (member, spec) ∧
      (onUpstreamFrame decode now g frame i).1.pending = i.pending.erase up ∧
      (onUpstreamFrame decode now g frame i).2.2 =
        (if member ∈ i.members then [⟨member, reply⟩] else []) ∧
      reply.answers? decode = some spec.requestId) ∨
    (g = i.active.generation ∧ frame.msgType = .openMiningChannelError ∧
      ∃ req, parseOpenErrorRequestId decode frame = some req ∧ i.pending.lookup req = none ∧
        (onUpstreamFrame decode now g frame i).1 = i ∧
        (onUpstreamFrame decode now g frame i).2.2 = i.members.map (⟨·, .received frame⟩)) := by
  unfold onUpstreamFrame
  split_ifs with hstale hopen herror hscoped
  · exact Or.inl ⟨rfl, fun s hs => by cases hs⟩
  · cases hinfo : parseOpenSuccess decode frame with
    | none =>
      have hnothing : finalizeOpen decode frame i = (i, []) := by simp only [finalizeOpen, hinfo]
      rw [hnothing]
      exact Or.inl ⟨rfl, fun s hs => by cases hs⟩
    | some info =>
      cases hpending : i.pending.lookup info.requestId with
      | none =>
        have hnothing : finalizeOpen decode frame i = (i, []) := by
          simp only [finalizeOpen, hinfo, hpending]
        rw [hnothing]
        exact Or.inl ⟨rfl, fun s hs => by cases hs⟩
      | some entry =>
        obtain ⟨c, hopens, howner, hspec, hsends⟩ := finalizeOpen_opens hinfo hpending
        obtain ⟨reply, hreply⟩ := Option.isSome_iff_exists.mp
          (openSuccessDownstream_isSome.mpr (hsized frame info hinfo) :
            (openSuccessDownstream entry.2 c.downChannelId c.downGroupId info).isSome)
        rw [hreply] at hsends
        exact Or.inr (Or.inl ⟨info.requestId, entry.1, entry.2, reply, hpending, hopens.pending,
          hsends, openSuccessDownstream_answers hreply⟩)
  · cases hreq : parseOpenErrorRequestId decode frame with
    | none =>
      have hall : rejectOpen decode frame i = (i, i.members.map (⟨·, .received frame⟩)) := by
        simp only [rejectOpen, hreq]
      rw [hall]
      refine Or.inl ⟨rfl, ?_⟩
      intro s hs
      obtain ⟨m, _, rfl⟩ := List.mem_map.mp hs
      simp [EitherFrame.answers?, Sv2Frame.isOpenSuccess, herror, hreq]
    | some req =>
      cases hpending : i.pending.lookup req with
      | none =>
        have hall : rejectOpen decode frame i = (i, i.members.map (⟨·, .received frame⟩)) := by
          simp only [rejectOpen, hreq, hpending]
        rw [hall]
        exact Or.inr (Or.inr ⟨not_not.mp hstale, herror, req, rfl, hpending, rfl, rfl⟩)
      | some entry =>
        have hreject : rejectOpen decode frame i = ({ i with pending := i.pending.erase req },
            i.toMember entry.1 (.built (.openMiningChannelError entry.2.requestId
              "upstream rejected channel open"))) := by
          simp only [rejectOpen, hreq, hpending, openChannelError_rejected]
        rw [hreject]
        exact Or.inr (Or.inl ⟨req, entry.1, entry.2, _, hpending, rfl, rfl, rfl⟩)
  · exact Or.inl ⟨rfl, fun s hs => by cases hs⟩
  · cases hid : readChannelId frame with
    | none => exact Or.inl ⟨rfl, fun s hs => by cases hs⟩
    | some upCid =>
      refine Or.inl ⟨routed_pending decode now frame upCid i, ?_⟩
      intro s hs
      exact forward_answers (by simpa using hscoped) hs

theorem PendingOk.step {decode : Decoder} {lib : Sv1Library} (hsized : decode.Sized)
    {r r' : Rig} {e : Event} (h : PendingOk r.inner) (ht : Transition decode lib r e r') :
    PendingOk r'.inner := by
  cases ht with
  | attach hnative => exact h.addMember.forwardOpen (List.mem_append_right _ List.mem_cons_self) _
  | openChannel hmember =>
    rw [Rig.queue_inner]
    unfold openChannel
    split
    · exact h
    · exact h.forwardOpen hmember _
  | @minerFrame member frame hmember =>
    rw [Rig.submitted_inner]
    rcases minerFrame_cases frame r.inner with hi | ⟨n, up, hi⟩ <;> rw [hi]
    · exact h
    · exact h.frame (List.Subset.refl _) rfl ⟨rfl, rfl⟩
  | detach hmember => exact h.detach _
  | @upstreamFrame g frame now hnative =>
    refine h.frame ?_ (onUpstreamFrame_nextUpReq decode now g frame r.inner)
      (onUpstreamFrame_members now g frame r.inner)
    rcases onUpstreamFrame_answers hsized now g frame r.inner with
      ⟨hpending, _⟩ | ⟨up, _, _, _, _, hpending, _⟩ | ⟨_, _, _, _, _, hinner, _⟩
    · rw [Rig.queue_inner, Rig.credit_inner, hpending]
      exact List.Subset.refl _
    · rw [Rig.queue_inner, Rig.credit_inner, hpending]
      exact (List.kerase_sublist up _).subset
    · rw [Rig.queue_inner, Rig.credit_inner, hinner]
      exact List.Subset.refl _
  | @translateCall member cid written now state call calls htranslator =>
    let s : Rig := { r with translator := some ⟨cid, state, calls, written⟩ }
    have hcall : (s.translateCall call cid member now).inner.pending = s.inner.pending ∧
        (s.translateCall call cid member now).inner.nextUpReq = s.inner.nextUpReq :=
      translateCall_pending s call cid member now
    refine h.frame ?_ hcall.2 (translateCall_sameRig s call cid member now).members
    rw [hcall.1]
    exact List.Subset.refl _
  | swapReopened hswap hlength => exact h.install rfl ⟨rfl, rfl⟩
  | swapTranslated hswap hconn => exact h.install rfl ⟨rfl, rfl⟩
  | _ => exact h.frame (List.Subset.refl _) rfl ⟨rfl, rfl⟩

/-! ## Counting -/

theorem waiting_forwardOpen {i : Inner} (h : PendingOk i) (member : Nat) (spec : OpenSpec)
    (m req : Nat) : (forwardOpen member spec i).waiting m req = i.waiting m req +
      if i.canForward spec = true ∧ member = m ∧ spec.requestId = req then 1 else 0 := by
  unfold Inner.waiting
  rw [forwardOpen_pending]
  split
  · rename_i hbuilt
    rw [KeyedTable.countP_insert h.fresh]
    simp [hbuilt]
  · rename_i hnone
    simp [hnone]

theorem waiting_erase {i i' : Inner} {up member : Nat} {spec : OpenSpec}
    (hlookup : i.pending.lookup up = some (member, spec))
    (herase : i'.pending = i.pending.erase up) (m req : Nat) :
    i.waiting m req = i'.waiting m req +
      if member = m ∧ spec.requestId = req then 1 else 0 := by
  unfold Inner.waiting
  rw [herase, KeyedTable.countP_erase hlookup]
  simp

/-- The opens of the other members stay pending. -/
theorem waiting_detach {member m : Nat} (hother : m ≠ member) (req : Nat) (i : Inner) :
    (detachMember member i).1.waiting m req = i.waiting m req := by
  refine KeyedTable.countP_foldl_erase_if
    (q := fun e : Sigma fun _ : Nat => Nat × OpenSpec => e.2.1 = member) _ _ ?_
  intro e he howned v hv
  have hsame : v = e.2 :=
    Option.some.inj (hv.symm.trans (AList.mem_lookup_iff.mpr he))
  simp [hsame, howned, Ne.symm hother]

theorem waiting_of_empty {i : Inner} (h : i.pending.entries = []) (m req : Nat) :
    i.waiting m req = 0 := by
  rw [Inner.waiting, h, List.countP_nil]

theorem answered_append {decode : Decoder} {r r' : Rig} {new : List Queued}
    (hsent : r'.sent = r.sent ++ new) (m req : Nat) :
    r'.answered decode m req = r.answered decode m req +
      new.countP fun q => decide (q.member = m) &&
        decide (q.frame.answers? decode = some req) := by
  rw [Rig.answered, hsent, List.countP_append]
  rfl

/-- Frames that answer nothing do not count. -/
theorem answered_quiet {decode : Decoder} {r r' : Rig} {new : List Queued}
    (hsent : r'.sent = r.sent ++ new) (hnew : ∀ q ∈ new, q.frame.answers? decode = none)
    (m req : Nat) : r'.answered decode m req = r.answered decode m req := by
  rw [answered_append hsent, List.countP_eq_zero.mpr fun q hq => by simp [hnew q hq],
    Nat.add_zero]

/-! ## The invariant -/

/-- The opens of a rig, with what says that ids are fresh. -/
structure OpensInv (decode : Decoder) (r : Rig) (opens : List (Nat × Nat)) : Prop where
  answered : AnsweredOnce decode r opens
  pending : PendingOk r.inner
  asked : ∀ p ∈ opens, p.1 < r.inner.nextMemberId
  sent : ∀ q ∈ r.sent, (q.frame.answers? decode).isSome → q.member < r.inner.nextMemberId
  abandoned : ∀ plan todo abandoned members,
    r.swap = .repointing plan todo abandoned members → abandoned = []
  scope : CallsInScope r

namespace OpensInv

variable {decode : Decoder} {r r' : Rig} {opens : List (Nat × Nat)}

/-- A step that asks nothing and answers nothing. -/
theorem quiet (h : OpensInv decode r opens) (hpending : r'.inner.pending = r.inner.pending)
    (hnext : r'.inner.nextUpReq = r.inner.nextUpReq) (hmembers : SameMembers r.inner r'.inner)
    (new : List Queued) (hsent : r'.sent = r.sent ++ new)
    (hnew : ∀ q ∈ new, q.frame.answers? decode = none)
    (habandoned : ∀ plan todo abandoned members,
      r'.swap = .repointing plan todo abandoned members → abandoned = [])
    (hscope : CallsInScope r') : OpensInv decode r' opens where
  answered := by
    intro m hm req
    rw [answered_quiet hsent hnew, Inner.waiting, hpending]
    exact h.answered m (hmembers.members ▸ hm) req
  pending := h.pending.frame (by rw [hpending]; exact List.Subset.refl _) hnext hmembers
  asked := by
    rw [hmembers.nextMemberId]
    exact h.asked
  sent := by
    intro q hq hanswers
    rw [hmembers.nextMemberId]
    rw [hsent] at hq
    rcases List.mem_append.mp hq with hold | hlast
    · exact h.sent q hold hanswers
    · rw [hnew q hlast] at hanswers
      cases hanswers
  abandoned := habandoned
  scope := hscope

/-- A new member has asked nothing and was answered nothing. -/
theorem addMember (h : OpensInv decode r opens) :
    OpensInv decode { r with inner := r.inner.addMember.1 } opens where
  answered := by
    intro m hm req
    rcases List.mem_append.mp hm with hold | hnew
    · exact h.answered m hold req
    · rw [List.mem_singleton.mp hnew]
      have hasked : opens.count (r.inner.nextMemberId, req) = 0 := by
        rw [List.count_eq_zero]
        exact fun hmem => lt_irrefl _ (h.asked _ hmem)
      have hwaiting : r.inner.waiting r.inner.nextMemberId req = 0 := by
        refine List.countP_eq_zero.mpr fun e he => ?_
        have hlt := h.pending.members _ (h.pending.attached e he)
        simp [ne_of_lt hlt]
      have hanswered : r.answered decode r.inner.nextMemberId req = 0 := by
        refine List.countP_eq_zero.mpr fun q hq => ?_
        simp only [Bool.and_eq_true, decide_eq_true_eq, not_and]
        intro hmember hanswers
        have hlt := h.sent q hq (by rw [hanswers]; rfl)
        omega
      change opens.count _ = r.inner.waiting _ req + r.answered decode _ req
      omega
  pending := h.pending.addMember
  asked p hp := (h.asked p hp).trans (Nat.lt_succ_self _)
  sent q hq hanswers := (h.sent q hq hanswers).trans (Nat.lt_succ_self _)
  abandoned := h.abandoned
  scope := h.scope

theorem forwardOpen (h : OpensInv decode r opens) {member : Nat} {spec : OpenSpec}
    (hmember : member ∈ r.inner.members) (hbuilt : r.inner.canForward spec = true) :
    OpensInv decode { r with inner := forwardOpen member spec r.inner }
      (opens ++ [(member, spec.requestId)]) where
  answered := by
    intro m hm req
    have hsame := forwardOpen_members member spec r.inner
    have hold := h.answered m (hsame.members ▸ hm) req
    have hcount := waiting_forwardOpen h.pending member spec m req
    simp only [List.count_append, List.count_singleton, beq_iff_eq, Prod.mk.injEq]
    simp only [hbuilt, true_and] at hcount
    change _ = (Sv2.forwardOpen member spec r.inner).waiting m req + r.answered decode m req
    omega
  pending := h.pending.forwardOpen hmember spec
  asked := by
    have hsame := forwardOpen_members member spec r.inner
    intro p hp
    rw [hsame.nextMemberId]
    rcases List.mem_append.mp hp with hold | hnew
    · exact h.asked p hold
    · rw [List.mem_singleton.mp hnew]
      exact h.pending.members _ hmember
  sent := by
    have hsame := forwardOpen_members member spec r.inner
    rw [hsame.nextMemberId]
    exact h.sent
  abandoned := h.abandoned
  scope := h.scope

/-- An open that cannot be built is dropped. -/
theorem canForward_of_answered (h : OpensInv decode r opens) {member : Nat} {spec : OpenSpec}
    (hmember : member ∈ r.inner.members)
    (hanswered : AnsweredOnce decode { r with inner := Sv2.forwardOpen member spec r.inner }
      (opens ++ [(member, spec.requestId)])) : r.inner.canForward spec = true := by
  by_contra hdropped
  have hsame := forwardOpen_members member spec r.inner
  have hold := h.answered member hmember spec.requestId
  have hnew := hanswered member (hsame.members ▸ hmember) spec.requestId
  have hcount := waiting_forwardOpen h.pending member spec member spec.requestId
  simp only [hdropped, false_and, if_false, Nat.add_zero] at hcount
  simp only [List.count_append, List.count_singleton_self] at hnew
  change _ = (Sv2.forwardOpen member spec r.inner).waiting member spec.requestId +
    r.answered decode member spec.requestId at hnew
  omega

/-- On a translated upstream an additional channel is refused. -/
theorem refuse (h : OpensInv decode r opens) {member : Nat} {spec : OpenSpec}
    (hmember : member ∈ r.inner.members) (htranslating : r.inner.translating = true) :
    OpensInv decode
      ({ r with inner := (openChannel member spec r.inner).1 }.queue .reply
        (openChannel member spec r.inner).2) (opens ++ [(member, spec.requestId)]) := by
  rw [openChannel_refused member spec htranslating]
  refine ⟨?_, h.pending, ?_, ?_, h.abandoned, h.scope⟩
  · intro m hm req
    have hold := h.answered m hm req
    rw [answered_append (r := r) rfl]
    simp only [List.count_append, List.count_singleton, beq_iff_eq, Prod.mk.injEq,
      EitherFrame.answers?, Option.some.injEq, List.map_cons, List.map_nil, List.countP_singleton,
      Bool.and_eq_true, decide_eq_true_eq]
    change _ = r.inner.waiting m req + _
    omega
  · intro p hp
    rcases List.mem_append.mp hp with hold | hnew
    · exact h.asked p hold
    · rw [List.mem_singleton.mp hnew]
      exact h.pending.members _ hmember
  · intro q hq hanswers
    rcases Rig.mem_queue hq with hold | ⟨s, hs, rfl⟩
    · exact h.sent q hold hanswers
    · rw [List.mem_singleton.mp hs]
      exact h.pending.members _ hmember

/-- A reply to a pending open takes it out of the table. -/
theorem reply (h : OpensInv decode r opens) {up member : Nat} {spec : OpenSpec}
    {frame : EitherFrame} (source : FrameSource)
    (hlookup : r.inner.pending.lookup up = some (member, spec))
    (hpending : r'.inner.pending = r.inner.pending.erase up)
    (hnext : r'.inner.nextUpReq = r.inner.nextUpReq) (hmembers : SameMembers r.inner r'.inner)
    (hsent : r'.sent = r.sent ++ [⟨source, member, frame⟩])
    (hanswers : frame.answers? decode = some spec.requestId) (hswap : r'.swap = r.swap)
    (hscope : CallsInScope r') : OpensInv decode r' opens where
  answered := by
    intro m hm req
    have hold := h.answered m (hmembers.members ▸ hm) req
    have hcount := waiting_erase hlookup hpending m req
    rw [answered_append hsent]
    simp only [List.countP_singleton, hanswers, Option.some.injEq, Bool.and_eq_true,
      decide_eq_true_eq]
    omega
  pending := by
    refine h.pending.frame ?_ hnext hmembers
    rw [hpending]
    exact (List.kerase_sublist up _).subset
  asked := by
    rw [hmembers.nextMemberId]
    exact h.asked
  sent := by
    intro q hq hreply
    rw [hmembers.nextMemberId]
    rw [hsent] at hq
    rcases List.mem_append.mp hq with hold | hlast
    · exact h.sent q hold hreply
    · rw [List.mem_singleton.mp hlast]
      exact h.pending.members _ (h.pending.attached _ (AList.mem_lookup_iff.mp hlookup))
  abandoned := by
    rw [hswap]
    exact h.abandoned
  scope := hscope

theorem detach (h : OpensInv decode r opens) (member : Nat) :
    OpensInv decode { r with inner := (detachMember member r.inner).1 } opens where
  answered := by
    intro m hm req
    obtain ⟨hold, hother⟩ := List.mem_filter.mp hm
    rw [h.answered m hold req, ← waiting_detach (of_decide_eq_true hother)]
    rfl
  pending := h.pending.detach member
  asked := h.asked
  sent := h.sent
  abandoned := h.abandoned
  scope := h.scope

/-- A swap installs when no open is pending. -/
theorem install (h : OpensInv decode r opens) (hnone : r.inner.pending.entries = [])
    (hpending : r'.inner.pending = ∅) (hmembers : SameMembers r.inner r'.inner)
    (hsent : r'.sent = r.sent)
    (habandoned : ∀ plan todo abandoned members, r'.swap = .repointing plan todo abandoned members →
      abandoned = r.inner.pending.entries.map fun e => (e.2.1, e.1))
    (hscope : CallsInScope r') : OpensInv decode r' opens where
  answered := by
    intro m hm req
    have hold := h.answered m (hmembers.members ▸ hm) req
    rw [waiting_of_empty hnone] at hold
    rw [waiting_of_empty (by rw [hpending]; rfl), Rig.answered, hsent]
    exact hold
  pending := h.pending.install hpending hmembers
  asked := by
    rw [hmembers.nextMemberId]
    exact h.asked
  sent := by
    rw [hmembers.nextMemberId, hsent]
    exact h.sent
  abandoned := by
    intro plan todo abandoned members hswap
    rw [habandoned plan todo abandoned members hswap, hnone, List.map_nil]
  scope := hscope

/-- An open that is pending at an install is never answered. -/
theorem none_pending_of_answered (h : OpensInv decode r opens)
    (hanswered : AnsweredOnce decode r' opens) (hpending : r'.inner.pending = ∅)
    (hmembers : SameMembers r.inner r'.inner) (hsent : r'.sent = r.sent) :
    r.inner.pending.entries = [] := by
  by_contra hsome
  obtain ⟨e, he⟩ := List.exists_mem_of_ne_nil _ hsome
  have hmember := h.pending.attached e he
  have hold := h.answered e.2.1 hmember e.2.2.requestId
  have hnew := hanswered e.2.1 (hmembers.members ▸ hmember) e.2.2.requestId
  rw [waiting_of_empty (by rw [hpending]; rfl), Rig.answered, hsent] at hnew
  have hwaiting : 0 < r.inner.waiting e.2.1 e.2.2.requestId :=
    List.countP_pos_iff.mpr ⟨e, he, by simp⟩
  unfold Rig.answered at hold
  omega

/-- A frame of the pool. -/
theorem upstreamFrame (h : OpensInv decode r opens) (hsized : decode.Sized) {lib : Sv1Library}
    {g : Nat} {frame : Sv2Frame} {now : Rat}
    (hguard : AnswersOpens decode lib r (.upstreamFrame g frame now)) :
    OpensInv decode (({ r with inner := (onUpstreamFrame decode now g frame r.inner).1 }.credit
      (onUpstreamFrame decode now g frame r.inner).2.1).queue (.reader g)
      (onUpstreamFrame decode now g frame r.inner).2.2) opens := by
  have hnext := onUpstreamFrame_nextUpReq decode now g frame r.inner
  have hmembers := @onUpstreamFrame_members decode now g frame r.inner
  rcases onUpstreamFrame_answers hsized now g frame r.inner with
    ⟨hpending, hsends⟩ | ⟨up, member, spec, reply, hlookup, hpending, hsends, hanswers⟩ |
      ⟨hg, herror, req, hreq, hlookup, _, hsends⟩
  · refine h.quiet hpending hnext hmembers _ rfl ?_ h.abandoned (h.scope.of_eq rfl)
    intro q hq
    obtain ⟨s, hs, rfl⟩ := List.mem_map.mp hq
    exact hsends s hs
  · have hmember : member ∈ r.inner.members :=
      h.pending.attached _ (AList.mem_lookup_iff.mp hlookup)
    rw [if_pos hmember] at hsends
    refine h.reply (.reader g) hlookup hpending hnext hmembers ?_ hanswers rfl
      (h.scope.of_eq rfl)
    rw [Rig.queue_sent, hsends]
    rfl
  · rcases hguard hg herror req hreq with hknown | hnobody
    · rw [hlookup] at hknown
      cases hknown
    · rw [hnobody, List.map_nil] at hsends
      refine h.quiet ?_ hnext hmembers [] ?_ (fun q hq => by cases hq) h.abandoned
        (h.scope.of_eq rfl)
      · rename_i hinner
        exact congrArg Inner.pending hinner
      · rw [Rig.queue_sent, hsends]
        rfl

/-- An OpenError for an open that nobody waits for reaches everyone. -/
theorem known_of_answered (h : OpensInv decode r opens) {lib : Sv1Library}
    {g : Nat} {frame : Sv2Frame} {now : Rat}
    (hanswered : AnsweredOnce decode
      (({ r with inner := (onUpstreamFrame decode now g frame r.inner).1 }.credit
        (onUpstreamFrame decode now g frame r.inner).2.1).queue (.reader g)
        (onUpstreamFrame decode now g frame r.inner).2.2) opens) :
    AnswersOpens decode lib r (.upstreamFrame g frame now) := by
  intro hg herror req hreq
  by_contra hunknown
  rw [not_or] at hunknown
  obtain ⟨hnone, hsome⟩ := hunknown
  obtain ⟨m, hm⟩ := List.exists_mem_of_ne_nil _ hsome
  rw [Option.mem_def] at hreq
  have hlookup : r.inner.pending.lookup req = none := by simpa using hnone
  have hall : onUpstreamFrame decode now g frame r.inner =
      (r.inner, none, r.inner.members.map (⟨·, .received frame⟩)) := by
    have hopen : ¬(frame.msgType = .openExtendedMiningChannelSuccess ∨
        frame.msgType = .openStandardMiningChannelSuccess) := by simp [herror]
    rw [onUpstreamFrame, if_neg (by simpa using hg), if_neg hopen, if_pos herror]
    simp only [rejectOpen, hreq, hlookup]
  rw [hall] at hanswered
  have hold := h.answered m hm req
  have hnew := hanswered m hm req
  rw [answered_append (r := r) rfl] at hnew
  have hanswers : EitherFrame.answers? decode (.received frame) = some req := by
    simp [EitherFrame.answers?, Sv2Frame.isOpenSuccess, herror, hreq]
  have hpositive : 0 < ((r.inner.members.map fun m => (⟨m, .received frame⟩ : Send)).map
      fun s => (⟨.reader g, s.member, s.frame⟩ : Queued)).countP fun q =>
        decide (q.member = m) && decide (q.frame.answers? decode = some req) := by
    refine List.countP_pos_iff.mpr ⟨⟨.reader g, m, .received frame⟩, ?_, by simp [hanswers]⟩
    exact List.mem_map_of_mem (f := fun s : Send => (⟨.reader g, s.member, s.frame⟩ : Queued))
      (List.mem_map_of_mem (f := fun m => (⟨m, .received frame⟩ : Send)) hm)
  change _ = r.inner.waiting m req + _ at hnew
  dsimp only at hnew
  omega

/-- A step that is no open of a member. -/
theorem of_transition (h : OpensInv decode r opens) (hsized : decode.Sized) {lib : Sv1Library}
    {e : Event} (hguard : AnswersOpens decode lib r e) (ht : Transition decode lib r e r')
    (hattach : ∀ spec, e ≠ .attach spec) (hopen : ∀ member spec, e ≠ .openChannel member spec) :
    OpensInv decode r' opens := by
  have hscope := h.scope.step ht
  have hidle : ∀ plan todo abandoned members,
      SwapTask.idle = .repointing plan todo abandoned members → abandoned = [] := by
    intro plan todo abandoned members hswap
    cases hswap
  -- a step that leaves the members' opens and what they were sent alone
  have hkeep : r'.inner.pending = r.inner.pending → r'.inner.nextUpReq = r.inner.nextUpReq →
      SameMembers r.inner r'.inner → r'.sent = r.sent →
      (∀ plan todo abandoned members,
        r'.swap = .repointing plan todo abandoned members → abandoned = []) →
      OpensInv decode r' opens := fun hpending hnext hmembers hsent habandoned =>
    h.quiet hpending hnext hmembers [] (by rw [hsent, List.append_nil])
      (fun q hq => by cases hq) habandoned hscope
  cases ht with
  | attach hnative => exact absurd rfl (hattach _)
  | openChannel hmember => exact absurd rfl (hopen _ _)
  | detach hmember => exact h.detach _
  | upstreamFrame hnative => exact h.upstreamFrame hsized hguard
  | @minerFrame member frame hmember =>
    refine hkeep ?_ ?_ ?_ (Rig.submitted_sent ..) ?_
    · rw [Rig.submitted_inner]
      rcases minerFrame_cases frame r.inner with hi | ⟨n, up, hi⟩ <;> rw [hi]
      rfl
    · rw [Rig.submitted_inner]
      rcases minerFrame_cases frame r.inner with hi | ⟨n, up, hi⟩ <;> rw [hi]
      rfl
    · rw [Rig.submitted_inner]
      exact minerFrame_members frame r.inner
    · rw [(SameTasks.submitted _ _).swap]
      exact h.abandoned
  | @translateCall member cid written now state call calls htranslator =>
    let s : Rig := { r with translator := some ⟨cid, state, calls, written⟩ }
    obtain ⟨new, hsent, hnew⟩ := translateCall_sends s call cid member now
    have hcall : (s.translateCall call cid member now).inner.pending = s.inner.pending ∧
        (s.translateCall call cid member now).inner.nextUpReq = s.inner.nextUpReq :=
      translateCall_pending s call cid member now
    refine h.quiet hcall.1 hcall.2 (translateCall_sameRig s call cid member now).members new hsent
      ?_ ?_ hscope
    · intro q hq
      obtain ⟨_, frame, hframe, rfl⟩ := hnew q hq
      exact answers_of_channelId (h.scope _ htranslator frame (hframe ▸ List.mem_cons_self))
    · rw [(translateCall_sameTasks s call cid member now).swap]
      exact h.abandoned
  | swapOrder hswap horder htarget =>
    exact hkeep rfl rfl ⟨rfl, rfl⟩ rfl fun _ _ _ _ hswap => by cases hswap
  | swapRevert hswap hdefault =>
    exact hkeep rfl rfl ⟨rfl, rfl⟩ rfl fun _ _ _ _ hswap => by cases hswap
  | swapNotSv2 hswap hchannel =>
    exact hkeep rfl rfl ⟨rfl, rfl⟩ rfl fun _ _ _ _ hswap => by cases hswap
  | swapReopened hswap hlength =>
    refine h.install hguard rfl ⟨rfl, rfl⟩ rfl ?_ hscope
    intro plan todo abandoned members hrepointing
    cases hrepointing
    rfl
  | swapTranslated hswap hconn =>
    refine h.install (hguard (by rw [hconn]; rfl)) rfl ⟨rfl, rfl⟩ rfl ?_ hscope
    intro plan todo abandoned members hrepointing
    cases hrepointing
    rfl
  | @repoint plan s todo abandoned members frame hswap hframe =>
    refine h.quiet rfl rfl ⟨rfl, rfl⟩ _ rfl ?_ ?_ hscope
    · intro q hq
      rw [List.mem_singleton.mp hq]
      exact RepointStep.frame_answers hframe
    · intro plan' todo' abandoned' members' hrepointing
      cases hrepointing
      exact h.abandoned _ _ _ _ hswap
  | notice hswap =>
    have hnone := h.abandoned _ _ _ _ hswap
    cases hnone
  | swapDone hswap => exact hkeep rfl rfl ⟨rfl, rfl⟩ rfl hidle
  | repointFailed hswap hframe => exact hkeep rfl rfl ⟨rfl, rfl⟩ rfl hidle
  | swapFailed hswap => exact hkeep rfl rfl ⟨rfl, rfl⟩ rfl hidle
  | _ => exact hkeep rfl rfl ⟨rfl, rfl⟩ rfl h.abandoned

/-- The step lemma. -/
theorem step (h : OpensInv decode r opens) (hsized : decode.Sized) {lib : Sv1Library} {e : Event}
    (hguard : AnswersOpens decode lib r e) (hstep : step decode lib r e = some r') :
    OpensInv decode r' (Sv2.asked r e opens) := by
  have ht := transition_of_step hstep
  cases e with
  | attach spec =>
    simp only [Sv2.step, attachMember] at hstep
    split at hstep <;> cases hstep
    exact h.addMember.forwardOpen (List.mem_append_right _ List.mem_cons_self) hguard
  | openChannel member spec =>
    simp only [Sv2.step] at hstep
    split at hstep <;> cases hstep
    rename_i hmember
    cases htranslating : r.inner.translating with
    | true => exact h.refuse hmember htranslating
    | false =>
      rw [openChannel_forwarded member spec htranslating]
      have hopen := h.forwardOpen hmember (hguard htranslating)
      simpa [Rig.queue, Sv2.asked] using hopen
  | _ => exact h.of_transition hsized hguard ht (by simp) (by simp)

/-- The step that breaks the condition leaves an open without its one answer. -/
theorem answersOpens (h : OpensInv decode r opens) {lib : Sv1Library}
    {e : Event} (hstep : Sv2.step decode lib r e = some r')
    (hanswered : AnsweredOnce decode r' (Sv2.asked r e opens)) : AnswersOpens decode lib r e := by
  cases e with
  | attach spec =>
    simp only [Sv2.step, attachMember] at hstep
    split at hstep <;> cases hstep
    exact h.addMember.canForward_of_answered (List.mem_append_right _ List.mem_cons_self) hanswered
  | openChannel member spec =>
    intro htranslating
    simp only [Sv2.step] at hstep
    split at hstep <;> cases hstep
    rename_i hmember
    rw [openChannel_forwarded member spec htranslating] at hanswered
    exact h.canForward_of_answered hmember (by simpa [Rig.queue, Sv2.asked] using hanswered)
  | upstreamFrame g frame now =>
    simp only [Sv2.step] at hstep
    split at hstep <;> cases hstep
    exact h.known_of_answered hanswered
  | swapReopened infos =>
    simp only [Sv2.step] at hstep
    split at hstep
    · split at hstep <;> cases hstep
      exact h.none_pending_of_answered hanswered rfl ⟨rfl, rfl⟩ rfl
    · cases hstep
  | swapTranslated lines =>
    intro hsome
    obtain ⟨conn, hconn⟩ := Option.isSome_iff_exists.mp hsome
    simp only [Sv2.step] at hstep
    split at hstep
    · rw [hconn] at hstep
      cases hstep
      exact h.none_pending_of_answered hanswered rfl ⟨rfl, rfl⟩ rfl
    · cases hstep
  | _ => trivial

end OpensInv

theorem askedAtStart_eq {r : Rig} {up : Nat} {spec : OpenSpec}
    (h : r.inner.pending.entries = [⟨up, firstMember, spec⟩]) :
    askedAtStart r = [(firstMember, spec.requestId)] := by
  rw [askedAtStart, h]
  rfl

theorem OpensInv.of_start {decode : Decoder} {lib : Sv1Library} {worker : String}
    {spec : OpenSpec} {store : OrderStore} {idlePool : Option UpstreamTarget} {now : Int}
    {failed : Option InitialAnswer} {answer : InitialAnswer} {r : Rig}
    (h : start lib worker spec store idlePool now failed answer = some r) (honce : r.OpensOnce) :
    OpensInv decode r (askedAtStart r) := by
  have hpending := PendingOk.of_start h
  obtain ⟨_, _, _, _, _, hinstall⟩ := start_firstInstall h
  cases hinstall with
  | @native cid up pending frame hleft =>
    -- the one open is pending
    have hentries := hleft.insert_entries (firstMember, spec)
    have hnone : pending.entries = [] := by
      apply List.eq_nil_of_length_eq_zero
      have hlength : (pending.insert up (firstMember, spec)).entries.length ≤ 1 := honce
      rw [hentries, List.length_cons] at hlength
      omega
    rw [hnone] at hentries
    refine ⟨?_, hpending, ?_, (fun q hq => by cases hq), ?_, (fun t ht => by cases ht)⟩
    · intro m hm req
      rw [show m = firstMember from List.mem_singleton.mp hm, askedAtStart_eq hentries]
      change List.count _ [(firstMember, spec.requestId)] =
        List.countP _ (pending.insert up (firstMember, spec)).entries + 0
      rw [hentries]
      simp [List.count_singleton]
    · intro p hp
      rw [askedAtStart_eq hentries] at hp
      rw [List.mem_singleton.mp hp]
      exact Nat.one_lt_two
    · intro _ _ _ _ hswap
      cases hswap
  | @sv1 _ _ _ _ _ reply _ _ hreply =>
    -- the one open was answered
    have hanswers := @openSuccessDownstream_answers decode _ _ _ _ _ hreply
    refine ⟨?_, hpending, ?_, ?_, ?_, ?_⟩
    · intro m hm req
      rw [show m = firstMember from List.mem_singleton.mp hm]
      change List.count _ [(firstMember, spec.requestId)] =
        0 + List.countP _ [(⟨.reply, firstMember, reply⟩ : Queued)]
      simp [List.count_singleton, hanswers]
    · intro p hp
      rw [List.mem_singleton.mp (hp : p ∈ [(firstMember, spec.requestId)])]
      exact Nat.one_lt_two
    · intro q hq _
      rw [List.mem_singleton.mp (hq : q ∈ [(⟨.reply, firstMember, reply⟩ : Queued)])]
      exact Nat.one_lt_two
    · intro _ _ _ _ hswap
      cases hswap
    · intro t ht frame hframe
      cases ht
      cases hframe

/-- Every open of an attached member is pending or was answered once, as long as
opens can be built, the first one is pending once, OpenErrors are for pending opens and
no swap installs while opens are pending.  The first step that breaks this leaves an
open without its one answer. -/
theorem opens_answered_once {decode : Decoder} {lib : Sv1Library} (hsized : decode.Sized)
    {x : Rig × List (Nat × Nat)}
    (h : ReachesOnce decode lib asked askedAtStart
      (fun x e => AnswersOpens decode lib x.1 e) x) :
    AnsweredOnce decode x.1 x.2 ∧ ∀ e r', step decode lib x.1 e = some r' →
      (AnsweredOnce decode r' (asked x.1 e x.2) ↔ AnswersOpens decode lib x.1 e) := by
  have hinv : OpensInv decode x.1 x.2 :=
    h.invariant (I := OpensInv decode) (fun _ _ _ _ _ _ _ _ hstart honce => .of_start hstart honce)
      fun _ _ _ _ hold hguard hstep => hold.step hsized hguard hstep
  refine ⟨hinv.answered, ?_⟩
  intro e r' hstep
  exact ⟨hinv.answersOpens hstep, fun hguard => (hinv.step hsized hguard hstep).answered⟩

/-- Two members open, the rig moves to the buyer's pool, and one opens again. -/
def answeredOpens : List Event := twoOpens ++ [.swapSend, .openChannel 2 (extendedOpen 9)]

theorem opens_answered_once_again :
    ∃ x, ReachesOnce wireDecoder plainLibrary asked askedAtStart
        (fun x e => AnswersOpens wireDecoder plainLibrary x.1 e) x ∧
      x.2.length = 3 ∧ AnsweredOnce wireDecoder x.1 x.2 := by
  obtain ⟨x, hx, hlength⟩ := exists_once_of_idleRig asked askedAtStart
    (G := fun x e => AnswersOpens wireDecoder plainLibrary x.1 e) answeredOpens
    (p := fun x => decide (x.2.length = 3)) (by decide +kernel)
  exact ⟨x, hx, of_decide_eq_true hlength, (opens_answered_once wireDecoder_sized hx).1⟩

/-- The rig moves to the buyer's pool while an open is pending. -/
def droppedOpen : List Event :=
  [.upstreamFrame 0 (openedFrame 1 10 0) 0, .openChannel 1 (extendedOpen 8),
    .createOrder buyerOrder, .swapOrder .attach "o1" false, .swapReopened [reopenedInfo 30],
    .swapSend, .swapSend, .swapSend, .swapSend]

/-- The swap drops the open, and what it tells the member answers another request. -/
theorem swap_drops_open :
    ∃ x, ReachesWith wireDecoder plainLibrary asked askedAtStart (fun _ _ => True) x ∧
      x.1.swap.isIdle = true ∧ ∃ member ∈ x.1.inner.members, ∃ req,
        x.2.count (member, req) = 1 ∧ x.1.inner.waiting member req = 0 ∧
          x.1.answered wireDecoder member req = 0 := by
  obtain ⟨x, hx, hp⟩ := exists_history_of_idleRig asked askedAtStart
    (G := fun _ _ => True) droppedOpen
    (p := fun x => x.1.swap.isIdle && decide (1 ∈ x.1.inner.members) &&
      decide (x.2.count (1, 8) = 1) && decide (x.1.inner.waiting 1 8 = 0) &&
        decide (x.1.answered wireDecoder 1 8 = 0)) (by decide +kernel)
  simp only [Bool.and_eq_true, decide_eq_true_eq] at hp
  obtain ⟨⟨⟨⟨hidle, hmember⟩, hasked⟩, hwaiting⟩, hanswered⟩ := hp
  exact ⟨x, hx, hidle, 1, hmember, 8, hasked, hwaiting, hanswered⟩

end RentalProxy.Sv2
