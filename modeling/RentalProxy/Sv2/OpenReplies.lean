import RentalProxy.Sv2.Opens

/-!
# Replies carry the member's own request id

The proxy gives every open a request id of its own on the pool, and keeps the open under it in
`pending`, with the id that the member chose.  A reply to a member should carry the latter.

The replies that finalize, reject or refuse an open do.  The notice of an abandoned open carries
the key of the map, and an OpenError for an unknown request goes to every member as the pool wrote
it (`notice_carries_foreign_id`).  The first open can be pending twice (`Rig.OpensOnce`), after a
connect that failed, and each is answered.

* `RepliesOwn` is the property.  Since it holds after every step, a reply is to an open that was
  not answered at that moment.
* `SwapTask.owed` counts the notices that a swap has still to send.
* `OwnIds` is the condition under which `replies_carry_own_id` holds.
-/

namespace RentalProxy.Sv2

open StepSystem

/-! ## The property and its condition -/

/-- No member was sent more replies under a request id than it sent opens under it. -/
def RepliesOwn (decode : Decoder) (r : Rig) (opens : List (Nat × Nat)) : Prop :=
  ∀ member req, r.answered decode member req ≤ opens.count (member, req)

/-- The members have pending opens under the ids that the proxy gave to their pending opens. -/
def Inner.OwnKeys (i : Inner) (members : List Nat) : Prop :=
  ∀ e ∈ i.pending.entries, e.2.1 ∈ members → 0 < i.waiting e.2.1 e.1

instance (i : Inner) (members : List Nat) : Decidable (i.OwnKeys members) :=
  inferInstanceAs (Decidable (∀ _ ∈ _, _))

/-- The condition on a step.  An OpenError is for a pending open; a swap that installs finds
pending only opens whose ids on the pool are ids of their members. -/
def OwnIds (decode : Decoder) (lib : Sv1Library) (r : Rig) : Event → Prop
  | .upstreamFrame g frame _ =>
    g = r.inner.active.generation → frame.msgType = .openMiningChannelError →
      ∀ req ∈ parseOpenErrorRequestId decode frame,
        (r.inner.pending.lookup req).isSome ∨ r.inner.members = []
  | .swapReopened _ => match r.swap with
    | .connecting plan => r.inner.OwnKeys plan.snapshot.members
    | _ => True
  | .swapTranslated lines => match r.swap with
    | .translating _ _ members =>
      (connectSv1Upstream lib lines).isSome → r.inner.OwnKeys members
    | _ => True
  | _ => True

instance (decode : Decoder) (lib : Sv1Library) (r : Rig) :
    DecidablePred (OwnIds decode lib r) := fun e => by
  rcases e with _ | _ <;> dsimp only [OwnIds] <;> try infer_instance
  all_goals rcases r.swap with _ | _ <;> infer_instance

/-- How many notices under a request id the swap has still to send to a member. -/
def SwapTask.owed (t : SwapTask) (member req : Nat) : Nat :=
  match t with
  | .repointing _ _ abandoned members =>
    if member ∈ members then abandoned.count (member, req) else 0
  | _ => 0

/-! ## Counting -/

theorem waiting_eq_count (i : Inner) (member req : Nat) :
    i.waiting member req =
      (i.pending.entries.map fun e => (e.2.1, e.2.2.requestId)).count (member, req) := by
  rw [List.count, List.countP_map]
  refine List.countP_congr fun e _ => ?_
  simp

/-- A detach forgets opens, and makes none. -/
theorem waiting_detach_le (member m req : Nat) (i : Inner) :
    (detachMember member i).1.waiting m req ≤ i.waiting m req := by
  by_cases hother : m = member
  · have hnone : (detachMember member i).1.waiting m req = 0 := by
      refine List.countP_eq_zero.mpr fun e he => ?_
      have hkept := (mem_detach_pending he).2
      rw [hother]
      simp [hkept]
    rw [hnone]
    exact Nat.zero_le _
  · rw [waiting_detach hother]

/-- The notices of a swap that has just installed are to opens that were pending. -/
theorem owed_le_waiting {i : Inner} {members : List Nat} (howned : i.OwnKeys members)
    (plan : SwapPlan) (todo : List RepointStep) (member req : Nat) :
    (SwapTask.repointing plan todo (i.pending.entries.map fun e => (e.2.1, e.1))
      members).owed member req ≤ i.waiting member req := by
  simp only [SwapTask.owed]
  split
  · rename_i hmember
    by_cases hin : (member, req) ∈ i.pending.entries.map fun e => (e.2.1, e.1)
    · -- a key is in the map once
      have hkeys : (i.pending.entries.map fun e => (e.2.1, e.1)).Nodup := by
        refine List.Nodup.of_map Prod.snd ?_
        rw [List.map_map]
        exact i.pending.nodupKeys
      rw [List.count_eq_one_of_mem hkeys hin]
      obtain ⟨e, he, heq⟩ := List.mem_map.mp hin
      cases heq
      exact howned e he hmember
    · rw [List.count_eq_zero.mpr hin]
      exact Nat.zero_le _
  · exact Nat.zero_le _

theorem notices_eq (members : List Nat) (member req : Nat) :
    Rig.notices members member req = if member ∈ members then
      [⟨member, .built (.openMiningChannelError req "upstream switched; please reopen")⟩]
    else [] := by
  have hshort : "upstream switched; please reopen".utf8ByteSize ≤ 255 := by decide
  simp [Rig.notices, openChannelError, str0255, hshort]

/-! ## The invariant -/

/-- An open of a member pays for its reply, for its place in the table, or for its notice. -/
structure OwnReplies (decode : Decoder) (r : Rig) (opens : List (Nat × Nat)) : Prop where
  counts : ∀ member req, r.answered decode member req + r.inner.waiting member req +
    r.swap.owed member req ≤ opens.count (member, req)
  pending : PendingOk r.inner
  scope : CallsInScope r

theorem askedAtStart_of_pending {r : Rig} (honce : r.OpensOnce) (hnone : r.inner.channels = []) :
    askedAtStart r = r.inner.pending.entries.map fun e => (e.2.1, e.2.2.requestId) := by
  rw [askedAtStart, hnone, List.map_nil, List.append_nil, List.take_of_length_le]
  rw [List.length_map]
  exact honce

namespace OwnReplies

variable {decode : Decoder} {r r' : Rig} {opens : List (Nat × Nat)}

/-- A step that asks nothing and answers nothing. -/
theorem quiet (h : OwnReplies decode r opens) (new : List Queued)
    (hsent : r'.sent = r.sent ++ new) (hnew : ∀ q ∈ new, q.frame.answers? decode = none)
    (hwaiting : ∀ m req, r'.inner.waiting m req ≤ r.inner.waiting m req)
    (howed : ∀ m req, r'.swap.owed m req ≤ r.swap.owed m req)
    (m req : Nat) : r'.answered decode m req + r'.inner.waiting m req + r'.swap.owed m req ≤
      opens.count (m, req) := by
  have hold := h.counts m req
  have hwaits := hwaiting m req
  have howes := howed m req
  rw [answered_quiet hsent hnew]
  omega

theorem forwarded (hcounts : ∀ m req, r.answered decode m req + r.inner.waiting m req +
      r.swap.owed m req ≤ opens.count (m, req)) (hpending : PendingOk r.inner) (member : Nat)
    (spec : OpenSpec) (m req : Nat) :
    r.answered decode m req + (forwardOpen member spec r.inner).waiting m req +
      r.swap.owed m req ≤ (opens ++ [(member, spec.requestId)]).count (m, req) := by
  have hold := hcounts m req
  have hwaits := waiting_forwardOpen hpending member spec m req
  simp only [List.count_append, List.count_singleton, beq_iff_eq, Prod.mk.injEq]
  split at hwaits
  · rename_i hnew
    rw [if_pos hnew.2]
    omega
  · split <;> omega

/-- A reply to a pending open takes it out of the table. -/
theorem reply (h : OwnReplies decode r opens) {up member : Nat} {spec : OpenSpec}
    {q : Queued} (hlookup : r.inner.pending.lookup up = some (member, spec))
    (hpending : r'.inner.pending = r.inner.pending.erase up)
    (hsent : r'.sent = r.sent ++ [q]) (hmember : q.member = member)
    (hanswers : q.frame.answers? decode = some spec.requestId) (hswap : r'.swap = r.swap)
    (m req : Nat) : r'.answered decode m req + r'.inner.waiting m req + r'.swap.owed m req ≤
      opens.count (m, req) := by
  have hold := h.counts m req
  have hwaits := waiting_erase hlookup hpending m req
  rw [answered_append hsent, hswap]
  simp only [List.countP_singleton, hmember, hanswers, Option.some.injEq, Bool.and_eq_true,
    decide_eq_true_eq]
  omega

/-- A frame of the pool. -/
theorem upstreamFrame (h : OwnReplies decode r opens) (hsized : decode.Sized) {lib : Sv1Library}
    {g : Nat} {frame : Sv2Frame} {now : Rat}
    (hguard : OwnIds decode lib r (.upstreamFrame g frame now))
    (hinner : r'.inner = (onUpstreamFrame decode now g frame r.inner).1)
    (hsent : r'.sent = r.sent ++ (onUpstreamFrame decode now g frame r.inner).2.2.map
      fun s => ⟨.reader g, s.member, s.frame⟩) (hswap : r'.swap = r.swap) (m req : Nat) :
    r'.answered decode m req + r'.inner.waiting m req + r'.swap.owed m req ≤
      opens.count (m, req) := by
  have hsame : ∀ m req, r'.swap.owed m req ≤ r.swap.owed m req := fun m req => by rw [hswap]
  rcases onUpstreamFrame_answers hsized now g frame r.inner with
    ⟨hpending, hsends⟩ | ⟨up, member, spec, frame', hlookup, hpending, hsends, hanswers⟩ |
      ⟨hg, herror, req', hreq, hlookup, hall, hsends⟩
  · refine h.quiet _ hsent ?_ (fun m req => ?_) hsame m req
    · intro q hq
      obtain ⟨s, hs, rfl⟩ := List.mem_map.mp hq
      exact hsends s hs
    · rw [hinner, Inner.waiting, hpending]
      exact le_rfl
  · have hmember : member ∈ r.inner.members :=
      h.pending.attached _ (AList.mem_lookup_iff.mp hlookup)
    rw [hsends, if_pos hmember] at hsent
    exact h.reply hlookup (by rw [hinner, hpending]) hsent rfl hanswers hswap m req
  · rcases hguard hg herror req' hreq with hknown | hnobody
    · rw [hlookup] at hknown
      cases hknown
    · rw [hsends, hnobody] at hsent
      refine h.quiet _ hsent (List.forall_mem_nil _) (fun m req => ?_) hsame m req
      rw [hinner, hall]

/-- The install of a pool: what was pending is to be given notice of. -/
theorem install (h : OwnReplies decode r opens) {members : List Nat} {plan : SwapPlan}
    {todo : List RepointStep} (howned : r.inner.OwnKeys members)
    (hnone : r.swap.owed = fun _ _ => 0) (hpending : r'.inner.pending = ∅)
    (hsent : r'.sent = r.sent) (hswap : r'.swap = .repointing plan todo
      (r.inner.pending.entries.map fun e => (e.2.1, e.1)) members) (m req : Nat) :
    r'.answered decode m req + r'.inner.waiting m req + r'.swap.owed m req ≤
      opens.count (m, req) := by
  have hold := h.counts m req
  have howes := owed_le_waiting howned plan todo m req
  have hwaits : r'.inner.waiting m req = 0 := waiting_of_empty (by rw [hpending]; rfl) m req
  rw [hswap, hwaits, Rig.answered, hsent]
  rw [hnone] at hold
  unfold Rig.answered at hold
  omega

/-- The notice of an abandoned open. -/
theorem notice (h : OwnReplies decode r opens) {plan : SwapPlan} {member req : Nat}
    {abandoned : List (Nat × Nat)} {members : List Nat}
    (hswap : r.swap = .repointing plan [] ((member, req) :: abandoned) members)
    (hpending : r'.inner.pending = r.inner.pending)
    (hsent : r'.sent = r.sent ++ (Rig.notices members member req).map
      fun s => ⟨.notice plan.snapshot.generation, s.member, s.frame⟩)
    (hswap' : r'.swap = .repointing plan [] abandoned members) (m id : Nat) :
    r'.answered decode m id + r'.inner.waiting m id + r'.swap.owed m id ≤
      opens.count (m, id) := by
  have hold := h.counts m id
  have hwaits : r'.inner.waiting m id = r.inner.waiting m id := by
    rw [Inner.waiting, hpending]
    rfl
  rw [hswap] at hold
  rw [notices_eq] at hsent
  rw [hwaits, hswap']
  simp only [SwapTask.owed, List.count_cons, beq_iff_eq, Prod.mk.injEq] at hold ⊢
  by_cases hmember : member ∈ members
  · rw [if_pos hmember] at hsent
    rw [answered_append hsent]
    simp only [List.map_cons, List.map_nil, List.countP_singleton, EitherFrame.answers?,
      Option.some.injEq, Bool.and_eq_true, decide_eq_true_eq]
    by_cases hm : member = m
    · rw [← hm, if_pos hmember] at hold ⊢
      omega
    · simp only [hm, false_and, if_false, Nat.add_zero] at hold ⊢
      omega
  · rw [if_neg hmember] at hsent
    rw [answered_quiet hsent (List.forall_mem_nil _)]
    split at hold
    · rename_i hm
      rw [if_pos hm]
      omega
    · rename_i hm
      rw [if_neg hm]
      omega

/-- The step lemma. -/
theorem counts_step (h : OwnReplies decode r opens) {lib : Sv1Library} {e : Event}
    (ht : Transition decode lib r e r') (hsized : decode.Sized) (hguard : OwnIds decode lib r e) :
    ∀ m req, r'.answered decode m req + r'.inner.waiting m req + r'.swap.owed m req ≤
      (asked r e opens).count (m, req) := by
  have hmono : opens.Sublist (asked r e opens) := by
    unfold asked
    split
    · exact List.sublist_append_left ..
    · exact List.sublist_append_left ..
    · exact List.Sublist.refl _
  -- steps that are no opens
  have hother : (∀ m req, r'.answered decode m req + r'.inner.waiting m req +
      r'.swap.owed m req ≤ opens.count (m, req)) → ∀ m req, r'.answered decode m req +
        r'.inner.waiting m req + r'.swap.owed m req ≤ (asked r e opens).count (m, req) :=
    fun hcounts m req => (hcounts m req).trans (hmono.count_le _)
  have hsame : r'.sent = r.sent → r'.inner.pending = r.inner.pending →
      (∀ m req, r'.swap.owed m req ≤ r.swap.owed m req) → ∀ m req, r'.answered decode m req +
        r'.inner.waiting m req + r'.swap.owed m req ≤ (asked r e opens).count (m, req) := by
    intro hsent hpending howed
    refine hother (h.quiet [] (by rw [hsent, List.append_nil]) (List.forall_mem_nil _)
      (fun m req => ?_) howed)
    rw [Inner.waiting, hpending]
    exact le_rfl
  have hzero : ∀ m req, SwapTask.idle.owed m req ≤ r.swap.owed m req := fun _ _ => Nat.zero_le _
  cases ht with
  | attach hnative =>
    exact forwarded (r := { r with inner := r.inner.addMember.1 }) h.counts h.pending.addMember _ _
  | @openChannel member spec hmember =>
    cases htranslating : r.inner.translating with
    | true =>
      intro m req
      have hold := h.counts m req
      rw [openChannel_refused member spec htranslating, answered_append (r := r) rfl]
      simp only [asked, List.count_append, List.count_singleton, beq_iff_eq, Prod.mk.injEq,
        EitherFrame.answers?, Option.some.injEq, List.map_cons, List.map_nil,
        List.countP_singleton, Bool.and_eq_true, decide_eq_true_eq, Rig.queue_inner]
      change _ + r.inner.waiting m req + r.swap.owed m req ≤ _
      omega
    | false =>
      intro m req
      rw [openChannel_forwarded member spec htranslating, answered_append (r := r) rfl]
      exact forwarded h.counts h.pending member spec m req
  | @minerFrame member frame hmember =>
    refine hsame (Rig.submitted_sent ..) ?_ fun m req => ?_
    · rw [Rig.submitted_inner]
      rcases minerFrame_cases frame r.inner with hi | ⟨n, up, hi⟩ <;> rw [hi]
      rfl
    · rw [(SameTasks.submitted _ _).swap]
  | @detach member hmember =>
    exact hother (h.quiet [] (List.append_nil _).symm (List.forall_mem_nil _)
      (fun m req => waiting_detach_le member m req r.inner) fun _ _ => le_rfl)
  | upstreamFrame hnative => exact hother (h.upstreamFrame hsized hguard rfl rfl rfl)
  | @translateCall member cid written now state call calls htranslator =>
    let s : Rig := { r with translator := some ⟨cid, state, calls, written⟩ }
    obtain ⟨new, hsent, hnew⟩ := translateCall_sends s call cid member now
    refine hother (h.quiet _ hsent ?_ (fun m req => ?_) fun m req => ?_)
    · intro q hq
      obtain ⟨_, frame, hframe, rfl⟩ := hnew q hq
      exact answers_of_channelId (h.scope _ htranslator frame (hframe ▸ List.mem_cons_self))
    · rw [Inner.waiting, (translateCall_pending s call cid member now).1]
      exact le_rfl
    · rw [(translateCall_sameTasks s call cid member now).swap]
  | @swapReopened infos plan hswap hlength =>
    simp only [OwnIds, hswap] at hguard
    exact hother (h.install hguard (by rw [hswap]; rfl) rfl rfl rfl)
  | @swapTranslated lines plan channel members conn hswap hconn =>
    simp only [OwnIds, hswap, hconn] at hguard
    exact hother (h.install (hguard rfl) (by rw [hswap]; rfl) rfl rfl rfl)
  | @repoint plan s todo abandoned members frame hswap hframe =>
    refine hother (h.quiet _ rfl ?_ (fun _ _ => le_rfl) fun m req => ?_)
    · intro q hq
      rw [List.mem_singleton.mp hq]
      exact RepointStep.frame_answers hframe
    · rw [hswap]
      exact le_rfl
  | notice hswap => exact hother (h.notice hswap rfl rfl rfl)
  | swapOrder | swapRevert | swapNotSv2 => exact hsame rfl rfl fun _ _ => Nat.zero_le _
  | swapDone | repointFailed | swapFailed => exact hsame rfl rfl hzero
  | _ => exact hsame rfl rfl fun _ _ => le_rfl

theorem of_start {lib : Sv1Library} {worker : String} {spec : OpenSpec} {store : OrderStore}
    {idlePool : Option UpstreamTarget} {now : Int} {failed : Option InitialAnswer}
    {answer : InitialAnswer} (h : start lib worker spec store idlePool now failed answer = some r)
    (honce : r.OpensOnce) : OwnReplies decode r (askedAtStart r) := by
  have hopens : OpensInv decode r (askedAtStart r) := .of_start h honce
  refine ⟨fun m req => ?_, hopens.pending, hopens.scope⟩
  obtain ⟨_, _, _, _, _, hinstall⟩ := start_firstInstall h
  rw [waiting_eq_count]
  cases hinstall with
  | native =>
    rw [askedAtStart_of_pending honce rfl, Rig.answered]
    exact (Nat.zero_add _).le
  | @sv1 _ _ _ _ _ reply _ _ hreply =>
    -- the one open was answered
    have hanswers := @openSuccessDownstream_answers decode _ _ _ _ _ hreply
    change List.countP _ [(⟨.reply, firstMember, reply⟩ : Queued)] + 0 + 0 ≤
      List.count (m, req) [(firstMember, spec.requestId)]
    simp [List.count_singleton, hanswers]

end OwnReplies

/-! ## The result -/

/-- Every reply carries the request id of an open of its member that was not answered, as long
as the first open is pending once, OpenErrors are for pending opens, and swaps find pending only
opens whose ids on the pool are ids of their members. -/
theorem replies_carry_own_id {decode : Decoder} {lib : Sv1Library} (hsized : decode.Sized)
    {x : Rig × List (Nat × Nat)}
    (h : ReachesOnce decode lib asked askedAtStart (fun x e => OwnIds decode lib x.1 e) x) :
    RepliesOwn decode x.1 x.2 := by
  have hinv : OwnReplies decode x.1 x.2 := by
    refine h.invariant (I := OwnReplies decode)
      (fun _ _ _ _ _ _ _ _ hstart honce => .of_start hstart honce)
      fun r opens e r' hold hguard hstep => ?_
    have ht := transition_of_step hstep
    exact ⟨hold.counts_step ht hsized hguard, hold.pending.step hsized ht, hold.scope.step ht⟩
  intro member req
  have hcounts := hinv.counts member req
  omega

/-- The member asks under the id that the proxy happens to give its open, and is told so when the
swap abandons it. -/
theorem replies_carry_own_id_abandoned :
    ∃ x, ReachesOnce wireDecoder plainLibrary asked askedAtStart
        (fun x e => OwnIds wireDecoder plainLibrary x.1 e) x ∧
      x.1.answered wireDecoder 1 2 = 1 ∧ RepliesOwn wireDecoder x.1 x.2 := by
  obtain ⟨x, hx, hp⟩ := exists_once_of_idleRig asked askedAtStart
    (G := fun x e => OwnIds wireDecoder plainLibrary x.1 e)
    ([.upstreamFrame 0 (openedFrame 1 10 0) 0, .openChannel 1 (extendedOpen 2),
      .createOrder buyerOrder, .swapOrder .attach "o1" false, .swapReopened [reopenedInfo 30],
      .swapSend, .swapSend, .swapSend])
    (p := fun x => decide (x.1.answered wireDecoder 1 2 = 1)) (by decide +kernel)
  exact ⟨x, hx, of_decide_eq_true hp, replies_carry_own_id wireDecoder_sized hx⟩

/-- The member has asked under 8, and is sent a reply to a request 2. -/
theorem notice_carries_foreign_id :
    ∃ x, ReachesWith wireDecoder plainLibrary asked askedAtStart (fun _ _ => True) x ∧
      (1, 2) ∉ x.2 ∧ x.1.answered wireDecoder 1 2 = 1 ∧ ¬RepliesOwn wireDecoder x.1 x.2 := by
  obtain ⟨x, hx, hp⟩ := exists_history_of_idleRig asked askedAtStart
    (G := fun _ _ => True) droppedOpen
    (p := fun x => decide ((1, 2) ∉ x.2) && decide (x.1.answered wireDecoder 1 2 = 1))
    (by decide +kernel)
  simp only [Bool.and_eq_true, decide_eq_true_eq] at hp
  obtain ⟨hasked, hanswered⟩ := hp
  refine ⟨x, hx, hasked, hanswered, fun hown => ?_⟩
  have hcount := hown 1 2
  rw [hanswered, List.count_eq_zero.mpr hasked] at hcount
  exact absurd hcount (by decide)

end RentalProxy.Sv2
