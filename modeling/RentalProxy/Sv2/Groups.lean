import RentalProxy.Sv2.Identity
import RentalProxy.Sv2.Opens

/-!
# Group jobs do not cross

A pool may address a frame to a group of channels.  `group_recipients` writes it
once for every downstream group and member, so a channel is addressed when its
owner gets a copy under the group id that it was told for the channel.  The
channels that are addressed should be those of the group.

A miner keeps the group ids it was told, but a new pool regroups the channels as it
likes.  When it splits two channels of one miner that were told the same group id,
a job of the one is addressed to the other (`split_group_crosses`).

* `Told` is the invariant: OpenSuccesses and records say the same.
* `Apart` says of a table that a group can be reached (`reachesGroup_iff`).
* `GroupsTogether` is the condition on a step, `group_jobs_reach` the result.
-/

namespace RentalProxy.Sv2

open StepSystem

/-! ## What a miner was told -/

/-- The channel and the group id of an OpenSuccess that the proxy built. -/
def EitherFrame.toldGroup? : EitherFrame → Option (Nat × Nat)
  | .built (.openExtendedMiningChannelSuccess _ cid _ _ _ group) => some (cid, group)
  | .built (.openStandardMiningChannelSuccess _ cid _ _ group) => some (cid, group)
  | _ => none

theorem toldGroup_of_not_open {frame : EitherFrame} (h : frame.openSuccess? = none) :
    frame.toldGroup? = none := by
  cases frame with
  | received frame => rfl
  | built msg => cases msg <;> first | rfl | cases h

/-- The owner of the channel was told this group id in its OpenSuccess. -/
def Rig.ToldGroup (r : Rig) (c : Channel) (group : Nat) : Prop :=
  ∃ q ∈ r.sent, q.member = c.owner ∧ q.frame.toldGroup? = some (c.downChannelId, group)

/-- Who gets a copy of a frame for this id, and under which id. -/
def Inner.copies (i : Inner) (upCid : Nat) : List (Nat × Nat) :=
  (i.recipients upCid).filter fun p => decide (p.2 ∈ i.members)

/-- The owner of the channel gets a copy under the group id it was told for it. -/
def Rig.Addressed (r : Rig) (upCid : Nat) (c : Channel) : Prop :=
  ∃ group, r.ToldGroup c group ∧ (group, c.owner) ∈ r.inner.copies upCid

/-- A frame for the group reaches the channels of the group, and no member
twice under one id. -/
def Rig.ReachesGroup (r : Rig) (upGroup : Nat) : Prop :=
  (∀ c ∈ r.inner.channels, c.spec.isExtended = true →
    (r.Addressed upGroup c ↔ c.upGroupId = upGroup)) ∧ (r.inner.copies upGroup).Nodup

/-- The owners of the channels of the group are attached, and no other Extended
channel of theirs was told the same group id. -/
def Rig.Apart (r : Rig) (upGroup : Nat) : Prop :=
  ∀ c ∈ r.inner.channels, c.spec.isExtended = true → c.upGroupId = upGroup →
    c.owner ∈ r.inner.members ∧
      ∀ c' ∈ r.inner.channels, c'.spec.isExtended = true → c'.owner = c.owner →
        c'.downGroupId = c.downGroupId → c'.upGroupId = upGroup

/-- The condition on a step: the Extended channels of a miner that were told one
group id are opened, and re-opened, in one group, and the miners of the channels
that are re-opened in a group are attached. -/
def GroupsTogether (decode : Decoder) (r : Rig) : Event → Prop
  | .upstreamFrame g frame _ => g = r.inner.active.generation → frame.isOpenSuccess = true →
      ∀ info ∈ parseOpenSuccess decode frame, ∀ entry ∈ r.inner.pending.lookup info.requestId,
        entry.2.isExtended = true → ∀ c ∈ r.inner.channels, c.spec.isExtended = true →
          c.owner = entry.1 → r.inner.sharedGroup info = some c.downGroupId →
            c.upGroupId = info.groupChannelId
  | .swapReopened infos => match r.swap with
    | .connecting plan => ∀ p ∈ plan.snapshot.specs.zip infos, p.1.spec.isExtended = true →
        (p.2.groupChannelId ≠ 0 → p.1.owner ∈ r.inner.members) ∧
          ∀ p' ∈ plan.snapshot.specs.zip infos, p'.1.spec.isExtended = true →
            p'.1.owner = p.1.owner → p'.1.downGroupId = p.1.downGroupId →
              p'.2.groupChannelId = p.2.groupChannelId
    | _ => True
  | _ => True

instance (decode : Decoder) (r : Rig) : DecidablePred (GroupsTogether decode r) := fun e => by
  rcases e with _ | _ <;> dsimp only [GroupsTogether] <;> try infer_instance
  rcases r.swap with _ | _ <;> infer_instance

/-- The copies are what is sent. -/
theorem forward_copies (frame : Sv2Frame) (upCid : Nat) (i : Inner) :
    forward frame upCid i =
      (i.copies upCid).map fun p => ⟨p.2, .received (rewriteChannelId frame p.1)⟩ := by
  unfold forward Inner.copies
  induction i.recipients upCid with
  | nil => rfl
  | cons p ps ih =>
    rw [List.flatMap_cons, ih, List.filter_cons]
    by_cases hmember : p.2 ∈ i.members
    · simp [Inner.toMember, hmember]
    · simp [Inner.toMember, hmember]

/-- What a channel-scoped frame of the active pool is sent as. -/
theorem onUpstreamFrame_copies {decode : Decoder} {now : Rat} {frame : Sv2Frame} {upCid : Nat}
    {i : Inner} (hscoped : isChannelScoped frame.msgType = true)
    (hid : readChannelId frame = some upCid) :
    (onUpstreamFrame decode now i.active.generation frame i).2.2 =
      (i.copies upCid).map fun p => ⟨p.2, .received (rewriteChannelId frame p.1)⟩ := by
  have hrig := @routed_sameRig decode now frame upCid i
  have hopen : ¬(frame.msgType = .openExtendedMiningChannelSuccess ∨
      frame.msgType = .openStandardMiningChannelSuccess) := by
    rintro (htype | htype) <;> rw [htype] at hscoped <;> cases hscoped
  have herror : frame.msgType ≠ .openMiningChannelError := by
    intro htype
    rw [htype] at hscoped
    cases hscoped
  rw [onUpstreamFrame, if_neg (by simp), if_neg hopen, if_neg herror, if_neg (by simp [hscoped])]
  simp only [hid, forward_copies]
  unfold Inner.copies
  rw [hrig.recipients, hrig.members.members]

/-! ## Copies -/

private theorem nodup_eraseDups {α : Type} [BEq α] [LawfulBEq α] (xs : List α) :
    xs.eraseDups.Nodup := by
  induction hlength : xs.length using Nat.strong_induction_on generalizing xs with
  | _ n ih =>
    cases xs with
    | nil => exact List.nodup_nil
    | cons x xs =>
      rw [List.eraseDups_cons]
      have hshort : (xs.filter fun b => !b == x).length < n := by
        have hle := List.length_filter_le (fun b => !b == x) xs
        simp only [List.length_cons] at hlength
        omega
      refine List.nodup_cons.mpr ⟨?_, ih _ hshort _ rfl⟩
      rw [List.mem_eraseDups, List.mem_filter]
      simp

theorem mem_groupRecipients {i : Inner} {upGroup : Nat} {p : Nat × Nat} (hgroup : upGroup ≠ 0) :
    p ∈ i.groupRecipients upGroup ↔ ∃ c ∈ i.channels,
      c.upGroupId = upGroup ∧ c.spec.isExtended = true ∧ (c.downGroupId, c.owner) = p := by
  rw [Inner.groupRecipients, if_neg hgroup, List.mem_eraseDups, List.mem_map]
  simp only [List.mem_filter, Bool.and_eq_true, decide_eq_true_eq, and_assoc]

theorem recipients_nodup (i : Inner) (upCid : Nat) : (i.recipients upCid).Nodup := by
  unfold Inner.recipients
  split
  · split
    · exact List.nodup_singleton _
    · exact List.nodup_nil
  · unfold Inner.groupRecipients
    split
    · exact List.nodup_nil
    · exact nodup_eraseDups _

/-- Without a channel of the group the frame goes to the owner of a channel. -/
theorem mem_recipients {i : Inner} {upCid : Nat} {p : Nat × Nat} (hgroup : upCid ≠ 0)
    (h : p ∈ i.recipients upCid) :
    (∃ c ∈ i.channels, c.upGroupId = upCid ∧ c.spec.isExtended = true ∧
      (c.downGroupId, c.owner) = p) ∨ i.upToDown.lookup upCid = some p.1 := by
  unfold Inner.recipients at h
  split at h
  · split at h
    · rename_i hdown _
      rw [List.mem_singleton.mp h]
      exact Or.inr hdown
    · cases h
  · exact Or.inl ((mem_groupRecipients hgroup).mp h)

/-- With one, every channel of the group is served. -/
theorem recipients_of_group {i : Inner} {upCid : Nat} {c : Channel} (hgroup : upCid ≠ 0)
    (hc : c ∈ i.channels) (hup : c.upGroupId = upCid) (hextended : c.spec.isExtended = true) :
    (c.downGroupId, c.owner) ∈ i.recipients upCid := by
  have hmem := (mem_groupRecipients hgroup).mpr ⟨c, hc, hup, hextended, rfl⟩
  unfold Inner.recipients
  split
  · rename_i hnone
    rw [hnone] at hmem
    cases hmem
  · exact hmem

/-! ## OpenSuccesses -/

/-- A step that opens no channel tells of none. -/
theorem untold_of_transition {decode : Decoder} {lib : Sv1Library} {r r' : Rig} {e : Event}
    (ht : Transition decode lib r e r') (hscope : CallsInScope r)
    (hnone : ∀ g frame now, e = .upstreamFrame g frame now →
      r'.inner.channels.length = r.inner.channels.length) :
    ∃ new, r'.sent = r.sent ++ new ∧ ∀ q ∈ new, q.frame.toldGroup? = none := by
  have hquiet : r'.sent = r.sent →
      ∃ new, r'.sent = r.sent ++ new ∧ ∀ q ∈ new, q.frame.toldGroup? = none :=
    fun hsent => ⟨[], by rw [hsent, List.append_nil], fun q hq => by cases hq⟩
  cases ht with
  | openChannel hmember =>
    refine ⟨_, rfl, ?_⟩
    intro q hq
    obtain ⟨s, hs, rfl⟩ := List.mem_map.mp hq
    exact toldGroup_of_not_open (openChannel_sends hs)
  | minerFrame hmember => exact hquiet (Rig.submitted_sent ..)
  | @upstreamFrame g frame now hnative =>
    refine ⟨_, rfl, ?_⟩
    intro q hq
    obtain ⟨s, hs, rfl⟩ := List.mem_map.mp hq
    refine toldGroup_of_not_open ?_
    rcases onUpstreamFrame_cases decode now g frame r.inner with
      h | ⟨_, h⟩ | ⟨_, herror, h⟩ | ⟨upCid, _, _, h⟩ <;> rw [h] at hs
    · cases hs
    · rcases finalizeOpen_cases decode frame r.inner with hnothing | ⟨c, hchannels, _⟩
      · rw [hnothing] at hs
        cases hs
      · -- a new channel makes the table longer
        have hlength := hnone g frame now rfl
        rw [Rig.queue_inner, Rig.credit_inner, h, hchannels, List.length_append] at hlength
        simp at hlength
    · exact (rejectOpen_sends herror hs).2
    · obtain ⟨p, _, hsend⟩ := List.mem_flatMap.mp hs
      obtain ⟨_, rfl⟩ := mem_toMember hsend
      rfl
  | @translateCall member cid written now state call calls htranslator =>
    let s : Rig := { r with translator := some ⟨cid, state, calls, written⟩ }
    obtain ⟨new, hsent, hnew⟩ := translateCall_sends s call cid member now
    refine ⟨new, hsent, ?_⟩
    intro q hq
    obtain ⟨_, frame, hframe, rfl⟩ := hnew q hq
    exact toldGroup_of_not_open (EitherFrame.openSuccess?_of_channelId?
      (hscope _ htranslator frame (hframe ▸ List.mem_cons_self)))
  | @repoint plan s todo abandoned members frame hswap hframe =>
    refine ⟨_, rfl, ?_⟩
    intro q hq
    rw [List.mem_singleton.mp hq]
    exact toldGroup_of_not_open (RepointStep.frame_openSuccess hframe)
  | notice hswap =>
    refine ⟨_, rfl, ?_⟩
    intro q hq
    obtain ⟨s, hs, rfl⟩ := List.mem_map.mp hq
    exact toldGroup_of_not_open (notices_openSuccess hs)
  | _ => exact hquiet rfl

/-- The OpenSuccess of a channel tells its group. -/
theorem openSuccessDownstream_toldGroup {spec : OpenSpec} {cid group : Nat} {info : ChannelInfo}
    {reply : EitherFrame} (hgroup : spec.isExtended = false → group = info.groupChannelId)
    (h : openSuccessDownstream spec cid group info = some reply) :
    reply.toldGroup? = some (cid, group) := by
  simp only [openSuccessDownstream, Option.bind_eq_bind, Option.bind_eq_some_iff] at h
  obtain ⟨_, _, _, _, hbuilt⟩ := h
  cases spec with
  | standard =>
    cases hbuilt
    rw [hgroup rfl]
    rfl
  | extended =>
    cases hbuilt
    rfl

/-- The OpenSuccess of a new channel goes to its owner. -/
theorem told_of_opens {decode : Decoder} {lib : Sv1Library} (hsized : decode.Sized) {r r' : Rig}
    {frame : Sv2Frame} {now : Rat} {info : ChannelInfo} {c : Channel} (hpending : PendingOk r.inner)
    (hopen : frame.isOpenSuccess = true) (hopens : Opens decode frame r.inner r'.inner info c)
    (hstep : step decode lib r (.upstreamFrame r.inner.active.generation frame now) = some r') :
    ∃ q : Queued, r'.sent = r.sent ++ [q] ∧ q.member = c.owner ∧
      q.frame.toldGroup? = some (c.downChannelId, c.downGroupId) := by
  obtain ⟨c', hopens', howner, hspec, hsends⟩ := finalizeOpen_opens hopens.parsed hopens.asked
  have hmember : c.owner ∈ r.inner.members :=
    hpending.attached _ (AList.mem_lookup_iff.mp hopens.asked)
  have hupstream := @onUpstreamFrame_open decode now frame r.inner hopen
  simp only [step] at hstep
  split at hstep <;> cases hstep
  rw [hupstream] at hopens ⊢
  have hsame : c' = c := by
    have hchannels := hopens'.channels.symm.trans hopens.channels
    simpa using hchannels
  subst hsame
  obtain ⟨reply, hreply⟩ := Option.isSome_iff_exists.mp
    (openSuccessDownstream_isSome.mpr (hsized frame info hopens.parsed) :
      (openSuccessDownstream c'.spec c'.downChannelId c'.downGroupId info).isSome)
  simp only [hreply, Inner.toMember, if_pos hmember] at hsends
  refine ⟨⟨.reader r.inner.active.generation, c'.owner, reply⟩, ?_, rfl, ?_⟩
  · rw [Rig.queue_sent, hsends]
    rfl
  · refine openSuccessDownstream_toldGroup ?_ hreply
    intro hstandard
    rcases hopens'.group with ⟨_, hgroup, _⟩ | ⟨hextended, _⟩ | ⟨hextended, _⟩
    · exact hgroup
    · rw [hstandard] at hextended
      cases hextended
    · rw [hstandard] at hextended
      cases hextended

/-! ## What was told -/

/-- OpenSuccesses and records say the same. -/
structure Told (r : Rig) (cs : List Channel) : Prop where
  sound : ∀ q ∈ r.sent, ∀ cid group, q.frame.toldGroup? = some (cid, group) →
    ∃ c ∈ cs, c.owner = q.member ∧ c.downChannelId = cid ∧ c.downGroupId = group
  complete : ∀ c ∈ cs, r.ToldGroup c c.downGroupId
  /-- The index leads to channels that were given. -/
  index : ∀ up down, r.inner.upToDown.lookup up = some down → ∃ c ∈ cs, c.downChannelId = down

namespace Told

variable {r r' : Rig} {cs : List Channel}

/-- A step that tells of no channel. -/
theorem quiet (h : Told r cs) (hindex : ∀ up down, r'.inner.upToDown.lookup up = some down →
      ∃ c ∈ cs, c.downChannelId = down)
    (hsent : ∃ new, r'.sent = r.sent ++ new ∧ ∀ q ∈ new, q.frame.toldGroup? = none) :
    Told r' cs := by
  obtain ⟨new, hsent, hnew⟩ := hsent
  refine ⟨?_, ?_, hindex⟩
  · intro q hq cid group htold
    rw [hsent] at hq
    rcases List.mem_append.mp hq with hold | hlast
    · exact h.sound q hold cid group htold
    · rw [hnew q hlast] at htold
      cases htold
  · intro c hc
    obtain ⟨q, hq, htold⟩ := h.complete c hc
    exact ⟨q, by rw [hsent]; exact List.mem_append_left _ hq, htold⟩

/-- A channel is opened, and its owner is told. -/
theorem opens (h : Told r cs) {decode : Decoder} {frame : Sv2Frame} {info : ChannelInfo}
    {c : Channel} {q : Queued} (hopens : Opens decode frame r.inner r'.inner info c)
    (hsent : r'.sent = r.sent ++ [q]) (hmember : q.member = c.owner)
    (htold : q.frame.toldGroup? = some (c.downChannelId, c.downGroupId)) :
    Told r' (cs ++ [c]) := by
  refine ⟨?_, ?_, ?_⟩
  · intro q' hq' cid group htold'
    rw [hsent] at hq'
    rcases List.mem_append.mp hq' with hold | hlast
    · obtain ⟨c', hc', hrest⟩ := h.sound q' hold cid group htold'
      exact ⟨c', List.mem_append_left _ hc', hrest⟩
    · rw [List.mem_singleton.mp hlast, htold] at htold'
      cases htold'
      exact ⟨c, List.mem_append_right _ List.mem_cons_self,
        by rw [List.mem_singleton.mp hlast, hmember], rfl, rfl⟩
  · intro c' hc'
    rcases List.mem_append.mp hc' with hold | hlast
    · obtain ⟨q', hq', hrest⟩ := h.complete c' hold
      exact ⟨q', by rw [hsent]; exact List.mem_append_left _ hq', hrest⟩
    · rw [List.mem_singleton.mp hlast]
      exact ⟨q, by rw [hsent]; exact List.mem_append_right _ List.mem_cons_self, hmember, htold⟩
  · intro up down hlookup
    rw [hopens.upToDown] at hlookup
    rcases KeyedTable.lookup_insert_cases hlookup with ⟨_, rfl⟩ | ⟨_, hold⟩
    · exact ⟨c, List.mem_append_right _ List.mem_cons_self, rfl⟩
    · obtain ⟨c', hc', heq⟩ := h.index up down hold
      exact ⟨c', List.mem_append_left _ hc', heq⟩

theorem step {decode : Decoder} {lib : Sv1Library} (hsized : decode.Sized) {e : Event}
    (h : Told r cs) (hpending : PendingOk r.inner) (hscope : CallsInScope r)
    (hcarried : ∀ s ∈ r.swap.carried, s ∈ cs.map Channel.reopen)
    (hstep : step decode lib r e = some r') : Told r' (given decode r e cs) := by
  have ht := transition_of_step hstep
  have hgiven : ∀ s ∈ r.swap.carried, ∃ c ∈ cs, c.downChannelId = s.downChannelId := by
    intro s hs
    obtain ⟨c, hc, rfl⟩ := List.mem_map.mp (hcarried s hs)
    exact ⟨c, hc, rfl⟩
  unfold given
  cases table_of_transition ht with
  | same hsame hcarries =>
    rw [newChannels_of_same hstep hsame, List.append_nil]
    refine h.quiet ?_ (untold_of_transition ht hscope fun _ _ _ _ => ?_)
    · rw [hsame.upToDown]
      exact h.index
    · simpa using congrArg List.length hsame.channels
  | opens hg hopen hopens hswap =>
    rw [newChannels_of_opens hstep hopens]
    subst hg
    obtain ⟨q, hsent, hmember, htold⟩ := told_of_opens hsized hpending hopen hopens hstep
    exact h.opens hopens hsent hmember htold
  | @detach member _ hdetach hswap =>
    simp only [newChannels, List.append_nil]
    refine h.quiet ?_ (untold_of_transition ht hscope fun _ _ _ he => by cases he)
    intro up down hlookup
    rw [hdetach] at hlookup
    have herased : (detachMember member r.inner).1.upToDown.lookup up =
        if up ∈ (r.inner.channels.filter fun c => decide (c.owner = member)).map
          Channel.upChannelId then none else r.inner.upToDown.lookup up :=
      KeyedTable.lookup_foldl_erase Channel.upChannelId _ r.inner.upToDown up
    rw [herased] at hlookup
    split at hlookup
    · cases hlookup
    · exact h.index up down hlookup
  | @native infos plan _ hswap hlength hinstall =>
    simp only [newChannels, List.append_nil]
    refine h.quiet ?_ (untold_of_transition ht hscope fun _ _ _ he => by cases he)
    intro up down hlookup
    rw [hinstall] at hlookup
    rcases KeyedTable.lookup_foldl_insert_mem
        (fun p : Reopen × ChannelInfo => p.2.upChannelId) (fun p => p.1.downChannelId) hlookup with
      ⟨p, hp, _, rfl⟩ | hempty
    · exact hgiven p.1 (by rw [hswap]; exact (List.of_mem_zip hp).1)
    · rw [AList.lookup_empty] at hempty
      cases hempty
  | @translated lines plan channel members conn _ hswap hconn hinstall =>
    simp only [newChannels, List.append_nil]
    refine h.quiet ?_ (untold_of_transition ht hscope fun _ _ _ he => by cases he)
    intro up down hlookup
    rw [hinstall] at hlookup
    obtain ⟨_, rfl⟩ := KeyedTable.lookup_single.mp hlookup
    exact hgiven channel (by rw [hswap]; exact List.mem_cons_self)

end Told

theorem Told.of_start {lib : Sv1Library} {worker : String} {spec : OpenSpec}
    {store : OrderStore} {idlePool : Option UpstreamTarget} {now : Int}
    {failed : Option InitialAnswer} {answer : InitialAnswer} {r : Rig}
    (h : start lib worker spec store idlePool now failed answer = some r) :
    Told r (givenAtStart r) := by
  obtain ⟨_, _, _, _, _, hinstall⟩ := start_firstInstall h
  cases hinstall with
  | native =>
    refine ⟨(fun q hq => by cases hq), (fun c hc => by cases hc), ?_⟩
    intro up down hlookup
    have hempty : (∅ : AList fun _ : Nat => Nat).lookup up = some down := hlookup
    rw [AList.lookup_empty] at hempty
    cases hempty
  | @sv1 cid _ _ _ _ reply _ _ hreply =>
    have htold : reply.toldGroup? = some (cid, 0) :=
      openSuccessDownstream_toldGroup (fun _ => rfl) hreply
    refine ⟨?_, ?_, ?_⟩
    · intro q hq cid group hgroup
      rw [List.mem_singleton.mp (hq : q ∈ [(⟨.reply, firstMember, reply⟩ : Queued)])] at hgroup ⊢
      rw [htold] at hgroup
      cases hgroup
      exact ⟨_, List.mem_cons_self, rfl, rfl, rfl⟩
    · intro c hc
      rw [List.mem_singleton.mp hc]
      exact ⟨_, List.mem_cons_self, rfl, htold⟩
    · intro up down hlookup
      obtain ⟨_, rfl⟩ := KeyedTable.lookup_single.mp hlookup
      exact ⟨_, List.mem_cons_self, rfl⟩

/-! ## Addressed channels -/

/-- A rig with the history of what its miners were given. -/
structure Grouped (r : Rig) (cs : List Channel) : Prop where
  ids : Identities r cs
  recorded : Recorded r cs
  told : Told r cs
  pending : PendingOk r.inner
  scope : CallsInScope r

theorem Grouped.step {decode : Decoder} {lib : Sv1Library} (hsized : decode.Sized) {r r' : Rig}
    {e : Event} {cs : List Channel} (h : Grouped r cs) (hkeeps : KeepsGroup lib r e)
    (hstep : step decode lib r e = some r') : Grouped r' (given decode r e cs) where
  ids := h.ids.step hstep
  recorded := h.recorded.step hkeeps hstep
  told := h.told.step hsized h.pending h.scope h.recorded.carried hstep
  pending := h.pending.step hsized (transition_of_step hstep)
  scope := h.scope.step (transition_of_step hstep)

theorem Grouped.of_start {lib : Sv1Library} {worker : String} {spec : OpenSpec}
    {store : OrderStore} {idlePool : Option UpstreamTarget} {now : Int}
    {failed : Option InitialAnswer} {answer : InitialAnswer} {r : Rig}
    (h : start lib worker spec store idlePool now failed answer = some r) :
    Grouped r (givenAtStart r) := by
  obtain ⟨_, _, _, _, _, hstarted⟩ := start_started h
  refine ⟨.of_start h, ⟨fun c hc => List.mem_map_of_mem hc, ?_⟩, .of_start h, .of_start h,
    .of_started hstarted⟩
  rw [hstarted.swap]
  exact fun s hs => by cases hs

theorem Grouped.of_reaches {decode : Decoder} {lib : Sv1Library} (hsized : decode.Sized)
    {G : Rig × List Channel → Event → Prop} (hG : ∀ y e, G y e → KeepsGroup lib y.1 e)
    {x : Rig × List Channel} (h : ReachesWith decode lib (given decode) givenAtStart G x) :
    Grouped x.1 x.2 :=
  h.invariant (I := Grouped) (fun _ _ _ _ _ _ _ _ _ hstart => .of_start hstart)
    fun _ _ _ _ hold hguard hstep => hold.step hsized (hG _ _ hguard) hstep

/-- A channel of the table was told its group id, and no other. -/
theorem Grouped.toldGroup_iff {r : Rig} {cs : List Channel} (h : Grouped r cs) {c : Channel}
    (hc : c ∈ r.inner.channels) {group : Nat} : r.ToldGroup c group ↔ group = c.downGroupId := by
  obtain ⟨d, hd, hrecord⟩ := List.mem_map.mp (h.recorded.table c hc)
  have hdown : d.downChannelId = c.downChannelId := congrArg Reopen.downChannelId hrecord
  have howner : d.owner = c.owner := congrArg Reopen.owner hrecord
  have hgroup : d.downGroupId = c.downGroupId := congrArg Reopen.downGroupId hrecord
  constructor
  · rintro ⟨q, hq, _, htold⟩
    obtain ⟨d', hd', _, hdown', rfl⟩ := h.told.sound q hq _ _ htold
    have hsame : d' = d := List.inj_on_of_nodup_map h.ids.downs hd' hd (hdown'.trans hdown.symm)
    rw [hsame, hgroup]
  · rintro rfl
    have htold := h.told.complete d hd
    rw [Rig.ToldGroup, hdown, howner, hgroup] at htold
    exact htold

/-- Who is addressed, by the table alone. -/
theorem Grouped.addressed_iff {r : Rig} {cs : List Channel} (h : Grouped r cs) {upGroup : Nat}
    (hgroup : upGroup ≠ 0) {c : Channel} (hc : c ∈ r.inner.channels)
    (hextended : c.spec.isExtended = true) :
    r.Addressed upGroup c ↔ c.owner ∈ r.inner.members ∧ ∃ c' ∈ r.inner.channels,
      c'.upGroupId = upGroup ∧ c'.spec.isExtended = true ∧ c'.downGroupId = c.downGroupId ∧
        c'.owner = c.owner := by
  have hcopies : r.Addressed upGroup c ↔ (c.downGroupId, c.owner) ∈ r.inner.copies upGroup := by
    constructor
    · rintro ⟨group, htold, hmem⟩
      rw [(h.toldGroup_iff hc).mp htold] at hmem
      exact hmem
    · exact fun hmem => ⟨_, (h.toldGroup_iff hc).mpr rfl, hmem⟩
  rw [hcopies, Inner.copies, List.mem_filter, decide_eq_true_eq, and_comm]
  refine and_congr_right fun _ => ⟨?_, ?_⟩
  · intro hmem
    rcases mem_recipients hgroup hmem with ⟨c', hc', hup, hext, heq⟩ | hindex
    · exact ⟨c', hc', hup, hext, congrArg Prod.fst heq, congrArg Prod.snd heq⟩
    · -- the id of a channel is not the group of an Extended one
      obtain ⟨d, hd, hdown⟩ := h.told.index _ _ hindex
      have hok := h.ids.table _ (List.mem_map_of_mem hc) hextended
      exact absurd hdown.symm (hok.2 d hd)
  · rintro ⟨c', hc', hup, hext, hdown, howner⟩
    rw [← hdown, ← howner]
    exact recipients_of_group hgroup hc' hup hext

/-- A group is reached when its channels are apart. -/
theorem Grouped.reachesGroup_iff {r : Rig} {cs : List Channel} (h : Grouped r cs) {upGroup : Nat}
    (hgroup : upGroup ≠ 0) : r.ReachesGroup upGroup ↔ r.Apart upGroup := by
  constructor
  · rintro ⟨hreaches, _⟩ c hc hextended hup
    have haddressed := (hreaches c hc hextended).mpr hup
    refine ⟨((h.addressed_iff hgroup hc hextended).mp haddressed).1, ?_⟩
    intro c' hc' hextended' howner hdown
    refine (hreaches c' hc' hextended').mp ((h.addressed_iff hgroup hc' hextended').mpr ?_)
    rw [howner]
    exact ⟨((h.addressed_iff hgroup hc hextended).mp haddressed).1, c, hc, hup, hextended,
      hdown.symm, rfl⟩
  · intro hapart
    refine ⟨?_, (recipients_nodup _ _).filter _⟩
    intro c hc hextended
    rw [h.addressed_iff hgroup hc hextended]
    constructor
    · rintro ⟨_, c', hc', hup, hextended', hdown, howner⟩
      exact (hapart c' hc' hextended' hup).2 c hc hextended howner.symm hdown.symm
    · exact fun hup => ⟨(hapart c hc hextended hup).1, c, hc, hup, hextended, rfl, rfl⟩

/-! ## Groups that stay together -/

/-- Every group is apart. -/
def AllApart (r : Rig) : Prop := ∀ upGroup, upGroup ≠ 0 → r.Apart upGroup

theorem identity_fields {c c' : Channel} (h : c.identity = c'.identity) :
    c.spec = c'.spec ∧ c.owner = c'.owner ∧ c.upGroupId = c'.upGroupId ∧
      c.downGroupId = c'.downGroupId :=
  ⟨(congrArg Channel.spec h :), (congrArg Channel.owner h :), (congrArg Channel.upGroupId h :),
    (congrArg Channel.downGroupId h :)⟩

/-- The channels of a rig are those of another, with at least its members. -/
theorem AllApart.of_same {r r' : Rig} (h : AllApart r) (hsame : SameChannels r.inner r'.inner)
    (hmembers : r.inner.members ⊆ r'.inner.members) : AllApart r' := by
  have hold : ∀ c' ∈ r'.inner.channels, ∃ c ∈ r.inner.channels, c.identity = c'.identity := by
    intro c' hc'
    have hmem := List.mem_map_of_mem (f := Channel.identity) hc'
    rw [hsame] at hmem
    exact List.mem_map.mp hmem
  intro upGroup hgroup c' hc' hextended hup
  obtain ⟨c, hc, heq⟩ := hold c' hc'
  obtain ⟨hspec, howner, hupGroup, hdown⟩ := identity_fields heq
  obtain ⟨hattached, hothers⟩ :=
    h upGroup hgroup c hc (by rw [hspec]; exact hextended) (hupGroup.trans hup)
  refine ⟨hmembers (howner ▸ hattached), ?_⟩
  intro d' hd' hextended' howner' hdown'
  obtain ⟨d, hd, heq'⟩ := hold d' hd'
  obtain ⟨hspec', howner'', hupGroup', hdown''⟩ := identity_fields heq'
  rw [← hupGroup']
  refine hothers d hd (by rw [hspec']; exact hextended') ?_ ?_
  · exact howner''.trans (howner'.trans howner.symm)
  · exact hdown''.trans (hdown'.trans hdown.symm)

theorem AllApart.detach {r r' : Rig} (h : AllApart r) {member : Nat}
    (hdetach : r'.inner = (detachMember member r.inner).1) : AllApart r' := by
  intro upGroup hgroup c hc hextended hup
  rw [hdetach] at hc ⊢
  obtain ⟨hc, hother⟩ := List.mem_filter.mp hc
  obtain ⟨hattached, hothers⟩ := h upGroup hgroup c hc hextended hup
  refine ⟨List.mem_filter.mpr ⟨hattached, hother⟩, ?_⟩
  intro d hd
  exact hothers d (List.mem_filter.mp hd).1

/-- Nobody leaves but by a detach. -/
theorem members_of_transition {decode : Decoder} {lib : Sv1Library} {r r' : Rig} {e : Event}
    (ht : Transition decode lib r e r') : r.inner.members ⊆ r'.inner.members ∨
      ∃ member, r'.inner = (detachMember member r.inner).1 := by
  have hsame : ∀ {i : Inner}, SameMembers r.inner i → r.inner.members ⊆ i.members :=
    fun h => by rw [h.members]; exact List.Subset.refl _
  cases ht with
  | @attach spec hnative =>
    left
    rw [(forwardOpen_members r.inner.nextMemberId spec r.inner.addMember.1).members]
    exact List.subset_append_left _ _
  | detach hmember => exact Or.inr ⟨_, rfl⟩
  | openChannel hmember => exact Or.inl (hsame (openChannel_members ..))
  | @minerFrame member frame hmember =>
    left
    rw [Rig.submitted_inner]
    exact hsame (minerFrame_members frame r.inner)
  | upstreamFrame hnative => exact Or.inl (hsame (onUpstreamFrame_members ..))
  | @translateCall member cid written now state call calls htranslator =>
    let s : Rig := { r with translator := some ⟨cid, state, calls, written⟩ }
    exact Or.inl (hsame (translateCall_sameRig s call cid member now).members)
  | _ => exact Or.inl (List.Subset.refl _)

/-- A new channel is in no group with another of its miner, unless the guard says
that it may be. -/
theorem AllApart.opens_iff {decode : Decoder} {r r' : Rig} {cs : List Channel}
    {frame : Sv2Frame} {now : Rat} {info : ChannelInfo} {c : Channel} (h : AllApart r)
    (hgrouped : Grouped r cs) (hopen : frame.isOpenSuccess = true)
    (hopens : Opens decode frame r.inner r'.inner info c) :
    AllApart r' ↔
      GroupsTogether decode r (.upstreamFrame r.inner.active.generation frame now) := by
  have hmember : c.owner ∈ r.inner.members :=
    hgrouped.pending.attached _ (AList.mem_lookup_iff.mp hopens.asked)
  -- the group of the new channel is shared, or it is new and no other has it
  have hshared : c.spec.isExtended = true → ∀ d ∈ r.inner.channels, d.spec.isExtended = true →
      (r.inner.sharedGroup info = some d.downGroupId ↔ d.downGroupId = c.downGroupId) := by
    intro hextended d hd hextended'
    refine ⟨fun heq => (hopens.shared hextended _ heq).symm, ?_⟩
    intro heq
    by_cases hzero : info.groupChannelId = 0
    · have hshared : r.inner.sharedGroup info = some 0 := if_pos hzero
      rw [hshared, heq, hopens.shared hextended 0 hshared]
    · rw [Inner.sharedGroup, if_neg hzero]
      rcases hopens.group with ⟨hnone, _⟩ | ⟨_, hknown, _⟩ | ⟨_, hgroup, _⟩
      · rcases hnone with hstandard | hnone
        · rw [hextended] at hstandard
          cases hstandard
        · exact absurd hnone hzero
      · rw [hknown, heq]
      · have hlt := (hgrouped.ids.table _ (List.mem_map_of_mem hd) hextended').1
        have hdown : d.reopen.downGroupId = d.downGroupId := rfl
        omega
  have hup : c.spec.isExtended = true → c.upGroupId = info.groupChannelId := fun hextended => by
    rw [hopens.upGroup, if_pos hextended]
  constructor
  · intro hapart _ _ info' hinfo' entry hentry hextended d hd hextended' howner hsame
    rw [Option.mem_def, hopens.parsed, Option.some.injEq] at hinfo'
    subst hinfo'
    rw [Option.mem_def, hopens.asked, Option.some.injEq] at hentry
    subst hentry
    have hdown := (hshared hextended d hd hextended').mp hsame
    have hd' : d ∈ r'.inner.channels := by
      rw [hopens.channels]
      exact List.mem_append_left _ hd
    have hc' : c ∈ r'.inner.channels := by
      rw [hopens.channels]
      exact List.mem_append_right _ List.mem_cons_self
    by_cases hzero : info.groupChannelId = 0
    · by_contra hother
      have hpositive : d.upGroupId ≠ 0 := fun hnone => hother (hnone.trans hzero.symm)
      have hcross := (hapart d.upGroupId hpositive d hd' hextended' rfl).2 c hc' hextended
        howner.symm hdown.symm
      exact hother (hcross.symm.trans (hup hextended))
    · exact (hapart _ hzero c hc' hextended (hup hextended)).2 d hd' hextended' howner hdown
  · intro hguard upGroup hgroup d hd hextended hdup
    have hguard := hguard rfl hopen info hopens.parsed _ hopens.asked
    rw [hopens.channels] at hd ⊢
    rw [hopens.members.members]
    rcases List.mem_append.mp hd with hold | hnew
    · obtain ⟨hattached, hothers⟩ := h upGroup hgroup d hold hextended hdup
      refine ⟨hattached, ?_⟩
      intro d' hd' hextended' howner hdown
      rcases List.mem_append.mp hd' with hold' | hnew'
      · exact hothers d' hold' hextended' howner hdown
      · rw [List.mem_singleton.mp hnew'] at hextended' howner hdown ⊢
        rw [hup hextended', ← hguard hextended' d hold hextended howner.symm
          ((hshared hextended' d hold hextended).mpr hdown.symm), hdup]
    · rw [List.mem_singleton.mp hnew] at hextended hdup ⊢
      refine ⟨hmember, ?_⟩
      intro d' hd' hextended' howner hdown
      rcases List.mem_append.mp hd' with hold' | hnew'
      · rw [hguard hextended d' hold' hextended' howner
          ((hshared hextended d' hold' hextended').mpr hdown), ← hup hextended, hdup]
      · rw [List.mem_singleton.mp hnew', hdup]

/-- A swap keeps together what the guard says. -/
theorem allApart_native {decode : Decoder} {r : Rig} {plan : SwapPlan} {infos : List ChannelInfo}
    (hswap : r.swap = .connecting plan) :
    AllApart (r.swapNative plan infos) ↔ GroupsTogether decode r (.swapReopened infos) := by
  have hchannel : ∀ p ∈ plan.snapshot.specs.zip infos,
      reopened p.1 p.2 ∈ (r.swapNative plan infos).inner.channels := fun p hp =>
    List.mem_map_of_mem (f := fun p : Reopen × ChannelInfo => reopened p.1 p.2) hp
  have hgroup : ∀ p ∈ plan.snapshot.specs.zip infos, p.1.spec.isExtended = true →
      (reopened p.1 p.2).upGroupId = p.2.groupChannelId := fun p _ hextended => if_pos hextended
  simp only [GroupsTogether, hswap]
  constructor
  · intro hapart p hp hextended
    refine ⟨fun hsome => (hapart _ hsome _ (hchannel p hp) hextended (hgroup p hp hextended)).1, ?_⟩
    intro p' hp' hextended' howner hdown
    by_cases hzero : p.2.groupChannelId = 0
    · by_contra hother
      have hsome : p'.2.groupChannelId ≠ 0 := fun hnone => hother (hnone.trans hzero.symm)
      have hcross := (hapart _ hsome _ (hchannel p' hp') hextended'
        (hgroup p' hp' hextended')).2 _ (hchannel p hp) hextended howner.symm hdown.symm
      exact hother (hcross.symm.trans (hgroup p hp hextended))
    · exact (hgroup p' hp' hextended').symm.trans ((hapart _ hzero _ (hchannel p hp) hextended
        (hgroup p hp hextended)).2 _ (hchannel p' hp') hextended' howner hdown)
  · intro hguard upGroup hpositive c hc hextended hup
    obtain ⟨p, hp, rfl⟩ := List.mem_map.mp hc
    obtain ⟨hattached, hothers⟩ := hguard p hp hextended
    have hinfo : p.2.groupChannelId = upGroup := (hgroup p hp hextended).symm.trans hup
    refine ⟨hattached (hinfo ▸ hpositive), ?_⟩
    intro c' hc' hextended' howner hdown
    obtain ⟨p', hp', rfl⟩ := List.mem_map.mp hc'
    exact (hgroup p' hp' hextended').trans ((hothers p' hp' hextended' howner hdown).trans hinfo)

/-- The step lemma, with the step that breaks the condition. -/
theorem AllApart.step_iff {decode : Decoder} {lib : Sv1Library} {r r' : Rig} {cs : List Channel}
    {e : Event} (h : AllApart r) (hgrouped : Grouped r cs)
    (hstep : step decode lib r e = some r') : AllApart r' ↔ GroupsTogether decode r e := by
  have ht := transition_of_step hstep
  have hsame : SameTable r.inner r'.inner → AllApart r' := by
    intro hsame
    rcases members_of_transition ht with hmembers | ⟨member, hdetach⟩
    · exact h.of_same hsame.channels hmembers
    · exact h.detach hdetach
  have hquiet : GroupsTogether decode r e → AllApart r' →
      (AllApart r' ↔ GroupsTogether decode r e) :=
    fun hguard hapart => iff_of_true hapart hguard
  cases e with
  | swapReopened infos =>
    simp only [step] at hstep
    split at hstep
    · split at hstep <;> cases hstep
      exact allApart_native ‹_›
    · cases hstep
  | upstreamFrame g frame now =>
    cases table_of_transition ht with
    | same htable hcarries =>
      refine hquiet ?_ (hsame htable)
      rintro rfl hopen info hinfo entry hentry
      obtain ⟨c, hopens, _⟩ := finalizeOpen_opens hinfo hentry
      -- a new channel makes the table longer
      have hlength := congrArg List.length htable.channels
      simp only [step] at hstep
      split at hstep <;> cases hstep
      rw [Rig.queue_inner, Rig.credit_inner, onUpstreamFrame_open hopen] at hlength
      simp [hopens.channels] at hlength
    | opens hg hopen hopens hswap =>
      subst hg
      exact h.opens_iff hgrouped hopen hopens
  | detach member =>
    refine hquiet trivial ?_
    cases table_of_transition ht with
    | same htable hcarries => exact hsame htable
    | detach hdetach hswap => exact h.detach hdetach
  | swapTranslated lines =>
    refine hquiet trivial ?_
    cases table_of_transition ht with
    | same htable hcarries => exact hsame htable
    | translated hswap hconn hinstall =>
      subst hinstall
      intro upGroup hpositive c hc _ hup
      rw [List.mem_singleton.mp hc] at hup
      exact absurd hup.symm hpositive
  | _ =>
    refine hquiet trivial ?_
    cases table_of_transition ht with
    | same htable hcarries => exact hsame htable

theorem allApart_start {lib : Sv1Library} {worker : String} {spec : OpenSpec}
    {store : OrderStore} {idlePool : Option UpstreamTarget} {now : Int}
    {failed : Option InitialAnswer} {answer : InitialAnswer} {r : Rig}
    (h : start lib worker spec store idlePool now failed answer = some r) : AllApart r := by
  have hnone : ∀ c ∈ r.inner.channels, c.upGroupId = 0 := by
    obtain ⟨_, _, _, _, _, hinstall⟩ := start_firstInstall h
    cases hinstall with
    | native => exact fun c hc => by cases hc
    | sv1 =>
      intro c hc
      rw [List.mem_singleton.mp hc]
      rfl
  intro upGroup hgroup c hc _ hup
  exact absurd (hup.symm.trans (hnone c hc)) hgroup

/-- The frames of a group reach the channels of the group, once, in every run in
which the channels of a miner that were told one group id stay in one group of the
pool and no channel with a group is carried over to an SV1 pool.  The first step
that breaks the condition makes a group that is not reached. -/
theorem group_jobs_reach {decode : Decoder} {lib : Sv1Library} (hsized : decode.Sized)
    {x : Rig × List Channel}
    (h : ReachesWith decode lib (given decode) givenAtStart
      (fun x e => KeepsGroup lib x.1 e ∧ GroupsTogether decode x.1 e) x) :
    (∀ upGroup, upGroup ≠ 0 → x.1.ReachesGroup upGroup ∧
      ∀ frame now, isChannelScoped frame.msgType = true → readChannelId frame = some upGroup →
        (onUpstreamFrame decode now x.1.inner.active.generation frame x.1.inner).2.2 =
          (x.1.inner.copies upGroup).map fun p =>
            ⟨p.2, .received (rewriteChannelId frame p.1)⟩) ∧
      ∀ e r', KeepsGroup lib x.1 e → step decode lib x.1 e = some r' →
        ((∀ upGroup, upGroup ≠ 0 → r'.ReachesGroup upGroup) ↔ GroupsTogether decode x.1 e) := by
  have hinv : Grouped x.1 x.2 ∧ AllApart x.1 := by
    refine h.invariant (I := fun r cs => Grouped r cs ∧ AllApart r) ?_ ?_
    · intro worker spec store idlePool now failed answer r₀ _ hstart
      exact ⟨.of_start hstart, allApart_start hstart⟩
    · intro r cs e r' ⟨hgrouped, hapart⟩ ⟨hkeeps, htogether⟩ hstep
      exact ⟨hgrouped.step hsized hkeeps hstep, (hapart.step_iff hgrouped hstep).mpr htogether⟩
  obtain ⟨hgrouped, hapart⟩ := hinv
  constructor
  · intro upGroup hgroup
    exact ⟨(hgrouped.reachesGroup_iff hgroup).mpr (hapart upGroup hgroup),
      fun frame now hscoped hid => onUpstreamFrame_copies hscoped hid⟩
  · intro e r' hkeeps hstep
    rw [← hapart.step_iff hgrouped hstep]
    have hgrouped' := hgrouped.step hsized hkeeps hstep
    exact forall₂_congr fun upGroup hgroup => hgrouped'.reachesGroup_iff hgroup

/-- The answer to a re-open, with a group. -/
def regroupedInfo (channelId groupId : Nat) : ChannelInfo :=
  { reopenedInfo channelId with groupChannelId := groupId }

/-- A miner with two channels of one group moves to a pool with these groups. -/
def regrouped (groupId groupId' : Nat) : List Event :=
  [.upstreamFrame 0 (openedFrame 1 10 5) 0, .openChannel 1 (extendedOpen 8),
    .upstreamFrame 0 (openedFrame 2 11 5) 0, .createOrder buyerOrder,
    .swapOrder .attach "o1" false,
    .swapReopened [regroupedInfo 30 groupId, regroupedInfo 31 groupId']]

/-- The new pool keeps the group. -/
theorem group_jobs_reach_regrouped :
    ∃ x, ReachesWith wireDecoder plainLibrary (given wireDecoder) givenAtStart
        (fun x e => KeepsGroup plainLibrary x.1 e ∧ GroupsTogether wireDecoder x.1 e) x ∧
      x.1.inner.copies 6 = [(2, 1)] ∧ x.1.ReachesGroup 6 := by
  obtain ⟨x, hx, hcopies⟩ := exists_history_of_idleRig (given wireDecoder) givenAtStart
    (G := fun x e => KeepsGroup plainLibrary x.1 e ∧ GroupsTogether wireDecoder x.1 e)
    (regrouped 6 6) (p := fun x => decide (x.1.inner.copies 6 = [(2, 1)])) (by decide +kernel)
  exact ⟨x, hx, of_decide_eq_true hcopies,
    ((group_jobs_reach wireDecoder_sized hx).1 6 (by decide)).1⟩

/-- An Extended channel outside of the group has the owner and the group id of one
inside. -/
def Rig.crossed (r : Rig) (upGroup : Nat) : Bool :=
  r.inner.channels.any fun c => c.spec.isExtended && decide (c.upGroupId = upGroup) &&
    r.inner.channels.any fun c' => c'.spec.isExtended && decide (c'.owner = c.owner) &&
      decide (c'.downGroupId = c.downGroupId) && !decide (c'.upGroupId = upGroup)

theorem not_apart_of_crossed {r : Rig} {upGroup : Nat} (h : r.crossed upGroup = true) :
    ¬r.Apart upGroup := by
  simp only [Rig.crossed, List.any_eq_true, Bool.and_eq_true, decide_eq_true_eq,
    Bool.not_eq_true', decide_eq_false_iff_not] at h
  obtain ⟨c, hc, ⟨hextended, hup⟩, c', hc', ⟨⟨hextended', howner⟩, hdown⟩, hother⟩ := h
  exact fun hapart => hother ((hapart c hc hextended hup).2 c' hc' hextended' howner hdown)

/-- The new pool splits the group, and a job of the one part reaches the other. -/
theorem split_group_crosses :
    ∃ x, ReachesWith wireDecoder plainLibrary (given wireDecoder) givenAtStart
        (fun x e => KeepsGroup plainLibrary x.1 e) x ∧ ¬x.1.ReachesGroup 6 := by
  obtain ⟨x, hx, hcrossed⟩ := exists_history_of_idleRig (given wireDecoder) givenAtStart
    (G := fun x e => KeepsGroup plainLibrary x.1 e) (regrouped 6 7)
    (p := fun x => x.1.crossed 6) (by decide +kernel)
  have hgrouped := Grouped.of_reaches wireDecoder_sized (fun _ _ h => h) hx
  refine ⟨x, hx, fun hreaches => not_apart_of_crossed hcrossed ?_⟩
  exact (hgrouped.reachesGroup_iff (by decide)).mp hreaches

end RentalProxy.Sv2
