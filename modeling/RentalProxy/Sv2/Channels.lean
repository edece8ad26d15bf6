import RentalProxy.Sv2.Transitions

/-!
# A swap loses no channel

A member that was told of a channel counts on it.  After a swap the channel is in
the table of the rig under the same id and with the same owner, or the member has
been told that it is gone.

The code does not give this.  The native swap overwrites the table with the
channels of a snapshot that is several round trips old, and the translated swap
keeps one channel of however many there are; neither tells the owners of the
others.  `channel_lost_to_translation` is such a run.  A supervisor or a retry
makes good for it with a reconnect signal, an attach does not.

`KeepsChannels` is the condition on an install under which `no_channel_lost`
holds.  The invariant is `Kept`: a channel is there, or its member is informed,
or a signal is still owed.
-/

namespace RentalProxy.Sv2

open StepSystem

/-! ## What is kept -/

/-- The frame takes back the channel, or the request that opened it. -/
def EitherFrame.takesBack (cid req : Nat) : EitherFrame → Bool
  | .built (.closeChannel c _) => decide (c = cid)
  | .built (.openMiningChannelError r _) => decide (r = req)
  | _ => false

/-- The member has been told that its channel is gone: by a reconnect signal
after the loss, or by a frame of a swap. -/
def Rig.Notified (r : Rig) (member cid req : Nat) : Prop :=
  (member, cid) ∈ r.informed ∨ ∃ q ∈ r.sent, (∃ g, q.source = .notice g) ∧ q.member = member ∧
    q.frame.takesBack cid req = true

/-- Once no swap is under way and no caller of one owes a signal, every channel
that an attached member was told of is there, or the member knows. -/
def NoneLost (r : Rig) : Prop :=
  r.swap = .idle → r.reconnects = 0 → ∀ t ∈ r.told, t.1 ∈ r.inner.members →
    r.holds t.1 t.2.1 = true ∨ r.Notified t.1 t.2.1 t.2.2

/-! ## The condition on a step -/

/-- The condition on an install.  The channels that attached members have now
are the ones that the swap re-opened (one, on a translated pool), or the caller
of the swap will drop the members, which it does only when the re-point frames
can be built. -/
def KeepsChannels (lib : Sv1Library) (r : Rig) : Event → Prop
  | .swapReopened infos => match r.swap with
    | .connecting plan =>
      (∀ c ∈ r.inner.channels, c.owner ∈ r.inner.members → ∃ s ∈ plan.snapshot.specs,
        s.downChannelId = c.downChannelId ∧ s.owner = c.owner) ∨
      (plan.caller.reconnects = true ∧
        ∀ info ∈ infos, info.extranoncePrefix.length ≤ 32 ∧ info.target.length = 32)
    | _ => True
  | .swapTranslated lines => match r.swap with
    | .translating plan channel _ => ∀ conn ∈ connectSv1Upstream lib lines,
      (∀ c ∈ r.inner.channels, c.owner ∈ r.inner.members →
        channel.downChannelId = c.downChannelId ∧ channel.owner = c.owner) ∨
      (plan.caller.reconnects = true ∧ conn.extranonce1.length ≤ 32)
    | _ => True
  | _ => True

instance (lib : Sv1Library) (r : Rig) : DecidablePred (KeepsChannels lib r) := fun e => by
  rcases e with _ | _ <;> dsimp only [KeepsChannels] <;> try infer_instance
  all_goals rcases r.swap with _ | _ <;> infer_instance

/-! ## The invariant -/

/-- A caller of a swap owes the members a signal, or will when the swap ends. -/
def Rig.WillSignal (r : Rig) : Prop :=
  0 < r.reconnects ∨ ∃ plan todo abandoned members,
    r.swap = .repointing plan todo abandoned members ∧ plan.caller.reconnects = true ∧
      ∀ s ∈ todo, s.frame.isSome

structure Kept (r : Rig) : Prop where
  told : ∀ t ∈ r.told, t.1 ∈ r.inner.members →
    r.holds t.1 t.2.1 = true ∨ (t.1, t.2.1) ∈ r.informed ∨ r.WillSignal
  /-- Member ids are not used twice. -/
  toldOld : ∀ t ∈ r.told, t.1 < r.inner.nextMemberId
  membersOld : ∀ m ∈ r.inner.members, m < r.inner.nextMemberId

theorem holds_iff {r : Rig} {member cid : Nat} :
    r.holds member cid = true ↔
      ∃ c ∈ r.inner.channels, c.downChannelId = cid ∧ c.owner = member := by
  simp [Rig.holds]

theorem told_append {r r' : Rig} {new : List Queued} (hsent : r'.sent = r.sent ++ new) :
    r'.told = r.told ++ new.filterMap Queued.told? := by
  rw [Rig.told, hsent, List.filterMap_append]
  rfl

/-- A signal that is owed before the install is owed after it. -/
theorem Rig.WillSignal.of_connecting {r : Rig} {plan : SwapPlan} (h : r.WillSignal)
    (hplan : r.swap.Connecting plan) : 0 < r.reconnects := by
  rcases h with h | ⟨_, _, _, _, hswap, _⟩
  · exact h
  · rw [hswap] at hplan
    rcases hplan with h | ⟨_, _, h⟩ <;> cases h

theorem Rig.WillSignal.of_idle {r : Rig} (h : r.WillSignal) (hswap : r.swap = .idle) :
    0 < r.reconnects := by
  rcases h with h | ⟨_, _, _, _, hswap', _⟩
  · exact h
  · rw [hswap] at hswap'
    cases hswap'

theorem Rig.WillSignal.of_repointing {r : Rig} {plan : SwapPlan} {todo : List RepointStep}
    {abandoned : List (Nat × Nat)} {members : List Nat} (h : r.WillSignal)
    (hswap : r.swap = .repointing plan todo abandoned members) :
    0 < r.reconnects ∨ (plan.caller.reconnects = true ∧ ∀ s ∈ todo, s.frame.isSome) := by
  rcases h with h | ⟨_, _, _, _, hswap', hcaller, hbuilt⟩
  · exact Or.inl h
  · rw [hswap] at hswap'
    cases hswap'
    exact Or.inr ⟨hcaller, hbuilt⟩

/-- A step that keeps the members and the channels.  What it tells a member is
in the table. -/
theorem Kept.extend {r r' : Rig} (h : Kept r) (new : List Queued)
    (hmembers : SameMembers r.inner r'.inner)
    (hchannels : ∀ c ∈ r.inner.channels, ∃ c' ∈ r'.inner.channels,
      c'.downChannelId = c.downChannelId ∧ c'.owner = c.owner)
    (hsent : r'.sent = r.sent ++ new)
    (hnew : ∀ q ∈ new, ∀ t ∈ q.told?, t.1 ∈ r.inner.members ∧ r'.holds t.1 t.2.1 = true)
    (hinformed : r'.informed = r.informed) (hsignal : r.WillSignal → r'.WillSignal) : Kept r' where
  told := by
    rw [told_append hsent, hmembers.members, hinformed]
    intro t ht hmember
    rcases List.mem_append.mp ht with hold | hfresh
    · rcases h.told t hold hmember with hholds | hinf | hwill
      · obtain ⟨c, hc, hdown, howner⟩ := holds_iff.mp hholds
        obtain ⟨c', hc', hdown', howner'⟩ := hchannels c hc
        exact Or.inl (holds_iff.mpr ⟨c', hc', hdown'.trans hdown, howner'.trans howner⟩)
      · exact Or.inr (Or.inl hinf)
      · exact Or.inr (Or.inr (hsignal hwill))
    · obtain ⟨q, hq, hqt⟩ := List.mem_filterMap.mp hfresh
      exact Or.inl (hnew q hq t hqt).2
  toldOld := by
    rw [told_append hsent, hmembers.nextMemberId]
    intro t ht
    rcases List.mem_append.mp ht with hold | hfresh
    · exact h.toldOld t hold
    · obtain ⟨q, hq, hqt⟩ := List.mem_filterMap.mp hfresh
      exact h.membersOld _ (hnew q hq t hqt).1
  membersOld := by
    rw [hmembers.members, hmembers.nextMemberId]
    exact h.membersOld

/-- A step that leaves members, channels and frames alone. -/
theorem Kept.frame {r r' : Rig} (h : Kept r) (hmembers : SameMembers r.inner r'.inner)
    (hchannels : SameChannels r.inner r'.inner) (hsent : r'.sent = r.sent)
    (hinformed : r'.informed = r.informed) (hsignal : r.WillSignal → r'.WillSignal) : Kept r' :=
  h.extend [] hmembers (fun c hc => hchannels.kept hc) (by simpa using hsent)
    (by simp) hinformed hsignal

/-- An install after which the channels of attached members are there, or a
signal is owed. -/
theorem Kept.install {r r' : Rig} {plan : SwapPlan} (h : Kept r) (hplan : r.swap.Connecting plan)
    (hmembers : SameMembers r.inner r'.inner) (hsent : r'.sent = r.sent)
    (hinformed : r'.informed = r.informed) (hreconnects : r'.reconnects = r.reconnects)
    (hkeeps : (∀ c ∈ r.inner.channels, c.owner ∈ r.inner.members →
      ∃ c' ∈ r'.inner.channels, c'.downChannelId = c.downChannelId ∧ c'.owner = c.owner) ∨
      r'.WillSignal) : Kept r' where
  told := by
    have htold : r'.told = r.told := congrArg (List.filterMap Queued.told?) hsent
    rw [htold, hmembers.members, hinformed]
    intro t ht hmember
    rcases hkeeps with hkeeps | hwill
    · rcases h.told t ht hmember with hholds | hinf | hwill
      · obtain ⟨c, hc, hdown, howner⟩ := holds_iff.mp hholds
        obtain ⟨c', hc', hdown', howner'⟩ := hkeeps c hc (by rw [howner]; exact hmember)
        exact Or.inl (holds_iff.mpr ⟨c', hc', hdown'.trans hdown, howner'.trans howner⟩)
      · exact Or.inr (Or.inl hinf)
      · exact Or.inr (Or.inr (Or.inl (hreconnects ▸ hwill.of_connecting hplan)))
    · exact Or.inr (Or.inr hwill)
  toldOld := by
    have htold : r'.told = r.told := congrArg (List.filterMap Queued.told?) hsent
    rw [htold, hmembers.nextMemberId]
    exact h.toldOld
  membersOld := by
    rw [hmembers.members, hmembers.nextMemberId]
    exact h.membersOld

/-- A new member has an id that no channel was told to. -/
theorem Kept.attach {r : Rig} (h : Kept r) (spec : OpenSpec) :
    Kept { r with inner := forwardOpen r.inner.nextMemberId spec r.inner.addMember.1 } := by
  have hmembers := forwardOpen_members r.inner.nextMemberId spec r.inner.addMember.1
  refine ⟨?_, ?_, ?_⟩
  · intro t ht hmember
    have hold : t.1 ∈ r.inner.members := by
      rw [hmembers.members] at hmember
      rcases List.mem_append.mp hmember with hold | hnew
      · exact hold
      · have hlt := h.toldOld t ht
        rw [List.mem_singleton.mp hnew] at hlt
        exact absurd hlt (lt_irrefl _)
    rcases h.told t ht hold with hholds | hrest
    · left
      rw [holds_iff] at hholds ⊢
      simpa [Inner.addMember] using hholds
    · exact Or.inr hrest
  · intro t ht
    rw [hmembers.nextMemberId]
    exact (h.toldOld t ht).trans (Nat.lt_succ_self _)
  · intro m hm
    rw [hmembers.nextMemberId]
    rw [hmembers.members] at hm
    rcases List.mem_append.mp hm with hold | hnew
    · exact (h.membersOld m hold).trans (Nat.lt_succ_self _)
    · rw [List.mem_singleton.mp hnew]
      exact Nat.lt_succ_self _

/-- A member that leaves takes only its own channels. -/
theorem Kept.detach {r : Rig} (h : Kept r) (member : Nat) :
    Kept { r with inner := (detachMember member r.inner).1 } := by
  refine ⟨?_, h.toldOld, ?_⟩
  · intro t ht hmember
    simp only [detachMember, List.mem_filter, decide_eq_true_eq] at hmember
    rcases h.told t ht hmember.1 with hholds | hrest
    · left
      obtain ⟨c, hc, hdown, howner⟩ := holds_iff.mp hholds
      refine holds_iff.mpr ⟨c, List.mem_filter.mpr ⟨hc, ?_⟩, hdown, howner⟩
      rw [howner]
      simpa using hmember.2
    · exact Or.inr hrest
  · intro m hm
    simp only [detachMember, List.mem_filter] at hm
    exact h.membersOld m hm.1

/-- After the signal every lost channel is known to its member. -/
theorem Kept.signal {r : Rig} (h : Kept r) : Kept r.signal := by
  refine ⟨?_, h.toldOld, h.membersOld⟩
  intro t ht hmember
  cases hholds : r.holds t.1 t.2.1 with
  | true => exact Or.inl hholds
  | false =>
    refine Or.inr (Or.inl (List.mem_append_right _ (List.mem_filter.mpr ⟨?_, ?_⟩)))
    · exact List.mem_map_of_mem (f := fun t : Nat × Nat × Nat => (t.1, t.2.1)) ht
    · simp only [Bool.and_eq_true, decide_eq_true_eq, Bool.not_eq_true']
      exact ⟨hmember, hholds⟩

/-- What an OpenSuccess tells is in the table. -/
theorem onUpstreamFrame_told {decode : Decoder} {now : Rat} {g : Nat} {frame : Sv2Frame}
    {i : Inner} {s : Send} {cid req : Nat}
    (hs : s ∈ (onUpstreamFrame decode now g frame i).2.2)
    (htold : s.frame.openSuccess? = some (cid, req)) :
    s.member ∈ i.members ∧ ∃ c ∈ (onUpstreamFrame decode now g frame i).1.channels,
      c.downChannelId = cid ∧ c.owner = s.member := by
  rcases onUpstreamFrame_cases decode now g frame i with
    h | ⟨hg, h⟩ | ⟨hg, htype, h⟩ | ⟨upCid, hg, hid, h⟩ <;> rw [h] at hs ⊢
  · cases hs
  · rcases finalizeOpen_cases decode frame i with hnone | ⟨c, hchannels, _, _, hsends⟩
    · rw [hnone] at hs
      cases hs
    · obtain ⟨hmember, hattached, _, req', hopen⟩ := hsends s hs
      rw [htold] at hopen
      cases hopen
      refine ⟨hmember ▸ hattached, c, ?_, rfl, hmember.symm⟩
      rw [hchannels]
      exact List.mem_append_right _ List.mem_cons_self
  · rw [(rejectOpen_sends htype hs).2] at htold
    cases htold
  · obtain ⟨p, _, hsend⟩ := List.mem_flatMap.mp hs
    obtain ⟨_, rfl⟩ := mem_toMember hsend
    cases htold

/-- A frame of the pool leaves every channel in the table. -/
theorem onUpstreamFrame_channels {decode : Decoder} {now : Rat} {g : Nat} {frame : Sv2Frame}
    {i : Inner} {c : Channel} (hc : c ∈ i.channels) :
    ∃ c' ∈ (onUpstreamFrame decode now g frame i).1.channels,
      c'.downChannelId = c.downChannelId ∧ c'.owner = c.owner := by
  rcases onUpstreamFrame_cases decode now g frame i with
    h | ⟨hg, h⟩ | ⟨hg, htype, h⟩ | ⟨upCid, hg, hid, h⟩ <;> rw [h]
  · exact ⟨c, hc, rfl, rfl⟩
  · rcases finalizeOpen_cases decode frame i with hnone | ⟨c', hchannels, _⟩
    · rw [hnone]
      exact ⟨c, hc, rfl, rfl⟩
    · rw [hchannels]
      exact ⟨c, List.mem_append_left _ hc, rfl, rfl⟩
  · obtain ⟨p, hp⟩ := rejectOpen_inner decode frame i
    rw [hp]
    exact ⟨c, hc, rfl, rfl⟩
  · exact (routed_sameRig now frame upCid i).channels.kept hc

theorem Rig.WillSignal.congr {r r' : Rig} (h : r.WillSignal) (hswap : r'.swap = r.swap)
    (hreconnects : r'.reconnects = r.reconnects) : r'.WillSignal := by
  unfold Rig.WillSignal
  rw [hswap, hreconnects]
  exact h

/-- A call of the translating reader tells of no channel. -/
theorem Kept.translateCall {r : Rig} {call : SessionCall} {cid : Nat} (h : Kept r)
    (hscope : ∀ frame, call = .sendTranslateFrame frame → frame.channelId? = some cid)
    (member : Nat) (now : Rat) : Kept (r.translateCall call cid member now) := by
  obtain ⟨new, hsent, hnew⟩ := translateCall_sends r call cid member now
  have htasks := translateCall_sameTasks r call cid member now
  have hrig := translateCall_sameRig r call cid member now
  refine h.extend new hrig.members (fun c hc => hrig.channels.kept hc) hsent ?_ htasks.informed
    fun hw => hw.congr htasks.swap htasks.reconnects
  intro q hq t ht
  obtain ⟨_, frame, hcall, rfl⟩ := hnew q hq
  rw [Queued.told?, EitherFrame.openSuccess?_of_channelId? (hscope frame hcall)] at ht
  cases ht

/-- The step lemma. -/
theorem Kept.step {decode : Decoder} {lib : Sv1Library} {r r' : Rig} {e : Event} (h : Kept r)
    (hscope : CallsInScope r) (hguard : KeepsChannels lib r e)
    (ht : Transition decode lib r e r') : Kept r' := by
  cases ht with
  | attach hnative => exact h.attach _
  | detach hmember => exact h.detach _
  | reconnect howed => exact h.signal
  | @openChannel member spec hmember =>
    refine h.extend _ (openChannel_members ..) (fun c hc => ⟨c, by simpa using hc, rfl, rfl⟩) rfl ?_
      rfl fun hw => hw.congr rfl rfl
    intro q hq t ht
    obtain ⟨s, hs, rfl⟩ := List.mem_map.mp hq
    rw [Queued.told?, openChannel_sends hs] at ht
    cases ht
  | @minerFrame member frame hmember =>
    have htasks := SameTasks.submitted { r with inner := (minerFrame frame r.inner).1 }
      (minerFrame frame r.inner).2
    refine h.frame (by simpa using minerFrame_members frame r.inner) ?_ (by simp) htasks.informed
      fun hw => hw.congr htasks.swap htasks.reconnects
    simp [SameChannels]
  | @upstreamFrame g frame now hnative =>
    refine h.extend _ (onUpstreamFrame_members ..) (fun c hc => onUpstreamFrame_channels hc) rfl ?_
      rfl fun hw => hw.congr rfl rfl
    intro q hq t ht
    obtain ⟨s, hs, rfl⟩ := List.mem_map.mp hq
    obtain ⟨⟨cid, req⟩, hopen, rfl⟩ := Option.map_eq_some_iff.mp ht
    obtain ⟨hattached, hchannel⟩ := onUpstreamFrame_told hs hopen
    exact ⟨hattached, holds_iff.mpr hchannel⟩
  | translateLine htranslator =>
    exact h.frame (.refl _) rfl rfl rfl fun hw => hw.congr rfl rfl
  | translateWrite htranslator =>
    exact h.frame (.refl _) rfl rfl rfl fun hw => hw.congr rfl rfl
  | @translateCall member cid written now state call calls htranslator =>
    have hbefore : Kept { r with translator := some ⟨cid, state, calls, written⟩ } :=
      h.frame (.refl _) rfl rfl rfl fun hw => hw.congr rfl rfl
    refine hbefore.translateCall (fun frame hcall => ?_) member now
    exact hscope _ htranslator frame (hcall ▸ List.mem_cons_self)
  | swapOrder hswap horder htarget =>
    exact h.frame ⟨rfl, rfl⟩ rfl rfl rfl fun hw => Or.inl (hw.of_idle hswap)
  | swapRevert hswap hdefault =>
    exact h.frame ⟨rfl, rfl⟩ rfl rfl rfl fun hw => Or.inl (hw.of_idle hswap)
  | swapFailed hswap =>
    exact h.frame (.refl _) rfl rfl rfl fun hw => Or.inl (hw.of_connecting hswap)
  | @swapReopened infos plan hswap hlength =>
    refine h.install (Or.inl hswap) ⟨rfl, rfl⟩ rfl rfl rfl ?_
    simp only [KeepsChannels, hswap] at hguard
    rcases hguard with hkeeps | ⟨hcaller, hinfos⟩
    · refine Or.inl fun c hc hattached => ?_
      obtain ⟨spec, hspec, hdown, howner⟩ := hkeeps c hc hattached
      rw [← List.map_fst_zip hlength.ge] at hspec
      obtain ⟨⟨spec, info⟩, hmem, rfl⟩ := List.mem_map.mp hspec
      exact ⟨reopened spec info, List.mem_map_of_mem (f := fun p => reopened p.1 p.2) hmem,
        hdown, howner⟩
    · refine Or.inr (Or.inr ⟨_, _, _, _, rfl, hcaller, fun s hs => repointSteps_built ?_ hs⟩)
      intro rp hrp _
      obtain ⟨⟨spec, info⟩, hmem, rfl⟩ := List.mem_map.mp hrp
      exact hinfos info (List.of_mem_zip hmem).2
  | swapNotSv2 hswap hchannel =>
    exact h.frame (.refl _) rfl rfl rfl fun hw =>
      Or.inl (hw.of_connecting (Or.inl hswap))
  | @swapTranslated lines plan channel members conn hswap hconn =>
    refine h.install (Or.inr ⟨_, _, hswap⟩) ⟨rfl, rfl⟩ rfl rfl rfl ?_
    simp only [KeepsChannels, hswap] at hguard
    rcases hguard conn hconn with hkeeps | ⟨hcaller, hlen⟩
    · refine Or.inl fun c hc hattached => ?_
      obtain ⟨hdown, howner⟩ := hkeeps c hc hattached
      exact ⟨translatedChannel channel conn.initialDiff, List.mem_cons_self, hdown, howner⟩
    · refine Or.inr (Or.inr ⟨_, _, _, _, rfl, hcaller, fun s hs => repointSteps_built ?_ hs⟩)
      intro rp hrp _
      rw [List.mem_singleton.mp hrp]
      exact ⟨hlen, targetFromDifficulty_length _⟩
  | @repoint plan s todo abandoned members frame hswap hframe =>
    refine h.extend _ ⟨rfl, rfl⟩ (fun c hc => ⟨c, hc, rfl, rfl⟩) rfl ?_ rfl ?_
    · intro q hq t ht
      rw [List.map_singleton, List.mem_singleton] at hq
      subst hq
      rw [Queued.told?, RepointStep.frame_openSuccess hframe] at ht
      cases ht
    · intro hw
      rcases hw.of_repointing hswap with howed | ⟨hcaller, hbuilt⟩
      · exact Or.inl howed
      · exact Or.inr ⟨_, _, _, _, rfl, hcaller, fun p hp => hbuilt p (List.mem_cons_of_mem _ hp)⟩
  | repointFailed hswap hframe =>
    refine h.frame (.refl _) rfl rfl rfl fun hw => ?_
    rcases hw.of_repointing hswap with howed | ⟨_, hbuilt⟩
    · exact Or.inl howed
    · have hsome := hbuilt _ List.mem_cons_self
      rw [hframe] at hsome
      cases hsome
  | notice hswap =>
    refine h.extend _ ⟨rfl, rfl⟩ (fun c hc => ⟨c, hc, rfl, rfl⟩) rfl ?_ rfl ?_
    · intro q hq t ht
      obtain ⟨s, hs, rfl⟩ := List.mem_map.mp hq
      rw [Queued.told?, notices_openSuccess hs] at ht
      cases ht
    · intro hw
      rcases hw.of_repointing hswap with howed | ⟨hcaller, hbuilt⟩
      · exact Or.inl howed
      · exact Or.inr ⟨_, _, _, _, rfl, hcaller, hbuilt⟩
  | @swapDone plan members hswap =>
    refine h.frame (.refl _) rfl rfl rfl fun hw => ?_
    rcases hw.of_repointing hswap with howed | ⟨hcaller, _⟩
    · exact Or.inl (Nat.lt_of_lt_of_le howed (Nat.le_add_right _ _))
    · left
      simp [Rig.endSwap, hcaller]
  | store hstore => exact h.frame (.refl _) rfl rfl rfl fun hw => hw.congr rfl rfl
  | setSeller => exact h.frame (.refl _) rfl rfl rfl fun hw => hw.congr rfl rfl

theorem Kept.of_started {orders : OrderStore} {idle : Option UpstreamTarget}
    {pool : UpstreamTarget} {route : Routing} {r : Rig} (h : Started orders idle pool route r) :
    Kept r := by
  have htold : ∀ t ∈ r.told, t.1 = firstMember ∧ r.holds t.1 t.2.1 = true := by
    intro t ht
    obtain ⟨q, hq, hqt⟩ := List.mem_filterMap.mp ht
    obtain ⟨_, hmember, c, hc, howner, req, hopen⟩ := h.sent q hq
    rw [Queued.told?, hopen] at hqt
    cases hqt
    exact ⟨hmember, holds_iff.mpr ⟨c, hc, rfl, howner.trans hmember.symm⟩⟩
  refine ⟨fun t ht _ => Or.inl (htold t ht).2, ?_, ?_⟩
  · intro t ht
    rw [(htold t ht).1, h.nextMemberId]
    exact Nat.lt_succ_self _
  · intro m hm
    rw [h.members] at hm
    rw [List.mem_singleton.mp hm, h.nextMemberId]
    exact Nat.lt_succ_self _

/-- In every run whose installs keep the channels of the attached members, or
are followed by a signal, no channel is lost. -/
theorem no_channel_lost {decode : Decoder} {lib : Sv1Library} {r : Rig}
    (h : ReachesUnder decode lib (KeepsChannels lib) r) : NoneLost r := by
  have hinv : CallsInScope r ∧ Kept r := by
    refine h.invariant (I := fun x => CallsInScope x ∧ Kept x) ?_ ?_
    · intro worker spec store idlePool now failed answer r₀ _ hstart
      obtain ⟨_, _, _, _, _, hstarted⟩ := start_started hstart
      exact ⟨.of_started hstarted, .of_started hstarted⟩
    · intro x e y ⟨hscope, hx⟩ hguard hstep
      have ht := transition_of_step hstep
      exact ⟨hscope.step ht, hx.step hscope hguard ht⟩
  intro hidle hnone t ht hmember
  rcases hinv.2.told t ht hmember with hholds | hinformed | hwill
  · exact Or.inl hholds
  · exact Or.inr (Or.inl hinformed)
  · have howed := hwill.of_idle hidle
    rw [hnone] at howed
    exact absurd howed (lt_irrefl 0)

/-- Two miners on the idle pool of the seller. -/
def twoMiners : List Event :=
  [.upstreamFrame 0 (openedFrame 1 20 0) 0, .attach (extendedOpen 7),
    .upstreamFrame 0 (openedFrame 2 21 0) 0, .createOrder buyerOrder]

/-- A switch of both miners to a native pool. -/
def nativeSwitch : List Event :=
  twoMiners ++ [.swapOrder .attach "o1" false, .swapReopened [reopenedInfo 30, reopenedInfo 31],
    .swapSend, .swapSend, .swapSend, .swapSend, .swapSend]

/-- A switch of both miners to an SV1 pool, by the attach of a third. -/
def translatedSwitch : List Event :=
  twoMiners ++ [.swapOrder .attach "o1" false, .swapNotSv2, .swapTranslated sv1Handshake,
    .swapSend, .swapSend, .swapSend]

theorem no_channel_lost_native :
    ∃ r, ReachesUnder wireDecoder plainLibrary (KeepsChannels plainLibrary) r ∧
      r.swap = .idle ∧ r.told.length = 2 ∧ NoneLost r := by
  have hrun : ReachesUnder wireDecoder plainLibrary (KeepsChannels plainLibrary) _ :=
    run_of_idleRig nativeSwitch rfl
  exact ⟨_, hrun, rfl, rfl, no_channel_lost hrun⟩

/-- The channel is gone from an idle rig, and its attached member was told of
the channel and of nothing else. -/
def Rig.lost (r : Rig) (member cid req : Nat) : Bool :=
  r.swap.isIdle && decide (r.reconnects = 0) && decide ((member, cid, req) ∈ r.told) &&
    decide (member ∈ r.inner.members) && !r.holds member cid &&
    decide ((member, cid) ∉ r.informed) &&
    r.sent.all fun q => decide (q.member ≠ member) || !q.frame.takesBack cid req

theorem not_noneLost {r : Rig} {member cid req : Nat} (h : r.lost member cid req = true) :
    ¬NoneLost r := by
  simp only [Rig.lost, Bool.and_eq_true, decide_eq_true_eq, Bool.not_eq_true', List.all_eq_true,
    Bool.or_eq_true] at h
  obtain ⟨⟨⟨⟨⟨⟨hidle, hnone⟩, htold⟩, hmember⟩, hholds⟩, hinformed⟩, hsent⟩ := h
  intro hkept
  have hswap : r.swap = .idle := by
    cases hs : r.swap <;> simp [hs, SwapTask.isIdle] at hidle ⊢
  rcases hkept hswap hnone _ htold hmember with hheld | hknown | ⟨q, hq, _, hto, hback⟩
  · rw [hholds] at hheld
    cases hheld
  · exact hinformed hknown
  · rcases hsent q hq with hother | hnot
    · exact hother hto
    · rw [hback] at hnot
      cases hnot

/-- The second miner keeps hashing for a channel that the rig has forgotten. -/
theorem channel_lost_to_translation :
    ∃ r, Reaches wireDecoder plainLibrary r ∧ ¬NoneLost r := by
  obtain ⟨r, hrun, hlost⟩ : ∃ r, ReachesUnder wireDecoder plainLibrary (fun _ _ => True) r ∧
      r.lost 2 2 7 = true :=
    exists_of_idleRig translatedSwitch (by decide +kernel)
  exact ⟨r, hrun, not_noneLost hlost⟩

end RentalProxy.Sv2
