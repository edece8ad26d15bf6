import RentalProxy.Sv2.Table
import RentalProxy.Sv2.TranslateWriter

/-!
# Who gets the frames of a translated upstream

A rig that a swap brought to an SV1 pool has one channel left, and may have many members.  The
reader sends the frames that it makes up to whichever member the table yields first, without a
look at who owns the channel.

* `Synthesized` is one frame that was made up for the channel: who owned the channel, and who
  got the frame.  `synthesizedSoFar` keeps the list of them along a run.
* `OnlyOwner` is the condition: nobody but the owner is attached when the reader sends.
* `translated_frames_reach_owner` is the result.  `other_member_gets_frame` is a run with two
  members that breaks it.
-/

namespace RentalProxy.Sv2

open StepSystem

variable (decode : Decoder) (lib : Sv1Library)

/-! ## What is sent to whom -/

/-- The attached member that owns the channel of a frame. -/
def Inner.ownerOf (i : Inner) (frame : EitherFrame) : Option Nat :=
  ((i.channels.find? fun c => decide (frame.channelId? = some c.downChannelId)).map
    Channel.owner).filter fun m => decide (m ∈ i.members)

/-- The frame that the translating reader sends next. -/
def Rig.inHand (r : Rig) : Option EitherFrame :=
  match r.translator with
  | some ⟨_, _, .sendTranslateFrame frame :: _, _⟩ => some frame
  | _ => none

/-- The frame that a step makes up for the channel of a translated upstream: the one in the hand
of the reader, or a re-point frame of the swap that installed the upstream. -/
def synthesized (r : Rig) : Event → Option EitherFrame
  | .translateCall .. => r.inHand
  | .swapSend =>
    if r.inner.translating then r.swap.todo.head?.bind RepointStep.frame else none
  | _ => none

/-- What a step queues to the members. -/
def queuedAt (r : Rig) (e : Event) : List Queued :=
  match step decode lib r e with
  | some r' => r'.sent.drop r.sent.length
  | none => []

/-- The attached members that a step queues the frame to. -/
def reachedAt (r : Rig) (e : Event) (frame : EitherFrame) : List Nat :=
  ((queuedAt decode lib r e).filter fun q =>
    decide (q.frame = frame) && decide (q.member ∈ r.inner.members)).map Queued.member

/-- A frame that was made up for the channel. -/
structure Synthesized where
  frame : EitherFrame
  /-- Who owned the channel, if that member was attached. -/
  owner : Option Nat
  /-- The members that the frame was queued to. -/
  reached : List Nat

/-- The frame went to the owner and to nobody else. -/
def Synthesized.Right (s : Synthesized) : Prop := s.reached = s.owner.toList

/-- The frames that were made up so far. -/
def synthesizedSoFar (r : Rig) (e : Event) (past : List Synthesized) : List Synthesized :=
  past ++ ((synthesized r e).map fun frame =>
    ⟨frame, r.inner.ownerOf frame, reachedAt decode lib r e frame⟩).toList

/-- The condition: when the reader sends, no member but the owner of the channel is attached. -/
def OnlyOwner (r : Rig) : Event → Prop
  | .translateCall .. => ∀ frame ∈ r.inHand, ∀ m ∈ r.inner.members, r.inner.ownerOf frame = some m
  | _ => True

instance (r : Rig) : DecidablePred (OnlyOwner r) := fun e => by
  rcases e with _ | _ <;> dsimp only [OnlyOwner] <;> infer_instance

variable {decode lib}

theorem ownerOf_attached {i : Inner} {frame : EitherFrame} {m : Nat}
    (h : i.ownerOf frame = some m) : m ∈ i.members := by
  obtain ⟨_, hattached⟩ := Option.filter_eq_some_iff.mp h
  exact of_decide_eq_true hattached

/-- Of a step that queues these frames. -/
theorem reachedAt_of_step {r r' : Rig} {e : Event} {new : List Queued} (frame : EitherFrame)
    (hstep : step decode lib r e = some r') (hsent : r'.sent = r.sent ++ new) :
    reachedAt decode lib r e frame = (new.filter fun q =>
      decide (q.frame = frame) && decide (q.member ∈ r.inner.members)).map Queued.member := by
  simp only [reachedAt, queuedAt, hstep, hsent, List.drop_left]

/-! ## The reader -/

/-- The frame in hand goes to the member that the table yields, if there is one. -/
theorem reachedAt_translateCall {r r' : Rig} {frame : EitherFrame} {member : Nat} {now : Rat}
    (hframe : r.inHand = some frame)
    (hstep : step decode lib r (.translateCall member now) = some r') :
    reachedAt decode lib r (.translateCall member now) frame =
      if member ∈ r.inner.members then [member] else [] := by
  have hcall := hstep
  simp only [step] at hcall
  split at hcall
  · rename_i cid state call calls written htranslator
    split at hcall <;> cases hcall
    have hhand : call = .sendTranslateFrame frame := by
      unfold Rig.inHand at hframe
      rw [htranslator] at hframe
      cases call <;> cases hframe
      rfl
    subst hhand
    rw [reachedAt_of_step frame hstep rfl]
    simp only [sendTranslateFrame, Inner.toMember]
    rw [if_neg (by simp)]
    split
    · rename_i hattached
      simp [hattached]
    · rfl
  · cases hcall

/-- Whatever the order of the iteration, the frame in hand goes to the owner and to nobody else
exactly when no other member is attached. -/
theorem translateCall_right_iff {r : Rig} {frame : EitherFrame} (hframe : r.inHand = some frame) :
    (∀ member now r', step decode lib r (.translateCall member now) = some r' →
      reachedAt decode lib r (.translateCall member now) frame =
        (r.inner.ownerOf frame).toList) ↔
      ∀ m ∈ r.inner.members, r.inner.ownerOf frame = some m := by
  constructor
  · intro hright m hm
    obtain ⟨r', hstep⟩ : ∃ r', step decode lib r (.translateCall m 0) = some r' := by
      unfold Rig.inHand at hframe
      split at hframe
      · rename_i htranslator
        simp only [step, htranslator, hm, implies_true, if_true]
        exact ⟨_, rfl⟩
      · cases hframe
    have hreached := hright m 0 r' hstep
    rw [reachedAt_translateCall hframe hstep, if_pos hm] at hreached
    exact Option.toList_eq_singleton_iff.mp hreached.symm
  · intro honly member now r' hstep
    rw [reachedAt_translateCall hframe hstep]
    split
    · rename_i hattached
      rw [honly member hattached]
      rfl
    · rename_i hdetached
      cases howner : r.inner.ownerOf frame with
      | none => rfl
      | some m =>
        -- the owner is attached, so that the table yields it
        have hm := ownerOf_attached howner
        have hcall := hstep
        simp only [step] at hcall
        split at hcall
        · split at hcall
          · rename_i hyields
            exact absurd (hyields (List.ne_nil_of_mem hm)) hdetached
          · cases hcall
        · cases hcall

/-! ## The swap -/

/-- While the swap that installed a translated upstream re-points its channel, the table holds
the channel, or its owner has left. -/
def RepointsOwner (r : Rig) : Prop :=
  r.inner.translating = true → ∀ s ∈ r.swap.todo,
    (r.inner.channels.map fun c => (c.downChannelId, c.owner)) = [(s.downChannelId, s.member)] ∨
      (r.inner.channels = [] ∧ s.member ∉ r.inner.members)

/-- A re-point frame is for the channel that it re-points. -/
theorem RepointStep.frame_channelId {s : RepointStep} {frame : EitherFrame}
    (h : s.frame = some frame) : frame.channelId? = some s.downChannelId := by
  unfold RepointStep.frame at h
  split at h <;> obtain ⟨_, _, rfl⟩ := Option.map_eq_some_iff.mp h <;> rfl

/-- A re-point frame goes to the owner, which may have left. -/
theorem RepointsOwner.right {r r' : Rig} {frame : EitherFrame} (h : RepointsOwner r)
    (hframe : synthesized r .swapSend = some frame)
    (hstep : step decode lib r .swapSend = some r') :
    reachedAt decode lib r .swapSend frame = (r.inner.ownerOf frame).toList := by
  simp only [synthesized, Option.ite_none_right_eq_some] at hframe
  obtain ⟨htranslating, hframe⟩ := hframe
  cases hswap : r.swap with
  | repointing plan todo abandoned members =>
    cases todo with
    | nil =>
      rw [hswap] at hframe
      cases hframe
    | cons s todo =>
      rw [hswap] at hframe
      have hbuilt : s.frame = some frame := hframe
      have hsent := hstep
      simp only [step, hswap, hbuilt, Option.some.injEq] at hsent
      subst hsent
      rw [reachedAt_of_step frame hstep rfl]
      have howner : r.inner.ownerOf frame =
          if s.member ∈ r.inner.members then some s.member else none := by
        unfold Inner.ownerOf
        rw [RepointStep.frame_channelId hbuilt]
        rcases h htranslating s (by rw [hswap]; exact List.mem_cons_self) with
          hsingle | ⟨hnone, hleft⟩
        · obtain ⟨c, hc, hids⟩ := List.map_eq_singleton_iff.mp hsingle
          obtain ⟨hdown, hmember⟩ := Prod.mk.inj hids
          simp [hc, hdown, hmember, Option.filter]
        · simp [hnone, hleft]
      rw [howner]
      split
      · rename_i hattached
        simp [hattached]
      · rename_i hdetached
        simp [hdetached]
  | idle | connecting | translating =>
    rw [hswap] at hframe
    cases hframe

namespace RepointsOwner

variable {r r' : Rig}

theorem of_todo (h : r.swap.todo = []) : RepointsOwner r := by
  intro _ s hs
  rw [h] at hs
  cases hs

theorem of_native (h : r.inner.translating = false) : RepointsOwner r := by
  intro htranslating
  rw [h] at htranslating
  cases htranslating

/-- On a translated upstream no member comes, and the channels stay what they are. -/
theorem frame (h : RepointsOwner r) (hflag : r'.inner.translating = r.inner.translating)
    (hchannels : r.inner.translating = true → SameChannels r.inner r'.inner)
    (hmembers : r.inner.translating = true → r'.inner.members ⊆ r.inner.members)
    (htodo : r'.swap.todo ⊆ r.swap.todo) : RepointsOwner r' := by
  intro htranslating s hs
  rw [hflag] at htranslating
  have hids := SameChannels.map (hchannels htranslating) (fun c => (c.downChannelId, c.owner))
    fun _ => rfl
  rcases h htranslating s (htodo hs) with hsingle | ⟨hnone, hleft⟩
  · exact Or.inl (hids.trans hsingle)
  · rw [hnone] at hids
    exact Or.inr ⟨List.map_eq_nil_iff.mp hids, fun hm => hleft (hmembers htranslating hm)⟩

theorem detach (h : RepointsOwner r) (member : Nat) :
    RepointsOwner { r with inner := (detachMember member r.inner).1 } := by
  intro htranslating s hs
  rcases h htranslating s hs with hsingle | ⟨hnone, hleft⟩
  · obtain ⟨c, hc, hids⟩ := List.map_eq_singleton_iff.mp hsingle
    obtain ⟨hdown, hmember⟩ := Prod.mk.inj hids
    by_cases howner : s.member = member
    · right
      constructor
      · simp [detachMember, hc, hmember, howner]
      · simp [detachMember, howner]
    · left
      simp [detachMember, hc, hdown, hmember, howner]
  · right
    constructor
    · simp [detachMember, hnone]
    · simp [detachMember, hleft]

/-- The install of a translated pool. -/
theorem swapTranslate (r : Rig) (plan : SwapPlan) (channel : Reopen) (members : List Nat)
    (conn : Sv1UpConn) : RepointsOwner (r.swapTranslate plan channel members conn) := by
  intro _ s hs
  left
  obtain ⟨p, hp, hsteps⟩ := List.mem_flatMap.mp hs
  rw [List.mem_singleton.mp (List.mem_filter.mp hp).1] at hsteps
  simp only [Repoint.steps, List.mem_cons, List.not_mem_nil, or_false] at hsteps
  rcases hsteps with rfl | rfl <;> rfl

theorem step {e : Event} (h : RepointsOwner r) (hok : WriterOk r.inner r.translator)
    (ht : Transition decode lib r e r') : RepointsOwner r' := by
  cases ht with
  | attach hnative =>
    refine of_native ?_
    rw [(forwardOpen_upstream ..).translating]
    exact hnative
  | openChannel hmember =>
    refine h.frame (openChannel_upstream ..).translating (fun _ => ?_) (fun _ => ?_)
      (List.Subset.refl _)
    · exact (openChannel_table ..).channels
    · rw [Rig.queue_inner, (openChannel_members ..).members]
      exact List.Subset.refl _
  | @minerFrame member frame hmember =>
    refine h.frame ?_ (fun _ => ?_) (fun _ => ?_) ?_
    · rw [Rig.submitted_inner, (minerFrame_upstream frame r.inner).translating]
    · rw [Rig.submitted_inner]
      exact (minerFrame_table ..).channels
    · rw [Rig.submitted_inner, (minerFrame_members frame r.inner).members]
      exact List.Subset.refl _
    · rw [(SameTasks.submitted _ _).swap]
      exact List.Subset.refl _
  | detach hmember => exact h.detach _
  | @upstreamFrame g frame now hnative =>
    refine h.frame (onUpstreamFrame_upstream ..).translating (fun htranslating => ?_)
      (fun _ => ?_) (List.Subset.refl _)
    rotate_left
    · rw [Rig.queue_inner, Rig.credit_inner, (onUpstreamFrame_members ..).members]
      exact List.Subset.refl _
    rcases onUpstreamFrame_table decode now g frame r.inner with hsame | ⟨hg, _⟩
    · exact hsame.channels
    · -- a translated upstream has no reader of SV2 frames
      have hflag := hok.flag
      rw [hnative hg, htranslating] at hflag
      cases hflag
  | @translateCall member cid written now state call calls htranslator =>
    let s : Rig := { r with translator := some ⟨cid, state, calls, written⟩ }
    have hcall : SameRig s.inner (s.translateCall call cid member now).inner :=
      translateCall_sameRig s call cid member now
    refine h.frame hcall.upstream.translating (fun _ => hcall.channels) (fun _ => ?_) ?_
    · rw [hcall.members.members]
      exact List.Subset.refl _
    · rw [(translateCall_sameTasks s call cid member now).swap]
      exact List.Subset.refl _
  | swapReopened hswap hlength => exact of_native rfl
  | swapTranslated hswap hconn => exact swapTranslate _ _ _ _ _
  | repoint hswap hframe =>
    refine h.frame rfl (fun _ => rfl) (fun _ => List.Subset.refl _) ?_
    rw [hswap]
    exact List.subset_cons_self _ _
  | swapOrder | swapRevert | swapFailed | swapNotSv2 | repointFailed | notice | swapDone =>
    exact of_todo rfl
  | _ => exact h.frame rfl (fun _ => rfl) (fun _ => List.Subset.refl _) (List.Subset.refl _)

end RepointsOwner

/-! ## The result -/

/-- The invariant of a run whose steps meet the condition. -/
structure SendsRight (r : Rig) (past : List Synthesized) : Prop where
  writer : WriterOk r.inner r.translator
  repoints : RepointsOwner r
  right : ∀ s ∈ past, s.Right

theorem SendsRight.of_start {worker : String} {spec : OpenSpec} {store : OrderStore}
    {idlePool : Option UpstreamTarget} {now : Int} {failed : Option InitialAnswer}
    {answer : InitialAnswer} {r : Rig}
    (h : start lib worker spec store idlePool now failed answer = some r) :
    SendsRight r [] := by
  obtain ⟨_, _, _, _, hconnected⟩ := start_connected h
  obtain ⟨_, _, _, _, _, hstarted⟩ := start_started h
  refine ⟨.of_connected hconnected, .of_todo ?_, fun s hs => nomatch hs⟩
  rw [hstarted.swap]
  rfl

theorem SendsRight.step {r r' : Rig} {past : List Synthesized} {e : Event}
    (h : SendsRight r past) (honly : OnlyOwner r e) (hstep : step decode lib r e = some r') :
    SendsRight r' (synthesizedSoFar decode lib r e past) := by
  have ht := transition_of_step hstep
  refine ⟨h.writer.step (upStep_of_transition ht), h.repoints.step h.writer ht, ?_⟩
  intro s hs
  rcases List.mem_append.mp hs with hold | hnew
  · exact h.right s hold
  · obtain ⟨frame, hframe, rfl⟩ := Option.map_eq_some_iff.mp (Option.mem_toList.mp hnew)
    cases e with
    | translateCall member now =>
      exact (translateCall_right_iff hframe).mpr (honly frame hframe) member now r' hstep
    | swapSend => exact h.repoints.right hframe hstep
    | _ => cases hframe

/-- In every run whose reader sends only while nobody but the owner is attached, every frame that
is made up for the channel reaches its owner and nobody else, and nobody once the owner has left.
In any state, the next frame does so for every order of the iteration exactly when the condition
holds. -/
theorem translated_frames_reach_owner {x : Rig × List Synthesized}
    (h : ReachesWith decode lib (synthesizedSoFar decode lib) (fun _ => [])
      (fun x e => OnlyOwner x.1 e) x) :
    (∀ s ∈ x.2, s.Right) ∧ ∀ frame, x.1.inHand = some frame →
      ((∀ member now r', step decode lib x.1 (.translateCall member now) = some r' →
        reachedAt decode lib x.1 (.translateCall member now) frame =
          (x.1.inner.ownerOf frame).toList) ↔
        ∀ m ∈ x.1.inner.members, x.1.inner.ownerOf frame = some m) := by
  have hinv : SendsRight x.1 x.2 :=
    h.invariant (fun _ _ _ _ _ _ _ _ _ hstart => .of_start hstart)
      fun _ _ _ _ hx honly hstep => hx.step honly hstep
  exact ⟨hinv.right, fun _ hframe => translateCall_right_iff hframe⟩

/-- The SV1 pool of a switch sets a difficulty, and the reader takes the first of the two calls
that it makes of it. -/
def retargeted : List Event :=
  [.swapRevert .supervisor, .swapNotSv2, .swapTranslated sv1Handshake,
    .translateLine (Sv1.setDifficultyLine 2), .translateCall 1 0]

/-- A rig of one member gets its re-point frames and the new target. -/
theorem translated_frames_reach_owner_alone :
    ∃ x, ReachesWith wireDecoder plainLibrary (synthesizedSoFar wireDecoder plainLibrary)
        (fun _ => []) (fun x e => OnlyOwner x.1 e) x ∧
      x.2.length = 3 ∧ ∀ s ∈ x.2, s.Right := by
  obtain ⟨x, hx, hp⟩ := exists_history_of_idleRig
    (synthesizedSoFar wireDecoder plainLibrary) (fun _ => [])
    (G := fun x e => OnlyOwner x.1 e)
    (.upstreamFrame 0 (openedFrame 1 10 0) 0 :: retargeted ++
      [.translateCall 1 0, .swapSend, .swapSend])
    (p := fun x => decide (x.2.length = 3)) (by decide +kernel)
  exact ⟨x, hx, of_decide_eq_true hp, (translated_frames_reach_owner hx).1⟩

/-- The table of a rig with two members yields the second one: it gets the target of the
channel that the first one owns. -/
theorem other_member_gets_frame :
    ∃ x, ReachesWith wireDecoder plainLibrary (synthesizedSoFar wireDecoder plainLibrary)
        (fun _ => []) (fun _ _ => True) x ∧
      ∃ s ∈ x.2, s.owner = some 1 ∧ s.reached = [2] ∧ ¬s.Right := by
  obtain ⟨x, hx, hp⟩ := exists_history_of_idleRig
    (synthesizedSoFar wireDecoder plainLibrary) (fun _ => []) (G := fun _ _ => True)
    ([.upstreamFrame 0 (openedFrame 1 10 0) 0, .attach (extendedOpen 8),
      .upstreamFrame 0 (openedFrame 2 11 0) 0] ++ retargeted ++ [.translateCall 2 0])
    (p := fun x => x.2.any fun s => decide (s.owner = some 1) && decide (s.reached = [2]))
    (by decide +kernel)
  obtain ⟨s, hs, hp⟩ := List.any_eq_true.mp hp
  simp only [Bool.and_eq_true, decide_eq_true_eq] at hp
  refine ⟨x, hx, s, hs, hp.1, hp.2, ?_⟩
  rw [Synthesized.Right, hp.1, hp.2]
  decide

end RentalProxy.Sv2
