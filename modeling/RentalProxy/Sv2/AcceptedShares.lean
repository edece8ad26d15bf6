import RentalProxy.Sv2.Transitions
import RentalProxy.Lib.Tables

/-!
# Accepted and submitted shares of an SV2 rig

A native pool sends the count of the shares it accepts, and the rig adds it.  The
translator of an SV1 pool credits one share for each answer to a share that it has
written (`Rig.owed`).

* `CountsSubmitted` is the condition: a native pool counts no more than what was
  submitted and not yet accepted.
* `Within` is the invariant, `Within.step_iff` the step lemma with the step that
  breaks the condition.
-/

namespace RentalProxy.Sv2

/-! ## Shares on their way -/

/-- A frame of a miner that is a share. -/
def EitherFrame.isShare : EitherFrame → Bool
  | .received frame => decide (frame.msgType = .submitSharesStandard) ||
      decide (frame.msgType = .submitSharesExtended)
  | .built _ => false

/-- The shares that the translator may still credit: calls in hand, shares that the
pool has not answered, and shares that are still to be written. -/
def Rig.owed (r : Rig) : Nat :=
  match r.translator with
  | none => 0
  | some t => t.calls.count .creditTranslate + t.state.submitSeq.entries.length +
      (r.inner.active.toUp.drop t.written).countP EitherFrame.isShare

/-- The shares that a frame of a native pool is credited with. -/
def frameShares (decode : Decoder) (g : Nat) (frame : Sv2Frame) (i : Inner) : Nat :=
  if g = i.active.generation ∧ frame.msgType = .submitSharesSuccess then
    match readChannelId frame with
    | some upCid =>
      let count := (parseAcceptedCount decode frame).getD 0
      if 0 < i.difficultyOf (fun c => decide (c.upChannelId = upCid)) * count then count else 0
    | none => 0
  else 0

/-- A native pool counts no more shares than are left. -/
def CountsSubmitted (decode : Decoder) (r : Rig) : Event → Prop
  | .upstreamFrame g frame _ =>
    r.inner.acceptedShares + frameShares decode g frame r.inner ≤ r.inner.submittedShares
  | _ => True

/-- What is accepted, or may be credited by the translator, was submitted. -/
def Within (r : Rig) : Prop := r.inner.acceptedShares + r.owed ≤ r.inner.submittedShares

/-- The counters are the same. -/
structure SameShares (i i' : Inner) : Prop where
  accepted : i'.acceptedShares = i.acceptedShares
  submitted : i'.submittedShares = i.submittedShares

theorem Within.accepted_le {r : Rig} (h : Within r) :
    r.inner.acceptedShares ≤ r.inner.submittedShares :=
  (Nat.le_add_right _ _).trans h

theorem Within.of_owed_le {r r' : Rig} (h : Within r) (hsame : SameShares r.inner r'.inner)
    (howed : r'.owed ≤ r.owed) : Within r' := by
  unfold Within at *
  rw [hsame.accepted, hsame.submitted]
  omega

/-- Frames that are no shares owe nothing. -/
theorem countP_drop_append {xs ys : List EitherFrame} (n : Nat) :
    ((xs ++ ys).drop n).countP EitherFrame.isShare ≤
      (xs.drop n).countP EitherFrame.isShare + ys.countP EitherFrame.isShare := by
  rw [List.drop_append, List.countP_append]
  have hdrop := (List.drop_sublist (n - xs.length) ys).countP_le (p := EitherFrame.isShare)
  omega

/-- More frames for the pool. -/
theorem owed_append {r r' : Rig} (htranslator : r'.translator = r.translator)
    {new : List EitherFrame} (htoUp : r'.inner.active.toUp = r.inner.active.toUp ++ new) :
    r'.owed ≤ r.owed + new.countP EitherFrame.isShare := by
  unfold Rig.owed
  rw [htranslator, htoUp]
  split
  · omega
  · rename_i t _
    have hdrop := @countP_drop_append r.inner.active.toUp new t.written
    omega

theorem owed_same {r r' : Rig} (htranslator : r'.translator = r.translator)
    (htoUp : r'.inner.active.toUp = r.inner.active.toUp) : r'.owed ≤ r.owed := by
  unfold Rig.owed
  rw [htranslator, htoUp]

/-! ## Operations -/

theorem forwardOpen_shares (member : Nat) (spec : OpenSpec) (i : Inner) :
    SameShares i (forwardOpen member spec i) ∧
      ∃ new, (forwardOpen member spec i).active.toUp = i.active.toUp ++ new ∧
        new.countP EitherFrame.isShare = 0 := by
  unfold forwardOpen
  dsimp only
  split
  · rename_i frame hbuilt
    refine ⟨⟨rfl, rfl⟩, [frame], rfl, ?_⟩
    obtain ⟨_, _, hspec⟩ := Option.bind_eq_some_iff.mp hbuilt
    cases spec <;> obtain ⟨_, _, heq⟩ := Option.bind_eq_some_iff.mp hspec <;> cases heq <;> rfl
  · exact ⟨⟨rfl, rfl⟩, [], (List.append_nil _).symm, rfl⟩

theorem openChannel_shares (member : Nat) (spec : OpenSpec) (i : Inner) :
    SameShares i (openChannel member spec i).1 ∧
      ∃ new, (openChannel member spec i).1.active.toUp = i.active.toUp ++ new ∧
        new.countP EitherFrame.isShare = 0 := by
  unfold openChannel
  split
  · exact ⟨⟨rfl, rfl⟩, [], (List.append_nil _).symm, rfl⟩
  · exact forwardOpen_shares ..

/-- A frame of a miner that is forwarded is counted when it is a share. -/
theorem minerFrame_shares (frame : Sv2Frame) (i : Inner) :
    (minerFrame frame i).1.acceptedShares = i.acceptedShares ∧
      ∃ new, (minerFrame frame i).1.active.toUp = i.active.toUp ++ new ∧
        (minerFrame frame i).1.submittedShares =
          i.submittedShares + new.countP EitherFrame.isShare := by
  unfold minerFrame
  split
  · exact ⟨rfl, [], (List.append_nil _).symm, rfl⟩
  · split
    · exact ⟨rfl, [], (List.append_nil _).symm, rfl⟩
    · refine ⟨rfl, _, rfl, ?_⟩
      simp only [List.countP_singleton, EitherFrame.isShare, rewriteChannelId_msgType]
      rfl

theorem detachMember_shares (member : Nat) (i : Inner) :
    SameShares i (detachMember member i).1 ∧
      ∃ new, (detachMember member i).1.active.toUp = i.active.toUp ++ new ∧
        new.countP EitherFrame.isShare = 0 := by
  refine ⟨⟨rfl, rfl⟩, _, rfl, ?_⟩
  refine List.countP_eq_zero.mpr fun frame hframe => ?_
  split at hframe
  · cases hframe
  · obtain ⟨c, _, hbuilt⟩ := List.mem_filterMap.mp hframe
    obtain ⟨_, _, rfl⟩ := Option.map_eq_some_iff.mp hbuilt
    exact Bool.false_ne_true

theorem creditAccepted_shares (i : Inner) (now work : Rat) (count : Nat) :
    (i.creditAccepted now work count).1.acceptedShares =
        i.acceptedShares + (if 0 < work then count else 0) ∧
      (i.creditAccepted now work count).1.submittedShares = i.submittedShares ∧
      (i.creditAccepted now work count).1.active = i.active := by
  have hflag : ∀ j : Inner, j.flagLowRatio.acceptedShares = j.acceptedShares ∧
      j.flagLowRatio.submittedShares = j.submittedShares ∧ j.flagLowRatio.active = j.active := by
    intro j
    obtain ⟨flag, hflag⟩ := flagLowRatio_cases j
    rw [hflag]
    exact ⟨rfl, rfl, rfl⟩
  unfold Inner.creditAccepted
  split
  · exact hflag _
  · exact hflag i

theorem translateCall_active (r : Rig) (call : SessionCall) (cid member : Nat) (now : Rat) :
    (r.translateCall call cid member now).inner.active = r.inner.active := by
  cases call with
  | sendTranslateFrame frame => rfl
  | setTranslateDiff diff =>
    simp only [Rig.translateCall, setTranslateDiff]
    split <;> rfl
  | creditTranslate =>
    simp only [Rig.translateCall, creditTranslate]
    split
    · rfl
    · exact (creditAccepted_shares ..).2.2

theorem finalizeOpen_shares (decode : Decoder) (frame : Sv2Frame) (i : Inner) :
    SameShares i (finalizeOpen decode frame i).1 ∧
      (finalizeOpen decode frame i).1.active = i.active := by
  have hmap : ∀ (j : Inner) (up : Nat) (extended : Bool),
      SameShares j (j.mapGroup up extended).1 ∧ (j.mapGroup up extended).1.active = j.active := by
    intro j up extended
    unfold Inner.mapGroup
    split
    · exact ⟨⟨rfl, rfl⟩, rfl⟩
    · split <;> exact ⟨⟨rfl, rfl⟩, rfl⟩
  unfold finalizeOpen
  split
  · exact ⟨⟨rfl, rfl⟩, rfl⟩
  · split
    · exact ⟨⟨rfl, rfl⟩, rfl⟩
    · rename_i info _ _ member spec _
      obtain ⟨hsame, hactive⟩ := hmap { i with
        pending := i.pending.erase info.requestId, nextDownCid := i.nextDownCid + 1 }
        info.groupChannelId spec.isExtended
      exact ⟨⟨hsame.accepted, hsame.submitted⟩, hactive⟩

theorem retarget_shares (decode : Decoder) (frame : Sv2Frame) (upCid : Nat) (i : Inner) :
    SameShares i (retarget decode frame upCid i) ∧
      (retarget decode frame upCid i).active = i.active := by
  unfold retarget
  split
  · split <;> exact ⟨⟨rfl, rfl⟩, rfl⟩
  · exact ⟨⟨rfl, rfl⟩, rfl⟩

/-- What a frame of the pool does to the counters. -/
theorem onUpstreamFrame_shares (decode : Decoder) (now : Rat) (g : Nat) (frame : Sv2Frame)
    (i : Inner) :
    (onUpstreamFrame decode now g frame i).1.acceptedShares =
        i.acceptedShares + frameShares decode g frame i ∧
      (onUpstreamFrame decode now g frame i).1.submittedShares = i.submittedShares ∧
      (onUpstreamFrame decode now g frame i).1.active.toUp = i.active.toUp := by
  -- a frame that is no answer to a share
  have hother : ∀ j : Inner, ¬(g = i.active.generation ∧ frame.msgType = .submitSharesSuccess) →
      SameShares i j → j.active = i.active →
      j.acceptedShares = i.acceptedShares + frameShares decode g frame i ∧
        j.submittedShares = i.submittedShares ∧ j.active.toUp = i.active.toUp := by
    intro j hno hsame hactive
    rw [frameShares, if_neg hno, hactive, Nat.add_zero]
    exact ⟨hsame.accepted, hsame.submitted, rfl⟩
  unfold onUpstreamFrame
  split_ifs with hstale hopen herror hscoped
  · exact hother i (fun hg => hstale hg.1) ⟨rfl, rfl⟩ rfl
  · obtain ⟨hsame, hactive⟩ := finalizeOpen_shares decode frame i
    refine hother _ ?_ hsame hactive
    rintro ⟨_, htype⟩
    rw [htype] at hopen
    rcases hopen with hopen | hopen <;> cases hopen
  · obtain ⟨p, hp⟩ := rejectOpen_inner decode frame i
    refine hother _ ?_ ?_ ?_
    · rintro ⟨_, htype⟩
      rw [htype] at herror
      cases herror
    · simp only [hp]
      exact ⟨rfl, rfl⟩
    · simp only [hp]
  · refine hother i ?_ ⟨rfl, rfl⟩ rfl
    rintro ⟨_, htype⟩
    rw [htype] at hscoped
    cases hscoped
  · have hg := not_not.mp hstale
    cases hid : readChannelId frame with
    | none =>
      rw [frameShares]
      simp only [hid]
      exact ⟨by split <;> rfl, trivial, trivial⟩
    | some upCid =>
      obtain ⟨hsame, hactive⟩ := retarget_shares decode frame upCid i
      by_cases hsuccess : frame.msgType = .submitSharesSuccess
      · have hretarget : retarget decode frame upCid i = i := by
          rw [retarget, if_neg (by simp [hsuccess])]
        obtain ⟨haccepted, hsubmitted, hsent⟩ := creditAccepted_shares i now
          (i.difficultyOf (fun c => decide (c.upChannelId = upCid)) *
            ((parseAcceptedCount decode frame).getD 0 : Nat))
          ((parseAcceptedCount decode frame).getD 0)
        rw [frameShares, if_pos ⟨hg, hsuccess⟩]
        simp only [hid, hretarget, creditFrame, if_pos hsuccess]
        exact ⟨haccepted, hsubmitted, congrArg ActiveUpstream.toUp hsent⟩
      · have hnone : creditFrame decode now frame upCid (retarget decode frame upCid i) =
            (retarget decode frame upCid i, none) := if_neg hsuccess
        simp only [hnone]
        exact hother _ (fun hboth => hsuccess hboth.2) hsame hactive

/-! ## The translator -/

/-- An answer is owed for a share that was written. -/
theorem handleSv1Line_owed (lib : Sv1Library) (cid : Nat) (line : RpcMessage) (s : Sv1UpState) :
    (handleSv1Line lib cid line s).2.count .creditTranslate +
        (handleSv1Line lib cid line s).1.submitSeq.entries.length ≤
      s.submitSeq.entries.length := by
  have hnone : ∀ calls : List SessionCall, .creditTranslate ∉ calls →
      calls.count .creditTranslate + s.submitSeq.entries.length ≤ s.submitSeq.entries.length := by
    intro calls hcalls
    rw [List.count_eq_zero.mpr hcalls, Nat.zero_add]
  unfold handleSv1Line
  split
  · refine hnone _ ?_
    unfold translateNotify
    dsimp only
    split <;> simp
  · split
    · exact hnone _ (by simp)
    · split
      · exact hnone [] List.not_mem_nil
      · unfold translateResponse
        split
        · exact hnone [] List.not_mem_nil
        · split
          · exact hnone [] List.not_mem_nil
          · rename_i id _ _ seq hseq
            have hone := KeyedTable.countP_erase hseq fun _ => true
            simp only [List.countP_true, if_true] at hone
            dsimp only
            split
            · simp only [List.count_cons_self, List.count_singleton, beq_iff_eq, reduceCtorEq,
                if_false]
              omega
            · simp only [List.count_singleton, beq_iff_eq, reduceCtorEq, if_false]
              omega

/-- A frame is owed an answer when it is written, if it is a share. -/
theorem translateSubmit_owed {decode : Decoder} (htagged : decode.Tagged) (frame : Sv2Frame)
    (s : Sv1UpState) :
    (translateSubmit decode frame s).1.submitSeq.entries.length ≤ s.submitSeq.entries.length +
      if (EitherFrame.received frame).isShare = true then 1 else 0 := by
  unfold translateSubmit
  split
  · exact Nat.le_add_right _ _
  · rename_i share hshare
    have hframe : (EitherFrame.received frame).isShare = true := by
      unfold shareOf at hshare
      split at hshare <;> cases hshare
      rename_i hdecoded
      simpa [EitherFrame.isShare] using htagged _ _ _ hdecoded
    rw [if_pos hframe]
    split
    · exact Nat.le_succ _
    · split
      · exact Nat.le_succ _
      · have hshorter := (List.kerase_sublist s.nextSubmitId s.submitSeq.entries).length_le
        simp only [AList.entries_insert, List.length_cons]
        omega

/-! ## Steps -/

namespace Within

variable {lib : Sv1Library} {r r' : Rig}

theorem of_untranslated (hle : r.inner.acceptedShares ≤ r.inner.submittedShares)
    (htranslator : r.translator = none) : Within r := by
  unfold Within Rig.owed
  rw [htranslator]
  exact hle

theorem start {worker : String} {spec : OpenSpec} {store : OrderStore}
    {idlePool : Option UpstreamTarget} {now : Int} {failed : Option InitialAnswer}
    {answer : InitialAnswer}
    (h : start lib worker spec store idlePool now failed answer = some r) : Within r := by
  obtain ⟨_, _, _, _, _, hinstall⟩ := start_firstInstall h
  cases hinstall with
  | native => exact of_untranslated le_rfl rfl
  | sv1 => exact le_rfl

/-- The reader of a translated pool spends what is owed on what it credits. -/
theorem translateCall (h : Within r) {cid written member : Nat} {state : Sv1UpState}
    {call : SessionCall} {calls : List SessionCall} (now : Rat)
    (htranslator : r.translator = some ⟨cid, state, call :: calls, written⟩) :
    Within ({ r with translator := some ⟨cid, state, calls, written⟩ }.translateCall
      call cid member now) := by
  unfold Within Rig.owed at h
  rw [htranslator] at h
  cases call with
  | sendTranslateFrame frame =>
    simp only [List.count_cons, beq_iff_eq, reduceCtorEq, if_false] at h
    exact h
  | setTranslateDiff diff =>
    simp only [List.count_cons, beq_iff_eq, reduceCtorEq, if_false] at h
    have hsame : (setTranslateDiff r.inner.active.generation cid diff r.inner).active =
          r.inner.active ∧ SameShares r.inner
          (setTranslateDiff r.inner.active.generation cid diff r.inner) := by
      unfold setTranslateDiff
      split <;> exact ⟨rfl, rfl, rfl⟩
    unfold Within Rig.owed
    simp only [Rig.translateCall, hsame.1, hsame.2.accepted, hsame.2.submitted]
    exact h
  | creditTranslate =>
    simp only [List.count_cons_self] at h
    obtain ⟨haccepted, hsubmitted, hactive⟩ := creditAccepted_shares r.inner now
      (r.inner.difficultyOf fun c => decide (c.downChannelId = cid)) 1
    unfold Within Rig.owed
    simp only [Rig.translateCall, creditTranslate, ne_eq, not_true_eq_false, if_false,
      Rig.credit, haccepted, hsubmitted, hactive]
    split <;> omega

/-- The writer turns a frame on its way into a share that the pool has to answer. -/
theorem translateWrite {decode : Decoder} (htagged : decode.Tagged) (h : Within r)
    {cid written : Nat} {state : Sv1UpState} {calls : List SessionCall} {frame : Sv2Frame}
    (htranslator : r.translator = some ⟨cid, state, calls, written⟩)
    (hframe : r.inner.active.toUp[written]? = some (.received frame)) :
    Within { r with
      translator := some ⟨cid, (translateSubmit decode frame state).1, calls, written + 1⟩ } := by
  have hsubmit := translateSubmit_owed htagged frame state
  obtain ⟨hlt, hget⟩ := List.getElem?_eq_some_iff.mp hframe
  unfold Within Rig.owed at h ⊢
  rw [htranslator] at h
  dsimp only at h ⊢
  rw [List.drop_eq_getElem_cons hlt, hget, List.countP_cons] at h
  omega

/-- A step that is no frame of a native pool. -/
theorem step_of_not_upstream {decode : Decoder} (htagged : decode.Tagged) {e : Event}
    (he : ∀ g frame now, e ≠ .upstreamFrame g frame now) (h : Within r)
    (hstep : step decode lib r e = some r') : Within r' := by
  have hle := h.accepted_le
  cases transition_of_step hstep with
  | attach =>
    obtain ⟨hsame, new, hnew, hnone⟩ :=
      forwardOpen_shares r.inner.nextMemberId _ r.inner.addMember.1
    refine h.of_owed_le ⟨hsame.accepted, hsame.submitted⟩ ?_
    have howed := @owed_append r ({ r with
      inner := forwardOpen r.inner.nextMemberId _ r.inner.addMember.1 }) rfl new hnew
    rwa [hnone] at howed
  | @openChannel member spec =>
    obtain ⟨hsame, new, hnew, hnone⟩ := openChannel_shares member spec r.inner
    refine h.of_owed_le ⟨hsame.accepted, hsame.submitted⟩ ?_
    have howed := @owed_append r (({ r with
      inner := (Sv2.openChannel member spec r.inner).1 }.queue .reply
      (Sv2.openChannel member spec r.inner).2)) rfl new hnew
    rwa [hnone] at howed
  | @minerFrame member frame =>
    obtain ⟨haccepted, new, hnew, hsubmitted⟩ := minerFrame_shares frame r.inner
    have howed := @owed_append r (({ r with
      inner := (Sv2.minerFrame frame r.inner).1 }.submitted (Sv2.minerFrame frame r.inner).2))
      (SameTasks.submitted ..).translator new (by rw [Rig.submitted_inner]; exact hnew)
    unfold Within at h ⊢
    rw [Rig.submitted_inner]
    dsimp only
    rw [haccepted, hsubmitted]
    omega
  | @detach member =>
    obtain ⟨hsame, new, hnew, hnone⟩ := detachMember_shares member r.inner
    refine h.of_owed_le ⟨hsame.accepted, hsame.submitted⟩ ?_
    have howed := @owed_append r ({ r with
      inner := (detachMember member r.inner).1 }) rfl new hnew
    rwa [hnone] at howed
  | upstreamFrame => exact absurd rfl (he _ _ _)
  | @translateLine line cid written state htranslator =>
    refine h.of_owed_le ⟨rfl, rfl⟩ ?_
    have hline := handleSv1Line_owed lib cid line state
    unfold Rig.owed
    rw [htranslator]
    simp only [List.count_nil]
    omega
  | translateCall htranslator => exact h.translateCall _ htranslator
  | translateWrite =>
    simp only [Sv2.step] at hstep
    split at hstep
    · rename_i htranslator
      split at hstep
      · rw [← Option.some.inj hstep]
        exact h.translateWrite htagged htranslator ‹_›
      · cases hstep
    · cases hstep
  | swapReopened => exact of_untranslated hle rfl
  | swapTranslated =>
    unfold Within Rig.owed
    exact hle
  | _ => exact h

/-- The step lemma. -/
theorem step_iff {decode : Decoder} (htagged : decode.Tagged) {e : Event} (h : Within r)
    (hstep : step decode lib r e = some r') :
    (r'.inner.acceptedShares ≤ r'.inner.submittedShares ↔ CountsSubmitted decode r e) ∧
      (CountsSubmitted decode r e → Within r') := by
  by_cases he : ∃ g frame now, e = .upstreamFrame g frame now
  · obtain ⟨g, frame, now, rfl⟩ := he
    simp only [Sv2.step] at hstep
    split at hstep <;> cases hstep
    rename_i hnative
    obtain ⟨haccepted, hsubmitted, hsent⟩ := onUpstreamFrame_shares decode now g frame r.inner
    simp only [Rig.queue_inner, Rig.credit_inner, haccepted, hsubmitted, CountsSubmitted,
      true_and]
    intro hguard
    by_cases hg : g = r.inner.active.generation
    · exact of_untranslated (by simpa [haccepted, hsubmitted] using hguard) (hnative hg)
    · have hzero : frameShares decode g frame r.inner = 0 := if_neg fun hboth => hg hboth.1
      rw [hzero] at haccepted
      exact h.of_owed_le ⟨haccepted, hsubmitted⟩ (owed_same rfl hsent)
  · have hother : ∀ g frame now, e ≠ .upstreamFrame g frame now :=
      fun g frame now heq => he ⟨g, frame, now, heq⟩
    have hkept := h.step_of_not_upstream htagged hother hstep
    have hguard : CountsSubmitted decode r e := by
      cases e with
      | upstreamFrame g frame now => exact absurd rfl (hother g frame now)
      | _ => trivial
    exact ⟨iff_of_true hkept.accepted_le hguard, fun _ => hkept⟩

end Within

end RentalProxy.Sv2
