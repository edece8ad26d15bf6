import RentalProxy.Registration
import RentalProxy.Sv1.Transitions
import RentalProxy.Sv2.Transitions

/-!
# What sessions do between the steps of their handlers

The tasks of a session move its state while its handler stands still.  A task of the SV1 relay
leaves the label alone, unless the miner authorizes; one of the SV2 relay leaves label and members
alone, unless a member joins or leaves.  So each of their steps is a `traffic` step of the
registration.
-/

namespace RentalProxy

namespace Sv1

theorem installRaw_label (raw : RawUpstream) (g : Nat) (target : UpstreamTarget)
    (routing : Routing) (i : Inner) : (installRaw raw g target routing i).1.label = i.label := by
  cases raw <;> rfl

theorem onMinerMsg_label (msg : RpcMessage) (i : Inner) : (onMinerMsg msg i).1.label = i.label := by
  unfold onMinerMsg
  split_ifs <;> rfl

/-- Only an authorize sets the label. -/
theorem label_of_step {r r' : Relay} {e : Event} (h : step r e = some r')
    (hother : ∀ worker id, e ≠ .minerAuthorize worker id) : r'.inner.label = r.inner.label := by
  cases e with
  | minerAuthorize worker id => exact absurd rfl (hother worker id)
  | minerMsg msg =>
    simp only [step] at h
    split at h <;> cases h
    exact onMinerMsg_label msg r.inner
  | swapConnect answer =>
    simp only [step] at h
    split at h
    · split at h <;> cases h
      · rfl
      · exact installRaw_label ..
    · cases h
  | upstreamLine g msg now =>
    simp only [step] at h
    split at h <;> cases h
    exact (onUpstreamMsg_same ..).fields.2.2.2.1
  | translateCredit g count now =>
    simp only [step] at h
    split at h <;> cases h
    exact (creditTranslateAccepted_same ..).fields.2.2.2.1
  | translateDifficulty g diff =>
    simp only [step] at h
    split at h <;> cases h
    exact (setTranslateDifficulty_same ..).fields.2.2.2.1
  | translateLine g msg =>
    simp only [step] at h
    split at h <;> cases h
    unfold sendOrStash
    split_ifs <;> rfl
  | minerConfigure msg =>
    simp only [step] at h
    split at h
    · split at h <;> cases h
      rfl
    · cases h
  | attachOrder | setDefault =>
    cases h
    rfl
  | _ =>
    simp only [step] at h
    split at h <;> cases h <;> rfl

end Sv1

namespace Sv2

variable {decode : Decoder} {lib : Sv1Library}

theorem forwardOpen_label (member : Nat) (spec : OpenSpec) (i : Inner) :
    (forwardOpen member spec i).label = i.label := by
  unfold forwardOpen
  dsimp only
  split <;> rfl

theorem flagLowRatio_label (i : Inner) : i.flagLowRatio.label = i.label := by
  obtain ⟨flag, hflag⟩ := flagLowRatio_cases i
  rw [hflag]

theorem creditAccepted_label (i : Inner) (now work : Rat) (count : Nat) :
    (i.creditAccepted now work count).1.label = i.label := by
  unfold Inner.creditAccepted
  split <;> exact flagLowRatio_label _

theorem finalizeOpen_label (frame : Sv2Frame) (i : Inner) :
    (finalizeOpen decode frame i).1.label = i.label := by
  unfold finalizeOpen
  split
  · rfl
  · split
    · rfl
    · dsimp only [Inner.mapGroup]
      split
      · rfl
      · split <;> rfl

theorem onUpstreamFrame_label (now : Rat) (g : Nat) (frame : Sv2Frame) (i : Inner) :
    (onUpstreamFrame decode now g frame i).1.label = i.label := by
  rcases onUpstreamFrame_cases decode now g frame i with
    h | ⟨_, h⟩ | ⟨_, _, h⟩ | ⟨upCid, _, _, h⟩ <;> rw [h]
  · exact finalizeOpen_label frame i
  · obtain ⟨p, hp⟩ := rejectOpen_inner decode frame i
    rw [hp]
  · have hretarget : (retarget decode frame upCid i).label = i.label := by
      unfold retarget
      split
      · split <;> rfl
      · rfl
    rw [← hretarget, creditFrame]
    split
    · exact creditAccepted_label ..
    · rfl

theorem translateCall_label (r : Rig) (call : SessionCall) (cid member : Nat) (now : Rat) :
    (r.translateCall call cid member now).inner.label = r.inner.label := by
  cases call with
  | sendTranslateFrame frame => rfl
  | setTranslateDiff diff =>
    simp only [Rig.translateCall, setTranslateDiff]
    split <;> rfl
  | creditTranslate =>
    simp only [Rig.translateCall, Rig.credit_inner, creditTranslate]
    split
    · rfl
    · exact creditAccepted_label ..

/-- Nothing sets the label of a session. -/
theorem label_of_transition {r r' : Rig} {e : Event} (ht : Transition decode lib r e r') :
    r'.inner.label = r.inner.label := by
  cases ht with
  | attach => exact forwardOpen_label ..
  | @openChannel member spec hmember =>
    rw [Rig.queue_inner]
    unfold openChannel
    split
    · rfl
    · exact forwardOpen_label ..
  | @minerFrame member frame hmember =>
    rw [Rig.submitted_inner]
    rcases minerFrame_cases frame r.inner with h | ⟨n, up, h⟩ <;> rw [h]
    rfl
  | upstreamFrame => exact onUpstreamFrame_label ..
  | @translateCall member cid written now state call calls htranslator =>
    exact translateCall_label { r with translator := some ⟨cid, state, calls, written⟩ } call cid
      member now
  | _ => rfl

/-- Only a miner that joins or leaves changes the members. -/
theorem sameMembers_of_transition {r r' : Rig} {e : Event} (ht : Transition decode lib r e r')
    (hattach : ∀ spec, e ≠ .attach spec) (hdetach : ∀ member, e ≠ .detach member) :
    SameMembers r.inner r'.inner := by
  cases ht with
  | attach => exact absurd rfl (hattach _)
  | detach => exact absurd rfl (hdetach _)
  | openChannel hmember => exact openChannel_members ..
  | @minerFrame member frame hmember =>
    rw [Rig.submitted_inner]
    exact minerFrame_members frame r.inner
  | upstreamFrame => exact onUpstreamFrame_members ..
  | @translateCall member cid written now state call calls htranslator =>
    exact (translateCall_sameRig { r with translator := some ⟨cid, state, calls, written⟩ } call cid
      member now).members
  | _ => exact ⟨rfl, rfl⟩

end Sv2

namespace Registration

namespace State

variable {s : State} {c : Nat}

/-- A step of the SV1 relay that is no authorize. -/
theorem traffic_of_sv1_step {r r' : Sv1.Relay} {e : Sv1.Event}
    (hsession : s.session c = some (.sv1 r.inner)) (h : Sv1.step r e = some r')
    (hother : ∀ worker id, e ≠ .minerAuthorize worker id) :
    s.step (.traffic c (.sv1 r'.inner)) = some (s.put c (.sv1 r'.inner)) := by
  simp only [step, hsession]
  exact if_pos ⟨rfl, Sv1.label_of_step h hother, rfl, rfl⟩

/-- A step of the SV2 relay in which nobody joins or leaves. -/
theorem traffic_of_sv2_step {decode : Sv2.Decoder} {lib : Sv2.Sv1Library} {r r' : Sv2.Rig}
    {e : Sv2.Event} (hsession : s.session c = some (.sv2 r.inner))
    (h : Sv2.step decode lib r e = some r') (hattach : ∀ spec, e ≠ .attach spec)
    (hdetach : ∀ member, e ≠ .detach member) :
    s.step (.traffic c (.sv2 r'.inner)) = some (s.put c (.sv2 r'.inner)) := by
  have ht := Sv2.transition_of_step h
  have hmembers := Sv2.sameMembers_of_transition ht hattach hdetach
  simp only [step, hsession]
  exact if_pos ⟨rfl, Sv2.label_of_transition ht, hmembers.members, hmembers.nextMemberId⟩

end State

end Registration

end RentalProxy
