import RentalProxy.Sv2.Transitions

/-!
# What a rig is credited with

`step_work` says what a step of a rig adds to `deliveredWork` and to the orders,
and that only an accepted share adds anything.  Both crediting paths of a rig
drop work that is not positive, so `step_workKept` needs no condition.
-/

namespace RentalProxy.Sv2

open StepSystem

variable (decode : Decoder)

/-- The part of the work that both crediting paths count. -/
def counted (work : Rat) : Rat := if 0 < work then work else 0

/-- The work that a frame of the pool of generation `g` adds. -/
def frameWork (g : Nat) (frame : Sv2Frame) (i : Inner) : Rat :=
  if g = i.active.generation ∧ frame.msgType = .submitSharesSuccess then
    match readChannelId frame with
    | some upCid => counted (i.difficultyOf (fun c => decide (c.upChannelId = upCid)) *
        ((parseAcceptedCount decode frame).getD 0 : Nat))
    | none => 0
  else 0

/-- The work that a call of the translating reader adds. -/
def callWork (call : SessionCall) (downCid : Nat) (i : Inner) : Rat :=
  match call with
  | .creditTranslate => counted (i.difficultyOf fun c => decide (c.downChannelId = downCid))
  | .sendTranslateFrame _ | .setTranslateDiff _ => 0

/-- The work one event adds to the rig. -/
def eventWork (r : Rig) : Event → Rat
  | .upstreamFrame g frame _ => frameWork decode g frame r.inner
  | .translateCall _ _ =>
    match r.translator with
    | some ⟨downCid, _, call :: _, _⟩ => callWork call downCid r.inner
    | _ => 0
  | _ => 0

/-- The credit for the order goes with the work of the rig. -/
def Inner.creditOf (i : Inner) (work : Rat) (o : String) : Rat :=
  if i.routing.orderId? = some o then work else 0

variable {decode}

theorem counted_nonneg (work : Rat) : 0 ≤ counted work := by
  unfold counted
  split
  · exact le_of_lt ‹_›
  · exact le_rfl

/-- Work that is not negative is counted in full. -/
theorem counted_of_nonneg {work : Rat} (h : 0 ≤ work) : counted work = work := by
  unfold counted
  split
  · rfl
  · exact le_antisymm h (not_lt.mp ‹_›)

@[simp] theorem Inner.creditOf_zero (i : Inner) (o : String) : i.creditOf 0 o = 0 := by
  simp [creditOf]

theorem eventWork_nonneg (r : Rig) (e : Event) : 0 ≤ eventWork decode r e := by
  cases e with
  | upstreamFrame g frame now =>
    simp only [eventWork, frameWork]
    split
    · split
      · exact counted_nonneg _
      · exact le_rfl
    · exact le_rfl
  | translateCall member now =>
    simp only [eventWork]
    split
    · unfold callWork
      split
      · exact counted_nonneg _
      · exact le_rfl
      · exact le_rfl
    · exact le_rfl
  | _ => exact le_rfl

/-! ## The work of one step -/

theorem flagLowRatio_deliveredWork (i : Inner) :
    i.flagLowRatio.deliveredWork = i.deliveredWork := by
  obtain ⟨flag, h⟩ := flagLowRatio_cases i
  rw [h]

/-- What the accounting of accepted shares adds. -/
theorem creditAccepted_work (i : Inner) (now work : Rat) (count : Nat) (b : WorkBuffer)
    (o : String) :
    (i.creditAccepted now work count).1.deliveredWork = i.deliveredWork + counted work ∧
      ((b.credit (i.creditAccepted now work count).2).delta o).work =
        (b.delta o).work + i.creditOf (counted work) o := by
  unfold Inner.creditAccepted counted
  split
  · refine ⟨flagLowRatio_deliveredWork _, ?_⟩
    cases hrouting : i.routing with
    | idle => simp [Inner.creditOf, hrouting]
    | rented id => simp [Inner.creditOf, hrouting, WorkBuffer.work_addWork, eq_comm]
  · simp [flagLowRatio_deliveredWork]

theorem finalizeOpen_deliveredWork (frame : Sv2Frame) (i : Inner) :
    (finalizeOpen decode frame i).1.deliveredWork = i.deliveredWork := by
  have hgroup : ∀ (j : Inner) (up : Nat) (extended : Bool),
      (j.mapGroup up extended).1.deliveredWork = j.deliveredWork := by
    intro j up extended
    unfold Inner.mapGroup
    split
    · rfl
    · split <;> rfl
  unfold finalizeOpen
  split
  · rfl
  · split
    · rfl
    · exact hgroup ..

/-- Outside of a SetTarget frame the difficulties stay. -/
theorem retarget_other {frame : Sv2Frame} (h : frame.msgType ≠ .setTarget) (upCid : Nat)
    (i : Inner) : retarget decode frame upCid i = i := if_neg h

theorem retarget_deliveredWork (frame : Sv2Frame) (upCid : Nat) (i : Inner) :
    (retarget decode frame upCid i).deliveredWork = i.deliveredWork := by
  unfold retarget
  split
  · split <;> rfl
  · rfl

/-- What a frame of a native pool adds. -/
theorem onUpstreamFrame_work (now : Rat) (g : Nat) (frame : Sv2Frame) (i : Inner) (b : WorkBuffer)
    (o : String) :
    (onUpstreamFrame decode now g frame i).1.deliveredWork =
        i.deliveredWork + frameWork decode g frame i ∧
      ((b.credit (onUpstreamFrame decode now g frame i).2.1).delta o).work =
        (b.delta o).work + i.creditOf (frameWork decode g frame i) o := by
  unfold onUpstreamFrame
  by_cases hg : g = i.active.generation
  · by_cases hacc : frame.msgType = .submitSharesSuccess
    · simp only [hg, hacc, ne_eq, not_true, if_false, reduceCtorEq, or_self, isChannelScoped,
        Bool.not_true, Bool.false_eq_true]
      cases hid : readChannelId frame with
      | none => simp [frameWork, hid]
      | some upCid =>
        have hcredit := creditAccepted_work i now
          (i.difficultyOf (fun c => decide (c.upChannelId = upCid)) *
            ((parseAcceptedCount decode frame).getD 0 : Nat))
          ((parseAcceptedCount decode frame).getD 0) b o
        have hretarget : retarget decode frame upCid i = i :=
          retarget_other (by rw [hacc]; decide) upCid i
        simp only [hretarget, creditFrame, hacc, if_true]
        simpa [frameWork, hg, hacc, hid] using hcredit
    · have hzero : frameWork decode g frame i = 0 := if_neg fun h => hacc h.2
      rw [hzero]
      simp only [Inner.creditOf_zero, add_zero]
      split_ifs
      · exact ⟨rfl, rfl⟩
      · exact ⟨finalizeOpen_deliveredWork frame i, rfl⟩
      · obtain ⟨p, hp⟩ := rejectOpen_inner decode frame i
        exact ⟨by rw [hp], rfl⟩
      · exact ⟨rfl, rfl⟩
      · split
        · exact ⟨rfl, rfl⟩
        · simp only [creditFrame, hacc, if_false]
          exact ⟨retarget_deliveredWork .., rfl⟩
  · simp [hg, frameWork]

/-- What a call of the translating reader adds. -/
theorem translateCall_work (r : Rig) (call : SessionCall) (cid member : Nat) (now : Rat)
    (o : String) :
    (r.translateCall call cid member now).inner.deliveredWork =
        r.inner.deliveredWork + callWork call cid r.inner ∧
      ((r.translateCall call cid member now).store.pending.delta o).work =
        (r.store.pending.delta o).work + r.inner.creditOf (callWork call cid r.inner) o := by
  cases call with
  | sendTranslateFrame frame => simp [Rig.translateCall, callWork]
  | setTranslateDiff diff => simp [Rig.translateCall, callWork, setTranslateDiff]
  | creditTranslate =>
    have hcredit := creditAccepted_work r.inner now
      (r.inner.difficultyOf fun c => decide (c.downChannelId = cid)) 1 r.store.pending o
    simpa [Rig.translateCall, callWork, creditTranslate, Rig.credit] using hcredit

theorem forwardOpen_deliveredWork (member : Nat) (spec : OpenSpec) (i : Inner) :
    (forwardOpen member spec i).deliveredWork = i.deliveredWork := by
  unfold forwardOpen
  dsimp only
  split <;> rfl

/-- Ending the finished rows does not touch what is buffered. -/
theorem takeExpired_pending (s : OrderStore) (now : Int) :
    (s.takeExpired now).2.pending = s.pending := by
  simp only [OrderStore.takeExpired]
  generalize s.rows.filter _ = done
  induction done generalizing s with
  | nil => rfl
  | cons o done ih => exact (ih _).trans rfl

/-- What a step adds to the rig and to every order.  A flush empties the buffer
into the rows. -/
theorem step_work {lib : Sv1Library} {r r' : Rig} {e : Event} (h : step decode lib r e = some r')
    (hflush : e ≠ .flushOrders) (o : String) :
    r'.inner.deliveredWork = r.inner.deliveredWork + eventWork decode r e ∧
      (r'.store.pending.delta o).work =
        (r.store.pending.delta o).work + r.inner.creditOf (eventWork decode r e) o := by
  cases e with
  | flushOrders => exact absurd rfl hflush
  | upstreamFrame g frame now =>
    simp only [step] at h
    split at h <;> cases h
    exact onUpstreamFrame_work now g frame r.inner r.store.pending o
  | translateCall member now =>
    simp only [step] at h
    split at h
    · rename_i cid state call calls written htranslator
      split at h <;> cases h
      simpa [eventWork, htranslator] using
        translateCall_work { r with translator := some ⟨cid, state, calls, written⟩ } call cid
          member now o
    · cases h
  | minerFrame member frame =>
    simp only [step] at h
    split at h <;> cases h
    have hwork : (minerFrame frame r.inner).1.deliveredWork = r.inner.deliveredWork := by
      rcases minerFrame_cases frame r.inner with heq | ⟨n, up, heq⟩ <;> rw [heq]
      rfl
    refine ⟨by simpa [eventWork] using hwork, ?_⟩
    cases (minerFrame frame r.inner).2 <;> simp [eventWork, Rig.submitted]
  | attach spec =>
    simp only [step, attachMember] at h
    split at h <;> cases h
    simp [eventWork, forwardOpen_deliveredWork, Inner.addMember]
  | openChannel member spec =>
    simp only [step] at h
    split at h <;> cases h
    refine ⟨?_, by simp [eventWork]⟩
    simp only [eventWork, add_zero, Rig.queue_inner, openChannel]
    split
    · rfl
    · exact forwardOpen_deliveredWork ..
  | createOrder order =>
    obtain ⟨store, hstore, rfl⟩ := Option.map_eq_some_iff.mp h
    unfold OrderStore.create at hstore
    split at hstore <;> cases hstore
    simp [eventWork]
  | cancelOrder id now =>
    obtain ⟨⟨order, store⟩, hstore, rfl⟩ := Option.map_eq_some_iff.mp h
    obtain ⟨existing, _, heq⟩ := Option.map_eq_some_iff.mp hstore
    cases heq
    simp [eventWork, OrderStore.setStatus]
  | expireOrders now =>
    cases h
    simp [eventWork, takeExpired_pending]
  | swapOrder caller id fallback =>
    simp only [step] at h
    split at h
    · obtain ⟨target, _, rfl⟩ := Option.map_eq_some_iff.mp h
      simp [eventWork, Rig.beginSwap, Inner.snapshot]
    · cases h
  | swapSend =>
    simp only [step] at h
    split at h
    · split at h <;> cases h <;> simp [eventWork]
    · cases h
      simp [eventWork]
    · cases h
      simp [eventWork, Rig.endSwap]
    · cases h
  | _ =>
    simp only [step] at h
    first
      | (cases h; simp [eventWork])
      | (split at h <;> (try split at h) <;> cases h <;>
          simp [eventWork, detachMember, Rig.beginSwap, Inner.snapshot, Rig.swapNative,
            installNative, Rig.swapTranslate, installTranslate, Rig.signal])

/-- A step keeps the measured work. -/
theorem step_workKept {lib : Sv1Library} {r r' : Rig} {e : Event}
    (h : step decode lib r e = some r') (hflush : e ≠ .flushOrders) :
    WorkKept r.inner.deliveredWork r'.inner.deliveredWork r.store.pending r'.store.pending :=
  (workKept_iff (fun o => r.inner.routing.orderId? = some o) (step_work h hflush "").1
    fun o => (step_work h hflush o).2).mpr (eventWork_nonneg r e)

end RentalProxy.Sv2
