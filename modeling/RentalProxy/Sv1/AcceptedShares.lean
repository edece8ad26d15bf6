import RentalProxy.Sv1.Tasks
import RentalProxy.Lib.Tables

/-!
# Accepted and submitted shares of an SV1 session

A passthrough upstream credits a share that the miner is waiting for, so what is
accepted and what is pending was submitted (`SharesInv`).  A translated upstream
credits the count that the pool sends.

* `CountsSubmitted` is the condition: the pool counts no more than what was
  submitted and not yet accepted.
* `SharesInv.step_iff` is the step lemma, with the step that breaks the condition.
-/

namespace RentalProxy.Sv1

/-- A pool behind the translator counts no more shares than are left. -/
def CountsSubmitted (r : Relay) : Event → Prop
  | .translateCredit g count _ => g = r.inner.active.generation →
      0 < r.inner.currentDifficulty * count →
        r.inner.acceptedShares + count ≤ r.inner.submittedShares
  | _ => True

/-- What is accepted or pending was submitted, and a translated session has nothing
pending. -/
structure SharesInv (i : Inner) : Prop where
  within : i.acceptedShares + i.pending.entries.length ≤ i.submittedShares
  translated : i.translating = true → i.pending = ∅

/-- The shares are the same. -/
structure SameShares (i i' : Inner) : Prop where
  accepted : i'.acceptedShares = i.acceptedShares
  submitted : i'.submittedShares = i.submittedShares
  pending : i'.pending = i.pending
  translating : i'.translating = i.translating

namespace SharesInv

variable {i i' : Inner}

theorem accepted_le (h : SharesInv i) : i.acceptedShares ≤ i.submittedShares :=
  (Nat.le_add_right _ _).trans h.within

theorem of_same (h : SharesInv i) (hsame : SameShares i i') : SharesInv i' where
  within := by
    rw [hsame.accepted, hsame.submitted, hsame.pending]
    exact h.within
  translated := by
    rw [hsame.translating, hsame.pending]
    exact h.translated

theorem flagLowRatio (h : SharesInv i) : SharesInv i.flagLowRatio := by
  refine h.of_same ?_
  unfold Inner.flagLowRatio
  split <;> exact ⟨rfl, rfl, rfl, rfl⟩

/-- A submit may replace one under the same id, so at most one more is pending. -/
theorem onMinerMsg (h : SharesInv i) (msg : RpcMessage) : SharesInv (onMinerMsg msg i).1 := by
  unfold Sv1.onMinerMsg
  split_ifs with hauthorize hsubmit htranslating hextranonce hconfigure
  · exact h
  · exact ⟨h.within.trans (Nat.le_succ _), h.translated⟩
  · have hshorter := (List.kerase_sublist (idKey msg.id) i.pending.entries).length_le
    have hwithin := h.within
    refine ⟨?_, fun htrue => absurd htrue htranslating⟩
    simp only [Inner.sendUp, AList.entries_insert, List.length_cons]
    omega
  · exact h.of_same ⟨rfl, rfl, rfl, rfl⟩
  · exact h.of_same ⟨rfl, rfl, rfl, rfl⟩
  · exact h.of_same ⟨rfl, rfl, rfl, rfl⟩

/-- An accepted share is pending no more. -/
theorem creditResponse (h : SharesInv i) (hsv1 : i.translating = false) (now : Rat) (g : Nat)
    (msg : RpcMessage) : SharesInv (creditResponse now g msg i).1 := by
  unfold Sv1.creditResponse
  split
  · exact h
  · rename_i g' diff hlookup
    have hone := KeyedTable.countP_erase hlookup fun _ => true
    simp only [List.countP_true, if_true] at hone
    have hwithin := h.within
    have hnative : ∀ p : AList fun _ : Value => Nat × Rat, i.translating = true → p = ∅ := by
      intro p htrue
      rw [hsv1] at htrue
      cases htrue
    split
    · refine ⟨?_, hnative _⟩
      dsimp only
      omega
    · refine ⟨?_, hnative _⟩
      dsimp only
      omega

theorem onUpstreamMsg (h : SharesInv i) {g : Nat}
    (hsv1 : g = i.active.generation → i.translating = false) (now : Rat) (msg : RpcMessage) :
    SharesInv (onUpstreamMsg now g msg i).1 := by
  unfold Sv1.onUpstreamMsg
  split_ifs with hstale hset hresponse
  · exact h
  · split
    · exact h.of_same ⟨rfl, rfl, rfl, rfl⟩
    · exact h
  · exact (h.creditResponse (hsv1 (not_not.mp hstale)) now g msg).flagLowRatio
  · exact h

theorem installRaw (h : SharesInv i) (raw : RawUpstream) (g : Nat) (target : UpstreamTarget)
    (routing : Routing) : SharesInv (installRaw raw g target routing i).1 := by
  cases raw with
  | sv1 conn => exact ⟨h.accepted_le, fun _ => rfl⟩
  | sv2 up => exact ⟨h.accepted_le, fun _ => rfl⟩

/-- The count of a pool behind the translator. -/
theorem creditTranslateAccepted_iff (h : SharesInv i) {g : Nat}
    (hsv2 : g = i.active.generation → i.translating = true) (count : Nat) (now : Rat) :
    ((creditTranslateAccepted now g count i).1.acceptedShares ≤
        (creditTranslateAccepted now g count i).1.submittedShares ↔
      (g = i.active.generation → 0 < i.currentDifficulty * count →
        i.acceptedShares + count ≤ i.submittedShares)) ∧
    ((g = i.active.generation → 0 < i.currentDifficulty * count →
        i.acceptedShares + count ≤ i.submittedShares) →
      SharesInv (creditTranslateAccepted now g count i).1) := by
  have hflag : ∀ j : Inner, j.flagLowRatio.acceptedShares = j.acceptedShares ∧
      j.flagLowRatio.submittedShares = j.submittedShares := by
    intro j
    unfold Inner.flagLowRatio
    split <;> exact ⟨rfl, rfl⟩
  unfold creditTranslateAccepted
  split
  · rename_i hstale
    exact ⟨iff_of_true h.accepted_le fun hg => absurd hg hstale, fun _ => h⟩
  · rename_i hstale
    have hg := not_not.mp hstale
    dsimp only
    split
    · rename_i hwork
      constructor
      · rw [(hflag _).1, (hflag _).2]
        exact ⟨fun hle _ _ => hle, fun hle => hle hg hwork⟩
      · intro hle
        refine SharesInv.flagLowRatio ⟨?_, h.translated⟩
        rw [h.translated (hsv2 hg)]
        exact hle hg hwork
    · rename_i hwork
      exact ⟨iff_of_true h.flagLowRatio.accepted_le fun _ hpositive => absurd hpositive hwork,
        fun _ => h.flagLowRatio⟩

end SharesInv

theorem SharesInv.start {target : UpstreamTarget} {peer : String} {orders : WorkBuffer}
    {answer : PoolAnswer} {r : Relay} (h : start target peer orders answer = some r) :
    SharesInv r.inner := by
  obtain ⟨raw, _, rfl⟩ := Option.map_eq_some_iff.mp h
  have hbootstrap : SharesInv (bootstrap target peer) := ⟨le_rfl, fun _ => rfl⟩
  exact hbootstrap.installRaw raw bootstrapGeneration target .idle

/-- The step lemma. -/
theorem SharesInv.step_iff {r r' : Relay} {e : Event} (h : SharesInv r.inner)
    (hstep : step r e = some r') :
    (r'.inner.acceptedShares ≤ r'.inner.submittedShares ↔ CountsSubmitted r e) ∧
      (CountsSubmitted r e → SharesInv r'.inner) := by
  have hkept : CountsSubmitted r e → SharesInv r'.inner →
      (r'.inner.acceptedShares ≤ r'.inner.submittedShares ↔ CountsSubmitted r e) ∧
        (CountsSubmitted r e → SharesInv r'.inner) :=
    fun hguard hinv => ⟨iff_of_true hinv.accepted_le hguard, fun _ => hinv⟩
  cases e with
  | translateCredit g count now =>
    simp only [step] at hstep
    split at hstep <;> cases hstep
    rename_i hreader
    rw [Bool.and_eq_true] at hreader
    refine h.creditTranslateAccepted_iff ?_ count now
    intro hg
    subst hg
    simpa [Relay.translateReader] using hreader.2
  | upstreamLine g msg now =>
    simp only [step] at hstep
    split at hstep <;> cases hstep
    rename_i hreader
    rw [Bool.and_eq_true] at hreader
    refine hkept trivial (h.onUpstreamMsg ?_ now msg)
    intro hg
    subst hg
    simpa [Relay.passthroughReader] using hreader.2
  | minerMsg msg =>
    simp only [step] at hstep
    split at hstep <;> cases hstep
    exact hkept trivial (h.onMinerMsg msg)
  | swapConnect answer =>
    simp only [step] at hstep
    split at hstep
    · split at hstep <;> cases hstep
      · exact hkept trivial h
      · exact hkept trivial (h.installRaw ..)
    · cases hstep
  | minerConfigure msg =>
    simp only [step] at hstep
    split at hstep
    · split at hstep <;> cases hstep
      exact hkept trivial (h.of_same ⟨rfl, rfl, rfl, rfl⟩)
    · cases hstep
  | translateDifficulty g diff =>
    simp only [step] at hstep
    split at hstep <;> cases hstep
    refine hkept trivial (h.of_same ?_)
    unfold setTranslateDifficulty
    split <;> exact ⟨rfl, rfl, rfl, rfl⟩
  | translateLine g msg =>
    simp only [step] at hstep
    split at hstep <;> cases hstep
    refine hkept trivial (h.of_same ?_)
    unfold sendOrStash
    split_ifs <;> exact ⟨rfl, rfl, rfl, rfl⟩
  | attachOrder | setDefault =>
    cases hstep
    exact hkept trivial (h.of_same ⟨rfl, rfl, rfl, rfl⟩)
  | _ =>
    simp only [step] at hstep
    split at hstep <;> cases hstep <;> exact hkept trivial (h.of_same ⟨rfl, rfl, rfl, rfl⟩)

end RentalProxy.Sv1
