import RentalProxy.Sv1.Accounting
import RentalProxy.Sv1.Translator
import RentalProxy.Lib.Shares

/-!
# The bill of an SV1 miner

An SV1 session is put through the trace of a connection, behind an SV1 pool
(`drivePassthrough`) and behind an SV2 pool (`driveTranslated`).

* The passthrough session weighs a share when it is submitted:
  `passthrough_simulates` shows that it credits what the ledger bills.
* The translated session weighs accepted shares at the difficulty in force:
  `translated_simulates` shows that it credits the bill and the drift.
-/

namespace RentalProxy.Sv1

open StepSystem ShareLedger
open Sv2 (Decoder Sv2Frame PoolFrames)

/-! ## Behind an SV1 pool -/

/-- The id of a share: its number. -/
def shareKey (k : Nat) : Value := .num (.int k)

/-- A share of the miner. -/
def shareLine (params : Nat → Value) (k : Nat) : RpcMessage :=
  .request (shareKey k) "mining.submit" (params k)

/-- A line of the pool, and the reader hands it on. -/
def lineEvents (g : Nat) (now : Rat) (msg : RpcMessage) : List Event :=
  [.upstreamLine g msg now, .readerForward g]

/-- What happens on a passthrough session. -/
def passthroughEvents (g : Nat) (params : Nat → Value) (n : Nat) (now : Rat) :
    ShareLedger.Event Target → List Event
  | .retarget t => lineEvents g now (setDifficultyLine t.difficulty)
  | .submit => [.minerMsg (shareLine params n)]
  | .accept shares => shares.flatMap fun k => lineEvents g now (poolAnswer k true)
  | .reject k => lineEvents g now (poolAnswer k false)

/-- A passthrough session takes one event of the trace. -/
def drivePassthrough (g : Nat) (params : Nat → Value) (n : Nat) (now : Rat)
    (e : ShareLedger.Event Target) (r : Relay) : Option Relay :=
  run step r (passthroughEvents g params n now e)

/-- A passthrough session on the upstream of this generation. -/
structure Passthrough (g : Nat) (r : Relay) : Prop where
  miner : r.miner = .ready
  generation : r.inner.active.generation = g
  passthrough : r.inner.translating = false
  reader : r.readers.lookup g = none

/-- The session follows the ledger: its table of submits is the unanswered
shares, and it has credited the bill. -/
structure BillsAtSubmit (g : Nat) (base : Rat) (l : Ledger Rat) (r : Relay) : Prop where
  session : Passthrough g r
  inForce : r.inner.currentDifficulty = l.inForce
  pending : ∀ k : Nat, r.inner.pending.lookup (shareKey k) = (l.unanswered.lookup k).map (g, ·)
  work : r.inner.deliveredWork = base + l.billed

/-- A line of the pool is processed and handed on. -/
theorem Passthrough.run_line {g : Nat} {r : Relay} (h : Passthrough g r) (now : Rat)
    (msg : RpcMessage) :
    ∃ r', run step r (lineEvents g now msg) = some r' ∧ Passthrough g r' ∧
      r'.inner = (onUpstreamMsg now g msg r.inner).1 := by
  obtain ⟨hactive, _, _, _, _, htrans, _, _⟩ := (onUpstreamMsg_same now g msg r.inner).fields
  have hgen := congrArg ActiveUpstream.generation hactive
  have hforward : (onUpstreamMsg now g msg r.inner).2.2 = some msg :=
    onUpstreamMsg_forward h.generation.symm
  have hguard : (r.readerFree g && r.passthroughReader g) = true := by
    simp [Relay.readerFree, Relay.passthroughReader, h.reader, h.generation, h.passthrough]
  let line : Line := ⟨.reader g, msg⟩
  let r' : Relay := { r with
    inner := (onUpstreamMsg now g msg r.inner).1
    orders := r.orders.credit (onUpstreamMsg now g msg r.inner).2.1
    readers := (r.readers.insert g line).erase g }.queue line
  have hrun : run step r (lineEvents g now msg) = some r' := by
    simp only [lineEvents, run, step, hguard, if_true, hforward, Option.bind_some,
      AList.lookup_insert]
    rfl
  exact ⟨r', hrun, ⟨h.miner, hgen.trans h.generation, htrans.trans h.passthrough,
    AList.lookup_erase _ _⟩, rfl⟩

private theorem shareKey_ne {k n : Nat} (h : k ≠ n) : shareKey k ≠ shareKey n := by
  intro heq
  cases heq
  exact h rfl

/-- Taking a share out of both tables. -/
private theorem pending_erase {pending : AList fun _ : Value => Nat × Rat}
    {unanswered : AList fun _ : Nat => Rat} {g : Nat}
    (h : ∀ k : Nat, pending.lookup (shareKey k) = (unanswered.lookup k).map (g, ·)) (n k : Nat) :
    (pending.erase (shareKey n)).lookup (shareKey k) =
      ((unanswered.erase n).lookup k).map (g, ·) := by
  by_cases hk : k = n
  · subst hk
    rw [AList.lookup_erase, AList.lookup_erase]
    rfl
  · rw [AList.lookup_erase_ne (shareKey_ne hk), AList.lookup_erase_ne hk]
    exact h k

/-- Entering a share in both tables. -/
private theorem pending_insert {pending : AList fun _ : Value => Nat × Rat}
    {unanswered : AList fun _ : Nat => Rat} {g : Nat}
    (h : ∀ k : Nat, pending.lookup (shareKey k) = (unanswered.lookup k).map (g, ·)) (n : Nat)
    (weight : Rat) (k : Nat) :
    (pending.insert (shareKey n) (g, weight)).lookup (shareKey k) =
      ((unanswered.insert n weight).lookup k).map (g, ·) := by
  by_cases hk : k = n
  · subst hk
    rw [AList.lookup_insert, AList.lookup_insert]
    rfl
  · rw [AList.lookup_insert_ne (shareKey_ne hk), AList.lookup_insert_ne hk]
    exact h k

/-- A line of the miner is processed. -/
theorem step_minerMsg {r : Relay} (h : r.miner = .ready) (msg : RpcMessage) :
    ∃ orders, step r (.minerMsg msg) =
      some { r with inner := (onMinerMsg msg r.inner).1, orders } := by
  simp only [step, h]
  exact ⟨_, rfl⟩

/-- The answer to a share that is due. -/
theorem BillsAtSubmit.answer {g : Nat} {base weight : Rat} {l : Ledger Rat} {r : Relay} {k : Nat}
    (h : BillsAtSubmit g base l r) (hdue : l.unanswered.lookup k = some weight) (now : Rat)
    (ok : Bool) :
    ∃ r', run step r (lineEvents g now (poolAnswer k ok)) = some r' ∧
      BillsAtSubmit g base { l with
        unanswered := l.unanswered.erase k
        billed := l.billed + if ok then weight else 0 } r' := by
  obtain ⟨r', hrun, hsession, hinner⟩ := h.session.run_line now (poolAnswer k ok)
  have hlook : r.inner.pending.lookup (idKey (poolAnswer k ok).id) = some (g, weight) :=
    (h.pending k).trans (by rw [hdue]; rfl)
  have hgen := h.session.generation
  have hmethod : (poolAnswer k ok).method = none := rfl
  have hid : idKey (poolAnswer k ok).id = shareKey k := rfl
  have hresult : (poolAnswer k ok).result = some (.bool ok) := rfl
  refine ⟨r', hrun, hsession, ?_, ?_, ?_⟩
  · rw [hinner, onUpstreamMsg_currentDifficulty now _ hgen.symm]
    exact h.inForce
  · intro n
    rw [← pending_erase h.pending k n, hinner]
    unfold onUpstreamMsg creditResponse
    cases ok <;> simp [hgen, hmethod, hid, hresult, hlook]
  · rw [hinner, (onUpstreamMsg_work now g _ r.inner ∅ "").1, h.work]
    cases ok <;> simp [acceptedSubmit, hgen, hmethod, hresult, hlook, add_assoc]

/-- Behind an SV1 pool a session credits the bill. -/
theorem passthrough_simulates (g : Nat) (base : Rat) (params : Nat → Value) :
    Simulates Target.difficulty (ShareLedger.Event.BatchBelow (2 ^ 32))
      (drivePassthrough g params) (BillsAtSubmit g base) := by
  intro l l' r now e h _ hstep
  cases e with
  | retarget t =>
    cases hstep
    obtain ⟨r', hrun, hsession, hinner⟩ := h.session.run_line now (setDifficultyLine t.difficulty)
    have hgen := h.session.generation
    refine ⟨r', hrun, hsession, ?_, ?_, ?_⟩
    · rw [hinner, onUpstreamMsg_currentDifficulty now _ hgen.symm]
      rfl
    · intro k
      rw [hinner, ← h.pending k]
      simp [onUpstreamMsg, hgen, setDifficultyLine, RpcMessage.firstParam, Value.asArray,
        Value.asF64]
    · rw [hinner, (onUpstreamMsg_work now g _ r.inner ∅ "").1, ← h.work]
      simp [acceptedSubmit, setDifficultyLine]
  | submit =>
    cases hstep
    obtain ⟨orders, hmsg⟩ := step_minerMsg h.session.miner (shareLine params l.submitted)
    have hinner : (onMinerMsg (shareLine params l.submitted) r.inner).1 = { r.inner with
        pending := r.inner.pending.insert (shareKey l.submitted) (g, l.inForce)
        submittedShares := r.inner.submittedShares + 1 }.sendUp
          ((shareLine params l.submitted).setFirstParam
            (.str (upstreamWorker r.inner.active.target.user r.inner.label))) := by
      simp [onMinerMsg, shareLine, RpcMessage.request, h.session.passthrough,
        h.session.generation, h.inForce, idKey]
    rw [hinner] at hmsg
    refine ⟨_, run_one hmsg,
      ⟨h.session.miner, h.session.generation, h.session.passthrough, h.session.reader⟩,
      h.inForce, pending_insert h.pending l.submitted l.inForce, h.work⟩
  | accept shares =>
    refine simulates_each (R := BillsAtSubmit g base) ?_ h hstep
    intro l l' r k hR haccept
    obtain ⟨weight, hdue, rfl⟩ := Option.map_eq_some_iff.mp haccept
    obtain ⟨r', hrun, hR'⟩ := hR.answer hdue now true
    exact ⟨r', hrun, hR'.session, hR'.inForce, hR'.pending, hR'.work⟩
  | reject k =>
    simp only [Ledger.step] at hstep
    split at hstep
    · rename_i hsome
      obtain ⟨weight, hdue⟩ := Option.isSome_iff_exists.mp hsome
      cases hstep
      obtain ⟨r', hrun, hR'⟩ := h.answer hdue now false
      refine ⟨r', hrun, hR'.session, hR'.inForce, hR'.pending, ?_⟩
      simpa using hR'.work
    · cases hstep

/-- A passthrough session, as it starts on its upstream at some difficulty. -/
structure PassthroughSession (inForce : Rat) where
  generation : Nat
  /-- What the shares of the miner say. -/
  params : Nat → Value
  relay : Relay
  established : BillsAtSubmit generation relay.inner.deliveredWork (.fresh inForce) relay

namespace PassthroughSession

variable {inForce : Rat}

/-- The work that a trace adds to the session. -/
def credited (s : PassthroughSession inForce) (trace : List (Rat × ShareLedger.Event Target)) :
    Option Rat :=
  (driveTrace (drivePassthrough s.generation s.params) 0 trace s.relay).map fun r =>
    r.inner.deliveredWork - s.relay.inner.deliveredWork

theorem credited_eq (s : PassthroughSession inForce)
    {trace : List (Rat × ShareLedger.Event Target)} {l : Ledger Rat}
    (hfits : ∀ te ∈ trace, te.2.BatchBelow (2 ^ 32))
    (htrace : run (Ledger.step Target.difficulty) (.fresh inForce) (trace.map Prod.snd) = some l) :
    s.credited trace = some l.billed := by
  obtain ⟨r, hdrive, hbills⟩ := (passthrough_simulates s.generation s.relay.inner.deliveredWork
    s.params).run s.established hfits htrace
  simp only [Ledger.fresh] at hdrive
  simp only [credited, hdrive, Option.map_some, hbills.work, add_sub_cancel_left]

end PassthroughSession

/-! ## Behind an SV2 pool -/

/-- A translated session with the state of its translator. -/
structure TranslatedRelay where
  relay : Relay
  state : Sv2UpState

section Translated

variable (decode : Decoder) {channelId : Nat} (frames : PoolFrames decode channelId)
  (lib : Sv2Library)

/-- The frame that answers shares, or changes the target. -/
def answerFrame : ShareLedger.Event Target → Option Sv2Frame
  | .retarget t => some (frames.setTarget t)
  | .submit => none
  | .accept shares => some (frames.success (shares.foldl max 0) shares.length)
  | .reject k => some (frames.error k)

/-- The calls that a frame of the pool makes, and the state after it. -/
def TranslatedRelay.frame (g : Nat) (now : Rat) (frame : Sv2Frame) (t : TranslatedRelay) :
    Option TranslatedRelay :=
  let (state, calls) := handleSv2Frame decode lib frame t.state
  (run step t.relay (calls.flatMap (SessionCall.events g now))).map (⟨·, state⟩)

/-- A share of the miner, which the writer translates. -/
def TranslatedRelay.share (line : RpcMessage) (t : TranslatedRelay) : Option TranslatedRelay :=
  (step t.relay (.minerMsg line)).map fun relay =>
    ⟨relay, match relay.inner.active.toUp.getLast? with
      | some sent => (translateSubmit lib sent t.state).1
      | none => t.state⟩

/-- A translated session takes one event of the trace. -/
def driveTranslated (g : Nat) (params : Nat → Value) (n : Nat) (now : Rat)
    (e : ShareLedger.Event Target) (t : TranslatedRelay) : Option TranslatedRelay :=
  match answerFrame decode frames e with
  | some frame => t.frame decode lib g now frame
  | none => t.share lib (shareLine params n)

end Translated

/-- A translated session on the upstream of this generation, with a miner that
has subscribed. -/
structure Translating (g : Nat) (r : Relay) : Prop where
  miner : r.miner = .ready
  generation : r.inner.active.generation = g
  translating : r.inner.translating = true
  subscribed : r.inner.subscribed = true
  reader : r.readers.lookup g = none

/-- What a call does to the session behind the lock. -/
def Inner.afterCall (g : Nat) (now : Rat) (i : Inner) : SessionCall → Inner
  | .setTranslateDifficulty diff => (setTranslateDifficulty g diff i).1
  | .creditTranslateAccepted count => (creditTranslateAccepted now g count i).1
  | .sendOrStash _ | .sendSubmitResult _ _ => i

theorem Translating.guard {g : Nat} {r : Relay} (h : Translating g r) :
    (r.readerFree g && r.translateReader g) = true := by
  simp [Relay.readerFree, Relay.translateReader, h.reader, h.generation, h.translating]

/-- The session of a translated pool around an accounting step. -/
theorem Translating.of_same {g : Nat} {r : Relay} {i : Inner} (h : Translating g r)
    (hsame : r.inner.SameSession i) (orders : WorkBuffer) :
    Translating g { r with inner := i, orders } := by
  obtain ⟨hactive, _, _, _, _, htrans, hsub, _⟩ := hsame.fields
  exact ⟨h.miner, (congrArg ActiveUpstream.generation hactive).trans h.generation,
    htrans.trans h.translating, hsub.trans h.subscribed, h.reader⟩

/-- The reader makes a call. -/
theorem Translating.run_call {g : Nat} {r : Relay} (h : Translating g r) (now : Rat)
    (call : SessionCall) :
    ∃ r', run step r (call.events g now) = some r' ∧ Translating g r' ∧
      r'.inner = r.inner.afterCall g now call := by
  have hguard := h.guard
  have hforward : ∀ line : Line,
      Translating g ({ r with readers := (r.readers.insert g line).erase g }.queue line) :=
    fun line => ⟨h.miner, h.generation, h.translating, h.subscribed, AList.lookup_erase _ _⟩
  cases call with
  | setTranslateDifficulty diff =>
    refine ⟨{ r with inner := (setTranslateDifficulty g diff r.inner).1 }, run_one ?_,
      h.of_same (setTranslateDifficulty_same g diff r.inner) r.orders, rfl⟩
    simp only [step, hguard, if_true]
  | creditTranslateAccepted count =>
    refine ⟨_, run_one (by simp only [step, hguard, if_true]; rfl),
      h.of_same (creditTranslateAccepted_same now g count r.inner) _, rfl⟩
  | sendOrStash msg =>
    refine ⟨_, ?_, hforward ⟨.reader g, msg⟩, rfl⟩
    have hsend := @sendOrStash_send msg _ h.subscribed
    rw [h.generation] at hsend
    simp only [SessionCall.events, run, step, hguard, if_true, hsend, Option.bind_some,
      AList.lookup_insert]
  | sendSubmitResult id ok =>
    refine ⟨_, ?_, hforward ⟨.reader g, submitResultLine id ok⟩, rfl⟩
    simp only [SessionCall.events, run, step, hguard, if_true, Option.bind_some,
      AList.lookup_insert]

/-- The reader makes the calls of a frame. -/
theorem Translating.run_calls {g : Nat} (now : Rat) (calls : List SessionCall) {r : Relay}
    (h : Translating g r) :
    ∃ r', run step r (calls.flatMap (SessionCall.events g now)) = some r' ∧ Translating g r' ∧
      r'.inner = calls.foldl (Inner.afterCall g now) r.inner := by
  induction calls generalizing r with
  | nil => exact ⟨r, rfl, h, rfl⟩
  | cons call calls ih =>
    obtain ⟨s, hs, hs', hinner⟩ := h.run_call now call
    obtain ⟨r', hr', htrans, hinner'⟩ := ih hs'
    refine ⟨r', ?_, htrans, by rw [hinner', hinner, List.foldl_cons]⟩
    rw [List.flatMap_cons, run_append, hs]
    exact hr'

/-- Telling the miner the results does not change the session. -/
theorem foldl_results (g : Nat) (now : Rat) (ids : List (Option Value)) (ok : Bool) (i : Inner) :
    (ids.map (SessionCall.sendSubmitResult · ok)).foldl (Inner.afterCall g now) i = i := by
  induction ids with
  | nil => rfl
  | cons id ids ih => exact ih

/-- The session follows the ledger: it has credited the bill and the drift. -/
structure BillsAtAccept (g : Nat) (base : Rat) (l : Ledger Rat) (t : TranslatedRelay) : Prop where
  session : Translating g t.relay
  inForce : t.relay.inner.currentDifficulty = l.inForce
  nonneg : 0 ≤ l.inForce
  work : t.relay.inner.deliveredWork = base + (l.billed + l.drift)

/-- Work that is not negative is credited in full. -/
theorem translatedWork_of_nonneg {g : Nat} {i : Inner} (hg : g = i.active.generation)
    (h : 0 ≤ i.currentDifficulty) (count : Nat) :
    translatedWork g count i = i.currentDifficulty * count := by
  have hnonneg : 0 ≤ i.currentDifficulty * count := mul_nonneg h (Nat.cast_nonneg count)
  unfold translatedWork
  split_ifs with hpos
  · rfl
  · rw [not_and] at hpos
    exact le_antisymm hnonneg (not_lt.mp (hpos hg))

section Translated

variable {decode : Decoder} {channelId : Nat} (frames : PoolFrames decode channelId)
  (lib : Sv2Library)

/-- A frame of the pool, and the calls it makes. -/
theorem Translating.run_frame {g : Nat} {t : TranslatedRelay} (h : Translating g t.relay)
    (now : Rat) (frame : Sv2Frame) :
    ∃ t', t.frame decode lib g now frame = some t' ∧ Translating g t'.relay ∧
      t'.relay.inner =
        (handleSv2Frame decode lib frame t.state).2.foldl (Inner.afterCall g now)
          t.relay.inner := by
  obtain ⟨r', hrun, hsession, hinner⟩ :=
    h.run_calls now (handleSv2Frame decode lib frame t.state).2
  refine ⟨⟨r', (handleSv2Frame decode lib frame t.state).1⟩, ?_, hsession, hinner⟩
  simp only [TranslatedRelay.frame, hrun, Option.map_some]

/-- The session takes a share as any line of the miner. -/
theorem share_of_minerMsg {t : TranslatedRelay} {line : RpcMessage} {r : Relay}
    (h : step t.relay (.minerMsg line) = some r) : ∃ state, t.share lib line = some ⟨r, state⟩ := by
  rw [TranslatedRelay.share, h]
  exact ⟨_, rfl⟩

/-- The calls that the frames of the pool make. -/
theorem handleSv2Frame_setTarget (s : Sv2UpState) (target : Target) :
    (handleSv2Frame decode lib (frames.setTarget target) s).2 =
      [.setTranslateDifficulty target.difficulty,
        .sendOrStash (setDifficultyLine target.difficulty)] := by
  simp only [handleSv2Frame, frames.setTarget_type, frames.setTarget_parse, Target.difficulty]

theorem handleSv2Frame_success (s : Sv2UpState) (last : Nat) {count : Nat}
    (hcount : count < 2 ^ 32) :
    ∃ ids : List (Option Value), (handleSv2Frame decode lib (frames.success last count) s).2 =
      .creditTranslateAccepted count :: ids.map (.sendSubmitResult · true) := by
  obtain ⟨seq, hparse⟩ := frames.success_parse last count hcount
  simp only [handleSv2Frame, frames.success_type, hparse]
  exact ⟨_, rfl⟩

theorem handleSv2Frame_error (s : Sv2UpState) (seq : Nat) :
    ∃ ids : List (Option Value), (handleSv2Frame decode lib (frames.error seq) s).2 =
      ids.map (.sendSubmitResult · false) := by
  simp only [handleSv2Frame, frames.error_type]
  split
  · rename_i seq _
    cases (removeSeq seq s.pendingSubmits).1 with
    | none => exact ⟨[], rfl⟩
    | some id => exact ⟨[id], rfl⟩
  · exact ⟨[], rfl⟩

/-- Behind an SV2 pool a session credits the bill and the drift. -/
theorem translated_simulates (g : Nat) (base : Rat) (params : Nat → Value) :
    Simulates Target.difficulty (ShareLedger.Event.BatchBelow (2 ^ 32))
      (driveTranslated decode frames lib g params) (BillsAtAccept g base) := by
  intro l l' t now e h hfits hstep
  have hgen := h.session.generation
  cases e with
  | retarget target =>
    cases hstep
    obtain ⟨t', hrun, hsession, hinner⟩ := h.session.run_frame lib now (frames.setTarget target)
    rw [handleSv2Frame_setTarget] at hinner
    have hset : t'.relay.inner =
        { t.relay.inner with currentDifficulty := target.difficulty } := by
      simpa [Inner.afterCall, setTranslateDifficulty, hgen] using hinner
    refine ⟨t', hrun, hsession, by rw [hset], difficultyFromTarget_nonneg _, ?_⟩
    rw [hset]
    exact h.work
  | submit =>
    cases hstep
    obtain ⟨orders, hmsg⟩ := step_minerMsg h.session.miner (shareLine params l.submitted)
    have hinner : (onMinerMsg (shareLine params l.submitted) t.relay.inner).1 = { t.relay.inner with
        submittedShares := t.relay.inner.submittedShares + 1 }.sendUp
          ((shareLine params l.submitted).setFirstParam
            (.str (upstreamWorker t.relay.inner.active.target.user t.relay.inner.label))) := by
      simp [onMinerMsg, shareLine, RpcMessage.request, h.session.translating]
    rw [hinner] at hmsg
    obtain ⟨state, hshare⟩ := share_of_minerMsg lib hmsg
    exact ⟨_, hshare,
      ⟨h.session.miner, hgen, h.session.translating, h.session.subscribed, h.session.reader⟩,
      h.inForce, h.nonneg, h.work⟩
  | accept shares =>
    obtain ⟨hforce, _, hsettled⟩ := Ledger.accept_settled hstep
    obtain ⟨t', hrun, hsession, hinner⟩ := h.session.run_frame lib now
      (frames.success (shares.foldl max 0) shares.length)
    obtain ⟨ids, hcalls⟩ := handleSv2Frame_success frames lib t.state
      (shares.foldl max 0) hfits
    rw [hcalls, List.foldl_cons, foldl_results] at hinner
    refine ⟨t', hrun, hsession, ?_, ?_, ?_⟩
    · rw [hinner, hforce, ← h.inForce]
      exact creditTranslateAccepted_difficulty ..
    · rw [hforce]
      exact h.nonneg
    · have hwork := (creditTranslateAccepted_work now g shares.length t.relay.inner ∅ "").1
      rw [translatedWork_of_nonneg hgen.symm (h.inForce ▸ h.nonneg), h.work, h.inForce] at hwork
      rw [hinner, hsettled, nsmul_eq_mul]
      exact hwork.trans (by ring)
  | reject k =>
    simp only [Ledger.step] at hstep
    split at hstep
    · cases hstep
      obtain ⟨t', hrun, hsession, hinner⟩ := h.session.run_frame lib now (frames.error k)
      obtain ⟨ids, hcalls⟩ := handleSv2Frame_error frames lib t.state k
      rw [hcalls, foldl_results] at hinner
      exact ⟨t', hrun, hsession, by rw [hinner]; exact h.inForce, h.nonneg, by
        rw [hinner]; exact h.work⟩
    · cases hstep

end Translated

/-- A translated session, as it starts on its upstream at some difficulty. -/
structure TranslatedSession (inForce : Rat) where
  generation : Nat
  params : Nat → Value
  decode : Decoder
  channelId : Nat
  /-- What the pool sends for the channel. -/
  frames : PoolFrames decode channelId
  lib : Sv2Library
  relay : TranslatedRelay
  established :
    BillsAtAccept generation relay.relay.inner.deliveredWork (.fresh inForce) relay

namespace TranslatedSession

variable {inForce : Rat}

/-- The work that a trace adds to the session. -/
def credited (s : TranslatedSession inForce) (trace : List (Rat × ShareLedger.Event Target)) :
    Option Rat :=
  (driveTrace (driveTranslated s.decode s.frames s.lib s.generation s.params) 0 trace s.relay).map
    fun t => t.relay.inner.deliveredWork - s.relay.relay.inner.deliveredWork

theorem credited_eq (s : TranslatedSession inForce)
    {trace : List (Rat × ShareLedger.Event Target)} {l : Ledger Rat}
    (hfits : ∀ te ∈ trace, te.2.BatchBelow (2 ^ 32))
    (htrace : run (Ledger.step Target.difficulty) (.fresh inForce) (trace.map Prod.snd) = some l) :
    s.credited trace = some (l.billed + l.drift) := by
  obtain ⟨t, hdrive, hbills⟩ := (translated_simulates s.frames s.lib s.generation
    s.relay.relay.inner.deliveredWork s.params).run s.established hfits htrace
  simp only [Ledger.fresh] at hdrive
  simp only [credited, hdrive, Option.map_some, hbills.work, add_sub_cancel_left]

end TranslatedSession

end RentalProxy.Sv1
