import RentalProxy.Sv1.Exchange
import RentalProxy.Lib.Logs
import Mathlib.Data.List.TakeWhile

/-!
# The answers to the submits of an SV1 miner

The writer queues a submit before it translates and writes it, and keeps it queued when one of
the two fails.  The pool acknowledges shares up to a number, and the reader answers every queued
submit up to this number, written or not.

* `SubmitEvent` is what happens to the submits of a connection, and `submitsSoFar` the history.
* `Honest` is the property of a history, `AcksWritten` the condition on a step.
* `Ledger` is the invariant: the queue is what was queued and not answered.
* `submit_results_are_honest` is the result.
-/

namespace RentalProxy.Sv1

open StepSystem
open Sv2 (Decoder Sv2Frame)

/-! ## The history -/

/-- What happens to the submits of a connection.  A submit is told by its sequence number. -/
inductive SubmitEvent where
  /-- The writer has queued the submit, which came under this id. -/
  | queued (seq : Nat) (id : Option Value)
  /-- Its `SubmitSharesExtended` was written to the pool. -/
  | written (seq : Nat)
  /-- A `SubmitSharesSuccess` has arrived. -/
  | acked (lastSeq : Nat)
  /-- A `SubmitSharesError` has arrived. -/
  | rejected (seq : Nat)
  /-- The miner is sent a result. -/
  | answered (seq : Nat) (id : Option Value) (ok : Bool)
deriving DecidableEq

namespace SubmitEvent

def queued? : SubmitEvent → Option Nat
  | .queued seq _ => some seq
  | _ => none

def answered? : SubmitEvent → Option Nat
  | .answered seq _ _ => some seq
  | _ => none

/-- The result that the miner is sent. -/
def result? : SubmitEvent → Option (Option Value × Bool)
  | .answered _ id ok => some (id, ok)
  | _ => none

end SubmitEvent

/-- The result that a call of the reader sends to the miner. -/
def SessionCall.result? : SessionCall → Option (Option Value × Bool)
  | .sendSubmitResult id ok => some (id, ok)
  | _ => none

variable (decode : Decoder) (lib : Sv2Library)

/-- What a frame of the pool says about the submits, and the answers to them. -/
def answersTo (frame : Sv2Frame) (s : Sv2UpState) : List SubmitEvent :=
  match frame.msgType with
  | .submitSharesSuccess =>
    match Sv2.parseSubmitSuccess decode frame with
    | some (last, _) => .acked last :: (s.pendingSubmits.takeWhile fun p =>
        decide (p.1 ≤ last)).map fun p => .answered p.1 p.2 true
    | none => []
  | .submitSharesError =>
    match Sv2.parseSubmitErrorSeq decode frame with
    | some seq => .rejected seq :: ((s.pendingSubmits.find? fun p =>
        decide (p.1 = seq)).map fun p => .answered p.1 p.2 false).toList
    | none => []
  | _ => []

/-- What a step does to the submits. -/
def submitEvents (x : Exchange) : ExchangeEvent → List SubmitEvent
  | .line line =>
    if x.writer = .ready ∧ isShare lib line = true then [.queued x.state.nextSeq line.id] else []
  | .write ok =>
    match x.writer, ok with
    | .holds seq (some _), true => [.written seq]
    | _, _ => []
  | .frame frame => answersTo decode frame x.state

/-- What happened to the submits so far. -/
def submitsSoFar (x : Exchange) (e : ExchangeEvent) (past : List SubmitEvent) : List SubmitEvent :=
  past ++ submitEvents decode lib x e

/-- The states that a connection can reach, with what happened to the submits. -/
def ResultsReach (G : Exchange × List SubmitEvent → ExchangeEvent → Prop)
    (x : Exchange × List SubmitEvent) : Prop :=
  ∃ channelId, Run (observed (exchangeStep decode lib) (submitsSoFar decode lib)) G
    (.fresh channelId, []) x

/-! ## The property -/

/-- A submit is accepted after it was written and then acknowledged. -/
def AcceptedAfter (before : List SubmitEvent) (e : SubmitEvent) : Prop :=
  ∀ seq id, e = .answered seq id true → ∃ first mid last,
    before = first ++ .written seq :: mid ∧ .acked last ∈ mid ∧ seq ≤ last

/-- An answer goes to the id that the submit came under. -/
def AnswersQueued (before : List SubmitEvent) (e : SubmitEvent) : Prop :=
  ∀ seq id ok, e = .answered seq id ok → .queued seq id ∈ before

/-- A submit that is rejected before it was answered is answered at once, with `false`. -/
def RejectedFirst (log : List SubmitEvent) : Prop :=
  ∀ first seq rest, log = first ++ .rejected seq :: rest →
    ∀ id, .queued seq id ∈ first → seq ∉ first.filterMap SubmitEvent.answered? →
      rest.head? = some (.answered seq id false)

/-- The answers are honest. -/
structure Honest (log : List SubmitEvent) : Prop where
  /-- No two submits have the same number. -/
  numbered : (log.filterMap SubmitEvent.queued?).Nodup
  once : (log.filterMap SubmitEvent.answered?).Nodup
  ids : Log.Ordered AnswersQueued log
  accepted : Log.Ordered AcceptedAfter log
  rejected : RejectedFirst log

/-- The condition: a submit that waits when the pool acknowledges its number was written. -/
def AcksWritten (x : Exchange × List SubmitEvent) : ExchangeEvent → Prop
  | .frame frame => frame.msgType = .submitSharesSuccess →
    ∀ ack ∈ Sv2.parseSubmitSuccess decode frame, ∀ p ∈ x.1.state.pendingSubmits, p.1 ≤ ack.1 →
      .written p.1 ∈ x.2
  | _ => True

instance (x : Exchange × List SubmitEvent) : DecidablePred (AcksWritten decode x) := fun e => by
  rcases e with _ | _ | _ <;> dsimp only [AcksWritten] <;> infer_instance

variable {decode lib}

/-! ## The queue -/

/-- The front of the queue is answered. -/
theorem drainAcked_eq (last : Nat) (q : List (Nat × Option Value)) :
    drainAcked last q = ((q.takeWhile fun p => decide (p.1 ≤ last)).map Prod.snd,
      q.dropWhile fun p => decide (p.1 ≤ last)) := by
  induction q with
  | nil => rfl
  | cons p q ih =>
    obtain ⟨seq, id⟩ := p
    unfold drainAcked
    by_cases hle : seq ≤ last
    · simp [hle, ih]
    · simp [hle]

/-- A rejected submit leaves the queue. -/
theorem removeSeq_eq (seq : Nat) (q : List (Nat × Option Value)) :
    removeSeq seq q = ((q.find? fun p => decide (p.1 = seq)).map Prod.snd,
      q.eraseP fun p => decide (p.1 = seq)) := by
  unfold removeSeq
  cases hfind : q.find? fun p => decide (p.1 = seq) with
  | none =>
    rw [List.eraseP_of_forall_not (List.find?_eq_none.mp hfind)]
    rfl
  | some p => rfl

/-- A notify answers no submit. -/
theorem emitTranslateNotify_results (prev : Sv2.SetNewPrevHash) (job : Sv2.NewExtendedMiningJob)
    (clean : Bool) :
    (emitTranslateNotify lib prev job clean).filterMap SessionCall.result? = [] := by
  unfold emitTranslateNotify
  cases lib.notifyLine prev job clean <;> rfl

/-- The calls of the reader are the answers of the history. -/
theorem handleSv2Frame_results (frame : Sv2Frame) (s : Sv2UpState) :
    (handleSv2Frame decode lib frame s).2.filterMap SessionCall.result? =
      (answersTo decode frame s).filterMap SubmitEvent.result? := by
  unfold handleSv2Frame answersTo
  split <;> rename_i htype <;> simp only [htype]
  · split
    · split
      · exact emitTranslateNotify_results ..
      · rfl
    · rfl
  · split
    · split
      · exact emitTranslateNotify_results ..
      · rfl
    · rfl
  · split <;> rfl
  · cases hack : Sv2.parseSubmitSuccess decode frame with
    | none => rfl
    | some ack =>
      simp only [drainAcked_eq, List.map_map]
      change List.filterMap SessionCall.result? (List.map _ _) =
        List.filterMap SubmitEvent.result? (List.map _ _)
      rw [List.filterMap_map, List.filterMap_map]
      rfl
  · cases hreject : Sv2.parseSubmitErrorSeq decode frame with
    | none => rfl
    | some seq =>
      simp only [removeSeq_eq]
      cases s.pendingSubmits.find? fun p => decide (p.1 = seq) <;> rfl
  · rfl

/-- What a frame does to the queue. -/
inductive QueueStep (frame : Sv2Frame) (s s' : Sv2UpState) : List SubmitEvent → Prop where
  /-- The front of the queue is acknowledged. -/
  | acked (last count : Nat) (htype : frame.msgType = .submitSharesSuccess)
      (hack : Sv2.parseSubmitSuccess decode frame = some (last, count))
      (hqueue : s'.pendingSubmits = s.pendingSubmits.dropWhile fun p => decide (p.1 ≤ last)) :
      QueueStep frame s s' (.acked last :: (s.pendingSubmits.takeWhile fun p =>
        decide (p.1 ≤ last)).map fun p => .answered p.1 p.2 true)
  /-- One submit is rejected. -/
  | rejected (seq : Nat)
      (hqueue : s'.pendingSubmits = s.pendingSubmits.eraseP fun p => decide (p.1 = seq)) :
      QueueStep frame s s' (.rejected seq :: ((s.pendingSubmits.find? fun p =>
        decide (p.1 = seq)).map fun p => .answered p.1 p.2 false).toList)
  | other (hqueue : s'.pendingSubmits = s.pendingSubmits) : QueueStep frame s s' []

theorem handleSv2Frame_queue (frame : Sv2Frame) (s : Sv2UpState) :
    (handleSv2Frame decode lib frame s).1.nextSeq = s.nextSeq ∧
      @QueueStep decode frame s (handleSv2Frame decode lib frame s).1
        (answersTo decode frame s) := by
  unfold handleSv2Frame answersTo
  split <;> rename_i htype <;> simp only [htype]
  · split <;> exact ⟨rfl, .other rfl⟩
  · split <;> exact ⟨rfl, .other rfl⟩
  · split <;> exact ⟨rfl, .other rfl⟩
  · cases hack : Sv2.parseSubmitSuccess decode frame with
    | none => exact ⟨rfl, .other rfl⟩
    | some ack =>
      refine ⟨rfl, .acked ack.1 ack.2 htype hack ?_⟩
      simp only [drainAcked_eq]
  · cases hreject : Sv2.parseSubmitErrorSeq decode frame with
    | none => exact ⟨rfl, .other rfl⟩
    | some seq =>
      refine ⟨rfl, .rejected seq ?_⟩
      simp only [removeSeq_eq]
  · exact ⟨trivial, .other rfl⟩

/-- A line is at most queued. -/
theorem queued_of_line {x : Exchange} {line : RpcMessage} {e : SubmitEvent}
    (h : e ∈ submitEvents decode lib x (.line line)) : ∃ seq id, e = .queued seq id := by
  simp only [submitEvents] at h
  split at h
  · exact ⟨_, _, List.mem_singleton.mp h⟩
  · cases h

/-- A write is at most a write. -/
theorem written_of_write {x : Exchange} {ok : Bool} {e : SubmitEvent}
    (h : e ∈ submitEvents decode lib x (.write ok)) : ∃ seq, e = .written seq := by
  simp only [submitEvents] at h
  split at h
  · exact ⟨_, List.mem_singleton.mp h⟩
  · cases h

/-! ## The invariant -/

/-- The queue is what was queued and not answered, in order. -/
structure Ledger (s : Sv2UpState) (log : List SubmitEvent) : Prop where
  below : ∀ seq id, .queued seq id ∈ log → seq < s.nextSeq
  numbered : (log.filterMap SubmitEvent.queued?).Nodup
  sorted : s.pendingSubmits.Pairwise fun p q => p.1 < q.1
  waiting : ∀ p ∈ s.pendingSubmits, .queued p.1 p.2 ∈ log ∧
    p.1 ∉ log.filterMap SubmitEvent.answered?
  kept : ∀ seq id, .queued seq id ∈ log →
    seq ∈ log.filterMap SubmitEvent.answered? ∨ (seq, id) ∈ s.pendingSubmits
  once : (log.filterMap SubmitEvent.answered?).Nodup
  ids : Log.Ordered AnswersQueued log
  rejected : RejectedFirst log

theorem Ledger.fresh (channelId : Nat) : Ledger (Exchange.fresh channelId).state [] where
  below := nofun
  numbered := List.nodup_nil
  sorted := List.Pairwise.nil
  waiting := nofun
  kept := nofun
  once := List.nodup_nil
  ids := .nil
  rejected first seq rest h := by simp at h

theorem AnswersQueued.mono (before more : List SubmitEvent) (e : SubmitEvent)
    (h : AnswersQueued before e) : AnswersQueued (before ++ more) e :=
  fun seq id ok he => List.mem_append_left _ (h seq id ok he)

/-- New events, of which each rejection is answered as it has to be. -/
theorem RejectedFirst.extend {log new : List SubmitEvent} (h : RejectedFirst log)
    (hnew : ∀ mid seq rest, new = mid ++ .rejected seq :: rest → ∀ id,
      .queued seq id ∈ log ++ mid → seq ∉ (log ++ mid).filterMap SubmitEvent.answered? →
        rest.head? = some (.answered seq id false)) : RejectedFirst (log ++ new) := by
  intro first seq rest heq id hqueued hanswered
  rcases List.append_eq_append_iff.mp heq with ⟨mid, rfl, hx⟩ | ⟨mid, hlog, hx⟩
  · exact hnew mid seq rest hx id hqueued hanswered
  · cases mid with
    | nil =>
      rw [List.append_nil] at hlog
      subst hlog
      exact hnew [] seq rest hx.symm id (by simpa using hqueued) (by simpa using hanswered)
    | cons e mid =>
      rw [List.cons_append] at hx
      obtain ⟨rfl, hrest⟩ := List.cons.inj hx
      rw [hrest, List.head?_append, h first seq mid hlog id hqueued hanswered]
      rfl

namespace Ledger

variable {s s' : Sv2UpState} {log : List SubmitEvent}

/-- Only what was queued is answered. -/
theorem answered_below (h : Ledger s log) {seq : Nat}
    (hseq : seq ∈ log.filterMap SubmitEvent.answered?) : seq < s.nextSeq := by
  obtain ⟨e, he, hanswered⟩ := List.mem_filterMap.mp hseq
  obtain ⟨before, after, hlog⟩ := List.append_of_mem he
  cases e <;> cases hanswered
  have hqueued := h.ids before _ after hlog _ _ _ rfl
  exact h.below _ _ (hlog ▸ List.mem_append_left _ hqueued)

/-- A submit waits once. -/
theorem waits_once (h : Ledger s log) {p q : Nat × Option Value} (hp : p ∈ s.pendingSubmits)
    (hq : q ∈ s.pendingSubmits) (heq : p.1 = q.1) : p = q := by
  have hnodup : (s.pendingSubmits.map Prod.fst).Nodup :=
    (List.pairwise_map.mpr h.sorted).imp fun hlt => hlt.ne
  exact List.inj_on_of_nodup_map hnodup hp hq heq

/-- The writer queues a submit. -/
theorem queue (h : Ledger s log) (id : Option Value) :
    Ledger { s with
      nextSeq := s.nextSeq + 1
      pendingSubmits := s.pendingSubmits ++ [(s.nextSeq, id)] }
      (log ++ [.queued s.nextSeq id]) := by
  have hanswered : (log ++ [SubmitEvent.queued s.nextSeq id]).filterMap SubmitEvent.answered? =
      log.filterMap SubmitEvent.answered? := by
    rw [List.filterMap_append]
    exact List.append_nil _
  refine ⟨?_, ?_, ?_, ?_, ?_, ?_, ?_, ?_⟩
  · intro seq id' hqueued
    rcases List.mem_append.mp hqueued with hold | hnew
    · exact Nat.lt_succ_of_lt (h.below seq id' hold)
    · cases List.mem_singleton.mp hnew
      exact Nat.lt_succ_self _
  · rw [List.filterMap_append]
    refine List.nodup_append.mpr ⟨h.numbered, List.nodup_singleton _, ?_⟩
    intro seq hseq seq' hseq' heq
    obtain ⟨e, he, hqueued⟩ := List.mem_filterMap.mp hseq
    cases e <;> cases hqueued
    rw [List.mem_singleton.mp hseq'] at heq
    exact absurd (h.below _ _ he) (by omega)
  · refine List.pairwise_append.mpr ⟨h.sorted, List.pairwise_singleton _ _, ?_⟩
    intro p hp q hq
    rw [List.mem_singleton.mp hq]
    exact h.below _ _ (h.waiting p hp).1
  · rw [hanswered]
    intro p hp
    rcases List.mem_append.mp hp with hold | hnew
    · exact ⟨List.mem_append_left _ (h.waiting p hold).1, (h.waiting p hold).2⟩
    · rw [List.mem_singleton.mp hnew]
      refine ⟨List.mem_append_right _ List.mem_cons_self, fun hmem => ?_⟩
      exact absurd (h.answered_below hmem) (Nat.lt_irrefl _)
  · rw [hanswered]
    intro seq id' hqueued
    rcases List.mem_append.mp hqueued with hold | hnew
    · exact (h.kept seq id' hold).imp_right fun hwaits => List.mem_append_left _ hwaits
    · cases List.mem_singleton.mp hnew
      exact Or.inr (List.mem_append_right _ List.mem_cons_self)
  · rw [hanswered]
    exact h.once
  · refine h.ids.snoc ?_
    intro seq id' ok heq
    cases heq
  · refine h.rejected.extend fun mid seq rest heq => ?_
    have hmem : SubmitEvent.rejected seq ∈ [SubmitEvent.queued s.nextSeq id] := by
      simp [heq]
    cases List.mem_singleton.mp hmem

/-- A step that leaves the queue alone, and tells of no answer. -/
theorem quiet (h : Ledger s log) {new : List SubmitEvent} (hnext : s'.nextSeq = s.nextSeq)
    (hqueue : s'.pendingSubmits = s.pendingSubmits)
    (hnew : ∀ e ∈ new, ∃ seq, e = .written seq) : Ledger s' (log ++ new) := by
  have hqueued : new.filterMap SubmitEvent.queued? = [] := by
    refine List.filterMap_eq_nil_iff.mpr fun e he => ?_
    obtain ⟨_, rfl⟩ := hnew e he
    rfl
  have hanswered : new.filterMap SubmitEvent.answered? = [] := by
    refine List.filterMap_eq_nil_iff.mpr fun e he => ?_
    obtain ⟨_, rfl⟩ := hnew e he
    rfl
  have hmem : ∀ seq id, SubmitEvent.queued seq id ∈ log ++ new → .queued seq id ∈ log := by
    intro seq id hmem
    rcases List.mem_append.mp hmem with hold | hold
    · exact hold
    · obtain ⟨_, heq⟩ := hnew _ hold
      cases heq
  refine ⟨?_, ?_, ?_, ?_, ?_, ?_, ?_, ?_⟩
  · rw [hnext]
    exact fun seq id hqueued => h.below seq id (hmem seq id hqueued)
  · rw [List.filterMap_append, hqueued, List.append_nil]
    exact h.numbered
  · rw [hqueue]
    exact h.sorted
  · rw [hqueue, List.filterMap_append, hanswered, List.append_nil]
    exact fun p hp => ⟨List.mem_append_left _ (h.waiting p hp).1, (h.waiting p hp).2⟩
  · rw [hqueue, List.filterMap_append, hanswered, List.append_nil]
    exact fun seq id hqueued => h.kept seq id (hmem seq id hqueued)
  · rw [List.filterMap_append, hanswered, List.append_nil]
    exact h.once
  · refine h.ids.append AnswersQueued.mono fun e he seq id ok heq => ?_
    obtain ⟨_, rfl⟩ := hnew e he
    cases heq
  · refine h.rejected.extend fun mid seq rest heq => ?_
    obtain ⟨_, hwritten⟩ := hnew (.rejected seq) (by simp [heq])
    cases hwritten

/-- The reader answers some of those that wait. -/
theorem answer (h : Ledger s log) {mark : SubmitEvent} (gone : List (Nat × Option Value))
    (ok : Bool) (hnext : s'.nextSeq = s.nextSeq) (hmark : mark.queued? = none)
    (hmark' : mark.answered? = none) (hgone : gone.Sublist s.pendingSubmits)
    (hleft : s'.pendingSubmits.Sublist s.pendingSubmits)
    (hsplit : ∀ p ∈ s.pendingSubmits, p ∈ gone ∨ p ∈ s'.pendingSubmits)
    (hdisjoint : ∀ p ∈ gone, p ∉ s'.pendingSubmits)
    (hrejected : RejectedFirst (log ++ mark :: gone.map fun p => .answered p.1 p.2 ok)) :
    Ledger s' (log ++ mark :: gone.map fun p => .answered p.1 p.2 ok) := by
  have hqueued : (mark :: gone.map fun p => SubmitEvent.answered p.1 p.2 ok).filterMap
      SubmitEvent.queued? = [] := by
    rw [List.filterMap_cons, hmark, List.filterMap_map]
    exact List.filterMap_eq_nil_iff.mpr fun _ _ => rfl
  have hanswered : (mark :: gone.map fun p => SubmitEvent.answered p.1 p.2 ok).filterMap
      SubmitEvent.answered? = gone.map Prod.fst := by
    rw [List.filterMap_cons, hmark', List.filterMap_map]
    exact List.filterMap_eq_map_iff_forall_eq_some.mpr fun _ _ => rfl
  have hmem : ∀ seq id,
      SubmitEvent.queued seq id ∈ log ++ mark :: gone.map (fun p => .answered p.1 p.2 ok) →
        .queued seq id ∈ log := by
    intro seq id hmem
    rcases List.mem_append.mp hmem with hold | hnew
    · exact hold
    · rcases List.mem_cons.mp hnew with rfl | hnew
      · cases hmark
      · obtain ⟨_, _, heq⟩ := List.mem_map.mp hnew
        cases heq
  refine ⟨?_, ?_, h.sorted.sublist hleft, ?_, ?_, ?_, ?_, hrejected⟩
  · rw [hnext]
    exact fun seq id hqueued => h.below seq id (hmem seq id hqueued)
  · rw [List.filterMap_append, hqueued, List.append_nil]
    exact h.numbered
  · rw [List.filterMap_append, hanswered]
    intro p hp
    obtain ⟨hin, hnot⟩ := h.waiting p (hleft.subset hp)
    refine ⟨List.mem_append_left _ hin, fun hmem => ?_⟩
    rcases List.mem_append.mp hmem with hold | hnew
    · exact hnot hold
    · obtain ⟨q, hq, heq⟩ := List.mem_map.mp hnew
      rw [h.waits_once (hgone.subset hq) (hleft.subset hp) heq] at hq
      exact hdisjoint p hq hp
  · rw [List.filterMap_append, hanswered]
    intro seq id hqueued
    rcases h.kept seq id (hmem seq id hqueued) with hold | hwaits
    · exact Or.inl (List.mem_append_left _ hold)
    · refine (hsplit _ hwaits).imp_left fun hin => List.mem_append_right _ ?_
      exact List.mem_map.mpr ⟨_, hin, rfl⟩
  · rw [List.filterMap_append, hanswered]
    refine List.nodup_append.mpr ⟨h.once, ?_, ?_⟩
    · exact (List.pairwise_map.mpr (h.sorted.sublist hgone)).imp fun hlt => hlt.ne
    · intro seq hold seq' hnew heq
      obtain ⟨p, hp, rfl⟩ := List.mem_map.mp hnew
      exact (h.waiting p (hgone.subset hp)).2 (heq ▸ hold)
  · refine h.ids.append AnswersQueued.mono fun e he seq id ok' heq => ?_
    rcases List.mem_cons.mp he with rfl | hnew
    · rw [heq] at hmark'
      cases hmark'
    · obtain ⟨p, hp, hof⟩ := List.mem_map.mp hnew
      rw [heq] at hof
      cases hof
      exact (h.waiting p (hgone.subset hp)).1

/-- An acknowledgement. -/
theorem ack (h : Ledger s log) (last : Nat) (hnext : s'.nextSeq = s.nextSeq)
    (hqueue : s'.pendingSubmits = s.pendingSubmits.dropWhile fun p => decide (p.1 ≤ last)) :
    Ledger s' (log ++ .acked last :: (s.pendingSubmits.takeWhile fun p =>
      decide (p.1 ≤ last)).map fun p => .answered p.1 p.2 true) := by
  have happend := List.takeWhile_append_dropWhile (p := fun p : Nat × Option Value =>
    decide (p.1 ≤ last)) (l := s.pendingSubmits)
  refine h.answer _ true hnext rfl rfl (List.takeWhile_prefix _).sublist ?_ ?_ ?_ ?_
  · rw [hqueue]
    exact (List.dropWhile_suffix _).sublist
  · intro p hp
    rw [hqueue]
    rw [← happend] at hp
    exact List.mem_append.mp hp
  · rw [hqueue]
    have hsorted := h.sorted
    rw [← happend] at hsorted
    intro p hp hp'
    exact absurd ((List.pairwise_append.mp hsorted).2.2 p hp p hp') (Nat.lt_irrefl _)
  · refine h.rejected.extend fun mid seq rest heq => ?_
    have hmem : SubmitEvent.rejected seq ∈ SubmitEvent.acked last ::
        (s.pendingSubmits.takeWhile fun p => decide (p.1 ≤ last)).map fun p =>
          .answered p.1 p.2 true := by
      simp [heq]
    simp at hmem

/-- A submit that waits under a number is the one that is found. -/
theorem find_waiting (h : Ledger s log) {seq : Nat} {id : Option Value}
    (hqueued : .queued seq id ∈ log) (hanswered : seq ∉ log.filterMap SubmitEvent.answered?) :
    s.pendingSubmits.find? (fun p => decide (p.1 = seq)) = some (seq, id) := by
  have hwaits := (h.kept seq id hqueued).resolve_left hanswered
  cases hfind : s.pendingSubmits.find? fun p => decide (p.1 = seq) with
  | none =>
    have hnone := List.find?_eq_none.mp hfind (seq, id) hwaits
    simp at hnone
  | some p =>
    have hseq : p.1 = seq := by simpa using List.find?_some hfind
    rw [h.waits_once (List.mem_of_find?_eq_some hfind) hwaits hseq]

/-- The first submit of a number is the only one: no other waits once it is erased. -/
theorem erased_gone (h : Ledger s log) {p : Nat × Option Value} (hp : p ∈ s.pendingSubmits) :
    p ∉ s.pendingSubmits.eraseP fun q => decide (q.1 = p.1) := by
  intro hleft
  rcases List.exists_or_eq_self_of_eraseP (fun q => decide (q.1 = p.1)) s.pendingSubmits with
    hself | ⟨a, l₁, l₂, _, ha, hsplit, herase⟩
  · have hnone := List.eraseP_eq_self_iff.mp hself p hp
    simp at hnone
  · have hsorted := h.sorted
    rw [hsplit] at hsorted
    rw [herase] at hleft
    have haseq : a.1 = p.1 := of_decide_eq_true ha
    obtain ⟨_, hsecond, hfirst⟩ := List.pairwise_append.mp hsorted
    rcases List.mem_append.mp hleft with hl | hl
    · exact absurd (hfirst p hl a List.mem_cons_self) (by omega)
    · exact absurd ((List.pairwise_cons.mp hsecond).1 p hl) (by omega)

/-- A rejection. -/
theorem reject (h : Ledger s log) (seq : Nat) (hnext : s'.nextSeq = s.nextSeq)
    (hqueue : s'.pendingSubmits = s.pendingSubmits.eraseP fun p => decide (p.1 = seq)) :
    Ledger s' (log ++ .rejected seq :: ((s.pendingSubmits.find? fun p =>
      decide (p.1 = seq)).map fun p => .answered p.1 p.2 false).toList) := by
  cases hfind : s.pendingSubmits.find? fun p => decide (p.1 = seq) with
  | none =>
    have hsame : s'.pendingSubmits = s.pendingSubmits := by
      rw [hqueue, List.eraseP_of_forall_not (List.find?_eq_none.mp hfind)]
    refine h.answer [] false hnext rfl rfl (List.nil_sublist _) ?_ ?_ nofun ?_
    · rw [hsame]
    · rw [hsame]
      exact fun p hp => Or.inr hp
    · refine h.rejected.extend fun mid seq' rest heq id hqueued hanswered => ?_
      obtain ⟨rfl, hcons⟩ | ⟨_, _, hnil⟩ := List.cons_eq_append_iff.mp heq
      · cases hcons
        rw [List.append_nil] at hqueued hanswered
        rw [h.find_waiting hqueued hanswered] at hfind
        cases hfind
      · simp at hnil
  | some p =>
    have hseq : p.1 = seq := by simpa using List.find?_some hfind
    have hp := List.mem_of_find?_eq_some hfind
    have hother : ∀ q, q ∈ s.pendingSubmits → q ≠ p → q ∈ s'.pendingSubmits := by
      intro q hq hne
      rw [hqueue]
      refine (List.mem_eraseP_of_neg ?_).mpr hq
      simpa using fun heq => hne (h.waits_once hq hp (heq.trans hseq.symm))
    refine h.answer [p] false hnext rfl rfl (List.singleton_sublist.mpr hp) ?_ ?_ ?_ ?_
    · rw [hqueue]
      exact List.eraseP_sublist
    · intro q hq
      by_cases hqp : q = p
      · exact Or.inl (List.mem_singleton.mpr hqp)
      · exact Or.inr (hother q hq hqp)
    · intro q hq hleft
      rw [List.mem_singleton.mp hq, hqueue, ← hseq] at hleft
      exact h.erased_gone hp hleft
    · refine h.rejected.extend fun mid seq' rest heq id hqueued hanswered => ?_
      obtain ⟨rfl, hcons⟩ | ⟨mid', _, hrest⟩ := List.cons_eq_append_iff.mp heq
      · cases hcons
        rw [List.append_nil] at hqueued hanswered
        have hfound := h.find_waiting hqueued hanswered
        rw [hfind] at hfound
        cases hfound
        rfl
      · have hmem : SubmitEvent.rejected seq' ∈ [SubmitEvent.answered p.1 p.2 false] := by
          simp [show [SubmitEvent.answered p.1 p.2 false] =
            mid' ++ .rejected seq' :: rest from hrest]
        cases List.mem_singleton.mp hmem

/-- A step of either task. -/
theorem step {x x' : Exchange} {e : ExchangeEvent} (h : Ledger x.state log)
    (hstep : exchangeStep decode lib x e = some x') :
    Ledger x'.state (submitsSoFar decode lib x e log) := by
  cases e with
  | line line =>
    simp only [exchangeStep] at hstep
    split at hstep
    · rename_i hready
      cases hstep
      simp only [submitsSoFar, submitEvents, hready, true_and, translateSubmit_state]
      split
      · exact h.queue line.id
      · rw [List.append_nil]
        exact h
    · cases hstep
  | write ok =>
    simp only [exchangeStep] at hstep
    split at hstep <;> cases hstep <;> exact h.quiet rfl rfl fun _ he => written_of_write he
  | frame frame =>
    cases hstep
    obtain ⟨hnext, hqueue⟩ := @handleSv2Frame_queue decode lib frame x.state
    change Ledger _ (log ++ answersTo decode frame x.state)
    generalize answersTo decode frame x.state = answers at hqueue ⊢
    cases hqueue with
    | acked last count htype hack hqueue => exact h.ack last hnext hqueue
    | rejected seq hqueue => exact h.reject seq hnext hqueue
    | other hqueue => exact h.quiet hnext hqueue (List.forall_mem_nil _)

end Ledger

/-! ## The result -/

/-- A step under the condition accepts only what was written. -/
theorem acceptedAfter_step {x x' : Exchange} {e : ExchangeEvent} {log : List SubmitEvent}
    (h : Log.Ordered AcceptedAfter log) (hwritten : AcksWritten decode (x, log) e)
    (hstep : exchangeStep decode lib x e = some x') :
    Log.Ordered AcceptedAfter (submitsSoFar decode lib x e log) := by
  have hquiet : ∀ new : List SubmitEvent, (∀ e ∈ new, ∀ seq id, e ≠ .answered seq id true) →
      Log.Ordered AcceptedAfter (log ++ new) := fun new hnew =>
    h.extend fun before e after heq seq id he => absurd he (hnew e (by simp [heq]) seq id)
  cases e with
  | line line =>
    refine hquiet _ fun e he seq id heq => ?_
    obtain ⟨_, _, rfl⟩ := queued_of_line he
    cases heq
  | write ok =>
    refine hquiet _ fun e he seq id heq => ?_
    obtain ⟨_, rfl⟩ := written_of_write he
    cases heq
  | frame frame =>
    cases hstep
    obtain ⟨_, hqueue⟩ := @handleSv2Frame_queue decode lib frame x.state
    change Log.Ordered AcceptedAfter (log ++ answersTo decode frame x.state)
    generalize answersTo decode frame x.state = answers at hqueue ⊢
    cases hqueue with
    | acked last count htype hack hqueue =>
      refine h.extend fun before e after heq seq id he => ?_
      subst he
      cases before with
      | nil => cases heq
      | cons mark before =>
        obtain ⟨rfl, hrest⟩ := List.cons.inj heq
        have hmem : SubmitEvent.answered seq id true ∈ (x.state.pendingSubmits.takeWhile fun p =>
            decide (p.1 ≤ last)).map fun p => .answered p.1 p.2 true := by
          simp [hrest]
        obtain ⟨p, hp, heq⟩ := List.mem_map.mp hmem
        cases heq
        have hle : p.1 ≤ last := by simpa using List.mem_takeWhile_imp hp
        have hwaits := (List.takeWhile_prefix _).subset hp
        obtain ⟨first, mid, hlog⟩ := List.append_of_mem
          (hwritten htype (last, count) hack p hwaits hle)
        refine ⟨first, mid ++ .acked last :: before, last, ?_, ?_, hle⟩
        · rw [show log = first ++ .written p.1 :: mid from hlog, List.append_assoc,
            List.cons_append]
        · exact List.mem_append_right _ List.mem_cons_self
    | rejected seq hqueue =>
      refine hquiet _ fun e he seq' id heq => ?_
      subst heq
      simp at he
    | other hqueue => exact hquiet [] fun _ he => nomatch he

/-- In every run in which the submits that an acknowledgement covers were written, the answers
are honest. -/
theorem submit_results_are_honest {x : Exchange × List SubmitEvent}
    (h : ResultsReach decode lib (AcksWritten decode) x) : Honest x.2 := by
  obtain ⟨channelId, hrun⟩ := h
  have hinv : Ledger x.1.state x.2 ∧ Log.Ordered AcceptedAfter x.2 := by
    refine hrun.invariant (I := fun x => Ledger x.1.state x.2 ∧ Log.Ordered AcceptedAfter x.2)
      ⟨.fresh channelId, .nil⟩ ?_
    rintro ⟨x, log⟩ e ⟨y, log'⟩ ⟨hledger, haccepted⟩ hwritten hnext
    obtain ⟨hstep, rfl⟩ := observed_eq_some.mp hnext
    exact ⟨hledger.step hstep, acceptedAfter_step haccepted hwritten hstep⟩
  exact ⟨hinv.1.numbered, hinv.1.once, hinv.1.ids, hinv.2, hinv.1.rejected⟩

/-! ## A concrete connection -/

/-- A library that reads the five texts of a submit.  A share names its job by a number. -/
def submitLibrary : Sv2Library where
  submit line := match line.params with
    | some (.arr [.str userName, .str jobId, .str extranonce2, .str time, .str nonce]) => do
      let bytes ← (Sv2.bytesOfHex extranonce2.toList).bind Sv2.b032
      let time ← Sv2.parseHexU32 time
      let nonce ← Sv2.parseHexU32 nonce
      some {
        id := (line.id.bind Value.asU64).getD 0
        userName, jobId, extranonce2 := bytes, time, nonce, versionBits := none }
    | _ => none
  share submit channelId sequenceNumber version _ :=
    (parseU32 submit.jobId).map fun jobId => {
      channelId, sequenceNumber, jobId, version
      nonce := submit.nonce, ntime := submit.time, extranonce := some submit.extranonce2 }
  notifyLine _ _ _ := none

/-- A submit of the miner. -/
def submitLine (id : Nat) (jobId : String) : RpcMessage where
  id := some (.num (.int id))
  method := some "mining.submit"
  params := some (.arr [.str "bc1q.rig", .str jobId, .str "00000000", .str "65f00000",
    .str "00000001"])

/-- A test on the state and the history that a schedule ends in. -/
theorem exists_of_exchange {G : Exchange × List SubmitEvent → ExchangeEvent → Prop}
    [hG : ∀ x, DecidablePred (G x)] (es : List ExchangeEvent)
    {p : Exchange × List SubmitEvent → Bool}
    (h : (runWhile (observed (exchangeStep Sv2.wireDecoder submitLibrary)
      (submitsSoFar Sv2.wireDecoder submitLibrary)) (fun x e => decide (G x e))
        (.fresh 1, []) es).any p = true) :
    ∃ x, ResultsReach Sv2.wireDecoder submitLibrary G x ∧ p x = true := by
  obtain ⟨x, hx, hp⟩ := (Option.any_eq_true ..).mp h
  exact ⟨x, ⟨1, .of_runWhile (fun _ _ => of_decide_eq_true) hx⟩, hp⟩

/-- A share that was written is accepted. -/
theorem submit_results_are_honest_one :
    ∃ x, ResultsReach Sv2.wireDecoder submitLibrary (AcksWritten Sv2.wireDecoder) x ∧
      .answered 0 (some (.num (.int 7))) true ∈ x.2 ∧ Honest x.2 := by
  obtain ⟨x, hx, hp⟩ := @exists_of_exchange (AcksWritten Sv2.wireDecoder) _
    [.line (submitLine 7 "1"), .write true, .frame ((Sv2.wireFrames 1).success 0 1)]
    (fun x => decide (.answered 0 (some (.num (.int 7))) true ∈ x.2)) (by decide +kernel)
  exact ⟨x, hx, of_decide_eq_true hp, submit_results_are_honest hx⟩

/-- The job of the first submit is no number, so that it has no share.  The second one is written
and acknowledged, and both are accepted. -/
theorem unwritten_submit_is_accepted :
    ∃ x, ResultsReach Sv2.wireDecoder submitLibrary (fun _ _ => True) x ∧
      .answered 0 (some (.num (.int 7))) true ∈ x.2 ∧ .written 0 ∉ x.2 ∧ ¬Honest x.2 := by
  obtain ⟨x, hx, hp⟩ := @exists_of_exchange (fun _ _ => True) _
    [.line (submitLine 7 "x"), .write true, .line (submitLine 8 "1"), .write true,
      .frame ((Sv2.wireFrames 1).success 1 1)]
    (fun x => decide (.answered 0 (some (.num (.int 7))) true ∈ x.2) &&
      decide (.written 0 ∉ x.2)) (by decide +kernel)
  simp only [Bool.and_eq_true, decide_eq_true_eq] at hp
  refine ⟨x, hx, hp.1, hp.2, fun hhonest => ?_⟩
  obtain ⟨before, after, hlog⟩ := List.append_of_mem hp.1
  obtain ⟨first, mid, _, hbefore, _, _⟩ := hhonest.accepted before _ after hlog 0 _ rfl
  refine hp.2 ?_
  rw [hlog, hbefore]
  simp

end RentalProxy.Sv1
