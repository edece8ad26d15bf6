import RentalProxy.Lib.History
import RentalProxy.Sv2.Headers

/-!
# The answers to the shares of an SV2 miner

The writer of a translated upstream enters a share in `submit_seq` under a fresh id, and
translates and writes it after that, so that the reader may run in between.  The reader answers
the share that a response of the pool names.

A share is lost in two places.  The writer passes over a share whose job is not in the job map,
which is cleared as a whole when 64 jobs are in it, the latest one included.  And a share that
cannot be translated stays in `submit_seq` and is never written.

* `exchangeStep` is one step of one of the two tasks, `ShareEvent` what happens to the shares.
* `NoneVanished` is the property, `Passes` the condition on a step.
* `Ledger` is the invariant: `submit_seq` holds the shares that were entered and not answered.
* `no_share_vanishes` is the result.
-/

namespace RentalProxy.Sv2

open StepSystem

/-! ## The connection -/

/-- Where the writer stands. -/
inductive ShareWriter where
  | ready
  /-- A share was entered under this id.  `none` when it cannot be translated. -/
  | holds (id : Nat) (submit : Option Sv1Submit)
  /-- A write has failed. -/
  | stopped

/-- The id of the share that the writer has in hand. -/
def ShareWriter.inHand? : ShareWriter → Option Nat
  | .holds id _ => some id
  | .ready => none
  | .stopped => none

/-- A connection to an SV1 pool, as its two tasks see it. -/
structure Exchange where
  state : Sv1UpState
  writer : ShareWriter

/-- A connection that was just made. -/
def Exchange.fresh (conn : Sv1UpConn) (userName : String) (extended : Bool) : Exchange where
  state := .new conn userName extended
  writer := .ready

inductive ExchangeEvent where
  /-- The writer takes a frame of the miner. -/
  | frame (frame : Sv2Frame)
  /-- The writer writes the share that it holds, which may fail. -/
  | write (ok : Bool)
  /-- The reader takes a line of the pool. -/
  | line (line : RpcMessage)

/-- The extranonce that a share goes up with, when its job is remembered. -/
def Sv1UpState.extranonceOf (s : Sv1UpState) (share : SubmitShares) : Option (List UInt8) :=
  (s.jobMap.lookup share.jobId).bind fun info => share.extranonce.orElse fun _ => info.extranonce2

/-- The id that the writer enters a share under. -/
def Sv1UpState.entryId (s : Sv1UpState) (share : SubmitShares) : Option Nat :=
  (s.extranonceOf share).map fun _ => s.nextSubmitId

variable (decode : Decoder) (lib : Sv1Library) (downCid : Nat)

/-- One step of one task. -/
def exchangeStep (x : Exchange) : ExchangeEvent → Option Exchange
  | .frame frame =>
    match x.writer with
    | .ready =>
      let (state, submit) := translateSubmit decode frame x.state
      some ⟨state, match (shareOf decode frame).bind x.state.entryId with
        | some id => .holds id submit
        | none => .ready⟩
    | _ => none
  | .write ok =>
    match x.writer with
    | .holds _ none => some { x with writer := .ready }
    | .holds _ (some _) => some { x with writer := if ok then .ready else .stopped }
    | _ => none
  | .line line => some { x with state := (handleSv1Line lib downCid line x.state).1 }

/-! ## The history -/

/-- What happens to the shares of a connection. -/
inductive ShareEvent where
  /-- The miner is sent a job. -/
  | offered (jobId : Nat)
  /-- The writer has taken a share, and has entered it under this id or passed it over. -/
  | taken (sequenceNumber : Nat) (id : Option Nat)
  /-- The `mining.submit` of this id was written to the pool. -/
  | written (id : Nat)
  /-- A response with this id came, and the miner is sent the result of a share. -/
  | answered (id : Option Nat) (sequenceNumber : Nat) (ok : Bool)
deriving DecidableEq

namespace ShareEvent

def entered? : ShareEvent → Option Nat
  | .taken _ id => id
  | _ => none

/-- The miner is sent the result of the share with this id. -/
def answers (id : Nat) : ShareEvent → Bool
  | .answered id' _ _ => decide (id' = some id)
  | _ => false

end ShareEvent

/-- The result of a share that a call of the reader sends to the miner. -/
def SessionCall.result? : SessionCall → Option (Nat × Bool)
  | .sendTranslateFrame (.built (.submitSharesSuccess _ last _ _)) => some (last, true)
  | .sendTranslateFrame (.built (.submitSharesError _ seq _)) => some (seq, false)
  | _ => none

/-- What a step does to the shares. -/
def shareEvents (x : Exchange) : ExchangeEvent → List ShareEvent
  | .frame frame =>
    match x.writer, shareOf decode frame with
    | .ready, some share => [.taken share.sequenceNumber (x.state.entryId share)]
    | _, _ => []
  | .write ok =>
    match x.writer, ok with
    | .holds id (some _), true => [.written id]
    | _, _ => []
  | .line line =>
    let calls := (handleSv1Line lib downCid line x.state).2
    ((calls.filterMap SessionCall.job?).filterMap Mining.jobId?).map .offered ++
      (calls.filterMap SessionCall.result?).map fun (seq, ok) =>
        .answered (line.id.bind Value.asU64) seq ok

/-- What happened to the shares so far. -/
def sharesSoFar (x : Exchange) (e : ExchangeEvent) (past : List ShareEvent) : List ShareEvent :=
  past ++ shareEvents decode lib downCid x e

/-- The states that a connection can reach, with what happened to the shares. -/
def SharesReach (G : Exchange × List ShareEvent → ExchangeEvent → Prop)
    (x : Exchange × List ShareEvent) : Prop :=
  ∃ conn userName extended, Run (observed (exchangeStep decode lib downCid)
    (sharesSoFar decode lib downCid)) G (.fresh conn userName extended, []) x

/-! ## The property -/

/-- The results that the miner was sent for the share with this id. -/
def answersTo (id : Nat) (log : List ShareEvent) : List ShareEvent :=
  log.filter (ShareEvent.answers id)

/-- The share waits for the pool and was written to it, or was answered once, under its own
sequence number. -/
def AccountedFor (x : Exchange × List ShareEvent) (id sequenceNumber : Nat) : Prop :=
  (x.1.state.submitSeq.lookup id = some sequenceNumber ∧ .written id ∈ x.2 ∧
      answersTo id x.2 = []) ∨
    ∃ ok, answersTo id x.2 = [.answered (some id) sequenceNumber ok]

/-- Every share that the writer has taken and is done with is accounted for. -/
structure NoneVanished (x : Exchange × List ShareEvent) : Prop where
  /-- No two shares have the same id. -/
  numbered : (x.2.filterMap ShareEvent.entered?).Nodup
  kept : ∀ seq entry, .taken seq entry ∈ x.2 →
    ∃ id, entry = some id ∧ (x.1.writer.inHand? ≠ some id → AccountedFor x id seq)

/-- The condition.  The job of a share that is taken is in the job map and gives it an
extranonce.  A share that the writer holds could be translated and its write succeeds, or the
pool has answered it already. -/
def Passes (x : Exchange × List ShareEvent) : ExchangeEvent → Prop
  | .frame frame => ∀ share ∈ shareOf decode frame, (x.1.state.extranonceOf share).isSome = true
  | .write ok =>
    match x.1.writer with
    | .holds id submit =>
      (submit.isSome = true ∧ ok = true) ∨ x.1.state.submitSeq.lookup id = none
    | _ => True
  | .line _ => True

instance (x : Exchange × List ShareEvent) : DecidablePred (Passes decode x) := fun e => by
  rcases e with _ | _ | _ <;> dsimp only [Passes] <;> try infer_instance
  rcases x.1.writer with _ | _ <;> infer_instance

variable {decode lib downCid}

/-! ## What the two tasks do -/

/-- The writer changes nothing, or enters a share. -/
theorem translateSubmit_entry (frame : Sv2Frame) (s : Sv1UpState) :
    (translateSubmit decode frame s).1 = match shareOf decode frame with
      | some share => if (s.extranonceOf share).isSome then
          { s with
            nextSubmitId := s.nextSubmitId + 1
            submitSeq := s.submitSeq.insert s.nextSubmitId share.sequenceNumber }
        else s
      | none => s := by
  unfold translateSubmit
  split
  · rename_i hshare
    rw [hshare]
  · rename_i share hshare
    rw [hshare]
    dsimp only
    split
    · rename_i hjob
      simp [Sv1UpState.extranonceOf, hjob]
    · rename_i info hjob
      split <;> rename_i hextranonce <;>
        simp only [Sv1UpState.extranonceOf, hjob, Option.bind_some, hextranonce,
          Option.isSome_none, Option.isSome_some, Bool.false_eq_true, if_false, if_true]

/-- What a line of the pool does to the shares. -/
inductive LineStep (s s' : Sv1UpState) : List ShareEvent → Prop where
  | offers (jobs : List Nat) (hsame : s'.submitSeq = s.submitSeq) :
      LineStep s s' (jobs.map .offered)
  | answers (id seq : Nat) (ok : Bool) (hentry : s.submitSeq.lookup id = some seq)
      (herase : s'.submitSeq = s.submitSeq.erase id) :
      LineStep s s' [.answered (some id) seq ok]

/-- A notify answers no share. -/
theorem translateNotify_results (notify : Notify) (s : Sv1UpState) :
    (translateNotify lib downCid notify s).2.filterMap SessionCall.result? = [] := by
  have hprev (asFuture : Bool) : (((if asFuture then
      [Mining.setNewPrevHash (activation notify downCid s.nextJobId)] else []).map fun m =>
        SessionCall.sendTranslateFrame (.built m)).filterMap SessionCall.result?) = [] := by
    cases asFuture <;> rfl
  simp only [translateNotify]
  split
  · rename_i job hjob
    rw [List.map_cons, List.filterMap_cons, hprev]
    split at hjob <;> obtain ⟨_, _, rfl⟩ := Option.map_eq_some_iff.mp hjob <;> rfl
  · rfl

theorem handleSv1Line_shares (x : Exchange) (line : RpcMessage) :
    (handleSv1Line lib downCid line x.state).1.nextSubmitId = x.state.nextSubmitId ∧
      LineStep x.state (handleSv1Line lib downCid line x.state).1
        (shareEvents decode lib downCid x (.line line)) := by
  simp only [shareEvents, handleSv1Line]
  split
  · rename_i notify _
    rw [translateNotify_results, List.map_nil, List.append_nil]
    exact ⟨rfl, .offers _ rfl⟩
  · split
    · rename_i diff _
      cases htarget : setTarget downCid (targetFromDifficulty diff) with
      | none => exact ⟨rfl, .offers [] rfl⟩
      | some frame =>
        obtain ⟨_, _, rfl⟩ := Option.map_eq_some_iff.mp htarget
        exact ⟨rfl, .offers [] rfl⟩
    · split
      · exact ⟨rfl, .offers [] rfl⟩
      · simp only [translateResponse]
        split
        · exact ⟨rfl, .offers [] rfl⟩
        · rename_i id hid
          split
          · exact ⟨rfl, .offers [] rfl⟩
          · rename_i seq hentry
            rw [hid]
            refine ⟨rfl, ?_⟩
            split
            · exact @LineStep.answers x.state _ id seq true hentry rfl
            · exact @LineStep.answers x.state _ id seq false hentry rfl

/-- What a step does to the shares, in one place. -/
inductive Moves (x : Exchange) : ExchangeEvent → Exchange → List ShareEvent → Prop where
  | skip {frame : Sv2Frame} (hready : x.writer = .ready) (hshare : shareOf decode frame = none) :
      Moves x (.frame frame) x []
  | pass {frame : Sv2Frame} {share : SubmitShares} (hready : x.writer = .ready)
      (hshare : shareOf decode frame = some share) (hnone : x.state.extranonceOf share = none) :
      Moves x (.frame frame) x [.taken share.sequenceNumber none]
  | enter {frame : Sv2Frame} {share : SubmitShares} {state : Sv1UpState}
      {submit : Option Sv1Submit} (hready : x.writer = .ready)
      (hshare : shareOf decode frame = some share)
      (hsome : (x.state.extranonceOf share).isSome = true)
      (hnext : state.nextSubmitId = x.state.nextSubmitId + 1)
      (hseq : state.submitSeq =
        x.state.submitSeq.insert x.state.nextSubmitId share.sequenceNumber) :
      Moves x (.frame frame) ⟨state, .holds x.state.nextSubmitId submit⟩
        [.taken share.sequenceNumber (some x.state.nextSubmitId)]
  | write {id : Nat} {submit : Sv1Submit} (hholds : x.writer = .holds id (some submit)) :
      Moves x (.write true) { x with writer := .ready } [.written id]
  /-- The share could not be translated, or its write has failed. -/
  | drop {ok : Bool} {id : Nat} {submit : Option Sv1Submit} {writer : ShareWriter}
      (hholds : x.writer = .holds id submit) (hdrop : ¬(submit.isSome = true ∧ ok = true))
      (hhand : writer.inHand? = none) : Moves x (.write ok) { x with writer } []
  | line {line : RpcMessage} {state : Sv1UpState} {new : List ShareEvent}
      (hnext : state.nextSubmitId = x.state.nextSubmitId) (hline : LineStep x.state state new) :
      Moves x (.line line) { x with state } new

theorem moves_of_exchange {x x' : Exchange} {e : ExchangeEvent}
    (h : exchangeStep decode lib downCid x e = some x') :
    @Moves decode x e x' (shareEvents decode lib downCid x e) := by
  cases e with
  | frame frame =>
    simp only [exchangeStep] at h
    split at h
    · rename_i hready
      cases h
      have hstate := @translateSubmit_entry decode frame x.state
      simp only [shareEvents, hready]
      cases hshare : shareOf decode frame with
      | none =>
        rw [hshare] at hstate
        simp only [hstate, Option.bind_none]
        obtain ⟨state, writer⟩ := x
        subst hready
        exact .skip rfl hshare
      | some share =>
        rw [hshare] at hstate
        simp only [Option.bind_some, Sv1UpState.entryId]
        cases hextranonce : x.state.extranonceOf share with
        | none =>
          simp only [hextranonce, Option.isSome_none, Bool.false_eq_true, if_false] at hstate
          simp only [hstate, Option.map_none]
          obtain ⟨state, writer⟩ := x
          subst hready
          exact .pass rfl hshare hextranonce
        | some extranonce2 =>
          simp only [hextranonce, Option.isSome_some, if_true] at hstate
          exact .enter hready hshare (by rw [hextranonce]; rfl) (by rw [hstate]) (by rw [hstate])
    · cases h
  | write ok =>
    simp only [exchangeStep] at h
    split at h <;> cases h
    · rename_i id hholds
      simp only [shareEvents, hholds]
      exact .drop hholds (fun hboth => by cases hboth.1) rfl
    · rename_i id submit hholds
      simp only [shareEvents, hholds]
      cases ok with
      | true => exact .write hholds
      | false => exact .drop hholds (fun hboth => by cases hboth.2) rfl
  | line line =>
    cases h
    obtain ⟨hnext, hline⟩ := @handleSv1Line_shares decode lib downCid x line
    exact .line hnext hline

/-! ## The invariant -/

theorem answersTo_append (id : Nat) (log new : List ShareEvent) :
    answersTo id (log ++ new) = answersTo id log ++ answersTo id new := List.filter_append ..

theorem answersTo_eq_nil {id : Nat} {log : List ShareEvent}
    (h : ∀ e ∈ log, e.answers id = false) : answersTo id log = [] := by
  refine List.filter_eq_nil_iff.mpr fun e he => ?_
  rw [h e he]
  exact Bool.false_ne_true

theorem answersTo_offered (id : Nat) (jobs : List Nat) :
    answersTo id (jobs.map .offered) = [] := by
  refine answersTo_eq_nil fun e he => ?_
  obtain ⟨_, _, rfl⟩ := List.mem_map.mp he
  rfl

/-- `submit_seq` holds the shares that were entered and not answered. -/
structure Ledger (x : Exchange) (log : List ShareEvent) : Prop where
  below : ∀ seq id, .taken seq (some id) ∈ log → id < x.state.nextSubmitId
  written : ∀ id, .written id ∈ log → id < x.state.nextSubmitId
  numbered : (log.filterMap ShareEvent.entered?).Nodup
  entries : ∀ id seq, x.state.submitSeq.lookup id = some seq →
    .taken seq (some id) ∈ log ∧ answersTo id log = []
  answered : ∀ id, answersTo id log ≠ [] → ∃ seq, .taken seq (some id) ∈ log
  settled : ∀ seq id, .taken seq (some id) ∈ log →
    x.state.submitSeq.lookup id = some seq ∨
      ∃ ok, answersTo id log = [.answered (some id) seq ok]
  inHand : ∀ id, x.writer.inHand? = some id →
    (∃ seq, .taken seq (some id) ∈ log) ∧ .written id ∉ log

namespace Ledger

variable {x x' : Exchange} {log : List ShareEvent}

theorem fresh (conn : Sv1UpConn) (userName : String) (extended : Bool) :
    Ledger (.fresh conn userName extended) [] where
  below seq id h := by cases h
  written id h := by cases h
  numbered := List.nodup_nil
  entries id seq h := by simp [Exchange.fresh, Sv1UpState.new] at h
  answered id h := absurd rfl h
  settled seq id h := by cases h
  inHand id h := by cases h

/-- A number that was not given out yet. -/
theorem unused (h : Ledger x log) :
    x.state.submitSeq.lookup x.state.nextSubmitId = none ∧
      answersTo x.state.nextSubmitId log = [] := by
  have hnot (seq : Nat) : .taken seq (some x.state.nextSubmitId) ∉ log := fun hmem =>
    absurd (h.below seq _ hmem) (Nat.lt_irrefl _)
  constructor
  · cases hlookup : x.state.submitSeq.lookup x.state.nextSubmitId with
    | none => rfl
    | some seq => exact absurd (h.entries _ seq hlookup).1 (hnot seq)
  · by_contra hanswers
    obtain ⟨seq, hmem⟩ := h.answered _ hanswers
    exact hnot seq hmem

/-- A step that enters and answers nothing. -/
theorem quiet (h : Ledger x log) {new : List ShareEvent} (hseq : x'.state.submitSeq =
    x.state.submitSeq) (hnext : x'.state.nextSubmitId = x.state.nextSubmitId)
    (hhand : ∀ id, x'.writer.inHand? = some id → x.writer.inHand? = some id ∧ .written id ∉ new)
    (hentered : new.filterMap ShareEvent.entered? = []) (hanswers : ∀ id, answersTo id new = [])
    (hwritten : ∀ id, .written id ∈ new → id < x.state.nextSubmitId) :
    Ledger x' (log ++ new) := by
  have hmem {seq id : Nat} (hin : .taken seq (some id) ∈ log ++ new) :
      .taken seq (some id) ∈ log := by
    rcases List.mem_append.mp hin with hold | hnew
    · exact hold
    · have := List.filterMap_eq_nil_iff.mp hentered _ hnew
      cases this
  have hsame (id : Nat) : answersTo id (log ++ new) = answersTo id log := by
    rw [answersTo_append, hanswers, List.append_nil]
  refine ⟨?_, ?_, ?_, ?_, ?_, ?_, ?_⟩
  · rw [hnext]
    exact fun seq id hin => h.below seq id (hmem hin)
  · rw [hnext]
    exact fun id hin => (List.mem_append.mp hin).elim (h.written id) (hwritten id)
  · rw [List.filterMap_append, hentered, List.append_nil]
    exact h.numbered
  · intro id seq hlookup
    rw [hseq] at hlookup
    rw [hsame]
    exact ⟨List.mem_append_left _ (h.entries id seq hlookup).1, (h.entries id seq hlookup).2⟩
  · intro id
    rw [hsame]
    exact fun hne => (h.answered id hne).imp fun _ hin => List.mem_append_left _ hin
  · intro seq id hin
    rw [hsame, hseq]
    exact h.settled seq id (hmem hin)
  · intro id hid
    obtain ⟨hold, hnew⟩ := hhand id hid
    obtain ⟨⟨seq, hin⟩, hnot⟩ := h.inHand id hold
    exact ⟨⟨seq, List.mem_append_left _ hin⟩, fun hmem =>
      (List.mem_append.mp hmem).elim hnot hnew⟩

/-- A share is entered, and the writer has it in hand. -/
theorem enter (h : Ledger x log) (seq : Nat) (hnext : x'.state.nextSubmitId =
    x.state.nextSubmitId + 1) (hseq : x'.state.submitSeq =
      x.state.submitSeq.insert x.state.nextSubmitId seq)
    (hhand : x'.writer.inHand? = some x.state.nextSubmitId) :
    Ledger x' (log ++ [.taken seq (some x.state.nextSubmitId)]) := by
  obtain ⟨_, hunanswered⟩ := h.unused
  have hsame (id : Nat) :
      answersTo id (log ++ [.taken seq (some x.state.nextSubmitId)]) = answersTo id log := by
    rw [answersTo_append]
    exact List.append_nil _
  have hcases {seq' id : Nat}
      (hin : .taken seq' (some id) ∈ log ++ [.taken seq (some x.state.nextSubmitId)]) :
      .taken seq' (some id) ∈ log ∨ (seq' = seq ∧ id = x.state.nextSubmitId) := by
    simpa using hin
  have hunwritten : .written x.state.nextSubmitId ∉ log := fun hin =>
    absurd (h.written _ hin) (Nat.lt_irrefl _)
  refine ⟨?_, ?_, ?_, ?_, ?_, ?_, ?_⟩
  · rw [hnext]
    intro seq' id hin
    rcases hcases hin with hold | ⟨_, rfl⟩
    · exact (h.below seq' id hold).trans (Nat.lt_succ_self _)
    · exact Nat.lt_succ_self _
  · rw [hnext]
    intro id hin
    have hold : .written id ∈ log := by simpa using hin
    exact (h.written id hold).trans (Nat.lt_succ_self _)
  · rw [List.filterMap_append]
    refine List.nodup_append.mpr ⟨h.numbered, List.nodup_singleton _, ?_⟩
    intro id hold id' hnew heq
    obtain ⟨e, he, hid⟩ := List.mem_filterMap.mp hold
    rw [heq, List.mem_singleton.mp hnew] at hid
    cases e with
    | taken seq' entry =>
      rw [show entry = some x.state.nextSubmitId from hid] at he
      exact absurd (h.below seq' _ he) (Nat.lt_irrefl _)
    | _ => cases hid
  · intro id seq' hlookup
    rw [hsame]
    rw [hseq] at hlookup
    by_cases hid : id = x.state.nextSubmitId
    · subst hid
      rw [AList.lookup_insert, Option.some.injEq] at hlookup
      exact ⟨List.mem_append_right _ (by rw [hlookup]; exact List.mem_singleton_self _),
        hunanswered⟩
    · rw [AList.lookup_insert_ne hid] at hlookup
      exact ⟨List.mem_append_left _ (h.entries id seq' hlookup).1, (h.entries id seq' hlookup).2⟩
  · intro id
    rw [hsame]
    exact fun hne => (h.answered id hne).imp fun _ hin => List.mem_append_left _ hin
  · intro seq' id hin
    rw [hsame, hseq]
    rcases hcases hin with hold | ⟨rfl, rfl⟩
    · rw [AList.lookup_insert_ne (h.below seq' id hold).ne]
      exact h.settled seq' id hold
    · exact Or.inl (AList.lookup_insert _)
  · intro id hid
    rw [hhand, Option.some.injEq] at hid
    subst hid
    exact ⟨⟨seq, List.mem_append_right _ (List.mem_singleton_self _)⟩, by simpa using hunwritten⟩

/-- A share is answered. -/
theorem answer (h : Ledger x log) {id seq : Nat} (ok : Bool)
    (hentry : x.state.submitSeq.lookup id = some seq)
    (hnext : x'.state.nextSubmitId = x.state.nextSubmitId)
    (hseq : x'.state.submitSeq = x.state.submitSeq.erase id) (hwriter : x'.writer = x.writer) :
    Ledger x' (log ++ [.answered (some id) seq ok]) := by
  obtain ⟨htaken, hunanswered⟩ := h.entries id seq hentry
  have hmem {seq' id' : Nat} (hin : .taken seq' (some id') ∈ log ++ [.answered (some id) seq ok]) :
      .taken seq' (some id') ∈ log := by simpa using hin
  have hother {id' : Nat} (hne : id' ≠ id) :
      answersTo id' (log ++ [.answered (some id) seq ok]) = answersTo id' log := by
    have hnew : answersTo id' [.answered (some id) seq ok] = [] := by
      refine answersTo_eq_nil fun e he => ?_
      rw [List.mem_singleton.mp he]
      simpa [ShareEvent.answers] using hne.symm
    rw [answersTo_append, hnew, List.append_nil]
  have hown : answersTo id (log ++ [.answered (some id) seq ok]) =
      [.answered (some id) seq ok] := by
    rw [answersTo_append, hunanswered]
    simp [answersTo, ShareEvent.answers]
  have hentered : [ShareEvent.answered (some id) seq ok].filterMap ShareEvent.entered? = [] := rfl
  refine ⟨?_, ?_, ?_, ?_, ?_, ?_, ?_⟩
  · rw [hnext]
    exact fun seq' id' hin => h.below seq' id' (hmem hin)
  · rw [hnext]
    exact fun id' hin => h.written id' (by simpa using hin)
  · rw [List.filterMap_append, hentered, List.append_nil]
    exact h.numbered
  · intro id' seq' hlookup
    rw [hseq] at hlookup
    have hne : id' ≠ id := by
      rintro rfl
      simp at hlookup
    rw [AList.lookup_erase_ne hne] at hlookup
    rw [hother hne]
    exact ⟨List.mem_append_left _ (h.entries id' seq' hlookup).1,
      (h.entries id' seq' hlookup).2⟩
  · intro id' hne'
    by_cases hid : id' = id
    · subst hid
      exact ⟨seq, List.mem_append_left _ htaken⟩
    · rw [hother hid] at hne'
      exact (h.answered id' hne').imp fun _ hin => List.mem_append_left _ hin
  · intro seq' id' hin
    by_cases hid : id' = id
    · subst hid
      rw [hown]
      rcases h.settled seq' id' (hmem hin) with hwaits | ⟨_, hanswered⟩
      · rw [hentry, Option.some.injEq] at hwaits
        exact Or.inr ⟨ok, by rw [hwaits]⟩
      · rw [hunanswered] at hanswered
        cases hanswered
    · rw [hother hid, hseq, AList.lookup_erase_ne hid]
      exact h.settled seq' id' (hmem hin)
  · rw [hwriter]
    intro id' hid
    obtain ⟨⟨seq', hin⟩, hnot⟩ := h.inHand id' hid
    exact ⟨⟨seq', List.mem_append_left _ hin⟩, by simpa using hnot⟩

/-- A step of either task. -/
theorem step {e : ExchangeEvent} {new : List ShareEvent} (h : Ledger x log)
    (hmoves : @Moves decode x e x' new) : Ledger x' (log ++ new) := by
  cases hmoves with
  | skip hready hshare =>
    rw [List.append_nil]
    exact h
  | pass hready hshare hnone =>
    refine h.quiet rfl rfl (fun id hid => ⟨hid, by simp⟩) rfl (fun _ => rfl) (fun id hin => ?_)
    simp at hin
  | enter hready hshare hsome hnext hseq => exact h.enter _ hnext hseq rfl
  | @write id submit hholds =>
    refine h.quiet rfl rfl (fun id hid => by cases hid) rfl (fun _ => rfl) (fun id' hin => ?_)
    obtain ⟨seq, htaken⟩ := (h.inHand id (by rw [hholds]; rfl)).1
    have hid : id' = id := by simpa using hin
    exact hid ▸ h.below seq id htaken
  | drop hholds hdrop hhand =>
    refine h.quiet rfl rfl (fun id hid => ?_) rfl (fun _ => rfl) (fun id' hin => by cases hin)
    rw [hhand] at hid
    cases hid
  | line hnext hline =>
    cases hline with
    | offers jobs hsame =>
      refine h.quiet hsame hnext (fun id hid => ⟨hid, by simp⟩) ?_
        (fun id => answersTo_offered id jobs) (fun id hin => by simp at hin)
      rw [List.filterMap_map]
      exact List.filterMap_eq_nil_iff.mpr fun _ _ => rfl
    | answers id seq ok hentry herase => exact h.answer ok hentry hnext herase rfl

end Ledger

/-! ## The property along a run -/

/-- What accounts for a share goes on to do so. -/
theorem AccountedFor.keep {x x' : Exchange} {log new : List ShareEvent} {id seq : Nat}
    (h : AccountedFor (x, log) id seq)
    (hseq : x'.state.submitSeq.lookup id = x.state.submitSeq.lookup id)
    (hanswers : answersTo id new = []) : AccountedFor (x', log ++ new) id seq := by
  unfold AccountedFor at h ⊢
  rw [answersTo_append, hanswers, List.append_nil, hseq]
  exact h.imp_left fun ⟨hwaits, hwritten, hnone⟩ =>
    ⟨hwaits, List.mem_append_left _ hwritten, hnone⟩

/-- A step keeps every share accounted for exactly when it meets the condition. -/
theorem NoneVanished.step {x x' : Exchange} {e : ExchangeEvent} {log new : List ShareEvent}
    (hledger : Ledger x log) (h : NoneVanished (x, log)) (hmoves : @Moves decode x e x' new) :
    NoneVanished (x', log ++ new) ↔ Passes decode (x, log) e := by
  have hafter := hledger.step hmoves
  have hnumbered := hafter.numbered
  cases hmoves with
  | @skip frame hready hshare =>
    rw [List.append_nil]
    simp only [Passes, hshare]
    exact iff_of_true h fun _ hnone => by cases hnone
  | @pass frame share hready hshare hnone =>
    refine iff_of_false (fun hnew => ?_) (fun hpass => ?_)
    · obtain ⟨id, hid, _⟩ := hnew.kept share.sequenceNumber none
        (List.mem_append_right _ (List.mem_singleton_self _))
      cases hid
    · have hsome := hpass share hshare
      rw [hnone] at hsome
      cases hsome
  | @enter frame share state submit hready hshare hsome hnext hseq =>
    refine iff_of_true ⟨hnumbered, ?_⟩ ?_
    · intro seq entry hin
      rcases List.mem_append.mp hin with hold | hnew
      · obtain ⟨id, rfl, hkept⟩ := h.kept seq entry hold
        refine ⟨id, rfl, fun _ => (hkept ?_).keep ?_ rfl⟩
        · simp [hready, ShareWriter.inHand?]
        · rw [hseq, AList.lookup_insert_ne (hledger.below seq id hold).ne]
      · cases List.mem_singleton.mp hnew
        exact ⟨_, rfl, fun hhand => absurd rfl hhand⟩
    · intro share' hshare'
      rw [hshare] at hshare'
      cases hshare'
      exact hsome
  | @write id submit hholds =>
    refine iff_of_true ⟨hnumbered, ?_⟩ ?_
    · intro seq entry hin
      have hold : .taken seq entry ∈ log := by simpa using hin
      obtain ⟨id', rfl, hkept⟩ := h.kept seq entry hold
      refine ⟨id', rfl, fun _ => ?_⟩
      by_cases hid : id' = id
      · subst hid
        -- it waits, and is written now, or was answered while the writer held it
        rcases hledger.settled seq id' hold with hwaits | hanswered
        · refine Or.inl ⟨hwaits, List.mem_append_right _ (List.mem_singleton_self _), ?_⟩
          rw [answersTo_append, (hledger.entries id' seq hwaits).2]
          rfl
        · refine Or.inr ?_
          rw [answersTo_append]
          exact hanswered.imp fun ok heq => by rw [heq]; rfl
      · refine (hkept ?_).keep rfl rfl
        simpa [hholds, ShareWriter.inHand?] using fun heq => hid heq.symm
    · simp [Passes, hholds]
  | @drop ok id submit writer hholds hdrop hhand =>
    obtain ⟨⟨seq, htaken⟩, hunwritten⟩ := hledger.inHand id (by rw [hholds]; rfl)
    simp only [Passes, hholds, hdrop, false_or]
    rw [List.append_nil] at hnumbered ⊢
    constructor
    · intro hnew
      obtain ⟨_, hid, hkept⟩ := hnew.kept seq (some id) htaken
      cases hid
      rcases hkept (by simp [hhand]) with ⟨_, hwritten, _⟩ | ⟨ok', hanswered⟩
      · exact absurd hwritten hunwritten
      · cases hlookup : x.state.submitSeq.lookup id with
        | none => rfl
        | some seq' =>
          rw [(hledger.entries id seq' hlookup).2] at hanswered
          cases hanswered
    · intro hnone
      refine ⟨hnumbered, fun seq' entry hin => ?_⟩
      obtain ⟨id', rfl, hkept⟩ := h.kept seq' entry hin
      refine ⟨id', rfl, fun _ => ?_⟩
      by_cases hid : id' = id
      · subst hid
        refine Or.inr ((hledger.settled seq' id' hin).resolve_left fun hwaits => ?_)
        rw [hnone] at hwaits
        cases hwaits
      · exact hkept (by simpa [hholds, ShareWriter.inHand?] using fun heq => hid heq.symm)
  | @line line state new hnext hline =>
    refine iff_of_true ⟨hnumbered, fun seq entry hin => ?_⟩ trivial
    cases hline with
    | offers jobs hsame =>
      have hold : .taken seq entry ∈ log := by simpa using hin
      obtain ⟨id, rfl, hkept⟩ := h.kept seq entry hold
      exact ⟨id, rfl, fun hhand => (hkept hhand).keep (by rw [hsame])
        (answersTo_offered id jobs)⟩
    | answers id seq' ok hentry herase =>
      have hold : .taken seq entry ∈ log := by simpa using hin
      obtain ⟨id', rfl, hkept⟩ := h.kept seq entry hold
      refine ⟨id', rfl, fun hhand => ?_⟩
      by_cases hid : id' = id
      · subst hid
        refine Or.inr ((hafter.settled seq id' hin).resolve_left fun hwaits => ?_)
        rw [herase] at hwaits
        simp at hwaits
      · refine (hkept hhand).keep (by rw [herase, AList.lookup_erase_ne hid]) ?_
        simpa [answersTo, ShareEvent.answers] using fun heq => hid heq.symm

/-! ## The result -/

/-- In every run whose steps meet the condition no share vanishes, and a next step keeps it so
exactly when it meets the condition too. -/
theorem no_share_vanishes {x : Exchange × List ShareEvent}
    (h : SharesReach decode lib downCid (Passes decode) x) :
    NoneVanished x ∧ ∀ e y,
      observed (exchangeStep decode lib downCid) (sharesSoFar decode lib downCid) x e = some y →
        (NoneVanished y ↔ Passes decode x e) := by
  obtain ⟨conn, userName, extended, hrun⟩ := h
  have hstep : ∀ x e y, Ledger x.1 x.2 ∧ NoneVanished x →
      observed (exchangeStep decode lib downCid) (sharesSoFar decode lib downCid) x e = some y →
        Ledger y.1 y.2 ∧ (NoneVanished y ↔ Passes decode x e) := by
    rintro ⟨x, log⟩ e ⟨y, log'⟩ ⟨hledger, hnone⟩ hnext
    obtain ⟨hstep, rfl⟩ := observed_eq_some.mp hnext
    have hmoves := moves_of_exchange hstep
    exact ⟨hledger.step hmoves, hnone.step hledger hmoves⟩
  have hinv : Ledger x.1 x.2 ∧ NoneVanished x := by
    refine hrun.invariant (I := fun x => Ledger x.1 x.2 ∧ NoneVanished x)
      ⟨.fresh .., List.nodup_nil, fun seq entry hin => by cases hin⟩ ?_
    intro x e y hx hpass hnext
    obtain ⟨hledger, hiff⟩ := hstep x e y hx hnext
    exact ⟨hledger, hiff.mpr hpass⟩
  exact ⟨hinv.2, fun e y hnext => (hstep x e y hinv hnext).2⟩

/-! ## A concrete connection -/

/-- A share of this job. -/
def shareOfJob (sequenceNumber jobId : Nat) : Sv2Frame where
  msgType := .submitSharesExtended
  payload := leBytes 4 1 ++ leBytes 4 sequenceNumber ++ leBytes 4 jobId ++ leBytes 4 99 ++
    leBytes 4 7 ++ leBytes 4 0x20000000 ++ [4, 1, 2, 3, 4]

/-- The pool accepts the share of this id. -/
def acceptLine (id : Nat) : RpcMessage where
  id := some (.num (.int id))
  result := some (.bool true)

/-- A test on the state and the history that a schedule ends in. -/
theorem exists_of_exchange {G : Exchange × List ShareEvent → ExchangeEvent → Prop}
    [hG : ∀ x, DecidablePred (G x)] (es : List ExchangeEvent)
    {p : Exchange × List ShareEvent → Bool}
    (h : (runWhile (observed (exchangeStep wireDecoder notifyLibrary 1)
      (sharesSoFar wireDecoder notifyLibrary 1)) (fun x e => decide (G x e))
        (.fresh rollingConn "bc1p.rig" true, []) es).any p = true) :
    ∃ x, SharesReach wireDecoder notifyLibrary 1 G x ∧ p x = true := by
  obtain ⟨x, hx, hp⟩ := (Option.any_eq_true ..).mp h
  exact ⟨x, ⟨_, _, _, .of_runWhile (fun _ _ => of_decide_eq_true) hx⟩, hp⟩

/-- Of two shares of a job one is accepted, and the other one waits. -/
theorem no_share_vanishes_two :
    ∃ x, SharesReach wireDecoder notifyLibrary 1 (Passes wireDecoder) x ∧
      .answered (some 1) 7 true ∈ x.2 ∧ .written 2 ∈ x.2 ∧ NoneVanished x := by
  obtain ⟨x, hx, hp⟩ := @exists_of_exchange (Passes wireDecoder) _
    [.line (notifyLine "j1" 7 0 true), .frame (shareOfJob 7 1), .write true,
      .frame (shareOfJob 8 1), .line (acceptLine 1), .write true]
    (fun x => decide (.answered (some 1) 7 true ∈ x.2) && decide (.written 2 ∈ x.2))
    (by decide +kernel)
  simp only [Bool.and_eq_true, decide_eq_true_eq] at hp
  exact ⟨x, hx, hp.1, hp.2, (no_share_vanishes hx).1⟩

/-- Job 64 is on its way to the miner, or worked on, when the 65th notify clears the job map.  Its
share is passed over. -/
theorem share_of_cleared_job_vanishes :
    ∃ x, SharesReach wireDecoder notifyLibrary 1 (fun _ _ => True) x ∧
      .offered 64 ∈ x.2 ∧ .taken 7 none ∈ x.2 ∧ ¬NoneVanished x := by
  obtain ⟨x, hx, hp⟩ := @exists_of_exchange (fun _ _ => True) _
    (List.replicate 65 (.line (notifyLine "j" 7 0 false)) ++ [.frame (shareOfJob 7 64)])
    (fun x => decide (.offered 64 ∈ x.2) && decide (.taken 7 none ∈ x.2)) (by decide +kernel)
  simp only [Bool.and_eq_true, decide_eq_true_eq] at hp
  refine ⟨x, hx, hp.1, hp.2, fun hnone => ?_⟩
  obtain ⟨id, hid, _⟩ := hnone.kept 7 none hp.2
  cases hid

end RentalProxy.Sv2
