import RentalProxy.Sv1.Transitions
import RentalProxy.Lib.Matching

/-!
# What an SV1 session is credited with

Two accounts of the same shares.  The proxy's own is `deliveredWork`, fed from
the table `pending` that is keyed by the ids the miner chooses.  `Audit` keeps
the other one next to it: every forwarded request with its own answer, in the
order the pool answers.

* `acceptedSubmit` is the table entry that a line of the pool turns into work,
  and `step_work` says what a step adds to `deliveredWork` and to the orders.
* `credited_eq_earned` shows that the two accounts agree as long as no request
  is forwarded under an id that clashes with an unanswered submit.
* `false_credit` is a session in which they do not: the answer to another
  request under the same id is booked as an accepted share.
-/

namespace RentalProxy.Sv1

open StepSystem KeyedMatching

/-! ## The work of one step -/

/-- The weight that a line of the pool of generation `g` turns into work: it
accepts a submit that the table knows under this generation. -/
def acceptedSubmit (g : Nat) (msg : RpcMessage) (i : Inner) : Option Rat :=
  if g = i.active.generation ∧ msg.method = none ∧ msg.result = some (.bool true) then
    (i.pending.lookup (idKey msg.id)).bind fun p => if p.1 = g then some p.2 else none
  else none

/-- The work that accepting `count` translated shares adds. -/
def translatedWork (g count : Nat) (i : Inner) : Rat :=
  if g = i.active.generation ∧ 0 < i.currentDifficulty * count then
    i.currentDifficulty * count
  else 0

/-- The work one event adds to the session. -/
def eventWork (r : Relay) : Event → Rat
  | .upstreamLine g msg _ => (acceptedSubmit g msg r.inner).getD 0
  | .translateCredit g count _ => translatedWork g count r.inner
  | _ => 0

/-- The credit for the order goes with the work of the session. -/
def Inner.creditOf (i : Inner) (work : Rat) (o : String) : Rat :=
  if i.routing.orderId? = some o then work else 0

theorem Inner.creditOf_zero (i : Inner) (o : String) : i.creditOf 0 o = 0 := by
  simp [creditOf]

private theorem work_credit_map (b : WorkBuffer) (routing : Routing) (w : Rat) (n : Nat)
    (o : String) :
    ((b.credit (routing.orderId?.map fun id => (id, w, n))).delta o).work =
      (b.delta o).work + if routing.orderId? = some o then w else 0 := by
  cases routing with
  | idle => simp
  | rented id => simp [WorkBuffer.work_addWork, eq_comm]

/-- A response books the weight of the entry it takes out of the table. -/
theorem creditResponse_work (now : Rat) {g : Nat} {msg : RpcMessage} {i : Inner}
    (hg : g = i.active.generation) (hresp : msg.method = none) (b : WorkBuffer) (o : String) :
    (creditResponse now g msg i).1.deliveredWork =
        i.deliveredWork + (acceptedSubmit g msg i).getD 0 ∧
      ((b.credit (creditResponse now g msg i).2).delta o).work =
        (b.delta o).work + i.creditOf ((acceptedSubmit g msg i).getD 0) o := by
  unfold creditResponse acceptedSubmit Inner.creditOf
  rcases hlook : i.pending.lookup (idKey msg.id) with _ | ⟨g', d⟩
  · simp
  · by_cases hacc : g' = g ∧ msg.result = some (.bool true)
    · simp only [hacc, and_self, if_true, work_credit_map]
      simp [hg, hresp]
    · simp only [hacc, if_false]
      have hnone : (if g = i.active.generation ∧ msg.method = none ∧
          msg.result = some (.bool true) then if g' = g then some d else none
          else none) = none := by
        rw [not_and_or] at hacc
        rcases hacc with hold | hrej
        · simp [hold]
        · simp [hrej]
      simp [hnone]

/-- What a line of the pool adds. -/
theorem onUpstreamMsg_work (now : Rat) (g : Nat) (msg : RpcMessage) (i : Inner)
    (b : WorkBuffer) (o : String) :
    (onUpstreamMsg now g msg i).1.deliveredWork =
        i.deliveredWork + (acceptedSubmit g msg i).getD 0 ∧
      ((b.credit (onUpstreamMsg now g msg i).2.1).delta o).work =
        (b.delta o).work + i.creditOf ((acceptedSubmit g msg i).getD 0) o := by
  by_cases hg : g = i.active.generation
  · by_cases hresp : msg.method = none
    · have hcredit := creditResponse_work now hg hresp b o
      simpa [onUpstreamMsg, hg, hresp] using hcredit
    · have hnone : acceptedSubmit g msg i = none := by simp [acceptedSubmit, hresp]
      unfold onUpstreamMsg
      rw [if_neg (by simpa using hg), hnone]
      split_ifs
      · split <;> simp [Inner.creditOf]
      · simp [Inner.creditOf]
  · rw [onUpstreamMsg_stale hg]
    simp [acceptedSubmit, hg, Inner.creditOf]

/-- What the translating reader adds for accepted shares. -/
theorem creditTranslateAccepted_work (now : Rat) (g n : Nat) (i : Inner)
    (b : WorkBuffer) (o : String) :
    (creditTranslateAccepted now g n i).1.deliveredWork =
        i.deliveredWork + translatedWork g n i ∧
      ((b.credit (creditTranslateAccepted now g n i).2).delta o).work =
        (b.delta o).work + i.creditOf (translatedWork g n i) o := by
  unfold creditTranslateAccepted translatedWork Inner.creditOf
  by_cases hg : g = i.active.generation
  · by_cases hpos : 0 < i.currentDifficulty * n
    · simp only [hg, ne_eq, not_true, if_false, hpos, if_true, and_self, work_credit_map]
      simp
    · simp [hg, hpos]
  · simp [hg]

/-- What a step adds to the session and to every order. -/
theorem step_work {r r' : Relay} {e : Event} (h : step r e = some r') (o : String) :
    r'.inner.deliveredWork = r.inner.deliveredWork + eventWork r e ∧
      (r'.orders.delta o).work =
        (r.orders.delta o).work + r.inner.creditOf (eventWork r e) o := by
  cases e with
  | upstreamLine g msg now =>
    simp only [step] at h
    split at h <;> cases h
    exact onUpstreamMsg_work now g msg r.inner r.orders o
  | translateCredit g n now =>
    simp only [step] at h
    split at h <;> cases h
    exact creditTranslateAccepted_work now g n r.inner r.orders o
  | minerMsg msg =>
    simp only [step] at h
    split at h <;> cases h
    have hsame : (onMinerMsg msg r.inner).1.deliveredWork = r.inner.deliveredWork := by
      unfold onMinerMsg
      split_ifs <;> rfl
    refine ⟨by simpa [eventWork] using hsame, ?_⟩
    simp only [eventWork, Inner.creditOf_zero, add_zero]
    split <;> simp
  | swapConnect answer =>
    simp only [step] at h
    split at h
    · split at h
      · cases h
        simp [eventWork, Inner.creditOf]
      · rename_i snap _ raw _
        cases h
        cases raw <;> simp [eventWork, Inner.creditOf, Relay.install, installRaw]
    · cases h
  | minerConfigure msg =>
    simp only [step] at h
    split at h
    · split at h <;> cases h
      simp [eventWork, Inner.creditOf]
    · cases h
  | translateDifficulty g d =>
    simp only [step] at h
    split at h <;> cases h
    unfold setTranslateDifficulty
    split <;> simp [eventWork, Inner.creditOf]
  | translateLine g msg =>
    simp only [step] at h
    split at h <;> cases h
    unfold sendOrStash
    split_ifs <;> simp [eventWork, Inner.creditOf]
  | attachOrder | setDefault =>
    cases h
    simp [eventWork, Inner.creditOf]
  | _ =>
    simp only [step] at h
    split at h <;> cases h <;> simp [eventWork, Inner.creditOf]

/-- The pool accepts a submit that was entered at a negative difficulty. -/
def CreditsNegative (r : Relay) (e : Event) : Prop :=
  match e with
  | .upstreamLine g msg _ => ∃ w ∈ acceptedSubmit g msg r.inner, w < 0
  | _ => False

theorem eventWork_nonneg_iff (r : Relay) (e : Event) :
    0 ≤ eventWork r e ↔ ¬CreditsNegative r e := by
  cases e with
  | upstreamLine g msg now =>
    cases hacc : acceptedSubmit g msg r.inner with
    | none => simp [eventWork, CreditsNegative, hacc]
    | some w => simp [eventWork, CreditsNegative, hacc]
  | translateCredit g n now =>
    -- the translating reader credits positive work only
    simp only [eventWork, translatedWork, CreditsNegative, not_false_eq_true, iff_true]
    split_ifs with hpos
    · exact hpos.2.le
    · exact le_rfl
  | _ => simp [eventWork, CreditsNegative]

/-- A step keeps the measured work unless it credits a negative share. -/
theorem step_workKept_iff {r r' : Relay} {e : Event} (h : step r e = some r') :
    WorkKept r.inner.deliveredWork r'.inner.deliveredWork r.orders r'.orders ↔
      ¬CreditsNegative r e := by
  rw [← eventWork_nonneg_iff]
  exact workKept_iff (fun o => r.inner.routing.orderId? = some o)
    (step_work h "").1 fun o => (step_work h o).2

/-! ## Requests and their answers -/

/-- A forwarded request that the pool has not answered.  A submit has the
difficulty that was in force when it was forwarded. -/
structure Outstanding where
  id : Option Value
  weight : Option Rat

/-- A session and the honest account of its shares. -/
structure Audit where
  relay : Relay
  /-- The forwarded requests without an answer, oldest first. -/
  unanswered : List Outstanding
  /-- The worth of the submits whose own answer was `true`. -/
  earned : Rat

/-- The request that `on_miner_msg` forwards for a line of the miner. -/
def forwardedRequest (msg : RpcMessage) (i : Inner) : Option Outstanding :=
  if msg.method = none ∨ msg.method = some "mining.authorize" then none
  else some {
    id := msg.id
    weight := if msg.method = some "mining.submit" then some i.currentDifficulty else none }

/-- The session takes a step and the account follows. -/
def Audit.step (a : Audit) (e : Event) : Option Audit :=
  (Sv1.step a.relay e).map fun relay =>
    match e with
    | .minerMsg msg =>
      { a with relay, unanswered := a.unanswered ++ (forwardedRequest msg a.relay.inner).toList }
    | .upstreamLine g msg _ =>
      if g = a.relay.inner.active.generation ∧ msg.method = none then
        match a.unanswered with
        | [] => { a with relay }
        | q :: rest => {
            relay, unanswered := rest
            earned := a.earned + if msg.result = some (.bool true) then q.weight.getD 0 else 0 }
      else { a with relay }
    | _ => { a with relay }

/-- A session with nothing forwarded yet. -/
def Audit.start (r : Relay) : Audit := ⟨r, [], 0⟩

/-- The step starts no swap. -/
def NoSwap : Event → Prop
  | .swapBegin .. => False
  | _ => True

/-- The pool answers the forwarded requests in order and echoes the id. -/
def PoolAnswers (a : Audit) : Event → Prop
  | .upstreamLine g msg _ => g = a.relay.inner.active.generation → msg.method = none →
      ∃ q ∈ a.unanswered.head?, idKey msg.id = idKey q.id
  | _ => True

/-- A submit is forwarded under an id that no unanswered request has, and any
other request under an id that no unanswered submit has. -/
def FreshId (a : Audit) : Event → Prop
  | .minerMsg msg => ∀ q ∈ forwardedRequest msg a.relay.inner, ∀ p ∈ a.unanswered,
      p.weight.isSome ∨ q.weight.isSome → idKey p.id ≠ idKey q.id
  | _ => True

/-- The guard of an audited run: no swap, a pool that answers in order, and
ids that do not clash. -/
def Audited (a : Audit) (e : Event) : Prop := NoSwap e ∧ PoolAnswers a e ∧ FreshId a e

instance : DecidablePred NoSwap := fun e => by
  unfold NoSwap
  split <;> infer_instance

instance (a : Audit) : DecidablePred (PoolAnswers a) := fun e => by
  rcases e with _ | _ <;> dsimp only [PoolAnswers] <;> infer_instance

instance (a : Audit) : DecidablePred (FreshId a) := fun e => by
  rcases e with _ | _ <;> dsimp only [FreshId] <;> infer_instance

instance (a : Audit) : DecidablePred (Audited a) := fun e =>
  inferInstanceAs (Decidable (NoSwap e ∧ PoolAnswers a e ∧ FreshId a e))

/-- The request as the table of the session sees it. -/
def Outstanding.entry (g : Nat) (q : Outstanding) : Value × Option (Nat × Rat) :=
  (idKey q.id, q.weight.map fun w => (g, w))

/-- The table is a faithful index of the unanswered requests, and so far both
accounts agree. -/
structure AuditInv (a : Audit) : Prop where
  passthrough : a.relay.inner.translating = false
  noSwap : a.relay.swap = .idle
  tracks : Tracks a.relay.inner.pending
    (a.unanswered.map (Outstanding.entry a.relay.inner.active.generation))
  booked : a.relay.inner.deliveredWork = a.earned

/-- Without a swap the session keeps its upstream. -/
theorem Transition.keeps_upstream {r r' : Relay} {e : Event} (ht : Transition r e r')
    (hidle : r.swap = .idle) (hno : NoSwap e) :
    r'.swap = .idle ∧ r'.inner.translating = r.inner.translating ∧
      r'.inner.active.generation = r.inner.active.generation := by
  cases ht with
  | quiet hq => exact ⟨hq.swap.trans hidle, hq.translating, hq.generation⟩
  | line hfree hsv1 =>
    obtain ⟨hactive, _, _, _, _, htrans, _⟩ := (onUpstreamMsg_same ..).fields
    exact ⟨hidle, htrans, congrArg ActiveUpstream.generation hactive⟩
  | swapBegin hswap => exact hno.elim
  | install hswap hraw => simp [hidle] at hswap
  | swapFailed hswap => simp [hidle] at hswap
  | repointLive hswap => simp [hidle] at hswap
  | repointDrop hswap => simp [hidle] at hswap
  | takePrelude hswap => simp [hidle] at hswap
  | swapFlushed hswap => simp [hidle] at hswap
  | swapFlush hswap => simp [hidle] at hswap
  | _ => exact ⟨hidle, rfl, rfl⟩

/-- Only the miner, the pool and an install touch the table. -/
theorem step_pending {r r' : Relay} {e : Event} (h : step r e = some r')
    (hidle : r.swap = .idle) (hminer : ∀ msg, e ≠ .minerMsg msg)
    (hline : ∀ g msg now, e ≠ .upstreamLine g msg now) :
    r'.inner.pending = r.inner.pending := by
  cases e with
  | upstreamLine g msg now => exact absurd rfl (hline g msg now)
  | minerMsg msg => exact absurd rfl (hminer msg)
  | swapConnect answer => simp [step, hidle] at h
  | minerConfigure msg =>
    simp only [step] at h
    split at h
    · split at h <;> cases h
      rfl
    · cases h
  | translateCredit g n now =>
    simp only [step] at h
    split at h <;> cases h
    dsimp only
    unfold creditTranslateAccepted
    split_ifs
    · rfl
    · dsimp only
      split <;> simp
  | translateDifficulty g d =>
    simp only [step] at h
    split at h <;> cases h
    unfold setTranslateDifficulty
    split <;> rfl
  | translateLine g msg =>
    simp only [step] at h
    split at h <;> cases h
    unfold sendOrStash
    split_ifs <;> rfl
  | attachOrder | setDefault =>
    cases h
    rfl
  | _ =>
    simp only [step] at h
    split at h <;> cases h <;> rfl

/-- The table after a line of the miner. -/
theorem onMinerMsg_tracks {msg : RpcMessage} {i : Inner} {unanswered : List Outstanding}
    (hsv1 : i.translating = false)
    (h : Tracks i.pending (unanswered.map (Outstanding.entry i.active.generation)))
    (hfresh : ∀ q ∈ forwardedRequest msg i, ∀ p ∈ unanswered,
      p.weight.isSome ∨ q.weight.isSome → idKey p.id ≠ idKey q.id) :
    Tracks (onMinerMsg msg i).1.pending
      ((unanswered ++ (forwardedRequest msg i).toList).map
        (Outstanding.entry i.active.generation)) := by
  rw [List.map_append]
  unfold onMinerMsg
  by_cases hauth : msg.method = some "mining.authorize"
  · simpa [hauth, forwardedRequest] using h
  by_cases hsubmit : msg.method = some "mining.submit"
  · have hreq : forwardedRequest msg i = some ⟨msg.id, some i.currentDifficulty⟩ := by
      simp [forwardedRequest, hsubmit]
    rw [hreq] at hfresh ⊢
    simp only [hsubmit, hsv1, if_false, if_true, Bool.false_eq_true]
    refine h.push_weighted ?_
    intro p hp
    obtain ⟨q, hq, rfl⟩ := List.mem_map.mp hp
    exact hfresh _ rfl q hq (Or.inr rfl)
  · have hpending : ∀ j : Inner, j.pending = i.pending → Tracks j.pending
        (unanswered.map (Outstanding.entry i.active.generation) ++
          (forwardedRequest msg i).toList.map (Outstanding.entry i.active.generation)) := by
      intro j hj
      rw [hj]
      by_cases hnone : msg.method = none
      · simpa [forwardedRequest, hnone] using h
      · have hreq : forwardedRequest msg i = some ⟨msg.id, none⟩ := by
          simp [forwardedRequest, hnone, hauth, hsubmit]
        rw [hreq] at hfresh ⊢
        refine h.push_plain ?_
        intro p hp hsome
        obtain ⟨q, hq, rfl⟩ := List.mem_map.mp hp
        exact hfresh _ rfl q hq (Or.inl (by simpa [Outstanding.entry] using hsome))
    simp only [hauth, hsubmit, if_false]
    split_ifs <;> exact hpending _ rfl

/-- The table after the answer to the oldest request, and what the answer is
worth. -/
theorem creditResponse_tracks {msg : RpcMessage} {i : Inner} {q : Outstanding}
    {rest : List Outstanding} (now : Rat) (hresp : msg.method = none)
    (hid : idKey msg.id = idKey q.id)
    (h : Tracks i.pending ((q :: rest).map (Outstanding.entry i.active.generation))) :
    Tracks (creditResponse now i.active.generation msg i).1.pending
        (rest.map (Outstanding.entry i.active.generation)) ∧
      (acceptedSubmit i.active.generation msg i).getD 0 =
        if msg.result = some (.bool true) then q.weight.getD 0 else 0 := by
  rw [List.map_cons, Outstanding.entry, ← hid] at h
  have hlook := h.lookup_head
  unfold creditResponse acceptedSubmit
  rw [hlook]
  cases hw : q.weight with
  | none =>
    rw [hw] at h
    simpa [hresp] using h.pop_plain
  | some w =>
    have hpop := h.pop
    by_cases hacc : msg.result = some (.bool true)
    · simpa [hacc, hresp] using hpop
    · simpa [hacc] using hpop

/-- A translating reader adds nothing to a passthrough session. -/
theorem translateCredit_work_zero {r r' : Relay} {g n : Nat} {now : Rat}
    (h : step r (.translateCredit g n now) = some r') (hsv1 : r.inner.translating = false) :
    eventWork r (.translateCredit g n now) = 0 := by
  simp only [step] at h
  split at h
  · rename_i hguard
    have hne : g ≠ r.inner.active.generation := by
      rintro rfl
      simp [Relay.translateReader, hsv1] at hguard
    simp [eventWork, translatedWork, hne]
  · cases h

/-- A step of anyone but the miner and the pool changes neither account. -/
theorem AuditInv.of_frame {a : Audit} {r' : Relay} (h : AuditInv a)
    (hidle : r'.swap = .idle) (hsv1 : r'.inner.translating = a.relay.inner.translating)
    (hgen : r'.inner.active.generation = a.relay.inner.active.generation)
    (hpending : r'.inner.pending = a.relay.inner.pending)
    (hwork : r'.inner.deliveredWork = a.relay.inner.deliveredWork) :
    AuditInv { a with relay := r' } where
  passthrough := hsv1.trans h.passthrough
  noSwap := hidle
  tracks := by
    rw [hgen, hpending]
    exact h.tracks
  booked := hwork.trans h.booked

/-- A line of the miner. -/
theorem AuditInv.minerMsg {a : Audit} {r' : Relay} {msg : RpcMessage} (h : AuditInv a)
    (hfresh : FreshId a (.minerMsg msg)) (hr' : Sv1.step a.relay (.minerMsg msg) = some r') :
    AuditInv { a with
      relay := r'
      unanswered := a.unanswered ++ (forwardedRequest msg a.relay.inner).toList } := by
  obtain ⟨hidle, hsv1, hgen⟩ := (transition_of_step hr').keeps_upstream h.noSwap trivial
  have hwork := (step_work hr' "").1
  have hinner : r'.inner = (onMinerMsg msg a.relay.inner).1 := by
    simp only [Sv1.step] at hr'
    split at hr' <;> cases hr'
    rfl
  refine ⟨hsv1.trans h.passthrough, hidle, ?_, ?_⟩
  · have htracks := onMinerMsg_tracks h.passthrough h.tracks hfresh
    rw [hgen]
    simpa only [hinner] using htracks
  · simpa [eventWork, h.booked] using hwork

/-- A line of the pool: the answer to the oldest request, or a notification. -/
theorem AuditInv.upstreamLine {a a' : Audit} {g : Nat} {msg : RpcMessage} {now : Rat}
    (h : AuditInv a) (hpool : PoolAnswers a (.upstreamLine g msg now))
    (hstep : a.step (.upstreamLine g msg now) = some a') : AuditInv a' := by
  simp only [Audit.step, Option.map_eq_some_iff] at hstep
  obtain ⟨r', hr', rfl⟩ := hstep
  obtain ⟨hidle, hsv1, hgen⟩ := (transition_of_step hr').keeps_upstream h.noSwap trivial
  have hwork := (step_work hr' "").1
  have hinner : r'.inner = (onUpstreamMsg now g msg a.relay.inner).1 := by
    simp only [Sv1.step] at hr'
    split at hr' <;> cases hr'
    rfl
  by_cases hanswer : g = a.relay.inner.active.generation ∧ msg.method = none
  · rw [if_pos hanswer]
    obtain ⟨rfl, hresp⟩ := hanswer
    obtain ⟨q, hhead, hid⟩ := hpool rfl hresp
    obtain ⟨rest, hrest⟩ : ∃ rest, a.unanswered = q :: rest :=
      List.head?_eq_some_iff.mp hhead
    have htracks := h.tracks
    rw [hrest] at htracks
    obtain ⟨hpop, hworth⟩ := creditResponse_tracks now hresp hid htracks
    have hpending : r'.inner.pending =
        (creditResponse now a.relay.inner.active.generation msg a.relay.inner).1.pending := by
      simp [hinner, onUpstreamMsg, hresp]
    simp only [hrest]
    refine ⟨hsv1.trans h.passthrough, hidle, ?_, ?_⟩
    · rw [hgen, hpending]
      exact hpop
    · rw [hwork, h.booked]
      simp only [eventWork, hworth]
  · rw [if_neg hanswer]
    have hnone : acceptedSubmit g msg a.relay.inner = none := by
      unfold acceptedSubmit
      rw [if_neg fun hacc => hanswer ⟨hacc.1, hacc.2.1⟩]
    refine h.of_frame hidle hsv1 hgen ?_ (by simpa [eventWork, hnone] using hwork)
    rw [hinner]
    by_cases hg : g = a.relay.inner.active.generation
    · have hresp : msg.method ≠ none := fun hresp => hanswer ⟨hg, hresp⟩
      unfold onUpstreamMsg
      rw [if_neg (by simpa using hg), if_neg hresp]
      split_ifs
      · split <;> rfl
      · rfl
    · rw [onUpstreamMsg_stale hg]

/-- The step lemma. -/
theorem AuditInv.step {a a' : Audit} {e : Event} (h : AuditInv a) (hno : NoSwap e)
    (hpool : PoolAnswers a e) (hfresh : FreshId a e) (hstep : a.step e = some a') :
    AuditInv a' := by
  by_cases hline : ∃ g msg now, e = .upstreamLine g msg now
  · obtain ⟨g, msg, now, rfl⟩ := hline
    exact h.upstreamLine hpool hstep
  simp only [Audit.step, Option.map_eq_some_iff] at hstep
  obtain ⟨r', hr', rfl⟩ := hstep
  by_cases hminer : ∃ msg, e = .minerMsg msg
  · obtain ⟨msg, rfl⟩ := hminer
    exact h.minerMsg hfresh hr'
  have hpending := step_pending hr' h.noSwap (fun msg he => hminer ⟨msg, he⟩)
    (fun g msg now he => hline ⟨g, msg, now, he⟩)
  obtain ⟨hidle, hsv1, hgen⟩ := (transition_of_step hr').keeps_upstream h.noSwap hno
  have hzero : eventWork a.relay e = 0 := by
    cases e with
    | upstreamLine g msg now => exact absurd ⟨g, msg, now, rfl⟩ hline
    | translateCredit g n now => exact translateCredit_work_zero hr' h.passthrough
    | _ => rfl
  have hwork := (step_work hr' "").1
  rw [hzero, add_zero] at hwork
  have hframe := h.of_frame hidle hsv1 hgen hpending hwork
  cases e with
  | upstreamLine g msg now => exact absurd ⟨g, msg, now, rfl⟩ hline
  | minerMsg msg => exact absurd ⟨msg, rfl⟩ hminer
  | _ => exact hframe

/-- What the session is credited with is the worth of the submits that the
pool accepted. -/
theorem credited_eq_earned {target : UpstreamTarget} {peer : String} {orders : WorkBuffer}
    {answer : PoolAnswer} {r₀ : Relay} {a : Audit}
    (hstart : start target peer orders answer = some r₀)
    (hsv1 : r₀.inner.translating = false) (hrun : Run Audit.step Audited (.start r₀) a) :
    a.relay.inner.deliveredWork = a.earned := by
  have hinv : AuditInv a := by
    refine hrun.invariant (I := AuditInv) ?_ ?_
    · simp only [Sv1.start, Option.map_eq_some_iff] at hstart
      obtain ⟨raw, _, rfl⟩ := hstart
      cases raw with
      | sv1 conn => exact ⟨rfl, rfl, Tracks.nil, rfl⟩
      | sv2 up => cases hsv1
    · intro x e y hx hguard hstep
      exact hx.step hguard.1 hguard.2.1 hguard.2.2 hstep
  exact hinv.booked

/-- A line of the miner with no parameters. -/
def minerRequest (id : Nat) (method : String) : RpcMessage :=
  .request (.num (.int id)) method (.arr [])

/-- The answer of the pool to the request with this id. -/
def poolAnswer (id : Nat) (accepted : Bool) : RpcMessage :=
  okReply (some (.num (.int id))) (.bool accepted)

/-- One accepted share at difficulty 1. -/
theorem credited_eq_earned_accepted :
    ∃ r₀ a, eagerSession 1 = some r₀ ∧ Run Audit.step Audited (.start r₀) a ∧
      a.earned = 1 ∧ a.relay.inner.deliveredWork = a.earned := by
  have hstart : eagerSession 1 = some _ := rfl
  have hrun : ∀ r₀ a, runWhile Audit.step (fun x e => decide (Audited x e)) (.start r₀)
      [.minerMsg (minerRequest 7 "mining.submit"), .upstreamLine 1 (poolAnswer 7 true) 0] =
        some a → Run Audit.step Audited (.start r₀) a :=
    fun _ _ h => .of_runWhile (fun _ _ => of_decide_eq_true) h
  exact ⟨_, _, hstart, hrun _ _ rfl, by decide +kernel,
    credited_eq_earned hstart rfl (hrun _ _ rfl)⟩

/-- The miner sends another request under the id of a share that the pool is
going to reject.  The answer to the other request is booked as the share. -/
theorem false_credit :
    ∃ r₀ a, eagerSession 1 = some r₀ ∧ r₀.inner.translating = false ∧
      Run Audit.step (fun x e => NoSwap e ∧ PoolAnswers x e) (.start r₀) a ∧
      a.unanswered.length = 0 ∧ a.earned = 0 ∧ a.relay.inner.deliveredWork = 1 := by
  have hstart : eagerSession 1 = some _ := rfl
  have hrun : ∀ r₀ a, runWhile Audit.step (fun x e => decide (NoSwap e ∧ PoolAnswers x e))
      (.start r₀)
      [.minerMsg (minerRequest 7 "mining.suggest_difficulty"),
        .minerMsg (minerRequest 7 "mining.submit"),
        .upstreamLine 1 (poolAnswer 7 true) 0, .readerForward 1,
        .upstreamLine 1 (poolAnswer 7 false) 0] = some a →
      Run Audit.step (fun x e => NoSwap e ∧ PoolAnswers x e) (.start r₀) a :=
    fun _ _ h => .of_runWhile (fun _ _ => of_decide_eq_true) h
  exact ⟨_, _, hstart, rfl, hrun _ _ rfl, rfl, by decide +kernel, by decide +kernel⟩

end RentalProxy.Sv1
