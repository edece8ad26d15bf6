import RentalProxy.Sv2.Headers
import RentalProxy.Sv2.Repoint
import RentalProxy.Sv2.Table
import RentalProxy.Sv2.TranslateSends

/-!
# The block that the miner of a translated pool works on

The first notify and the ones that are marked clean become a future job and the `SetNewPrevHash`
that activates it, the others an immediate job.  Which of the two is settled, and remembered,
before the job is built: when a future job cannot be built its `SetNewPrevHash` is lost, and the
next notifies of that block are immediate jobs on the block before, or on none.

* `HashesOn` is the property of one immediate job in the queue of a member.
* `notifiedSoFar` is the history: the notifies, and what became of each.
* `PoolSetsClean` is what the pool promises, `BlockActivated` and `YieldsOwner` are the condition.
* `OnBlock` is the invariant, and `miner_works_on_notified_block` the result.
-/

namespace RentalProxy.Sv2

open StepSystem

/-! ## Jobs and blocks -/

/-- The job is to be worked on at once. -/
def Mining.isImmediate : Mining → Bool
  | .newMiningJob job => job.minNtime.isSome
  | .newExtendedMiningJob job => job.minNtime.isSome
  | _ => false

/-- The prev-hash that a frame of the translator activates. -/
def EitherFrame.prevHash? : EitherFrame → Option (List UInt8)
  | .built (.setNewPrevHash p) => some p.prevHash
  | _ => none

@[simp] theorem prevHash?_setNewPrevHash (p : SetNewPrevHash) :
    (EitherFrame.built (.setNewPrevHash p)).prevHash? = some p.prevHash := rfl

/-- The prev-hash that a call of the reader activates. -/
def SessionCall.prevHash? : SessionCall → Option (List UInt8)
  | .sendTranslateFrame frame => frame.prevHash?
  | _ => none

/-- The frame neither activates a block nor is an immediate job. -/
structure EitherFrame.Quiet (frame : EitherFrame) : Prop where
  prevHash : frame.prevHash? = none
  job : ∀ job, frame = .built job → job.isImmediate = false

/-- What goes through as it came is quiet. -/
theorem EitherFrame.Quiet.of_isWork {frame : EitherFrame}
    (h : frame.isWork = true → ∃ f, frame = .received f) : frame.Quiet := by
  cases frame with
  | received f => exact ⟨rfl, nofun⟩
  | built msg =>
    constructor
    · cases msg <;> first | rfl | (obtain ⟨_, hf⟩ := h rfl; cases hf)
    · intro job hjob
      cases hjob
      cases msg <;> first | rfl | (obtain ⟨_, hf⟩ := h rfl; cases hf)

/-- The prev-hash that a member was told last by the reader of a generation. -/
def prevHashOf (generation member : Nat) (sent : List Queued) : Option (List UInt8) :=
  Log.latest (fun q => if q.source = .reader generation ∧ q.member = member then
    q.frame.prevHash? else none) sent

/-! ## The history -/

/-- A notify of a translated pool. -/
structure Notified where
  generation : Nat
  notify : Notify
  /-- It is the first of the connection, or marked clean. -/
  future : Bool
  /-- Its job can be built. -/
  fits : Bool

/-- The notify is to become a future job. -/
def Sv1UpState.asFuture (n : Notify) (s : Sv1UpState) : Bool := n.cleanJobs || !s.firstJobSent

/-- The notify goes into a job of the channel: by its lengths for an Extended one, by its merkle
root for a Standard one. -/
def Sv1UpState.fits (lib : Sv1Library) (n : Notify) (s : Sv1UpState) : Bool :=
  if s.extended then
    decide (n.merkleBranch.length ≤ 255 ∧ n.coinBase1.length < 2 ^ 16 ∧
      n.coinBase2.length < 2 ^ 16)
  else
    (lib.merkleRoot n.coinBase1 n.coinBase2 (s.extranonce1 ++ s.rolledExtranonce2)
      n.merkleBranch).any fun root => decide (root.length = 32)

variable (lib : Sv1Library)

/-- The notify that a step takes. -/
def notifiedAt (r : Rig) : Event → Option Notified
  | .translateLine line => do
    let t ← r.translator
    let n ← lib.notify line
    some ⟨r.inner.active.generation, n, t.state.asFuture n, t.state.fits lib n⟩
  | _ => none

/-- The notifies so far. -/
def notifiedSoFar (r : Rig) (e : Event) (past : List Notified) : List Notified :=
  past ++ (notifiedAt lib r e).toList

/-- The notifies of one upstream. -/
def notifiesOf (generation : Nat) (past : List Notified) : List Notify :=
  past.filterMap fun n => if n.generation = generation then some n.notify else none

/-- The block of the last future notify. -/
def announced (generation : Nat) (past : List Notified) : Option (List UInt8) :=
  Log.latest (fun n => if n.generation = generation ∧ n.future = true then
    some n.notify.prevHash else none) past

/-- The block of the last future notify whose job could be built. -/
def activated (generation : Nat) (past : List Notified) : Option (List UInt8) :=
  Log.latest (fun n => if n.generation = generation ∧ n.future = true ∧ n.fits = true then
    some n.notify.prevHash else none) past

/-- An immediate job of a translated pool was made of a notify, and the member that gets it was
told the prev-hash of this notify last. -/
def HashesOn (past : List Notified) (before : List Queued) (q : Queued) : Prop :=
  ∀ g job, q.source = .reader g → q.frame = .built job → job.isImmediate = true →
    ∃ k n, (notifiesOf g past)[k]? = some n ∧
      (∃ downCid conn extended, jobFor lib downCid conn extended n k false = some job) ∧
      prevHashOf g q.member before = some n.prevHash

/-! ## The condition -/

/-- What the pool promises: a notify with another prev-hash than the one before is marked clean. -/
def PoolSetsClean (x : Rig × List Notified) (e : Event) : Prop :=
  ∀ n ∈ notifiedAt lib x.1 e, ∀ last ∈ (notifiesOf n.generation x.2).getLast?,
    last.prevHash ≠ n.notify.prevHash → n.notify.cleanJobs = true

/-- When a notify becomes an immediate job, the block of the last future notify is the one of the
last future notify whose job could be built. -/
def BlockActivated (x : Rig × List Notified) (e : Event) : Prop :=
  ∀ n ∈ notifiedAt lib x.1 e, n.future = false → n.fits = true →
    activated n.generation x.2 = announced n.generation x.2

/-- The member that the table yields to the reader is the owner of the channel. -/
def YieldsOwner (r : Rig) : Event → Prop
  | .translateCall member _ => ∀ frame ∈ r.inHand, member ∈ r.inner.members →
    r.inner.ownerOf frame = some member
  | _ => True

instance (x : Rig × List Notified) : DecidablePred (PoolSetsClean lib x) := fun e => by
  unfold PoolSetsClean
  infer_instance

instance (x : Rig × List Notified) : DecidablePred (BlockActivated lib x) := fun e => by
  unfold BlockActivated
  infer_instance

instance (r : Rig) : DecidablePred (YieldsOwner r) := fun e => by
  rcases e with _ | _ <;> dsimp only [YieldsOwner] <;> infer_instance

/-- The steps of a run in which the miner works on the right block. -/
def KeepsBlock (x : Rig × List Notified) (e : Event) : Prop :=
  PoolSetsClean lib x e ∧ BlockActivated lib x e ∧ YieldsOwner x.1 e

instance (x : Rig × List Notified) : DecidablePred (KeepsBlock lib x) := fun e => by
  unfold KeepsBlock
  infer_instance

variable {lib}

/-! ## What the reader makes of a line -/

/-- A job of a notify is immediate unless it was asked for as a future one. -/
theorem jobFor_isImmediate {downCid k : Nat} {conn : Sv1UpConn} {extended asFuture : Bool}
    {n : Notify} {job : Mining}
    (h : jobFor lib downCid conn extended n k asFuture = some job) :
    job.isImmediate = !asFuture ∧ (EitherFrame.built job).prevHash? = none := by
  rcases jobFor_cases h with ⟨_, rfl⟩ | ⟨_, _, _, _, _, rfl⟩ <;>
    cases asFuture <;> exact ⟨rfl, rfl⟩

/-- A job can be built exactly of a notify that fits. -/
theorem Link.Ok.jobFor_isSome {downCid : Nat} {conn : Sv1UpConn} {extended : Bool} {l : Link}
    (h : l.Ok lib downCid conn extended) (n : Notify) (asFuture : Bool) :
    (jobFor lib downCid conn extended n l.notifies.length asFuture).isSome =
      l.state.fits lib n := by
  unfold jobFor Sv1UpState.fits
  rw [h.kind]
  cases hkind : extended with
  | true =>
    simp only [if_true, Option.isSome_map, sv1NotifyToSv2Job]
    split
    · rename_i hfits
      rw [decide_eq_true hfits]
      rfl
    · rename_i hfits
      rw [decide_eq_false hfits]
      rfl
  | false =>
    have hrolled : l.state.rolledExtranonce2 = rolledFor conn l.notifies.length := by
      unfold Sv1UpState.rolledExtranonce2 rolledFor
      rw [h.extranonce2Size, h.rolled hkind]
    rw [h.extranonce1, hrolled]
    simp only [Bool.false_eq_true, if_false, Option.isSome_map, sv1NotifyToSv2StandardJob,
      Option.bind_eq_bind]
    cases lib.merkleRoot n.coinBase1 n.coinBase2 (conn.extranonce1 ++
        rolledFor conn l.notifies.length) n.merkleBranch with
    | none => rfl
    | some root =>
      simp only [Option.bind_some, u256, Option.any_some]
      split
      · rename_i hlength
        rw [decide_eq_true hlength]
        rfl
      · rename_i hlength
        rw [decide_eq_false hlength]
        rfl

/-- What the reader makes of a notify. -/
theorem Link.Ok.calls {downCid : Nat} {conn : Sv1UpConn} {extended : Bool} {l : Link}
    (h : l.Ok lib downCid conn extended) {line : RpcMessage} {n : Notify}
    (hnotify : lib.notify line = some n) :
    (l.state.fits lib n = false ∧ (handleSv1Line lib downCid line l.state).2 = []) ∨
      (l.state.fits lib n = true ∧ ∃ job,
        jobFor lib downCid conn extended n l.notifies.length (l.state.asFuture n) = some job ∧
        (handleSv1Line lib downCid line l.state).2 = .sendTranslateFrame (.built job) ::
          if l.state.asFuture n = true then [.sendTranslateFrame (.built
            (.setNewPrevHash (activation n downCid l.state.nextJobId)))] else []) := by
  have hcalls := congrArg Prod.snd (h.translateNotify_eq n)
  have hline : handleSv1Line lib downCid line l.state = translateNotify lib downCid n l.state := by
    unfold handleSv1Line
    simp only [hnotify]
  rw [← h.jobFor_isSome n (l.state.asFuture n), hline, hcalls]
  unfold Sv1UpState.asFuture
  cases hjob : jobFor lib downCid conn extended n l.notifies.length
      (n.cleanJobs || !l.state.firstJobSent) with
  | none => exact Or.inl ⟨rfl, rfl⟩
  | some job =>
    refine Or.inr ⟨rfl, job, rfl, ?_⟩
    cases n.cleanJobs || !l.state.firstJobSent <;> rfl

/-- A line that is no notify neither activates a block nor brings a job. -/
theorem handleSv1Line_quiet {downCid : Nat} {line : RpcMessage} {s : Sv1UpState}
    {frame : EitherFrame} (hnotify : lib.notify line = none)
    (h : .sendTranslateFrame frame ∈ (handleSv1Line lib downCid line s).2) : frame.Quiet := by
  unfold handleSv1Line at h
  simp only [hnotify] at h
  split at h
  · simp only [List.mem_cons, reduceCtorEq, Option.mem_toList, setTarget, Option.map_map,
      Option.map_eq_some_iff, Function.comp, SessionCall.sendTranslateFrame.injEq,
      false_or] at h
    obtain ⟨_, _, rfl⟩ := h
    exact ⟨rfl, fun job hjob => by cases hjob; rfl⟩
  · split at h
    · cases h
    · unfold translateResponse at h
      repeat' split at h
      all_goals simp at h
      all_goals
        subst h
        exact ⟨rfl, fun job hjob => by cases hjob; rfl⟩

/-! ## The invariant -/

/-- What is known of every rig. -/
structure Known (r : Rig) : Prop where
  generations : Generations r
  ids : DownIds r
  scope : CallsInScope r
  writer : WriterOk r.inner r.translator

theorem Known.of_reaches {decode : Decoder} {r : Rig} (h : Reaches decode lib r) : Known r where
  generations := by
    refine ReachesUnder.invariant (I := Generations) h ?_ fun _ _ _ hx _ hstep =>
      hx.step (transition_of_step hstep)
    intro worker spec store idlePool now failed answer r₀ _ hstart
    obtain ⟨_, _, _, _, _, hstarted⟩ := start_started hstart
    exact .of_started hstarted
  ids := DownIds.of_reaches h
  scope := by
    refine ReachesUnder.invariant (I := CallsInScope) h ?_ fun _ _ _ hx _ hstep =>
      hx.step (transition_of_step hstep)
    intro worker spec store idlePool now failed answer r₀ _ hstart
    obtain ⟨_, _, _, _, _, hstarted⟩ := start_started hstart
    exact .of_started hstarted
  writer := by
    refine ReachesUnder.invariant (I := fun r => WriterOk r.inner r.translator) h ?_
      fun _ _ _ hx _ hstep => hx.step (upStep_of_transition (transition_of_step hstep))
    intro worker spec store idlePool now failed answer r₀ _ hstart
    obtain ⟨_, _, _, _, hconnected⟩ := start_connected hstart
    exact .of_connected hconnected

/-- The member is attached and owns the channel. -/
def Inner.Serves (i : Inner) (cid member : Nat) : Prop :=
  member ∈ i.members ∧ ∃ c ∈ i.channels, c.downChannelId = cid ∧ c.owner = member

variable (lib) in
/-- What the reader of a translated pool has sent and is about to send. -/
structure DriverOk (i : Inner) (sent : List Queued) (past : List Notified) (t : Translator) :
    Prop where
  link : ∃ conn extended, Link.Ok lib t.downCid conn extended
    ⟨t.state, notifiesOf i.active.generation past, [], []⟩
  first : t.state.firstJobSent = true → notifiesOf i.active.generation past ≠ []
  /-- The block of the last notify was announced. -/
  block : (notifiesOf i.active.generation past).getLast?.map Notify.prevHash =
    announced i.active.generation past
  /-- Once the calls in hand are made, the owner has the block that was activated. -/
  told : ∀ m, i.Serves t.downCid m → (Log.latest SessionCall.prevHash? t.calls).or
    (prevHashOf i.active.generation m sent) = activated i.active.generation past
  /-- An immediate job in hand is on that block. -/
  job : ∀ job, .sendTranslateFrame (.built job) ∈ t.calls → job.isImmediate = true →
    Log.latest SessionCall.prevHash? t.calls = none ∧
      ∃ k n, (notifiesOf i.active.generation past)[k]? = some n ∧
        (∃ conn extended, jobFor lib t.downCid conn extended n k false = some job) ∧
        activated i.active.generation past = some n.prevHash

variable (lib) in
/-- The invariant of a run whose steps meet the condition. -/
structure OnBlock (r : Rig) (past : List Notified) : Prop where
  sent : Log.Ordered (HashesOn lib past) r.sent
  generations : ∀ n ∈ past, n.generation ≤ r.inner.active.generation
  driver : ∀ t, r.translator = some t → DriverOk lib r.inner r.sent past t

/-! ## Steps -/

/-- One owner for one channel. -/
theorem Known.serves_unique {r : Rig} (h : Known r) {cid m m' : Nat} (hm : r.inner.Serves cid m)
    (hm' : r.inner.Serves cid m') : m = m' := by
  obtain ⟨_, c, hc, hcid, rfl⟩ := hm
  obtain ⟨_, c', hc', hcid', rfl⟩ := hm'
  rw [List.inj_on_of_nodup_map h.ids.downs hc hc' (hcid.trans hcid'.symm)]

/-- Who owns the channel of a frame serves it. -/
theorem serves_of_ownerOf {i : Inner} {frame : EitherFrame} {cid m : Nat}
    (hcid : frame.channelId? = some cid) (h : i.ownerOf frame = some m) : i.Serves cid m := by
  refine ⟨ownerOf_attached h, ?_⟩
  obtain ⟨howner, _⟩ := Option.filter_eq_some_iff.mp h
  obtain ⟨c, hc, hm⟩ := Option.map_eq_some_iff.mp howner
  have hdown : frame.channelId? = some c.downChannelId := by simpa using List.find?_some hc
  rw [hcid] at hdown
  exact ⟨c, List.mem_of_find?_eq_some hc, (Option.some.inj hdown).symm, hm⟩

/-- The history only grows. -/
theorem HashesOn.mono {past : List Notified} {before : List Queued} {q : Queued}
    (h : HashesOn lib past before q) (more : List Notified) :
    HashesOn lib (past ++ more) before q := by
  intro g job hsource hframe himmediate
  obtain ⟨k, n, hn, hjob, htold⟩ := h g job hsource hframe himmediate
  refine ⟨k, n, ?_, hjob, htold⟩
  rw [notifiesOf, List.filterMap_append]
  exact getElem?_append_of_some hn

/-- A frame that is no immediate job. -/
theorem HashesOn.of_quiet {past : List Notified} {before : List Queued} {q : Queued}
    (h : ∀ g, q.source = .reader g → q.frame.Quiet) : HashesOn lib past before q := by
  intro g job hsource hframe himmediate
  rw [(h g hsource).job job hframe] at himmediate
  cases himmediate

/-- Quiet frames tell no member of a block. -/
theorem prevHashOf_append_quiet {g m : Nat} {sent new : List Queued}
    (h : ∀ q ∈ new, ∀ g, q.source = .reader g → q.frame.Quiet) :
    prevHashOf g m (sent ++ new) = prevHashOf g m sent := by
  refine Log.latest_append_of_none fun q hq => ?_
  split
  · rename_i hreader
    exact (h q hq g hreader.1).prevHash
  · rfl

/-- A step of another task. -/
theorem OnBlock.quiet {r r' : Rig} {past : List Notified} (h : OnBlock lib r past)
    {new : List Queued} (hsent : r'.sent = r.sent ++ new)
    (hnew : ∀ q ∈ new, ∀ g, q.source = .reader g → q.frame.Quiet)
    (hgen : r'.inner.active.generation = r.inner.active.generation)
    (htranslator : r'.translator = r.translator)
    (hserves : r.translator.isSome = true → ∀ cid m, r'.inner.Serves cid m →
      r.inner.Serves cid m) : OnBlock lib r' past where
  sent := by
    rw [hsent]
    exact h.sent.extend fun before q after heq => .of_quiet (hnew q (by simp [heq]))
  generations := by
    rw [hgen]
    exact h.generations
  driver := by
    intro t ht
    rw [htranslator] at ht
    have hdriver := h.driver t ht
    refine ⟨?_, ?_, ?_, ?_, ?_⟩ <;> rw [hgen]
    · exact hdriver.link
    · exact hdriver.first
    · exact hdriver.block
    · intro m hm
      rw [hsent, prevHashOf_append_quiet hnew]
      exact hdriver.told m (hserves (by rw [ht]; rfl) _ m hm)
    · exact hdriver.job

/-- A step that sends nothing. -/
theorem OnBlock.same {r r' : Rig} {past : List Notified} (h : OnBlock lib r past)
    (hsent : r'.sent = r.sent)
    (hgen : r'.inner.active.generation = r.inner.active.generation)
    (htranslator : r'.translator = r.translator)
    (hserves : r.translator.isSome = true → ∀ cid m, r'.inner.Serves cid m →
      r.inner.Serves cid m) : OnBlock lib r' past :=
  h.quiet (hsent.trans (List.append_nil _).symm) (List.forall_mem_nil _) hgen htranslator hserves

/-- A connection that was just made: of its generation there is neither a notify nor a frame. -/
theorem DriverOk.fresh {i : Inner} {sent : List Queued} {past : List Notified} {t : Translator}
    {conn : Sv1UpConn} {userName : String} {extended : Bool}
    (hstate : t.state = .new conn userName extended) (hcalls : t.calls = [])
    (hpast : ∀ n ∈ past, n.generation ≠ i.active.generation)
    (hsent : ∀ q ∈ sent, q.source ≠ .reader i.active.generation) :
    DriverOk lib i sent past t := by
  have hnotifies : notifiesOf i.active.generation past = [] :=
    List.filterMap_eq_nil_iff.mpr fun n hn => if_neg (hpast n hn)
  refine ⟨⟨conn, extended, ?_⟩, ?_, ?_, ?_, ?_⟩
  · rw [hstate, hnotifies]
    exact Link.fresh_ok conn userName extended
  · rw [hstate]
    intro hfirst
    cases hfirst
  · rw [hnotifies]
    exact (Log.latest_eq_none fun n hn => if_neg fun hand => hpast n hn hand.1).symm
  · intro m _
    rw [hcalls, Log.latest_nil, Option.none_or]
    exact (Log.latest_eq_none fun q hq => if_neg fun hreader => hsent q hq hreader.1).trans
      (Log.latest_eq_none fun n hn => if_neg fun hand => hpast n hn hand.1).symm
  · rw [hcalls]
    intro job hjob
    cases hjob

/-- An install, of either kind. -/
theorem OnBlock.install {r r' : Rig} {past : List Notified} (h : OnBlock lib r past)
    (hknown : Known r) (hsent : r'.sent = r.sent)
    (hgen : r.inner.active.generation < r'.inner.active.generation)
    (htranslator : ∀ t, r'.translator = some t → ∃ conn userName extended,
      t.state = .new conn userName extended ∧ t.calls = []) : OnBlock lib r' past where
  sent := by
    rw [hsent]
    exact h.sent
  generations n hn := (h.generations n hn).trans hgen.le
  driver := by
    intro t ht
    obtain ⟨conn, userName, extended, hstate, hcalls⟩ := htranslator t ht
    refine .fresh hstate hcalls (fun n hn => ((h.generations n hn).trans_lt hgen).ne) ?_
    intro q hq hreader
    rw [hsent] at hq
    exact absurd (hknown.generations.readers q hq _ hreader) (not_le.mpr hgen)

/-- One more notify of an upstream. -/
theorem notifiesOf_append (past : List Notified) (x : Notified) :
    notifiesOf x.generation (past ++ [x]) = notifiesOf x.generation past ++ [x.notify] := by
  simp [notifiesOf]

theorem announced_append (past : List Notified) (x : Notified) :
    announced x.generation (past ++ [x]) =
      if x.future = true then some x.notify.prevHash else announced x.generation past := by
  unfold announced
  rw [Log.latest_append, Log.latest_singleton]
  by_cases hfuture : x.future = true <;> simp [hfuture]

theorem activated_append (past : List Notified) (x : Notified) :
    activated x.generation (past ++ [x]) =
      if x.future = true ∧ x.fits = true then some x.notify.prevHash
      else activated x.generation past := by
  unfold activated
  rw [Log.latest_append, Log.latest_singleton]
  by_cases hboth : x.future = true ∧ x.fits = true <;> simp [hboth]

/-- The reader takes a notify. -/
theorem DriverOk.notify (decode : Decoder) {i : Inner} {sent : List Queued} {past : List Notified}
    {cid written : Nat} {state : Sv1UpState}
    (h : DriverOk lib i sent past ⟨cid, state, [], written⟩)
    {line : RpcMessage} {n : Notify} (hnotify : lib.notify line = some n)
    (hclean : ∀ last ∈ (notifiesOf i.active.generation past).getLast?,
      last.prevHash ≠ n.prevHash → n.cleanJobs = true)
    (hblock : state.asFuture n = false → state.fits lib n = true →
      activated i.active.generation past = announced i.active.generation past) :
    DriverOk lib i sent
      (past ++ [⟨i.active.generation, n, state.asFuture n, state.fits lib n⟩])
      ⟨cid, (handleSv1Line lib cid line state).1, (handleSv1Line lib cid line state).2,
        written⟩ := by
  obtain ⟨conn, extended, hlink⟩ := h.link
  have hstep : linkStep decode lib cid ⟨state, notifiesOf i.active.generation past, [], []⟩
      (.line line) = some ⟨(handleSv1Line lib cid line state).1,
        notifiesOf i.active.generation past ++ [n],
        (handleSv1Line lib cid line state).2.filterMap SessionCall.job?, []⟩ := by
    simp only [linkStep, hnotify, List.nil_append, Option.toList_some]
  have hnext := (hlink.line_notify hnotify hstep).forget
  have hcalls := hlink.calls hnotify
  have hnotifies := notifiesOf_append past
    ⟨i.active.generation, n, state.asFuture n, state.fits lib n⟩
  have hannounced := announced_append past
    ⟨i.active.generation, n, state.asFuture n, state.fits lib n⟩
  have hactivated := activated_append past
    ⟨i.active.generation, n, state.asFuture n, state.fits lib n⟩
  dsimp only at hnotifies hannounced hactivated hcalls
  have htold := h.told
  simp only [Log.latest_nil, Option.none_or] at htold
  -- a notify that is no future one is of the block that was announced last
  have hlast : state.asFuture n = false →
      announced i.active.generation past = some n.prevHash := by
    intro himmediate
    obtain ⟨hnotclean, hfirst⟩ := Bool.or_eq_false_iff.mp himmediate
    cases hget : (notifiesOf i.active.generation past).getLast? with
    | none =>
      exact absurd (List.getLast?_eq_none_iff.mp hget) (h.first (by simpa using hfirst))
    | some last =>
      have hsame : last.prevHash = n.prevHash := by
        by_contra hne
        rw [hclean last hget hne] at hnotclean
        cases hnotclean
      rw [← h.block, hget, ← hsame]
      rfl
  refine ⟨⟨conn, extended, ?_⟩, ?_, ?_, ?_, ?_⟩
  · rw [hnotifies]
    exact hnext
  · rw [hnotifies]
    simp
  · rw [hnotifies, hannounced, List.getLast?_append]
    cases hfuture : state.asFuture n with
    | true => rfl
    | false => exact (hlast hfuture).symm
  · intro m hm
    rw [hactivated, ← htold m hm]
    rcases hcalls with ⟨hfits, hnone⟩ | ⟨hfits, job, hjob, hcalls⟩
    · rw [hnone, hfits]
      simp
    · have hquiet := (jobFor_isImmediate hjob).2
      rw [hcalls, hfits]
      cases hfuture : state.asFuture n with
      | true => simp [Log.latest, SessionCall.prevHash?, hquiet, activation]
      | false => simp [Log.latest, SessionCall.prevHash?, hquiet]
  · intro job hmem himmediate
    rcases hcalls with ⟨_, hnone⟩ | ⟨hfits, job', hjob, hcalls⟩
    · rw [hnone] at hmem
      cases hmem
    · obtain ⟨himm, hquiet⟩ := jobFor_isImmediate hjob
      -- the only job of the calls is the one of the notify
      have hsame : job = job' := by
        rw [hcalls] at hmem
        rcases List.mem_cons.mp hmem with heq | hmem
        · cases heq
          rfl
        · split at hmem
          · cases List.mem_singleton.mp hmem
            cases himmediate
          · cases hmem
      subst hsame
      have hfuture : state.asFuture n = false := by
        rw [himm] at himmediate
        simpa using himmediate
      rw [hfuture] at hjob hcalls
      refine ⟨?_, (notifiesOf i.active.generation past).length, n, ?_, ⟨conn, extended, hjob⟩, ?_⟩
      · rw [hcalls]
        simp [Log.latest, SessionCall.prevHash?, hquiet]
      · rw [hnotifies]
        simp
      · rw [hactivated, hfuture, if_neg (by simp), hblock hfuture hfits]
        exact hlast hfuture

/-- The reader takes another line. -/
theorem DriverOk.other {i : Inner} {sent : List Queued} {past : List Notified}
    {cid written : Nat} {state : Sv1UpState}
    (h : DriverOk lib i sent past ⟨cid, state, [], written⟩)
    {line : RpcMessage} (hnotify : lib.notify line = none) :
    DriverOk lib i sent past
      ⟨cid, (handleSv1Line lib cid line state).1, (handleSv1Line lib cid line state).2,
        written⟩ := by
  obtain ⟨conn, extended, hlink⟩ := h.link
  obtain ⟨⟨open', hstate⟩, _⟩ := @handleSv1Line_other lib cid line state hnotify
  have hquiet : ∀ frame, .sendTranslateFrame frame ∈ (handleSv1Line lib cid line state).2 →
      frame.Quiet := fun frame hframe => handleSv1Line_quiet hnotify hframe
  refine ⟨⟨conn, extended, ?_⟩, ?_, h.block, ?_, ?_⟩
  · rw [hstate]
    exact ⟨hlink.versionMask, hlink.extranonce1, hlink.extranonce2Size, hlink.kind, hlink.next,
      hlink.rolled, hlink.jobs, hlink.known, hlink.submits⟩
  · rw [hstate]
    exact h.first
  · intro m hm
    have hnone : Log.latest SessionCall.prevHash? (handleSv1Line lib cid line state).2 = none := by
      refine Log.latest_eq_none fun call hcall => ?_
      cases call with
      | sendTranslateFrame frame => exact (hquiet frame hcall).prevHash
      | setTranslateDiff diff => rfl
      | creditTranslate => rfl
    rw [hnone]
    exact h.told m hm
  · intro job hjob himmediate
    rw [(hquiet _ hjob).job job rfl] at himmediate
    cases himmediate

theorem OnBlock.translateLine {decode : Decoder} {r r' : Rig} {past : List Notified}
    (h : OnBlock lib r past) {line : RpcMessage}
    (hclean : PoolSetsClean lib (r, past) (.translateLine line))
    (hblock : BlockActivated lib (r, past) (.translateLine line))
    (hstep : step decode lib r (.translateLine line) = some r') :
    OnBlock lib r' (notifiedSoFar lib r (.translateLine line) past) := by
  simp only [step] at hstep
  split at hstep
  · rename_i cid state written htranslator
    cases hstep
    have hdriver := h.driver _ htranslator
    cases hnotify : lib.notify line with
    | none =>
      have hpast : notifiedSoFar lib r (.translateLine line) past = past := by
        simp [notifiedSoFar, notifiedAt, htranslator, hnotify]
      rw [hpast]
      refine ⟨h.sent, h.generations, fun t ht => ?_⟩
      cases ht
      exact hdriver.other hnotify
    | some n =>
      have hat : notifiedAt lib r (.translateLine line) =
          some ⟨r.inner.active.generation, n, state.asFuture n, state.fits lib n⟩ := by
        simp [notifiedAt, htranslator, hnotify]
      have hclean := hclean _ hat
      have hblock := hblock _ hat
      unfold notifiedSoFar
      rw [hat]
      refine ⟨?_, ?_, fun t ht => ?_⟩
      · intro before q after heq
        exact (h.sent before q after heq).mono _
      · intro m hm
        rcases List.mem_append.mp hm with hold | hnew
        · exact h.generations m hold
        · cases List.mem_singleton.mp hnew
          exact le_rfl
      · cases ht
        exact hdriver.notify decode hnotify hclean hblock
  · cases hstep

/-- The reader makes a call that sends nothing, or sends a frame to nobody. -/
theorem DriverOk.drop {i i' : Inner} {sent : List Queued} {past : List Notified}
    {cid written : Nat} {state : Sv1UpState} {call : SessionCall} {calls : List SessionCall}
    (h : DriverOk lib i sent past ⟨cid, state, call :: calls, written⟩)
    (hgen : i'.active.generation = i.active.generation)
    (hserves : ∀ m, i'.Serves cid m → i.Serves cid m ∧ call.prevHash? = none) :
    DriverOk lib i' sent past ⟨cid, state, calls, written⟩ := by
  have hrest : Log.latest SessionCall.prevHash? (call :: calls) =
      (Log.latest SessionCall.prevHash? calls).or call.prevHash? := by
    rw [← List.singleton_append, Log.latest_append, Log.latest_singleton]
  refine ⟨?_, ?_, ?_, ?_, ?_⟩ <;> rw [hgen]
  · exact h.link
  · exact h.first
  · exact h.block
  · intro m hm
    obtain ⟨hm, hquiet⟩ := hserves m hm
    have htold := h.told m hm
    rw [hrest, hquiet, Option.or_none] at htold
    exact htold
  · intro job hjob himmediate
    obtain ⟨hnone, hof⟩ := h.job job (List.mem_cons_of_mem _ hjob) himmediate
    rw [hrest] at hnone
    exact ⟨(Option.or_eq_none_iff.mp hnone).1, hof⟩

/-- The reader sends a frame to the owner of the channel. -/
theorem DriverOk.send {i : Inner} {sent : List Queued} {past : List Notified}
    {cid written member : Nat} {state : Sv1UpState} {frame : EitherFrame}
    {calls : List SessionCall}
    (h : DriverOk lib i sent past ⟨cid, state, .sendTranslateFrame frame :: calls, written⟩)
    (hserves : ∀ m, i.Serves cid m → m = member) :
    DriverOk lib i (sent ++ [⟨.reader i.active.generation, member, frame⟩]) past
      ⟨cid, state, calls, written⟩ := by
  have hrest : Log.latest SessionCall.prevHash? (.sendTranslateFrame frame :: calls) =
      (Log.latest SessionCall.prevHash? calls).or frame.prevHash? := by
    rw [← List.singleton_append, Log.latest_append, Log.latest_singleton]
    rfl
  refine ⟨h.link, h.first, h.block, ?_, ?_⟩
  · intro m hm
    have htold := h.told m hm
    have hlast : prevHashOf i.active.generation m
          (sent ++ [⟨.reader i.active.generation, member, frame⟩]) =
        frame.prevHash?.or (prevHashOf i.active.generation m sent) := by
      rw [prevHashOf, Log.latest_append, Log.latest_singleton, if_pos ⟨rfl, (hserves m hm).symm⟩]
      rfl
    rw [hlast, ← Option.or_assoc, ← hrest]
    exact htold
  · intro job hjob himmediate
    obtain ⟨hnone, hof⟩ := h.job job (List.mem_cons_of_mem _ hjob) himmediate
    rw [hrest] at hnone
    exact ⟨(Option.or_eq_none_iff.mp hnone).1, hof⟩

/-- A frame of the reader that goes to the owner is on the block that the owner was told. -/
theorem DriverOk.hashesOn {i : Inner} {sent : List Queued} {past : List Notified}
    {cid written member : Nat} {state : Sv1UpState} {frame : EitherFrame}
    {calls : List SessionCall}
    (h : DriverOk lib i sent past ⟨cid, state, .sendTranslateFrame frame :: calls, written⟩)
    (hserves : i.Serves cid member) :
    HashesOn lib past sent ⟨.reader i.active.generation, member, frame⟩ := by
  intro g job hsource hframe himmediate
  cases hsource
  have hframe : frame = .built job := hframe
  subst hframe
  obtain ⟨hnone, k, n, hn, ⟨conn, extended, hjob⟩, hactivated⟩ :=
    h.job job List.mem_cons_self himmediate
  refine ⟨k, n, hn, ⟨cid, conn, extended, hjob⟩, ?_⟩
  have htold := h.told member hserves
  rw [hnone, Option.none_or, hactivated] at htold
  exact htold

/-- Accounting changes no owner. -/
theorem SameRig.serves {i i' : Inner} (h : SameRig i i') {cid m : Nat} (hm : i'.Serves cid m) :
    i.Serves cid m := by
  obtain ⟨hattached, c, hc, hcid, howner⟩ := hm
  rw [h.members.members] at hattached
  have hback : SameChannels i' i := Eq.symm h.channels
  obtain ⟨c', hc', hcid', howner'⟩ := hback.kept hc
  exact ⟨hattached, c', hc', hcid'.trans hcid, howner'.trans howner⟩

/-- The reader makes a call that sends nothing. -/
theorem OnBlock.keepBooks {r : Rig} {past : List Notified} (h : OnBlock lib r past)
    {cid written : Nat} {state : Sv1UpState} {call : SessionCall} {calls : List SessionCall}
    (htranslator : r.translator = some ⟨cid, state, call :: calls, written⟩) (member : Nat)
    (now : Rat) (hcall : ∀ frame, call ≠ .sendTranslateFrame frame)
    (hquiet : call.prevHash? = none) :
    OnBlock lib ({ r with translator := some ⟨cid, state, calls, written⟩ }.translateCall
      call cid member now) past := by
  obtain ⟨new, hsent, hnew⟩ := translateCall_sends
    { r with translator := some ⟨cid, state, calls, written⟩ } call cid member now
  have hsame := translateCall_sameRig
    { r with translator := some ⟨cid, state, calls, written⟩ } call cid member now
  have htasks := translateCall_sameTasks
    { r with translator := some ⟨cid, state, calls, written⟩ } call cid member now
  have hnone : new = [] := by
    refine List.eq_nil_iff_forall_not_mem.mpr fun q hq => ?_
    obtain ⟨_, frame, hframe, _⟩ := hnew q hq
    exact hcall frame hframe
  rw [hnone, List.append_nil] at hsent
  refine ⟨?_, ?_, fun t ht => ?_⟩
  · rw [hsent]
    exact h.sent
  · rw [hsame.upstream.generation]
    exact h.generations
  · rw [htasks.translator] at ht
    cases ht
    rw [hsent]
    exact (h.driver _ htranslator).drop hsame.upstream.generation fun m hm =>
      ⟨hsame.serves hm, hquiet⟩

theorem OnBlock.translateCall {decode : Decoder} {r r' : Rig} {past : List Notified}
    (h : OnBlock lib r past) (hknown : Known r) {member : Nat} {now : Rat}
    (hyields : YieldsOwner r (.translateCall member now))
    (hstep : step decode lib r (.translateCall member now) = some r') : OnBlock lib r' past := by
  simp only [step] at hstep
  split at hstep
  · rename_i cid state call calls written htranslator
    split at hstep
    · rename_i hyielded
      cases hstep
      have hdriver := h.driver _ htranslator
      cases call with
      | sendTranslateFrame frame =>
        have hinHand : r.inHand = some frame := by
          unfold Rig.inHand
          rw [htranslator]
        have hchannel : frame.channelId? = some cid :=
          hknown.scope _ htranslator frame List.mem_cons_self
        by_cases hmember : member ∈ r.inner.members
        · have hserves := serves_of_ownerOf hchannel (hyields frame hinHand hmember)
          have hsent : ({ r with translator := some ⟨cid, state, calls, written⟩ }.translateCall
              (.sendTranslateFrame frame) cid member now).sent =
              r.sent ++ [⟨.reader r.inner.active.generation, member, frame⟩] := by
            simp [Rig.translateCall, sendTranslateFrame, Inner.toMember, hmember]
          refine ⟨?_, h.generations, fun t ht => ?_⟩
          · rw [hsent]
            exact h.sent.snoc (hdriver.hashesOn hserves)
          · have ht : some _ = some t := ht
            cases ht
            rw [hsent]
            exact hdriver.send fun m hm => hknown.serves_unique hm hserves
        · -- nobody is left to own the channel
          have hsent : ({ r with translator := some ⟨cid, state, calls, written⟩ }.translateCall
              (.sendTranslateFrame frame) cid member now).sent = r.sent := by
            simp [Rig.translateCall, sendTranslateFrame, Inner.toMember, hmember]
          have hnobody : r.inner.members = [] := by
            by_contra hsome
            exact hmember (hyielded hsome)
          refine ⟨?_, h.generations, fun t ht => ?_⟩
          · rw [hsent]
            exact h.sent
          · have ht : some _ = some t := ht
            cases ht
            rw [hsent]
            refine hdriver.drop rfl fun m hm => ?_
            have hattached : m ∈ r.inner.members := hm.1
            rw [hnobody] at hattached
            cases hattached
      | setTranslateDiff diff => exact h.keepBooks htranslator _ _ (fun _ h => by cases h) rfl
      | creditTranslate => exact h.keepBooks htranslator _ _ (fun _ h => by cases h) rfl
    · cases hstep
  · cases hstep

theorem OnBlock.other {decode : Decoder} {r r' : Rig} {e : Event} {past : List Notified}
    (h : OnBlock lib r past) (hknown : Known r) (ht : Transition decode lib r e r')
    (hline : ∀ line, e ≠ .translateLine line) (hcall : ∀ m now, e ≠ .translateCall m now) :
    OnBlock lib r' past := by
  cases ht with
  | attach hnative =>
    refine h.same rfl (forwardOpen_upstream ..).generation rfl fun htranslator => ?_
    rw [hknown.writer.flag, hnative] at htranslator
    cases htranslator
  | @openChannel member spec hmember =>
    refine h.quiet rfl ?_ (openChannel_upstream ..).generation rfl fun _ cid m hm => ?_
    · intro q hq g hreader
      obtain ⟨_, _, rfl⟩ := List.mem_map.mp hq
      cases hreader
    · simpa [Inner.Serves, (openChannel_members ..).members] using hm
  | @minerFrame member frame hmember =>
    have hsent := Rig.submitted_sent { r with inner := (minerFrame frame r.inner).1 }
      (minerFrame frame r.inner).2
    refine h.same hsent ?_ (SameTasks.submitted _ _).translator fun _ cid m hm => ?_
    · rw [Rig.submitted_inner]
      exact (minerFrame_upstream ..).generation
    · simpa [Inner.Serves, (minerFrame_members ..).members] using hm
  | @detach member hmember =>
    refine h.same rfl rfl rfl fun _ cid m hm => ?_
    obtain ⟨hattached, c, hc, hof⟩ := hm
    exact ⟨(List.mem_filter.mp hattached).1, c, (List.mem_filter.mp hc).1, hof⟩
  | @upstreamFrame g frame now hnative =>
    refine h.quiet rfl ?_ (onUpstreamFrame_upstream ..).generation rfl
      fun htranslator cid m hm => ?_
    · intro q hq g' hreader
      obtain ⟨s, hs, rfl⟩ := List.mem_map.mp hq
      refine .of_isWork fun hwork => ?_
      obtain ⟨_, _, _, _, _, hframe⟩ := (onUpstreamFrame_sends hs).2 hwork
      exact ⟨_, hframe⟩
    · have hstale : g ≠ r.inner.active.generation := by
        intro hg
        rw [hnative hg] at htranslator
        cases htranslator
      simpa [onUpstreamFrame_stale hstale] using hm
  | translateLine htranslator => exact absurd rfl (hline _)
  | translateCall htranslator => exact absurd rfl (hcall _ _)
  | @translateWrite cid written state calls frame htranslator =>
    refine ⟨h.sent, h.generations, fun t ht => ?_⟩
    cases ht
    have hdriver := h.driver _ htranslator
    obtain ⟨id, submits, hstate⟩ := translateSubmit_state decode frame state
    obtain ⟨conn, extended, hlink⟩ := hdriver.link
    rw [hstate]
    exact ⟨⟨conn, extended, hlink.versionMask, hlink.extranonce1, hlink.extranonce2Size,
      hlink.kind, hlink.next, hlink.rolled, hlink.jobs, hlink.known, hlink.submits⟩,
      hdriver.first, hdriver.block, hdriver.told, hdriver.job⟩
  | @swapReopened infos plan hswap hlength =>
    exact h.install hknown rfl (hknown.generations.plan plan (Or.inl hswap)).1 nofun
  | @swapTranslated lines plan channel members conn hswap hconn =>
    refine h.install hknown rfl (hknown.generations.plan plan (Or.inr ⟨_, _, hswap⟩)).1 ?_
    intro t ht
    cases ht
    exact ⟨conn, _, _, rfl, rfl⟩
  | @repoint plan s todo abandoned members frame hswap hframe =>
    refine h.quiet rfl ?_ rfl rfl fun _ _ _ hm => hm
    intro q hq g hreader
    obtain ⟨_, _, rfl⟩ := List.mem_map.mp hq
    cases hreader
  | notice hswap =>
    refine h.quiet rfl ?_ rfl rfl fun _ _ _ hm => hm
    intro q hq g hreader
    obtain ⟨_, _, rfl⟩ := List.mem_map.mp hq
    cases hreader
  | _ => exact h.same rfl rfl rfl fun _ _ _ hm => hm

theorem OnBlock.step {decode : Decoder} {r r' : Rig} {e : Event} {past : List Notified}
    (h : OnBlock lib r past) (hknown : Known r) (hguard : KeepsBlock lib (r, past) e)
    (hstep : step decode lib r e = some r') : OnBlock lib r' (notifiedSoFar lib r e past) := by
  obtain ⟨hclean, hblock, hyields⟩ := hguard
  cases e with
  | translateLine line => exact h.translateLine hclean hblock hstep
  | translateCall member now =>
    change OnBlock lib r' (past ++ [])
    rw [List.append_nil]
    exact h.translateCall hknown hyields hstep
  | _ =>
    change OnBlock lib r' (past ++ [])
    rw [List.append_nil]
    exact h.other hknown (transition_of_step hstep) nofun nofun

theorem OnBlock.of_start {worker : String} {spec : OpenSpec} {store : OrderStore}
    {idlePool : Option UpstreamTarget} {now : Int} {failed : Option InitialAnswer}
    {answer : InitialAnswer} {r : Rig}
    (h : start lib worker spec store idlePool now failed answer = some r) :
    OnBlock lib r [] := by
  obtain ⟨_, _, _, _, _, hstarted⟩ := start_started h
  have hreply : ∀ q ∈ r.sent, ∀ g, q.source ≠ .reader g := by
    intro q hq g hreader
    rw [(hstarted.sent q hq).1] at hreader
    cases hreader
  refine ⟨fun before q after heq => ?_, nofun, fun t ht => ?_⟩
  · refine .of_quiet fun g hreader => ?_
    exact absurd hreader (hreply q (by simp [heq]) g)
  · obtain ⟨_, _, _, _, _, hinstall⟩ := start_firstInstall h
    cases hinstall with
    | native => cases ht
    | sv1 =>
      cases ht
      exact .fresh rfl rfl (List.forall_mem_nil _) fun q hq => hreply q hq _

/-! ## The result -/

/-- In every run in which the pool marks every change of the prev-hash, no block goes unactivated
into an immediate job, and the reader sends to the owner of the channel: every immediate job that
was queued to a member was made of a notify, and the prev-hash that the member was told last by
the same upstream is the one of this notify. -/
theorem miner_works_on_notified_block {decode : Decoder} {x : Rig × List Notified}
    (h : ReachesWith decode lib (notifiedSoFar lib) (fun _ => []) (KeepsBlock lib) x) :
    Log.Ordered (HashesOn lib x.2) x.1.sent := by
  have hinv : OnBlock lib x.1 x.2 :=
    h.invariant_reaches (fun _ _ _ _ _ _ _ _ _ hstart => .of_start hstart)
      fun _ _ _ _ hreaches hx hguard hstep => hx.step (.of_reaches hreaches) hguard hstep
  exact hinv.sent

/-- The first notify, and what the reader sends for it. -/
def firstBlock : List Event :=
  [.translateLine (notifyLine "j1" 7 2 true), .translateCall 1 0, .translateCall 1 0]

/-- An immediate job of the first block. -/
theorem miner_works_on_notified_block_first :
    ∃ x, ReachesWith wireDecoder notifyLibrary (notifiedSoFar notifyLibrary) (fun _ => [])
        (KeepsBlock notifyLibrary) x ∧
      (∃ q ∈ x.1.sent, ∃ job, q.frame = .built job ∧ job.isImmediate = true) ∧
      Log.Ordered (HashesOn notifyLibrary x.2) x.1.sent := by
  obtain ⟨x, hx, hp⟩ := @exists_history_of_start wireDecoder notifyLibrary "bc1q.rig"
    (extendedOpen 7) (some sellerPool) 0 none (.sv1 sv1Handshake) _ (notifiedSoFar notifyLibrary)
    (fun _ => []) (KeepsBlock notifyLibrary) _
    (firstBlock ++ [.translateLine (notifyLine "j2" 7 2 false), .translateCall 1 0])
    (fun x => x.1.sent.any fun q => match q.frame with
      | .built job => job.isImmediate
      | .received _ => false) (by decide +kernel)
  obtain ⟨q, hq, hp⟩ := List.any_eq_true.mp hp
  refine ⟨x, hx, ⟨q, hq, ?_⟩, miner_works_on_notified_block hx⟩
  split at hp
  · exact ⟨_, ‹_›, hp⟩
  · cases hp

/-- The clean notify of the second block has a merkle branch that is too long.  The next one
becomes an immediate job, while the miner was told the first block last. -/
theorem miner_works_on_old_block :
    ∃ x, ReachesWith wireDecoder notifyLibrary (notifiedSoFar notifyLibrary) (fun _ => [])
        (fun x e => PoolSetsClean notifyLibrary x e ∧ YieldsOwner x.1 e) x ∧
      ¬Log.Ordered (HashesOn notifyLibrary x.2) x.1.sent := by
  obtain ⟨x, hx, hp⟩ := @exists_history_of_start wireDecoder notifyLibrary "bc1q.rig"
    (extendedOpen 7) (some sellerPool) 0 none (.sv1 sv1Handshake) _ (notifiedSoFar notifyLibrary)
    (fun _ => []) (fun x e => PoolSetsClean notifyLibrary x e ∧ YieldsOwner x.1 e) _
    (firstBlock ++ [.translateLine (notifyLine "j2" 8 256 true),
      .translateLine (notifyLine "j3" 8 2 false), .translateCall 1 0])
    (fun x => x.1.sent.getLast?.any fun q => match q.frame with
      | .built job => decide (q.source = .reader 0) && job.isImmediate &&
          decide (job.jobId? = some 3) &&
          decide ((notifiesOf 0 x.2)[2]?.map Notify.prevHash ≠
            prevHashOf 0 q.member x.1.sent.dropLast)
      | .received _ => false) (by decide +kernel)
  refine ⟨x, hx, fun hordered => ?_⟩
  obtain ⟨q, hq, hp⟩ := (Option.any_eq_true ..).mp hp
  split at hp
  · rename_i job hframe
    simp only [Bool.and_eq_true, decide_eq_true_eq] at hp
    obtain ⟨⟨⟨hsource, himmediate⟩, hid⟩, hwrong⟩ := hp
    obtain ⟨k, n, hn, ⟨_, _, _, hjob⟩, htold⟩ := hordered x.1.sent.dropLast q []
      (List.dropLast_append_getLast? q hq).symm 0 job hsource hframe himmediate
    -- the job is the one of the third notify
    rw [(jobFor_spec hjob).1] at hid
    obtain rfl : k = 2 := by
      have := Option.some.inj hid
      omega
    rw [hn, htold] at hwrong
    exact hwrong rfl
  · cases hp

end RentalProxy.Sv2
