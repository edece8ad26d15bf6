import RentalProxy.Sv2.Transitions
import RentalProxy.Lib.Logs

/-!
# Re-point before work

A swap installs the new upstream under the lock and spawns its reader there.  It
sends the re-point frames of the channels only after it gave the lock back, and
the reader may have the lock in between.  So a job can be queued to a miner ahead
of the extranonce prefix it is built for: `work_overtakes_repoint` is such a run.

`WorkWaits` is the condition on a step under which `repoint_before_work` holds.
The invariant is `Repointing`: a re-point frame that the active upstream owes is
in the queue already or on the list of the swap.
-/

namespace RentalProxy.Sv2

open StepSystem

/-! ## The order -/

/-- The frame gives work for the channel that is re-pointed. -/
def RepointStep.concerns (s : RepointStep) (q : Queued) : Bool :=
  decide (q.member = s.member) && q.frame.isWork && q.frame.channelId?.any s.covers

/-- The re-point frame is among these. -/
def RepointStep.Done (s : RepointStep) (generation : Nat) (queue : List Queued) : Prop :=
  ∃ frame, s.frame = some frame ∧ ⟨.repoint generation, s.member, frame⟩ ∈ queue

/-- Work of the reader of an installed upstream comes after the re-point frames
of its channel. -/
def Install.Respects (inst : Install) (before : List Queued) (q : Queued) : Prop :=
  q.source = .reader inst.generation →
    ∀ s ∈ inst.owed, s.concerns q = true → s.Done inst.generation before

/-- Re-point before work, for every swap that installed an upstream. -/
def RepointFirst (r : Rig) : Prop := ∀ inst ∈ r.installs, Log.Ordered inst.Respects r.sent

/-! ## The condition on a step -/

/-- The frame of the next call of the translating reader, if it is a send. -/
def Translator.nextFrame? (t : Translator) : Option EitherFrame :=
  match t.calls with
  | .sendTranslateFrame frame :: _ => some frame
  | _ => none

/-- The condition on a step.  The reader of the active upstream passes no work
on to a member while the swap still has a re-point frame of that channel to
send, and the re-point frames can be built: a prefix has at most 32 bytes and a
target has 32. -/
def WorkWaits (lib : Sv1Library) (r : Rig) : Event → Prop
  | .upstreamFrame g frame _ => g = r.inner.active.generation → frame.msgType.isWork = true →
      ∀ upCid ∈ readChannelId frame, ∀ p ∈ r.inner.recipients upCid, ∀ s ∈ r.swap.todo,
        s.member = p.2 → s.covers (wireId p.1) = false
  | .translateCall member _ => ∀ t ∈ r.translator, ∀ frame ∈ t.nextFrame?, frame.isWork = true →
      ∀ s ∈ r.swap.todo, s.member = member → s.covers t.downCid = false
  | .swapReopened infos => ∀ info ∈ infos,
      info.extranoncePrefix.length ≤ 32 ∧ info.target.length = 32
  | .swapTranslated lines => ∀ conn ∈ connectSv1Upstream lib lines, conn.extranonce1.length ≤ 32
  | _ => True

/-! ## Generations -/

/-- Upstreams are numbered in the order they are installed. -/
structure Generations (r : Rig) : Prop where
  counter : r.inner.active.generation ≤ r.inner.generationCounter
  plan : ∀ plan, r.swap.Connecting plan →
    r.inner.active.generation < plan.snapshot.generation ∧
      plan.snapshot.generation ≤ r.inner.generationCounter
  current : ∀ plan todo abandoned members, r.swap = .repointing plan todo abandoned members →
    plan.snapshot.generation = r.inner.active.generation
  installs : ∀ inst ∈ r.installs, inst.generation ≤ r.inner.active.generation
  readers : ∀ q ∈ r.sent, ∀ g, q.source = .reader g → g ≤ r.inner.active.generation

@[simp] theorem connecting_idle (plan : SwapPlan) : ¬SwapTask.idle.Connecting plan := by
  rintro (h | ⟨_, _, h⟩) <;> cases h

@[simp] theorem connecting_repointing {p plan : SwapPlan} {todo : List RepointStep}
    {abandoned : List (Nat × Nat)} {members : List Nat} :
    ¬(SwapTask.repointing p todo abandoned members).Connecting plan := by
  rintro (h | ⟨_, _, h⟩) <;> cases h

theorem connecting_connecting {p plan : SwapPlan} :
    (SwapTask.connecting p).Connecting plan ↔ plan = p := by
  constructor
  · rintro (h | ⟨_, _, h⟩) <;> cases h
    rfl
  · rintro rfl
    exact Or.inl rfl

theorem connecting_translating {p plan : SwapPlan} {channel : Reopen} {members : List Nat} :
    (SwapTask.translating p channel members).Connecting plan ↔ plan = p := by
  constructor
  · rintro (h | ⟨_, _, h⟩) <;> cases h
    rfl
  · rintro rfl
    exact Or.inr ⟨_, _, rfl⟩

/-- Only the reader of the active upstream gets something to the members. -/
theorem onUpstreamFrame_stale {decode : Decoder} {now : Rat} {g : Nat} {frame : Sv2Frame}
    {i : Inner} (h : g ≠ i.active.generation) :
    onUpstreamFrame decode now g frame i = (i, none, []) := by
  unfold onUpstreamFrame
  rw [if_pos h]

/-- A frame, or a call, of a superseded connection changes nothing, credits nothing
and is sent to nobody. -/
theorem superseded_changes_nothing {decode : Decoder} {g : Nat} {i : Inner}
    (hg : g ≠ i.active.generation) :
    (∀ frame now, onUpstreamFrame decode now g frame i = (i, none, [])) ∧
      (∀ cid now, creditTranslate now g cid i = (i, none)) ∧
      (∀ cid diff, setTranslateDiff g cid diff i = i) ∧
      ∀ member frame, sendTranslateFrame g member frame i = [] :=
  ⟨fun _ _ => onUpstreamFrame_stale hg, fun _ _ => if_pos hg, fun _ _ => if_pos hg,
    fun _ _ => if_pos hg⟩

/-- A step that keeps the upstream and the swap, and whose readers are the
active one. -/
theorem Generations.frame {r r' : Rig} (h : Generations r)
    (hup : SameUpstream r.inner r'.inner) (hswap : r'.swap = r.swap ∨ r'.swap = .idle)
    (hinstalls : r'.installs = r.installs)
    (hsent : ∀ q ∈ r'.sent, q ∈ r.sent ∨ ∀ g, q.source = .reader g →
      g ≤ r.inner.active.generation) : Generations r' where
  counter := by
    rw [hup.generation, hup.generationCounter]
    exact h.counter
  plan := by
    rw [hup.generation, hup.generationCounter]
    rcases hswap with hswap | hswap
    · rw [hswap]
      exact h.plan
    · rw [hswap]
      exact fun plan hplan => absurd hplan (connecting_idle plan)
  current := by
    rw [hup.generation]
    rcases hswap with hswap | hswap
    · rw [hswap]
      exact h.current
    · rw [hswap]
      intro plan todo abandoned members hs
      cases hs
  installs := by
    rw [hinstalls, hup.generation]
    exact h.installs
  readers := by
    rw [hup.generation]
    intro q hq
    rcases hsent q hq with hold | hnew
    · exact h.readers q hold
    · exact hnew

/-- The swap goes on sending, under the same number. -/
theorem Generations.send {r r' : Rig} {plan : SwapPlan} {todo todo' : List RepointStep}
    {abandoned abandoned' : List (Nat × Nat)} {members : List Nat} (h : Generations r)
    (hswap : r.swap = .repointing plan todo abandoned members)
    (hswap' : r'.swap = .repointing plan todo' abandoned' members) (hinner : r'.inner = r.inner)
    (hinstalls : r'.installs = r.installs)
    (hsent : ∀ q ∈ r'.sent, q ∈ r.sent ∨ ∀ g, q.source ≠ .reader g) : Generations r' where
  counter := by
    rw [hinner]
    exact h.counter
  plan := by
    rw [hswap']
    exact fun p hp => absurd hp connecting_repointing
  current := by
    rw [hswap', hinner]
    intro p _ _ _ hp
    cases hp
    exact h.current plan todo abandoned members hswap
  installs := by
    rw [hinstalls, hinner]
    exact h.installs
  readers := by
    rw [hinner]
    intro q hq g hg
    rcases hsent q hq with hold | hnew
    · exact h.readers q hold g hg
    · exact absurd hg (hnew g)

/-- An install, which takes the number of its plan. -/
theorem Generations.install {r r' : Rig} {todo owed : List RepointStep}
    {abandoned : List (Nat × Nat)} {members : List Nat} (h : Generations r) (plan : SwapPlan)
    (hplan : r.swap.Connecting plan)
    (hswap' : r'.swap = .repointing plan todo abandoned members)
    (hgen : r'.inner.active.generation = plan.snapshot.generation)
    (hcounter : r'.inner.generationCounter = r.inner.generationCounter)
    (hinstalls : r'.installs = r.installs ++ [⟨plan.snapshot.generation, owed⟩])
    (hsent : r'.sent = r.sent) : Generations r' where
  counter := by
    rw [hgen, hcounter]
    exact (h.plan plan hplan).2
  plan := by
    rw [hswap']
    exact fun p hp => absurd hp connecting_repointing
  current := by
    rw [hswap', hgen]
    intro p _ _ _ hp
    cases hp
    rfl
  installs := by
    rw [hinstalls, hgen]
    intro inst hinst
    rcases List.mem_append.mp hinst with hold | hnew
    · exact (h.installs inst hold).trans (h.plan plan hplan).1.le
    · rw [List.mem_singleton.mp hnew]
  readers := by
    rw [hsent, hgen]
    exact fun q hq g hg => (h.readers q hq g hg).trans (h.plan plan hplan).1.le

theorem Generations.begin {r : Rig} (h : Generations r) (caller : SwapCaller)
    (target : UpstreamTarget) (routing : Routing) :
    Generations (r.beginSwap caller target routing) where
  counter := h.counter.trans (Nat.le_succ _)
  plan := by
    intro plan hplan
    rw [connecting_connecting.mp hplan]
    exact ⟨Nat.lt_succ_of_le h.counter, le_rfl⟩
  current := by
    intro plan _ _ _ hs
    cases hs
  installs := h.installs
  readers := h.readers

theorem Generations.withTranslator {r : Rig} (h : Generations r) (t : Option Translator) :
    Generations { r with translator := t } :=
  h.frame (.refl _) (Or.inl rfl) rfl fun _ hq => Or.inl hq

theorem Generations.translateCall {r : Rig} (h : Generations r) (call : SessionCall)
    (cid member : Nat) (now : Rat) : Generations (r.translateCall call cid member now) := by
  obtain ⟨new, hsent, hnew⟩ := translateCall_sends r call cid member now
  have htasks := translateCall_sameTasks r call cid member now
  refine h.frame (translateCall_sameRig ..).upstream (Or.inl htasks.swap) htasks.installs
    fun q hq => ?_
  rw [hsent] at hq
  rcases List.mem_append.mp hq with hold | hq
  · exact Or.inl hold
  · obtain ⟨_, frame, _, rfl⟩ := hnew q hq
    refine Or.inr fun g hg => ?_
    cases hg
    exact le_rfl

theorem Generations.step {decode : Decoder} {lib : Sv1Library} {r r' : Rig} {e : Event}
    (h : Generations r) (ht : Transition decode lib r e r') : Generations r' := by
  cases ht with
  | attach hnative =>
    have hadd : SameUpstream r.inner r.inner.addMember.1 := ⟨rfl, rfl, rfl, rfl, rfl, rfl⟩
    exact h.frame (hadd.trans (forwardOpen_upstream ..)) (Or.inl rfl) rfl fun q hq => Or.inl hq
  | @openChannel member spec hmember =>
    refine h.frame (openChannel_upstream member spec r.inner) (Or.inl rfl) rfl fun q hq => ?_
    rcases Rig.mem_queue hq with hold | ⟨s, _, rfl⟩
    · exact Or.inl hold
    · exact Or.inr fun g hg => by cases hg
  | @minerFrame member frame hmember =>
    refine h.frame (by simpa using minerFrame_upstream frame r.inner)
      (Or.inl (SameTasks.submitted _ _).swap) (SameTasks.submitted _ _).installs fun q hq => ?_
    exact Or.inl (by simpa using hq)
  | detach hmember =>
    exact h.frame ⟨rfl, rfl, rfl, rfl, rfl, rfl⟩ (Or.inl rfl) rfl fun q hq => Or.inl hq
  | @upstreamFrame g frame now hnative =>
    refine h.frame (onUpstreamFrame_upstream now g frame r.inner) (Or.inl rfl) rfl fun q hq => ?_
    rcases Rig.mem_queue hq with hold | ⟨s, hs, rfl⟩
    · exact Or.inl hold
    · refine Or.inr fun g' hg' => ?_
      cases hg'
      exact (onUpstreamFrame_sends hs).1.le
  | translateLine htranslator => exact h.withTranslator _
  | translateWrite htranslator => exact h.withTranslator _
  | translateCall htranslator =>
    exact (h.withTranslator _).translateCall ..
  | swapOrder hswap horder htarget => exact h.begin ..
  | swapRevert hswap hdefault => exact h.begin ..
  | swapFailed hswap => exact h.frame (.refl _) (Or.inr rfl) rfl fun q hq => Or.inl hq
  | @swapReopened infos plan hswap hlength =>
    exact h.install plan (Or.inl hswap) rfl rfl rfl rfl rfl
  | @swapNotSv2 plan channel members hswap hchannel =>
    refine ⟨h.counter, ?_, ?_, h.installs, h.readers⟩
    · intro p hp
      rw [connecting_translating.mp hp]
      exact h.plan plan (Or.inl hswap)
    · intro p _ _ _ hs
      cases hs
  | @swapTranslated lines plan channel members conn hswap hconn =>
    exact h.install plan (Or.inr ⟨_, _, hswap⟩) rfl rfl rfl rfl rfl
  | repoint hswap hframe =>
    refine h.send hswap rfl rfl rfl fun q hq => ?_
    rcases Rig.mem_queue hq with hold | ⟨s, _, rfl⟩
    · exact Or.inl hold
    · exact Or.inr fun g hg => by cases hg
  | repointFailed hswap hframe =>
    exact h.frame (.refl _) (Or.inr rfl) rfl fun q hq => Or.inl hq
  | notice hswap =>
    refine h.send hswap rfl rfl rfl fun q hq => ?_
    rcases Rig.mem_queue hq with hold | ⟨s, _, rfl⟩
    · exact Or.inl hold
    · exact Or.inr fun g hg => by cases hg
  | swapDone hswap => exact h.frame (.refl _) (Or.inr rfl) rfl fun q hq => Or.inl hq
  | reconnect howed => exact h.frame (.refl _) (Or.inl rfl) rfl fun q hq => Or.inl hq
  | store hstore => exact h.frame (.refl _) (Or.inl rfl) rfl fun q hq => Or.inl hq
  | setSeller => exact h.frame (.refl _) (Or.inl rfl) rfl fun q hq => Or.inl hq

/-! ## The route -/

/-- The upstream and the routing are those of before. -/
structure SameRoute (i i' : Inner) : Prop where
  generation : i'.active.generation = i.active.generation
  target : i'.active.target = i.active.target
  routing : i'.routing = i.routing

/-- The upstream and the routing are those of a swap. -/
structure RouteOf (plan : SwapPlan) (i : Inner) : Prop where
  generation : i.active.generation = plan.snapshot.generation
  target : i.active.target = plan.target
  routing : i.routing = plan.routing

theorem SameUpstream.route {i i' : Inner} (h : SameUpstream i i') : SameRoute i i' :=
  ⟨h.generation, h.target, h.routing⟩

/-- Upstream and routing change together, when a swap installs. -/
theorem route_of_transition {decode : Decoder} {lib : Sv1Library} {r r' : Rig} {e : Event}
    (ht : Transition decode lib r e r') : SameRoute r.inner r'.inner ∨
      ∃ plan, r.swap.Connecting plan ∧ RouteOf plan r'.inner := by
  cases ht with
  | attach hnative =>
    have hadd : SameUpstream r.inner r.inner.addMember.1 := ⟨rfl, rfl, rfl, rfl, rfl, rfl⟩
    exact Or.inl (hadd.trans (forwardOpen_upstream ..)).route
  | openChannel hmember => exact Or.inl (openChannel_upstream ..).route
  | @minerFrame member frame hmember =>
    left
    rw [Rig.submitted_inner]
    exact (minerFrame_upstream frame r.inner).route
  | upstreamFrame hnative => exact Or.inl (onUpstreamFrame_upstream ..).route
  | @translateCall member cid written now state call calls htranslator =>
    let s : Rig := { r with translator := some ⟨cid, state, calls, written⟩ }
    exact Or.inl (translateCall_sameRig s call cid member now).upstream.route
  | swapReopened hswap hlength => exact Or.inr ⟨_, Or.inl hswap, rfl, rfl, rfl⟩
  | swapTranslated hswap hconn => exact Or.inr ⟨_, Or.inr ⟨_, _, hswap⟩, rfl, rfl, rfl⟩
  | _ => exact Or.inl ⟨rfl, rfl, rfl⟩

/-- Generations do not go down, and the routing of one is fixed. -/
theorem Generations.route {decode : Decoder} {lib : Sv1Library} {r r' : Rig} {e : Event}
    (h : Generations r) (ht : Transition decode lib r e r') : SameRoute r.inner r'.inner ∨
      r.inner.active.generation < r'.inner.active.generation := by
  rcases route_of_transition ht with hsame | ⟨plan, hplan, hroute⟩
  · exact Or.inl hsame
  · right
    rw [hroute.generation]
    exact (h.plan plan hplan).1

/-! ## What the swap owes -/

/-- Every re-point frame of the active upstream is queued or on the list of the
swap, and so far the order is right. -/
structure Repointing (r : Rig) : Prop where
  first : RepointFirst r
  owed : ∀ inst ∈ r.installs, inst.generation = r.inner.active.generation →
    ∀ s ∈ inst.owed, s ∈ r.swap.todo ∨ s.Done inst.generation r.sent
  built : ∀ s ∈ r.swap.todo, s.frame.isSome

theorem RepointStep.Done.mono {s : RepointStep} {g : Nat} {queue : List Queued}
    (h : s.Done g queue) (more : List Queued) : s.Done g (queue ++ more) := by
  obtain ⟨frame, hframe, hmem⟩ := h
  exact ⟨frame, hframe, List.mem_append_left _ hmem⟩

theorem Install.Respects.mono {inst : Install} (before more : List Queued) (q : Queued)
    (h : inst.Respects before q) : inst.Respects (before ++ more) q :=
  fun hsource s hs hconcerns => (h hsource s hs hconcerns).mono more

/-- A step of the same upstream.  What it queues as the reader concerns no frame
that the swap has still to send, and what it takes off the list of the swap it
queues. -/
theorem Repointing.extend {r r' : Rig} (h : Repointing r) (new : List Queued)
    (hgen : r'.inner.active.generation = r.inner.active.generation)
    (hinstalls : r'.installs = r.installs) (hsent : r'.sent = r.sent ++ new)
    (hnew : ∀ q ∈ new, ∀ g, q.source = .reader g →
      g = r.inner.active.generation ∧ ∀ s ∈ r.swap.todo, s.concerns q = false)
    (htodo : ∀ s ∈ r.swap.todo, s ∈ r'.swap.todo ∨ s.Done r.inner.active.generation new)
    (hbuilt : ∀ s ∈ r'.swap.todo, s ∈ r.swap.todo) : Repointing r' where
  first := by
    intro inst hinst
    rw [hinstalls] at hinst
    rw [hsent]
    refine (h.first inst hinst).append Install.Respects.mono fun q hq hsource s hs hconcerns => ?_
    obtain ⟨hg, hclear⟩ := hnew q hq _ hsource
    rcases h.owed inst hinst hg s hs with htodo | hdone
    · rw [hclear s htodo] at hconcerns
      cases hconcerns
    · exact hdone
  owed := by
    intro inst hinst hg s hs
    rw [hinstalls] at hinst
    rw [hgen] at hg
    rw [hsent]
    rcases h.owed inst hinst hg s hs with hold | hdone
    · rcases htodo s hold with hstill | ⟨frame, hframe, hmem⟩
      · exact Or.inl hstill
      · refine Or.inr ⟨frame, hframe, List.mem_append_right _ ?_⟩
        rw [hg]
        exact hmem
    · exact Or.inr (hdone.mono new)
  built := fun s hs => h.built s (hbuilt s hs)

/-- A step that queues nothing and leaves the list of the swap alone. -/
theorem Repointing.frame {r r' : Rig} (h : Repointing r)
    (hgen : r'.inner.active.generation = r.inner.active.generation)
    (hinstalls : r'.installs = r.installs) (hsent : r'.sent = r.sent)
    (htodo : r'.swap.todo = r.swap.todo) : Repointing r' := by
  refine h.extend [] hgen hinstalls (by simpa using hsent) (by simp) ?_ ?_
  · exact fun s hs => Or.inl (htodo ▸ hs)
  · exact fun s hs => htodo ▸ hs

/-- An install: its re-point frames are all on the list of the swap. -/
theorem Repointing.install {r r' : Rig} {plan : SwapPlan} {todo : List RepointStep}
    {abandoned : List (Nat × Nat)} {members : List Nat} (h : Repointing r) (hgen : Generations r)
    (hplan : r.swap.Connecting plan)
    (hswap' : r'.swap = .repointing plan todo abandoned members)
    (hactive : r'.inner.active.generation = plan.snapshot.generation)
    (hinstalls : r'.installs = r.installs ++ [⟨plan.snapshot.generation, todo⟩])
    (hsent : r'.sent = r.sent) (hbuilt : ∀ s ∈ todo, s.frame.isSome) : Repointing r' where
  first := by
    intro inst hinst
    rw [hinstalls] at hinst
    rw [hsent]
    rcases List.mem_append.mp hinst with hold | hnew
    · exact h.first inst hold
    · -- no reader of the new upstream has queued anything yet
      rw [List.mem_singleton.mp hnew]
      intro before q after hq hsource
      have hmem : q ∈ r.sent := by simp [hq]
      have hle := hgen.readers q hmem _ hsource
      exact absurd hle (Nat.not_le.mpr (hgen.plan plan hplan).1)
  owed := by
    intro inst hinst hg s hs
    rw [hinstalls] at hinst
    rw [hactive] at hg
    rcases List.mem_append.mp hinst with hold | hnew
    · have hle := hgen.installs inst hold
      rw [hg] at hle
      exact absurd hle (Nat.not_le.mpr (hgen.plan plan hplan).1)
    · rw [List.mem_singleton.mp hnew] at hs
      left
      rw [hswap']
      exact hs
  built := by
    rw [hswap']
    exact hbuilt

/-- A frame of work that the reader passes on concerns no frame that the swap
has still to send. -/
theorem WorkWaits.upstreamFrame {decode : Decoder} {lib : Sv1Library} {r : Rig} {g : Nat}
    {frame : Sv2Frame} {now : Rat} {s : Send} (h : WorkWaits lib r (.upstreamFrame g frame now))
    (hs : s ∈ (onUpstreamFrame decode now g frame r.inner).2.2) {p : RepointStep}
    (hp : p ∈ r.swap.todo) : p.concerns ⟨.reader g, s.member, s.frame⟩ = false := by
  obtain ⟨hg, hwork⟩ := onUpstreamFrame_sends hs
  by_contra hconcerns
  rw [Bool.not_eq_false] at hconcerns
  simp only [RepointStep.concerns, Bool.and_eq_true, decide_eq_true_eq,
    Option.any_eq_true] at hconcerns
  obtain ⟨⟨hmember, hisWork⟩, cid, hcid, hcovers⟩ := hconcerns
  obtain ⟨upCid, p', hread, hp', hmember', hframe⟩ := hwork hisWork
  rw [hframe] at hcid hisWork
  have htype : frame.msgType.isWork = true := by simpa [EitherFrame.isWork] using hisWork
  have hclear := h hg htype upCid hread p' hp' p hp (by rw [← hmember, hmember'])
  have hlen : 4 ≤ frame.payload.length := by
    by_contra hshort
    rw [readChannelId, if_pos (by omega)] at hread
    cases hread
  simp only [EitherFrame.channelId?, rewriteChannelId_msgType] at hcid
  split at hcid
  · rw [readChannelId_rewrite p'.1 hlen] at hcid
    cases hcid
    rw [hclear] at hcovers
    cases hcovers
  · cases hcid

/-- The next call of the translating reader. -/
theorem Repointing.translateCall {lib : Sv1Library} {r : Rig} {member cid written : Nat}
    {now : Rat} {state : Sv1UpState} {call : SessionCall} {calls : List SessionCall}
    (h : Repointing r) (hscope : CallsInScope r)
    (hguard : WorkWaits lib r (.translateCall member now))
    (htranslator : r.translator = some ⟨cid, state, call :: calls, written⟩) :
    Repointing ({ r with translator := some ⟨cid, state, calls, written⟩ }.translateCall call cid
      member now) := by
  obtain ⟨new, hsent, hnew⟩ := translateCall_sends { r with
    translator := some ⟨cid, state, calls, written⟩ } call cid member now
  have htasks := translateCall_sameTasks { r with
    translator := some ⟨cid, state, calls, written⟩ } call cid member now
  have hup := (translateCall_sameRig { r with
    translator := some ⟨cid, state, calls, written⟩ } call cid member now).upstream
  refine h.extend new hup.generation htasks.installs hsent ?_ ?_ ?_
  · intro q hq g hg
    obtain ⟨_, frame, rfl, rfl⟩ := hnew q hq
    cases hg
    refine ⟨rfl, fun s hs => ?_⟩
    have hcid : frame.channelId? = some cid := hscope _ htranslator frame List.mem_cons_self
    by_contra hconcerns
    rw [Bool.not_eq_false] at hconcerns
    simp only [RepointStep.concerns, Bool.and_eq_true, decide_eq_true_eq, hcid,
      Option.any_some] at hconcerns
    obtain ⟨⟨hmember, hwork⟩, hcovers⟩ := hconcerns
    have hclear := hguard _ htranslator frame rfl hwork s hs hmember.symm
    rw [hclear] at hcovers
    cases hcovers
  · rw [htasks.swap]
    exact fun s hs => Or.inl hs
  · rw [htasks.swap]
    exact fun s hs => hs

/-- The step lemma. -/
theorem Repointing.step {decode : Decoder} {lib : Sv1Library} {r r' : Rig} {e : Event}
    (h : Repointing r) (hgen : Generations r) (hscope : CallsInScope r)
    (hguard : WorkWaits lib r e) (ht : Transition decode lib r e r') : Repointing r' := by
  cases ht with
  | attach hnative =>
    exact h.frame (forwardOpen_upstream ..).generation rfl rfl rfl
  | openChannel hmember =>
    refine h.extend _ (openChannel_upstream ..).generation rfl rfl ?_ (fun s hs => Or.inl hs)
      fun s hs => hs
    intro q hq g hg
    obtain ⟨_, _, rfl⟩ := List.mem_map.mp hq
    cases hg
  | @minerFrame member frame hmember =>
    have htasks := SameTasks.submitted { r with inner := (minerFrame frame r.inner).1 }
      (minerFrame frame r.inner).2
    exact h.frame (by simpa using (minerFrame_upstream ..).generation) htasks.installs (by simp)
      (by rw [htasks.swap])
  | detach hmember => exact h.frame rfl rfl rfl rfl
  | @upstreamFrame g frame now hnative =>
    refine h.extend _ (onUpstreamFrame_upstream ..).generation rfl rfl ?_ (fun s hs => Or.inl hs)
      fun s hs => hs
    intro q hq g' hg'
    obtain ⟨s, hs, rfl⟩ := List.mem_map.mp hq
    cases hg'
    exact ⟨(onUpstreamFrame_sends hs).1, fun p hp => hguard.upstreamFrame hs hp⟩
  | translateLine htranslator => exact h.frame rfl rfl rfl rfl
  | translateWrite htranslator => exact h.frame rfl rfl rfl rfl
  | translateCall htranslator => exact h.translateCall hscope hguard htranslator
  | swapOrder hswap horder htarget => exact h.frame rfl rfl rfl (by rw [hswap]; rfl)
  | swapRevert hswap hdefault => exact h.frame rfl rfl rfl (by rw [hswap]; rfl)
  | swapFailed hswap => exact h.frame rfl rfl rfl hswap.todo.symm
  | @swapReopened infos plan hswap hlength =>
    refine h.install hgen (Or.inl hswap) rfl rfl rfl rfl fun s hs => repointSteps_built ?_ hs
    intro rp hrp _
    obtain ⟨⟨spec, info⟩, hmem, rfl⟩ := List.mem_map.mp hrp
    exact hguard info (List.of_mem_zip hmem).2
  | swapNotSv2 hswap hchannel => exact h.frame rfl rfl rfl (by rw [hswap]; rfl)
  | @swapTranslated lines plan channel members conn hswap hconn =>
    refine h.install hgen (Or.inr ⟨_, _, hswap⟩) rfl rfl rfl rfl
      fun s hs => repointSteps_built ?_ hs
    intro rp hrp _
    rw [List.mem_singleton.mp hrp]
    exact ⟨hguard conn hconn, targetFromDifficulty_length _⟩
  | @repoint plan s todo abandoned members frame hswap hframe =>
    refine h.extend _ rfl rfl rfl ?_ ?_ ?_
    · intro q hq g hg
      rw [List.map_singleton, List.mem_singleton] at hq
      subst hq
      cases hg
    · intro p hp
      rw [hswap] at hp
      rcases List.mem_cons.mp hp with rfl | hrest
      · refine Or.inr ⟨frame, hframe, ?_⟩
        rw [hgen.current _ _ _ _ hswap]
        exact List.mem_cons_self
      · exact Or.inl hrest
    · intro p hp
      rw [hswap]
      exact List.mem_cons_of_mem _ hp
  | @repointFailed plan s todo abandoned members hswap hframe =>
    have hbuilt := h.built s (by rw [hswap]; exact List.mem_cons_self)
    rw [hframe] at hbuilt
    cases hbuilt
  | notice hswap =>
    refine h.extend _ rfl rfl rfl ?_ ?_ ?_
    · intro q hq g hg
      obtain ⟨_, _, rfl⟩ := List.mem_map.mp hq
      cases hg
    · intro p hp
      rw [hswap] at hp
      cases hp
    · intro p hp
      cases hp
  | swapDone hswap => exact h.frame rfl rfl rfl (by rw [hswap]; rfl)
  | reconnect howed => exact h.frame rfl rfl rfl rfl
  | store hstore => exact h.frame rfl rfl rfl rfl
  | setSeller => exact h.frame rfl rfl rfl rfl

theorem Generations.of_started {store : OrderStore} {idlePool : Option UpstreamTarget}
    {target : UpstreamTarget} {routing : Routing} {r : Rig}
    (h : Started store idlePool target routing r) : Generations r where
  counter := by
    rw [h.generation]
    exact Nat.zero_le _
  plan := by
    rw [h.swap]
    exact fun plan hplan => absurd hplan (connecting_idle plan)
  current := by
    rw [h.swap]
    intro plan _ _ _ hs
    cases hs
  installs := by
    rw [h.installs]
    exact fun inst hinst => absurd hinst List.not_mem_nil
  readers := by
    intro q hq g hg
    rw [(h.sent q hq).1] at hg
    cases hg

theorem Repointing.of_started {store : OrderStore} {idlePool : Option UpstreamTarget}
    {target : UpstreamTarget} {routing : Routing} {r : Rig}
    (h : Started store idlePool target routing r) : Repointing r where
  first := by
    intro inst hinst
    rw [h.installs] at hinst
    cases hinst
  owed := by
    intro inst hinst
    rw [h.installs] at hinst
    cases hinst
  built := by
    rw [h.swap]
    exact fun s hs => absurd hs List.not_mem_nil

/-- In every run whose steps all let work wait, the re-point frames of a channel
come before the work that the new upstream has for it. -/
theorem repoint_before_work {decode : Decoder} {lib : Sv1Library} {r : Rig}
    (h : ReachesUnder decode lib (WorkWaits lib) r) : RepointFirst r := by
  have hinv : Generations r ∧ CallsInScope r ∧ Repointing r := by
    refine h.invariant (I := fun x => Generations x ∧ CallsInScope x ∧ Repointing x) ?_ ?_
    · intro worker spec store idlePool now failed answer r₀ _ hstart
      obtain ⟨_, _, _, _, _, hstarted⟩ := start_started hstart
      exact ⟨.of_started hstarted, .of_started hstarted, .of_started hstarted⟩
    · intro x e y ⟨hgen, hscope, hx⟩ hguard hstep
      have ht := transition_of_step hstep
      exact ⟨hgen.step ht, hscope.step ht, hx.step hgen hscope hguard ht⟩
  exact hinv.2.2.first

instance (lib : Sv1Library) (r : Rig) : DecidablePred (WorkWaits lib r) := fun e => by
  rcases e with _ | _ <;> dsimp only [WorkWaits] <;> infer_instance

/-- A swap that is left to finish before the first job of the new pool. -/
def patientSwap : List Event :=
  [.upstreamFrame 0 (openedFrame 1 20 0) 0, .createOrder buyerOrder,
    .swapOrder .attach "o1" false, .swapReopened [reopenedInfo 30], .swapSend, .swapSend,
    .upstreamFrame 1 (jobFrame 30) 0]

/-- The same swap, whose reader is faster. -/
def overtakenSwap : List Event :=
  [.upstreamFrame 0 (openedFrame 1 20 0) 0, .createOrder buyerOrder,
    .swapOrder .attach "o1" false, .swapReopened [reopenedInfo 30],
    .upstreamFrame 1 (jobFrame 30) 0, .swapSend, .swapSend]

theorem repoint_before_work_patient :
    ∃ r, ReachesUnder wireDecoder plainLibrary (WorkWaits plainLibrary) r ∧
      r.sent.length = 4 ∧ RepointFirst r := by
  have hrun : ReachesUnder wireDecoder plainLibrary (WorkWaits plainLibrary) _ :=
    run_of_idleRig patientSwap rfl
  exact ⟨_, hrun, rfl, repoint_before_work hrun⟩

/-- The job of the new pool is queued before the prefix it is built for. -/
theorem work_overtakes_repoint :
    ∃ r, Reaches wireDecoder plainLibrary r ∧ ¬RepointFirst r := by
  have hrun : ReachesUnder wireDecoder plainLibrary (fun _ _ => True) _ :=
    run_of_idleRig overtakenSwap rfl
  refine ⟨_, hrun, fun hfirst => ?_⟩
  obtain ⟨frame, hframe, hmem⟩ :=
    hfirst _ List.mem_cons_self [_] _ _ rfl rfl _ List.mem_cons_self rfl
  cases hframe
  exact absurd hmem (by decide)

end RentalProxy.Sv2
