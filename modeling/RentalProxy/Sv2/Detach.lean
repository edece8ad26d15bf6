import RentalProxy.Sv2.AcceptedShares
import RentalProxy.Sv2.Opens

/-!
# What a member leaves behind

A member that leaves closes its channels on the pool and is forgotten.  Two things can bring
it back.  An open of its that was still in flight is answered later, and nobody closes the
channel of that answer; and a swap that took its snapshot before installs the channels of the
snapshot, with their owners.

* `OpenLog` is the history of the opens on the connection to the current pool: those that the
  pool has not answered, and the channels that it opened and for whom.
* `NothingLeft` is the property, `OwnersAttached` the condition on a step.
* `Accounted` is the invariant, with one lemma for each operation, and `detach_leaves_nothing`
  the result.
-/

namespace RentalProxy.Sv2

open StepSystem
open Sv1 (upstreamWorker)

/-! ## The opens of a connection -/

/-- A channel that the pool opened for a member. -/
structure OpenedChannel where
  member : Nat
  upChannelId : Nat
  /-- How many frames the pool had been handed by then. -/
  handed : Nat

/-- The opens on the connection to the current pool. -/
structure OpenLog where
  /-- Request id and member of the opens that the pool has not answered. -/
  unanswered : List (Nat × Nat)
  opened : List OpenedChannel

namespace OpenLog

/-- The pool is asked for a channel. -/
def ask (log : OpenLog) (p : Option (Nat × Nat)) : OpenLog :=
  { log with unanswered := log.unanswered ++ p.toList }

/-- The pool answers a request. -/
def answer (log : OpenLog) (req : Nat) : OpenLog :=
  { log with unanswered := log.unanswered.filter fun p => decide (p.1 ≠ req) }

/-- The pool answers a request with a channel, for the member that asked. -/
def opens (log : OpenLog) (info : ChannelInfo) (handed : Nat) : OpenLog where
  unanswered := (log.answer info.requestId).unanswered
  opened := log.opened ++ (log.unanswered.filter fun p => decide (p.1 = info.requestId)).map
    fun p => ⟨p.2, info.upChannelId, handed⟩

end OpenLog

/-- The request id and the member of the open that a step hands to the pool. -/
def openHanded (r : Rig) : Event → Option (Nat × Nat)
  | .attach spec =>
    if r.inner.canForward spec then some (r.inner.nextUpReq, r.inner.nextMemberId) else none
  | .openChannel member spec =>
    if !r.inner.translating && r.inner.canForward spec then some (r.inner.nextUpReq, member)
    else none
  | _ => none

variable (decode : Decoder) (lib : Sv1Library)

/-- The opens after a step. -/
def noteOpens (r : Rig) (e : Event) (log : OpenLog) : OpenLog :=
  match e with
  | .attach _ | .openChannel .. => log.ask (openHanded r e)
  | .upstreamFrame g frame _ =>
    if g ≠ r.inner.active.generation then log
    else if frame.isOpenSuccess then
      match parseOpenSuccess decode frame with
      | some info => log.opens info r.inner.active.toUp.length
      | none => log
    else if frame.msgType = .openMiningChannelError then
      match parseOpenErrorRequestId decode frame with
      | some req => log.answer req
      | none => log
    else log
  | .swapReopened infos =>
    match r.swap with
    | .connecting plan =>
      -- the new pool has opened every channel of the snapshot
      ⟨[], (plan.snapshot.specs.zip infos).map fun (s, info) => ⟨s.owner, info.upChannelId, 0⟩⟩
    | _ => log
  | .swapTranslated lines =>
    match r.swap, connectSv1Upstream lib lines with
    | .translating .., some _ => ⟨[], []⟩
    | _, _ => log
  | _ => log

/-- The pending opens of the first member count as in flight. -/
def openLogAtStart (r : Rig) : OpenLog :=
  ⟨r.inner.pending.entries.map fun e => (e.1, e.2.1), []⟩

/-! ## The property and the condition -/

/-- A member owns no channel and no pending open, and every channel that a native pool has opened
for it has been sent a CloseChannel since. -/
structure LeftNothing (i : Inner) (log : OpenLog) (member : Nat) : Prop where
  channels : ∀ c ∈ i.channels, c.owner ≠ member
  pending : ∀ e ∈ i.pending.entries, e.2.1 ≠ member
  closed : i.translating = false → ∀ o ∈ log.opened, o.member = member →
    ∃ reason, .built (.closeChannel o.upChannelId reason) ∈ i.active.toUp.drop o.handed

/-- Whoever is not attached has left nothing. -/
def NothingLeft (i : Inner) (log : OpenLog) : Prop := ∀ m, m ∉ i.members → LeftNothing i log m

/-- The condition on a step: a channel that the pool opens finds the member that asked for it
attached, and so do the channels that a swap installs. -/
def OwnersAttached (x : Rig × OpenLog) : Event → Prop
  | .upstreamFrame g frame _ =>
    g = x.1.inner.active.generation → frame.isOpenSuccess = true →
      ∀ info ∈ parseOpenSuccess decode frame, ∀ p ∈ x.2.unanswered, p.1 = info.requestId →
        p.2 ∈ x.1.inner.members
  | .swapReopened _ =>
    match x.1.swap with
    | .connecting plan => ∀ s ∈ plan.snapshot.specs, s.owner ∈ x.1.inner.members
    | _ => True
  | .swapTranslated lines =>
    match x.1.swap with
    | .translating _ channel _ =>
      (connectSv1Upstream lib lines).isSome = true → channel.owner ∈ x.1.inner.members
    | _ => True
  | _ => True

instance (x : Rig × OpenLog) : DecidablePred (OwnersAttached decode lib x) := fun e => by
  rcases e with _ | _ <;> dsimp only [OwnersAttached] <;> try infer_instance
  all_goals rcases x.1.swap with _ | _ <;> infer_instance

variable {decode lib}

/-! ## The invariant -/

/-- What is attached owns everything that is there, and every open of an attached member is
accounted for. -/
structure Accounted (i : Inner) (log : OpenLog) : Prop where
  pendingOk : PendingOk i
  owners : ∀ c ∈ i.channels, c.owner ∈ i.members
  below : ∀ p ∈ log.unanswered, p.1 < i.nextUpReq ∧ p.2 < i.nextMemberId
  asked : ∀ p ∈ log.unanswered, p.2 ∈ i.members →
    ∃ spec, i.pending.lookup p.1 = some (p.2, spec)
  /-- A translated pool is asked for nothing. -/
  native : i.translating = true → log.unanswered = []
  known : ∀ o ∈ log.opened, o.member < i.nextMemberId ∧ o.handed ≤ i.active.toUp.length
  there : ∀ o ∈ log.opened, o.member ∈ i.members →
    ∃ c ∈ i.channels, c.owner = o.member ∧ c.upChannelId = o.upChannelId
  closed : i.translating = false → ∀ o ∈ log.opened, o.member ∉ i.members →
    ∃ reason, .built (.closeChannel o.upChannelId reason) ∈ i.active.toUp.drop o.handed

theorem Accounted.nothingLeft {i : Inner} {log : OpenLog} (h : Accounted i log) :
    NothingLeft i log := by
  intro m hm
  refine ⟨?_, ?_, ?_⟩
  · rintro c hc rfl
    exact hm (h.owners c hc)
  · rintro e he rfl
    exact hm (h.pendingOk.attached e he)
  · rintro hnative o ho rfl
    exact h.closed hnative o ho hm

/-- The opens are untouched, and what is there stays. -/
structure SameOpens (i i' : Inner) : Prop where
  members : SameMembers i i'
  channels : i'.channels.map (fun c => (c.owner, c.upChannelId)) =
    i.channels.map fun c => (c.owner, c.upChannelId)
  translating : i'.translating = i.translating
  nextUpReq : i'.nextUpReq = i.nextUpReq
  toUp : ∃ new, i'.active.toUp = i.active.toUp ++ new

theorem SameOpens.refl (i : Inner) : SameOpens i i :=
  ⟨.refl i, rfl, rfl, rfl, [], (List.append_nil _).symm⟩

/-- The channels of a table by owner and id. -/
theorem SameOpens.channel {i i' : Inner} (h : SameOpens i i') {owner up : Nat} :
    (∃ c ∈ i'.channels, c.owner = owner ∧ c.upChannelId = up) ↔
      ∃ c ∈ i.channels, c.owner = owner ∧ c.upChannelId = up := by
  have hmem : ∀ cs : List Channel, (∃ c ∈ cs, c.owner = owner ∧ c.upChannelId = up) ↔
      (owner, up) ∈ cs.map fun c => (c.owner, c.upChannelId) := by
    intro cs
    simp [List.mem_map]
  rw [hmem, hmem, h.channels]

/-- What was sent stays sent. -/
theorem mem_drop_append {xs new : List EitherFrame} {frame : EitherFrame} {n : Nat}
    (h : frame ∈ xs.drop n) : frame ∈ (xs ++ new).drop n := by
  rw [List.drop_append]
  exact List.mem_append_left _ h

namespace Accounted

variable {i i' : Inner} {log : OpenLog}

/-- A step that opens and closes nothing.  The pool may have answered a request. -/
theorem frame (h : Accounted i log) (hsame : SameOpens i i') {answered : List (Nat × Nat)}
    (hanswered : answered ⊆ log.unanswered)
    (hlookup : ∀ p ∈ answered, i'.pending.lookup p.1 = i.pending.lookup p.1)
    (hpending : i'.pending.entries ⊆ i.pending.entries) :
    Accounted i' { log with unanswered := answered } := by
  obtain ⟨new, htoUp⟩ := hsame.toUp
  refine ⟨h.pendingOk.frame hpending hsame.nextUpReq hsame.members, ?_, ?_, ?_, ?_, ?_, ?_, ?_⟩
  · intro c hc
    obtain ⟨c', hc', howner, _⟩ := hsame.channel.mp ⟨c, hc, rfl, rfl⟩
    rw [hsame.members.members, ← howner]
    exact h.owners c' hc'
  · intro p hp
    rw [hsame.nextUpReq, hsame.members.nextMemberId]
    exact h.below p (hanswered hp)
  · intro p hp hm
    rw [hsame.members.members] at hm
    rw [hlookup p hp]
    exact h.asked p (hanswered hp) hm
  · intro htranslating
    rw [hsame.translating] at htranslating
    have hnone := h.native htranslating
    rw [hnone] at hanswered
    exact List.subset_nil.mp hanswered
  · intro o ho
    rw [hsame.members.nextMemberId, htoUp, List.length_append]
    exact ⟨(h.known o ho).1, (h.known o ho).2.trans (Nat.le_add_right _ _)⟩
  · intro o ho hm
    rw [hsame.members.members] at hm
    exact hsame.channel.mpr (h.there o ho hm)
  · intro hnative o ho hm
    rw [hsame.translating] at hnative
    rw [hsame.members.members] at hm
    obtain ⟨reason, hsent⟩ := h.closed hnative o ho hm
    rw [htoUp]
    exact ⟨reason, mem_drop_append hsent⟩

/-- A step that leaves the opens alone. -/
theorem quiet (h : Accounted i log) (hsame : SameOpens i i') (hpending : i'.pending = i.pending) :
    Accounted i' log :=
  h.frame hsame (List.Subset.refl _) (fun _ _ => by rw [hpending])
    (by rw [hpending]; exact List.Subset.refl _)

/-- A member comes. -/
theorem addMember (h : Accounted i log) : Accounted i.addMember.1 log where
  pendingOk := h.pendingOk.addMember
  owners c hc := List.mem_append_left _ (h.owners c hc)
  below p hp := ⟨(h.below p hp).1, (h.below p hp).2.trans (Nat.lt_succ_self _)⟩
  asked p hp hm := by
    refine h.asked p hp ((List.mem_append.mp hm).resolve_right fun hnew => ?_)
    exact absurd (List.mem_singleton.mp hnew) (h.below p hp).2.ne
  native := h.native
  known o ho := ⟨(h.known o ho).1.trans (Nat.lt_succ_self _), (h.known o ho).2⟩
  there o ho hm := by
    refine h.there o ho ((List.mem_append.mp hm).resolve_right fun hnew => ?_)
    exact absurd (List.mem_singleton.mp hnew) (h.known o ho).1.ne
  closed hnative o ho hm := h.closed hnative o ho fun hold => hm (List.mem_append_left _ hold)

/-- A member that is attached asks a native pool for a channel. -/
theorem forwardOpen (h : Accounted i log) {member : Nat} (hmember : member ∈ i.members)
    (hnative : i.translating = false) (spec : OpenSpec) :
    Accounted (Sv2.forwardOpen member spec i)
      (log.ask (if i.canForward spec then some (i.nextUpReq, member) else none)) := by
  have hmembers := forwardOpen_members member spec i
  obtain ⟨_, new, htoUp, _⟩ := forwardOpen_shares member spec i
  have hflag := (forwardOpen_upstream member spec i).translating
  have hasked : ∀ p ∈ (log.ask (if i.canForward spec then some (i.nextUpReq, member)
      else none)).unanswered, p ∈ log.unanswered ∨
        (i.canForward spec = true ∧ p = (i.nextUpReq, member)) := by
    intro p hp
    rcases List.mem_append.mp hp with hold | hnew
    · exact Or.inl hold
    · obtain ⟨hbuilt, heq⟩ := Option.ite_none_right_eq_some.mp (Option.mem_toList.mp hnew)
      exact Or.inr ⟨hbuilt, (Option.some.inj heq).symm⟩
  refine ⟨h.pendingOk.forwardOpen hmember spec, ?_, ?_, ?_, ?_, ?_, ?_, ?_⟩
  · rw [forwardOpen_channels, hmembers.members]
    exact h.owners
  · intro p hp
    rw [forwardOpen_nextUpReq, hmembers.nextMemberId]
    rcases hasked p hp with hold | ⟨_, rfl⟩
    · exact ⟨(h.below p hold).1.trans (Nat.lt_succ_self _), (h.below p hold).2⟩
    · exact ⟨Nat.lt_succ_self _, h.pendingOk.members member hmember⟩
  · intro p hp hm
    rw [hmembers.members] at hm
    rw [forwardOpen_pending]
    rcases hasked p hp with hold | ⟨hbuilt, rfl⟩
    · obtain ⟨spec', hspec'⟩ := h.asked p hold hm
      split
      · rw [AList.lookup_insert_ne (h.below p hold).1.ne]
        exact ⟨spec', hspec'⟩
      · exact ⟨spec', hspec'⟩
    · rw [if_pos hbuilt]
      exact ⟨spec, AList.lookup_insert _⟩
  · intro htranslating
    rw [hflag, hnative] at htranslating
    cases htranslating
  · intro o ho
    rw [hmembers.nextMemberId, htoUp, List.length_append]
    exact ⟨(h.known o ho).1, (h.known o ho).2.trans (Nat.le_add_right _ _)⟩
  · rw [forwardOpen_channels, hmembers.members]
    exact h.there
  · rw [hmembers.members, hflag, htoUp]
    intro _ o ho hm
    obtain ⟨reason, hsent⟩ := h.closed hnative o ho hm
    exact ⟨reason, mem_drop_append hsent⟩

/-- The channels that a member owned are closed on a native pool. -/
theorem closes_of_owned {member : Nat} (hnative : i.translating = false) {c : Channel}
    (hc : c ∈ i.channels) (howner : c.owner = member) :
    ∃ reason, .built (.closeChannel c.upChannelId reason) ∈
      (detachMember member i).1.active.toUp.drop i.active.toUp.length := by
  have hshort : "member disconnected".utf8ByteSize ≤ 255 := by decide
  refine ⟨"member disconnected", ?_⟩
  simp only [detachMember, hnative, Bool.false_eq_true, if_false, List.drop_left]
  refine List.mem_filterMap.mpr ⟨c, List.mem_filter.mpr ⟨hc, decide_eq_true howner⟩, ?_⟩
  simp [closeChannelUpstream, str0255, hshort]

/-- A member leaves. -/
theorem detach (h : Accounted i log) (member : Nat) : Accounted (detachMember member i).1 log where
  pendingOk := h.pendingOk.detach member
  owners c hc := by
    obtain ⟨hold, hother⟩ := List.mem_filter.mp hc
    exact List.mem_filter.mpr ⟨h.owners c hold, hother⟩
  below := h.below
  asked p hp hm := by
    obtain ⟨hattached, hother⟩ := List.mem_filter.mp hm
    obtain ⟨spec, hspec⟩ := h.asked p hp hattached
    refine ⟨spec, ?_⟩
    have hloop : (detachMember member i).1.pending.lookup p.1 =
        if ∃ x ∈ i.pending.entries, x.2.1 = member ∧ x.1 = p.1 then none
        else i.pending.lookup p.1 :=
      KeyedTable.lookup_foldl_erase_if
        (p := fun x : Sigma fun _ : Nat => Nat × OpenSpec => x.2.1 = member) Sigma.fst _ _ _
    rw [hloop, if_neg, hspec]
    rintro ⟨⟨req, m, s⟩, hx, rfl, rfl⟩
    -- the one entry under the request is of the member that asked
    have hentry : i.pending.lookup p.1 = some (m, s) := AList.mem_lookup_iff.mpr hx
    rw [hspec] at hentry
    cases hentry
    exact absurd rfl (of_decide_eq_true hother)
  native := h.native
  known o ho := by
    refine ⟨(h.known o ho).1, (h.known o ho).2.trans ?_⟩
    simp only [detachMember, List.length_append]
    exact Nat.le_add_right _ _
  there o ho hm := by
    obtain ⟨hattached, hother⟩ := List.mem_filter.mp hm
    obtain ⟨c, hc, howner, hup⟩ := h.there o ho hattached
    refine ⟨c, List.mem_filter.mpr ⟨hc, ?_⟩, howner, hup⟩
    rw [howner]
    exact hother
  closed hnative o ho hm := by
    have hnative : i.translating = false := hnative
    by_cases hattached : o.member ∈ i.members
    · -- it is the member that leaves now
      have howner : o.member = member := by
        by_contra hother
        exact hm (List.mem_filter.mpr ⟨hattached, decide_eq_true hother⟩)
      obtain ⟨c, hc, hmine, hup⟩ := h.there o ho hattached
      obtain ⟨reason, hsent⟩ := closes_of_owned hnative hc (hmine.trans howner)
      rw [← hup]
      exact ⟨reason, List.drop_subset_drop_left _ (h.known o ho).2 hsent⟩
    · obtain ⟨reason, hsent⟩ := h.closed hnative o ho hattached
      exact ⟨reason, mem_drop_append hsent⟩

/-- The pool opens a channel of a pending open, for a member that is attached. -/
theorem opens (h : Accounted i log) {frame : Sv2Frame} {info : ChannelInfo} {c : Channel}
    (hopens : Opens decode frame i i' info c) (hup : SameUpstream i i')
    (hnext : i'.nextUpReq = i.nextUpReq) (htoUp : i'.active.toUp = i.active.toUp)
    (hattached : ∀ p ∈ log.unanswered, p.1 = info.requestId → p.2 ∈ i.members) :
    Accounted i' (log.opens info i.active.toUp.length) := by
  have hmembers := hopens.members
  have hentry := AList.mem_lookup_iff.mp hopens.asked
  have hopened : ∀ o ∈ (log.opens info i.active.toUp.length).opened, o ∈ log.opened ∨
      (o.member = c.owner ∧ o.upChannelId = info.upChannelId ∧
        o.handed = i.active.toUp.length) := by
    intro o ho
    rcases List.mem_append.mp ho with hold | hnew
    · exact Or.inl hold
    · obtain ⟨p, hp, rfl⟩ := List.mem_map.mp hnew
      obtain ⟨hp, hreq⟩ := List.mem_filter.mp hp
      have hreq := of_decide_eq_true hreq
      obtain ⟨spec, hspec⟩ := h.asked p hp (hattached p hp hreq)
      rw [hreq, hopens.asked] at hspec
      exact Or.inr ⟨(congrArg Prod.fst (Option.some.inj hspec)).symm, rfl, rfl⟩
  refine ⟨h.pendingOk.frame ?_ hnext hmembers, ?_, ?_, ?_, ?_, ?_, ?_, ?_⟩
  · rw [hopens.pending]
    exact (List.kerase_sublist info.requestId _).subset
  · rw [hopens.channels, hmembers.members]
    intro d hd
    rcases List.mem_append.mp hd with hold | hnew
    · exact h.owners d hold
    · rw [List.mem_singleton.mp hnew]
      exact h.pendingOk.attached _ hentry
  · rw [hnext, hmembers.nextMemberId]
    exact fun p hp => h.below p (List.mem_filter.mp hp).1
  · rw [hmembers.members, hopens.pending]
    intro p hp hm
    obtain ⟨hold, hother⟩ := List.mem_filter.mp hp
    rw [AList.lookup_erase_ne (of_decide_eq_true hother)]
    exact h.asked p hold hm
  · intro htranslating
    rw [hup.translating] at htranslating
    simp only [OpenLog.opens, OpenLog.answer, h.native htranslating, List.filter_nil]
  · rw [hmembers.nextMemberId, htoUp]
    intro o ho
    rcases hopened o ho with hold | ⟨howner, _, hhanded⟩
    · exact h.known o hold
    · rw [howner, hhanded]
      exact ⟨h.pendingOk.members _ (h.pendingOk.attached _ hentry), le_rfl⟩
  · rw [hmembers.members, hopens.channels]
    intro o ho hm
    rcases hopened o ho with hold | ⟨howner, hid, _⟩
    · obtain ⟨d, hd, hids⟩ := h.there o hold hm
      exact ⟨d, List.mem_append_left _ hd, hids⟩
    · exact ⟨c, List.mem_append_right _ List.mem_cons_self, howner.symm, hopens.up.trans hid.symm⟩
  · rw [hup.translating, hmembers.members, htoUp]
    intro hnative o ho hm
    rcases hopened o ho with hold | ⟨howner, _, _⟩
    · exact h.closed hnative o hold hm
    · rw [howner] at hm
      exact absurd (h.pendingOk.attached _ hentry) hm

/-- The pool answers a request, and nothing is opened. -/
theorem answer (h : Accounted i log) (hsame : SameOpens i i') (req : Nat)
    (hpending : i'.pending = i.pending ∨ i'.pending = i.pending.erase req) :
    Accounted i' (log.answer req) := by
  refine h.frame hsame (List.filter_subset_self _) ?_ ?_
  · intro p hp
    have hother := of_decide_eq_true (List.mem_filter.mp hp).2
    rcases hpending with heq | heq <;> rw [heq]
    exact AList.lookup_erase_ne hother
  · rcases hpending with heq | heq <;> rw [heq]
    · exact List.Subset.refl _
    · exact (List.kerase_sublist req _).subset

/-- The answer to a request that nobody waits for opens nothing. -/
theorem opens_unknown (h : Accounted i log) {info : ChannelInfo}
    (hnone : i.pending.lookup info.requestId = none)
    (hattached : ∀ p ∈ log.unanswered, p.1 = info.requestId → p.2 ∈ i.members) :
    Accounted i (log.opens info i.active.toUp.length) := by
  have hmatches : (log.unanswered.filter fun p => decide (p.1 = info.requestId)) = [] := by
    refine List.filter_eq_nil_iff.mpr fun p hp hreq => ?_
    have hreq := of_decide_eq_true hreq
    obtain ⟨spec, hspec⟩ := h.asked p hp (hattached p hp hreq)
    rw [hreq, hnone] at hspec
    cases hspec
  have hlog : log.opens info i.active.toUp.length = log.answer info.requestId := by
    simp only [OpenLog.opens, hmatches, List.map_nil, List.append_nil]
    rfl
  rw [hlog]
  exact h.answer (.refl i) info.requestId (Or.inl rfl)

/-- A frame of the pool. -/
theorem upstreamFrame {r : Rig} (h : Accounted r.inner log) {g : Nat} {frame : Sv2Frame}
    {now : Rat} (hattached : OwnersAttached decode lib (r, log) (.upstreamFrame g frame now)) :
    Accounted (onUpstreamFrame decode now g frame r.inner).1
      (noteOpens decode lib r (.upstreamFrame g frame now) log) := by
  have hup := @onUpstreamFrame_upstream decode now g frame r.inner
  have hnext := onUpstreamFrame_nextUpReq decode now g frame r.inner
  have htoUp := (onUpstreamFrame_shares decode now g frame r.inner).2.2
  have hsame : SameTable r.inner (onUpstreamFrame decode now g frame r.inner).1 →
      SameOpens r.inner (onUpstreamFrame decode now g frame r.inner).1 := fun htable =>
    ⟨onUpstreamFrame_members .., htable.channels.map _ fun _ => rfl, hup.translating, hnext, [],
      htoUp.trans (List.append_nil _).symm⟩
  simp only [OwnersAttached] at hattached
  dsimp only [noteOpens]
  by_cases hg : g = r.inner.active.generation
  swap
  · rw [if_pos hg, onUpstreamFrame, if_pos hg]
    exact h
  rw [if_neg (not_not.mpr hg)]
  by_cases hopen : frame.isOpenSuccess = true
  · rw [if_pos hopen]
    have hvalue := @onUpstreamFrame_open decode now frame r.inner hopen
    rw [← hg] at hvalue
    cases hinfo : parseOpenSuccess decode frame with
    | none =>
      simp only [hvalue, finalizeOpen, hinfo]
      exact h
    | some info =>
      have hattached := hattached hg hopen info hinfo
      cases hpending : r.inner.pending.lookup info.requestId with
      | none =>
        simp only [hvalue, finalizeOpen, hinfo, hpending]
        exact h.opens_unknown hpending hattached
      | some entry =>
        obtain ⟨c, hopens, _⟩ := finalizeOpen_opens hinfo hpending
        rw [hvalue] at hup hnext htoUp ⊢
        exact h.opens hopens hup hnext htoUp hattached
  · rw [if_neg hopen]
    have htable : SameTable r.inner (onUpstreamFrame decode now g frame r.inner).1 :=
      (onUpstreamFrame_table decode now g frame r.inner).resolve_right fun hopens =>
        hopen hopens.2.1
    have htype : ¬(frame.msgType = .openExtendedMiningChannelSuccess ∨
        frame.msgType = .openStandardMiningChannelSuccess) := by
      simpa [Sv2Frame.isOpenSuccess] using hopen
    by_cases herror : frame.msgType = .openMiningChannelError
    · rw [if_pos herror]
      have hvalue : onUpstreamFrame decode now g frame r.inner =
          ((rejectOpen decode frame r.inner).1, none, (rejectOpen decode frame r.inner).2) := by
        rw [onUpstreamFrame, if_neg (not_not.mpr hg), if_neg htype, if_pos herror]
      have hsame := hsame htable
      rw [hvalue] at hsame ⊢
      cases hreq : parseOpenErrorRequestId decode frame with
      | none =>
        simp only [rejectOpen, hreq]
        exact h
      | some req =>
        refine h.answer hsame req ?_
        cases hpending : r.inner.pending.lookup req with
        | none => exact Or.inl (by simp only [rejectOpen, hreq, hpending])
        | some entry => exact Or.inr (by simp only [rejectOpen, hreq, hpending])
    · rw [if_neg herror]
      refine h.quiet (hsame htable) ?_
      rw [onUpstreamFrame, if_neg (not_not.mpr hg), if_neg htype, if_neg herror]
      split
      · rfl
      · split
        · rfl
        · exact routed_pending ..

/-- A native pool has opened the channels of a snapshot, whose owners are attached. -/
theorem swapNative {r : Rig} (h : Accounted r.inner log) (plan : SwapPlan)
    (infos : List ChannelInfo) (hattached : ∀ s ∈ plan.snapshot.specs, s.owner ∈ r.inner.members) :
    Accounted (r.swapNative plan infos).inner ⟨[],
      (plan.snapshot.specs.zip infos).map fun (s, info) => ⟨s.owner, info.upChannelId, 0⟩⟩ where
  pendingOk := h.pendingOk.install rfl ⟨rfl, rfl⟩
  owners c hc := by
    obtain ⟨⟨s, info⟩, hs, rfl⟩ := List.mem_map.mp hc
    exact hattached s (List.of_mem_zip hs).1
  below p hp := nomatch hp
  asked p hp := nomatch hp
  native _ := rfl
  known o ho := by
    obtain ⟨⟨s, info⟩, hs, rfl⟩ := List.mem_map.mp ho
    exact ⟨h.pendingOk.members _ (hattached s (List.of_mem_zip hs).1), Nat.zero_le _⟩
  there o ho _ := by
    obtain ⟨⟨s, info⟩, hs, rfl⟩ := List.mem_map.mp ho
    exact ⟨reopened s info, List.mem_map.mpr ⟨(s, info), hs, rfl⟩, rfl, rfl⟩
  closed _ o ho hm := by
    obtain ⟨⟨s, info⟩, hs, rfl⟩ := List.mem_map.mp ho
    exact absurd (hattached s (List.of_mem_zip hs).1) hm

/-- The channel of a translated pool, whose owner is attached. -/
theorem swapTranslate {r : Rig} (h : Accounted r.inner log) (plan : SwapPlan) {channel : Reopen}
    (members : List Nat) (conn : Sv1UpConn) (hattached : channel.owner ∈ r.inner.members) :
    Accounted (r.swapTranslate plan channel members conn).inner ⟨[], []⟩ where
  pendingOk := h.pendingOk.install rfl ⟨rfl, rfl⟩
  owners c hc := by
    rw [List.mem_singleton.mp hc]
    exact hattached
  below p hp := nomatch hp
  asked p hp := nomatch hp
  native _ := rfl
  known o ho := nomatch ho
  there o ho := nomatch ho
  closed _ o ho := nomatch ho

end Accounted

/-! ## Steps -/

/-- The step opens or installs nothing, and nobody comes or goes. -/
def Event.keepsOpens : Event → Bool
  | .attach _ | .openChannel .. | .detach _ | .upstreamFrame .. | .swapReopened _
  | .swapTranslated _ => false
  | _ => true

/-- What such a step leaves alone. -/
theorem sameOpens_of_transition {r r' : Rig} {e : Event} (ht : Transition decode lib r e r')
    (h : e.keepsOpens = true) :
    SameOpens r.inner r'.inner ∧ r'.inner.pending = r.inner.pending := by
  cases ht with
  | attach | openChannel | detach | upstreamFrame | swapReopened | swapTranslated => cases h
  | @minerFrame member frame hmember =>
    rw [Rig.submitted_inner]
    obtain ⟨_, new, htoUp, _⟩ := minerFrame_shares frame r.inner
    refine ⟨⟨minerFrame_members frame r.inner, ?_, (minerFrame_upstream frame r.inner).translating,
      ?_, new, htoUp⟩, ?_⟩
    · rw [minerFrame_channels]
    all_goals
      rcases minerFrame_cases frame r.inner with hi | ⟨n, up, hi⟩ <;> rw [hi]
      rfl
  | @translateCall member cid written now state call calls htranslator =>
    let s : Rig := { r with translator := some ⟨cid, state, calls, written⟩ }
    have hsame : SameRig s.inner (s.translateCall call cid member now).inner :=
      translateCall_sameRig s call cid member now
    have hpending : (s.translateCall call cid member now).inner.pending = s.inner.pending ∧
        (s.translateCall call cid member now).inner.nextUpReq = s.inner.nextUpReq :=
      translateCall_pending s call cid member now
    have htoUp : (s.translateCall call cid member now).inner.active.toUp = s.inner.active.toUp :=
      congrArg ActiveUpstream.toUp (translateCall_active s call cid member now)
    exact ⟨⟨hsame.members, hsame.channels.map _ fun _ => rfl, hsame.upstream.translating,
      hpending.2, [], htoUp.trans (List.append_nil _).symm⟩, hpending.1⟩
  | _ => exact ⟨⟨⟨rfl, rfl⟩, rfl, rfl, rfl, [], (List.append_nil _).symm⟩, rfl⟩

theorem Accounted.step {r r' : Rig} {log : OpenLog} {e : Event} (h : Accounted r.inner log)
    (hattached : OwnersAttached decode lib (r, log) e) (hstep : step decode lib r e = some r') :
    Accounted r'.inner (noteOpens decode lib r e log) := by
  cases e with
  | attach spec =>
    simp only [Sv2.step, attachMember] at hstep
    split at hstep
    · cases hstep
    · cases hstep
      have hnative : r.inner.translating = false := by simpa using ‹¬r.inner.translating = true›
      exact h.addMember.forwardOpen (List.mem_append_right _ List.mem_cons_self) hnative spec
  | openChannel member spec =>
    simp only [Sv2.step] at hstep
    split at hstep <;> cases hstep
    rename_i hmember
    cases htranslating : r.inner.translating with
    | true =>
      simp only [Rig.queue_inner, openChannel, noteOpens, openHanded, htranslating, if_true,
        Bool.not_true, Bool.false_and, Bool.false_eq_true, if_false, OpenLog.ask,
        Option.toList_none, List.append_nil]
      exact h
    | false =>
      simp only [Rig.queue_inner, openChannel, noteOpens, openHanded, htranslating,
        Bool.false_eq_true, if_false, Bool.not_false, Bool.true_and]
      exact h.forwardOpen hmember htranslating spec
  | detach member =>
    simp only [Sv2.step] at hstep
    split at hstep <;> cases hstep
    exact h.detach member
  | upstreamFrame g frame now =>
    simp only [Sv2.step] at hstep
    split at hstep <;> cases hstep
    exact h.upstreamFrame hattached
  | swapReopened infos =>
    simp only [Sv2.step] at hstep
    split at hstep
    · rename_i plan hswap
      split at hstep <;> cases hstep
      simp only [OwnersAttached, hswap] at hattached
      simp only [noteOpens, hswap]
      exact h.swapNative plan infos hattached
    · cases hstep
  | swapTranslated lines =>
    simp only [Sv2.step] at hstep
    split at hstep
    · rename_i plan channel members hswap
      simp only [OwnersAttached, hswap] at hattached
      split at hstep <;> cases hstep
      · rename_i conn hconn
        simp only [noteOpens, hswap, hconn]
        exact h.swapTranslate plan members conn (hattached (by rw [hconn]; rfl))
      · rename_i hconn
        simp only [noteOpens, hswap, hconn]
        exact h
    · cases hstep
  | _ =>
    obtain ⟨hsame, hpending⟩ := sameOpens_of_transition (transition_of_step hstep) rfl
    exact h.quiet hsame hpending

theorem Accounted.of_start {worker : String} {spec : OpenSpec} {store : OrderStore}
    {idlePool : Option UpstreamTarget} {now : Int} {failed : Option InitialAnswer}
    {answer : InitialAnswer} {r : Rig}
    (h : start lib worker spec store idlePool now failed answer = some r) :
    Accounted r.inner (openLogAtStart r) := by
  have hpending := PendingOk.of_start h
  obtain ⟨_, _, _, _, _, hinstall⟩ := start_firstInstall h
  cases hinstall with
  | native =>
    refine ⟨hpending, List.forall_mem_nil _, ?_, ?_, (fun h => by cases h), List.forall_mem_nil _,
      List.forall_mem_nil _, fun _ => List.forall_mem_nil _⟩
    · intro p hp
      obtain ⟨e, he, rfl⟩ := List.mem_map.mp hp
      exact ⟨hpending.below e he, hpending.members _ (hpending.attached e he)⟩
    · intro p hp _
      obtain ⟨e, he, rfl⟩ := List.mem_map.mp hp
      exact ⟨e.2.2, AList.mem_lookup_iff.mpr he⟩
  | sv1 =>
    refine ⟨hpending, ?_, List.forall_mem_nil _, List.forall_mem_nil _, fun _ => rfl,
      List.forall_mem_nil _, List.forall_mem_nil _, fun _ => List.forall_mem_nil _⟩
    intro c hc
    rw [List.mem_singleton.mp hc]
    exact List.mem_cons_self

/-- A step that breaks the condition leaves something behind. -/
theorem NothingLeft.ownersAttached {r r' : Rig} {log : OpenLog} {e : Event}
    (h : NothingLeft r'.inner (noteOpens decode lib r e log)) (hlog : Accounted r.inner log)
    (hstep : step decode lib r e = some r') : OwnersAttached decode lib (r, log) e := by
  cases e with
  | upstreamFrame g frame now =>
    intro hg hopen info hinfo p hp hreq
    by_contra hgone
    simp only [step] at hstep
    split at hstep <;> cases hstep
    have hmembers := (@onUpstreamFrame_members decode now g frame r.inner).members
    have hup := @onUpstreamFrame_upstream decode now g frame r.inner
    have htoUp := (onUpstreamFrame_shares decode now g frame r.inner).2.2
    have hnative : r.inner.translating = false := by
      by_contra htranslating
      rw [hlog.native (by simpa using htranslating)] at hp
      cases hp
    have hopened : ⟨p.2, info.upChannelId, r.inner.active.toUp.length⟩ ∈
        (noteOpens decode lib r (.upstreamFrame g frame now) log).opened := by
      have hinfo : parseOpenSuccess decode frame = some info := hinfo
      simp only [noteOpens, if_neg (not_not.mpr hg), if_pos hopen, hinfo]
      exact List.mem_append_right _ (List.mem_map.mpr
        ⟨p, List.mem_filter.mpr ⟨hp, decide_eq_true hreq⟩, rfl⟩)
    have hleft := h p.2 (by
      rw [Rig.queue_inner, Rig.credit_inner, hmembers]
      exact hgone)
    -- the pool was handed nothing since
    obtain ⟨reason, hclosed⟩ := hleft.closed (hup.translating.trans hnative) _ hopened rfl
    rw [Rig.queue_inner, Rig.credit_inner, htoUp, List.drop_length] at hclosed
    cases hclosed
  | swapReopened infos =>
    simp only [step] at hstep
    split at hstep
    · rename_i plan hswap
      split at hstep <;> cases hstep
      rename_i hready
      simp only [OwnersAttached, hswap]
      intro s hs
      by_contra hgone
      have hzip : s ∈ (plan.snapshot.specs.zip infos).map Prod.fst := by
        rw [List.map_fst_zip hready.1.ge]
        exact hs
      obtain ⟨⟨_, info⟩, hmem, rfl⟩ := List.mem_map.mp hzip
      exact (h _ hgone).channels _ (List.mem_map.mpr ⟨_, hmem, rfl⟩) rfl
    · cases hstep
  | swapTranslated lines =>
    simp only [step] at hstep
    split at hstep
    · rename_i plan channel members hswap
      simp only [OwnersAttached, hswap]
      intro hsome
      split at hstep <;> cases hstep
      · by_contra hgone
        exact (h _ hgone).channels _ List.mem_cons_self rfl
      · rename_i hconn
        rw [hconn] at hsome
        cases hsome
    · cases hstep
  | _ => trivial

/-! ## The result -/

/-- In every run whose opened and installed channels find their owners attached, a member that
has left has left nothing behind.  The first step that breaks the condition leaves something. -/
theorem detach_leaves_nothing {x : Rig × OpenLog}
    (h : ReachesWith decode lib (noteOpens decode lib) openLogAtStart
      (OwnersAttached decode lib) x) :
    NothingLeft x.1.inner x.2 ∧ ∀ e r', step decode lib x.1 e = some r' →
      (NothingLeft r'.inner (noteOpens decode lib x.1 e x.2) ↔ OwnersAttached decode lib x e) := by
  have hinv : Accounted x.1.inner x.2 :=
    h.invariant (I := fun r log => Accounted r.inner log)
      (fun _ _ _ _ _ _ _ _ _ hstart => .of_start hstart)
      fun _ _ _ _ hlog hguard hstep => hlog.step hguard hstep
  exact ⟨hinv.nothingLeft, fun e r' hstep =>
    ⟨fun hleft => hleft.ownersAttached hinv hstep,
      fun hguard => (hinv.step hguard hstep).nothingLeft⟩⟩

/-- Two members with a channel each, and the second one leaves. -/
def leaves : List Event :=
  [.upstreamFrame 0 (openedFrame 1 10 0) 0, .attach (extendedOpen 8),
    .upstreamFrame 0 (openedFrame 2 11 0) 0, .detach 2]

/-- The channel of the second member is gone, and was closed. -/
theorem detach_leaves_nothing_behind :
    ∃ x, ReachesWith wireDecoder plainLibrary (noteOpens wireDecoder plainLibrary) openLogAtStart
        (OwnersAttached wireDecoder plainLibrary) x ∧
      x.2.opened.length = 2 ∧ x.1.inner.members = [1] ∧ NothingLeft x.1.inner x.2 := by
  obtain ⟨x, hx, hp⟩ := exists_history_of_idleRig (noteOpens wireDecoder plainLibrary)
    openLogAtStart (G := OwnersAttached wireDecoder plainLibrary) leaves
    (p := fun x => decide (x.2.opened.length = 2) && decide (x.1.inner.members = [1]))
    (by decide +kernel)
  simp only [Bool.and_eq_true, decide_eq_true_eq] at hp
  exact ⟨x, hx, hp.1, hp.2, (detach_leaves_nothing hx).1⟩

/-- The pool answers the open of a member that has left: nobody closes the channel.  A swap that
took its snapshot before the member left installs its channel again. -/
theorem detach_leaves_channel :
    (∃ x, ReachesWith wireDecoder plainLibrary (noteOpens wireDecoder plainLibrary) openLogAtStart
        (fun _ _ => True) x ∧ 2 ∉ x.1.inner.members ∧ (∀ c ∈ x.1.inner.channels, c.owner ≠ 2) ∧
        ¬NothingLeft x.1.inner x.2) ∧
      ∃ x, ReachesWith wireDecoder plainLibrary (noteOpens wireDecoder plainLibrary) openLogAtStart
        (fun _ _ => True) x ∧ 2 ∉ x.1.inner.members ∧ (∃ c ∈ x.1.inner.channels, c.owner = 2) ∧
        ¬NothingLeft x.1.inner x.2 := by
  constructor
  · obtain ⟨x, hx, hp⟩ := exists_history_of_idleRig (noteOpens wireDecoder plainLibrary)
      openLogAtStart (G := fun _ _ => True)
      [.upstreamFrame 0 (openedFrame 1 10 0) 0, .attach (extendedOpen 8), .detach 2,
        .upstreamFrame 0 (openedFrame 2 11 0) 0]
      (p := fun x => decide (2 ∉ x.1.inner.members) && !x.1.inner.translating &&
        x.1.inner.channels.all (fun c => decide (c.owner ≠ 2)) &&
        x.2.opened.any fun o => decide (o.member = 2) &&
          decide (x.1.inner.active.toUp.length ≤ o.handed))
      (by decide +kernel)
    simp only [Bool.and_eq_true, decide_eq_true_eq, Bool.not_eq_true', List.all_eq_true,
      List.any_eq_true] at hp
    obtain ⟨⟨⟨hgone, hnative⟩, hnone⟩, o, ho, hmember, hhanded⟩ := hp
    refine ⟨x, hx, hgone, hnone, fun hleft => ?_⟩
    obtain ⟨reason, hclosed⟩ := (hleft 2 hgone).closed hnative o ho hmember
    rw [List.drop_eq_nil_of_le hhanded] at hclosed
    cases hclosed
  · obtain ⟨x, hx, hp⟩ := exists_history_of_idleRig (noteOpens wireDecoder plainLibrary)
      openLogAtStart (G := fun _ _ => True)
      [.upstreamFrame 0 (openedFrame 1 10 0) 0, .attach (extendedOpen 8),
        .upstreamFrame 0 (openedFrame 2 11 0) 0, .swapRevert .supervisor, .detach 2,
        .swapReopened [reopenedInfo 30, reopenedInfo 31]]
      (p := fun x => decide (2 ∉ x.1.inner.members) &&
        x.1.inner.channels.any fun c => decide (c.owner = 2))
      (by decide +kernel)
    simp only [Bool.and_eq_true, decide_eq_true_eq, List.any_eq_true] at hp
    obtain ⟨hgone, c, hc, howner⟩ := hp
    exact ⟨x, hx, hgone, ⟨c, hc, howner⟩, fun hleft => (hleft 2 hgone).channels c hc howner⟩

end RentalProxy.Sv2
