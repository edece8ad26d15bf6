import RentalProxy.Sv2.Transitions
import RentalProxy.Lib.Tables

/-!
# The channel table of a rig

Two structures say which channel of the upstream is which channel of a miner: the
list `channels` and the index `upToDown`.  `TableOk` says that they agree.

* `TableStep` lists what a step can do to the table, to the ids that are given
  out and to the channels that a swap carries over.  `table_of_transition` is the
  one place where a transition is looked at for that.
* `FreshIds` is the condition: a pool gives a channel an id that no channel of
  the table has.  A channel that was closed by a `CloseChannel` stays in the
  table, so a pool that reuses its id breaks the table
  (`reused_id_breaks_table`).
* `table_ok` is the result.
-/

namespace RentalProxy.Sv2

open StepSystem

/-! ## The channels that a swap carries over -/

/-- What a swap keeps of a channel. -/
def Channel.reopen (c : Channel) : Reopen := ⟨c.downChannelId, c.owner, c.spec, c.downGroupId⟩

/-- The channels that the swap will install. -/
def SwapTask.carried : SwapTask → List Reopen
  | .idle | .repointing .. => []
  | .connecting plan => plan.snapshot.specs
  | .translating _ channel _ => [channel]

/-- What does not depend on the difficulties. -/
theorem SameChannels.map {i i' : Inner} (h : SameChannels i i') {β : Type} (f : Channel → β)
    (hf : ∀ c : Channel, f c.identity = f c) : i'.channels.map f = i.channels.map f := by
  have hmap : ∀ cs : List Channel, cs.map f = (cs.map Channel.identity).map f := by
    intro cs
    rw [List.map_map]
    exact List.map_congr_left fun c _ => (hf c).symm
  rw [hmap i'.channels, h, ← hmap]

/-! ## Opens -/

/-- The group id that a new Extended channel will share with others. -/
def Inner.sharedGroup (i : Inner) (info : ChannelInfo) : Option Nat :=
  if info.groupChannelId = 0 then some 0 else i.groupDown.lookup info.groupChannelId

/-- The pool has opened the channel of a pending open: channel `c` is new. -/
structure Opens (decode : Decoder) (frame : Sv2Frame) (i i' : Inner) (info : ChannelInfo)
    (c : Channel) : Prop where
  parsed : parseOpenSuccess decode frame = some info
  asked : i.pending.lookup info.requestId = some (c.owner, c.spec)
  pending : i'.pending = i.pending.erase info.requestId
  members : SameMembers i i'
  channels : i'.channels = i.channels ++ [c]
  upToDown : i'.upToDown = i.upToDown.insert c.upChannelId c.downChannelId
  down : c.downChannelId = i.nextDownCid
  up : c.upChannelId = info.upChannelId
  upGroup : c.upGroupId = if c.spec.isExtended then info.groupChannelId else 0
  /-- The group of the channel is none, or is known, or is new. -/
  group :
    ((c.spec.isExtended = false ∨ info.groupChannelId = 0) ∧
      c.downGroupId = info.groupChannelId ∧
      i'.groupDown = i.groupDown ∧ i'.nextDownCid = i.nextDownCid + 1) ∨
    (c.spec.isExtended = true ∧ i.groupDown.lookup info.groupChannelId = some c.downGroupId ∧
      i'.groupDown = i.groupDown ∧ i'.nextDownCid = i.nextDownCid + 1) ∨
    (c.spec.isExtended = true ∧ c.downGroupId = i.nextDownCid + 1 ∧
      i'.groupDown = i.groupDown.insert info.groupChannelId c.downGroupId ∧
      i'.nextDownCid = i.nextDownCid + 2)
  shared : c.spec.isExtended = true → ∀ group, i.sharedGroup info = some group →
    c.downGroupId = group

/-- What the OpenSuccess arm does for an open that is pending. -/
theorem finalizeOpen_opens {decode : Decoder} {frame : Sv2Frame} {i : Inner} {info : ChannelInfo}
    {member : Nat} {spec : OpenSpec} (hinfo : parseOpenSuccess decode frame = some info)
    (hpending : i.pending.lookup info.requestId = some (member, spec)) :
    ∃ c, Opens decode frame i (finalizeOpen decode frame i).1 info c ∧
      c.owner = member ∧ c.spec = spec ∧
      (finalizeOpen decode frame i).2 =
        match openSuccessDownstream spec c.downChannelId c.downGroupId info with
        | some reply => i.toMember member reply
        | none => [] := by
  unfold finalizeOpen
  simp only [hinfo, hpending]
  unfold Inner.mapGroup
  split
  · rename_i hungrouped
    have hnone : spec.isExtended = false ∨ info.groupChannelId = 0 := by
      simpa using hungrouped
    refine ⟨_, ⟨hinfo, hpending, rfl, ⟨rfl, rfl⟩, rfl, rfl, rfl, rfl, rfl,
      Or.inl ⟨hnone, rfl, rfl, rfl⟩, ?_⟩, rfl, rfl, rfl⟩
    intro hextended group hshared
    have hzero : info.groupChannelId = 0 :=
      hnone.resolve_left fun hstandard => by
        rw [show spec.isExtended = true from hextended] at hstandard
        cases hstandard
    rw [Inner.sharedGroup, if_pos hzero] at hshared
    exact hzero.trans (Option.some.inj hshared)
  · rename_i hgrouped
    have hextended : spec.isExtended = true := by
      simp only [Bool.or_eq_true, Bool.not_eq_true', decide_eq_true_eq, not_or] at hgrouped
      simpa using hgrouped.1
    have hsome : info.groupChannelId ≠ 0 := by
      simp only [Bool.or_eq_true, Bool.not_eq_true', decide_eq_true_eq, not_or] at hgrouped
      exact hgrouped.2
    split
    · rename_i down hknown
      refine ⟨_, ⟨hinfo, hpending, rfl, ⟨rfl, rfl⟩, rfl, rfl, rfl, rfl, rfl,
        Or.inr (Or.inl ⟨hextended, hknown, rfl, rfl⟩), ?_⟩, rfl, rfl, rfl⟩
      intro _ group hshared
      rw [Inner.sharedGroup, if_neg hsome] at hshared
      exact Option.some.inj (hknown.symm.trans hshared)
    · rename_i hnew
      refine ⟨_, ⟨hinfo, hpending, rfl, ⟨rfl, rfl⟩, rfl, rfl, rfl, rfl, rfl,
        Or.inr (Or.inr ⟨hextended, rfl, rfl, rfl⟩), ?_⟩, rfl, rfl, rfl⟩
      intro _ group hshared
      rw [Inner.sharedGroup, if_neg hsome] at hshared
      cases hnew.symm.trans hshared

/-- The frame says that the pool has opened a channel. -/
def Sv2Frame.isOpenSuccess (frame : Sv2Frame) : Bool :=
  decide (frame.msgType = .openExtendedMiningChannelSuccess) ||
    decide (frame.msgType = .openStandardMiningChannelSuccess)

theorem onUpstreamFrame_open {decode : Decoder} {now : Rat} {frame : Sv2Frame} {i : Inner}
    (hopen : frame.isOpenSuccess = true) :
    onUpstreamFrame decode now i.active.generation frame i =
      ((finalizeOpen decode frame i).1, none, (finalizeOpen decode frame i).2) := by
  have htype : frame.msgType = .openExtendedMiningChannelSuccess ∨
      frame.msgType = .openStandardMiningChannelSuccess := by
    simpa [Sv2Frame.isOpenSuccess] using hopen
  rw [onUpstreamFrame, if_neg (by simp), if_pos htype]

/-! ## Steps -/

/-- The table and the ids that were given out are the same. -/
structure SameTable (i i' : Inner) : Prop where
  channels : SameChannels i i'
  upToDown : i'.upToDown = i.upToDown
  groupDown : i'.groupDown = i.groupDown
  nextDownCid : i'.nextDownCid = i.nextDownCid

theorem SameTable.refl (i : Inner) : SameTable i i := ⟨rfl, rfl, rfl, rfl⟩

/-- The swap carries what it carried, or channels that are in the table. -/
def Carries (r r' : Rig) : Prop :=
  r'.swap.carried.Sublist r.swap.carried ∨
    r'.swap.carried.Sublist (r.inner.channels.map Channel.reopen)

theorem Carries.of_eq {r r' : Rig} (h : r'.swap = r.swap) : Carries r r' :=
  Or.inl (h ▸ List.Sublist.refl _)

/-- What a step can do to the table. -/
inductive TableStep (decode : Decoder) (lib : Sv1Library) (r : Rig) : Event → Rig → Prop where
  | same {e : Event} {r' : Rig} (h : SameTable r.inner r'.inner) (hcarries : Carries r r') :
      TableStep decode lib r e r'
  | opens {g : Nat} {frame : Sv2Frame} {now : Rat} {info : ChannelInfo} {c : Channel} {r' : Rig}
      (hg : g = r.inner.active.generation) (hopen : frame.isOpenSuccess = true)
      (h : Opens decode frame r.inner r'.inner info c) (hswap : r'.swap = r.swap) :
      TableStep decode lib r (.upstreamFrame g frame now) r'
  | detach {member : Nat} {r' : Rig} (h : r'.inner = (detachMember member r.inner).1)
      (hswap : r'.swap = r.swap) : TableStep decode lib r (.detach member) r'
  | native {infos : List ChannelInfo} {plan : SwapPlan} {r' : Rig}
      (hswap : r.swap = .connecting plan) (hlength : infos.length = plan.snapshot.specs.length)
      (h : r' = r.swapNative plan infos) : TableStep decode lib r (.swapReopened infos) r'
  | translated {lines : List RpcMessage} {plan : SwapPlan} {channel : Reopen}
      {members : List Nat} {conn : Sv1UpConn} {r' : Rig}
      (hswap : r.swap = .translating plan channel members)
      (hconn : connectSv1Upstream lib lines = some conn)
      (h : r' = r.swapTranslate plan channel members conn) :
      TableStep decode lib r (.swapTranslated lines) r'

theorem SameTable.trans {i j k : Inner} (hij : SameTable i j) (hjk : SameTable j k) :
    SameTable i k where
  channels := Eq.trans hjk.channels hij.channels
  upToDown := hjk.upToDown.trans hij.upToDown
  groupDown := hjk.groupDown.trans hij.groupDown
  nextDownCid := hjk.nextDownCid.trans hij.nextDownCid

theorem forwardOpen_table (member : Nat) (spec : OpenSpec) (i : Inner) :
    SameTable i (forwardOpen member spec i) := by
  unfold forwardOpen
  dsimp only
  split <;> exact ⟨rfl, rfl, rfl, rfl⟩

theorem openChannel_table (member : Nat) (spec : OpenSpec) (i : Inner) :
    SameTable i (openChannel member spec i).1 := by
  unfold openChannel
  split
  · exact .refl i
  · exact forwardOpen_table ..

theorem minerFrame_table (frame : Sv2Frame) (i : Inner) : SameTable i (minerFrame frame i).1 := by
  rcases minerFrame_cases frame i with h | ⟨n, up, h⟩ <;> rw [h]
  · exact .refl i
  · exact ⟨rfl, rfl, rfl, rfl⟩

theorem creditAccepted_table (i : Inner) (now work : Rat) (count : Nat) :
    SameTable i (i.creditAccepted now work count).1 := by
  obtain ⟨_, _, _, _, h⟩ := creditAccepted_cases i now work count
  rw [h]
  exact ⟨rfl, rfl, rfl, rfl⟩

theorem setDifficulty_table (p : Channel → Bool) (d : Rat) (i : Inner) :
    SameTable i { i with channels := setDifficulty p d i.channels } :=
  ⟨setDifficulty_identity p d i.channels, rfl, rfl, rfl⟩

theorem routed_table (decode : Decoder) (now : Rat) (frame : Sv2Frame) (upCid : Nat) (i : Inner) :
    SameTable i (creditFrame decode now frame upCid (retarget decode frame upCid i)).1 := by
  have hretarget : SameTable i (retarget decode frame upCid i) := by
    unfold retarget
    split
    · split
      · exact setDifficulty_table ..
      · exact .refl i
    · exact .refl i
  refine hretarget.trans ?_
  unfold creditFrame
  split
  · exact creditAccepted_table ..
  · exact .refl _

theorem translateCall_table (r : Rig) (call : SessionCall) (cid member : Nat) (now : Rat) :
    SameTable r.inner (r.translateCall call cid member now).inner := by
  cases call with
  | sendTranslateFrame frame => exact .refl _
  | setTranslateDiff diff =>
    simp only [Rig.translateCall, setTranslateDiff]
    split
    · exact .refl _
    · exact setDifficulty_table ..
  | creditTranslate =>
    simp only [Rig.translateCall, creditTranslate]
    split
    · exact .refl _
    · exact creditAccepted_table ..

/-- A frame of the pool opens a channel, or leaves the table alone. -/
theorem onUpstreamFrame_table (decode : Decoder) (now : Rat) (g : Nat) (frame : Sv2Frame)
    (i : Inner) :
    SameTable i (onUpstreamFrame decode now g frame i).1 ∨
      (g = i.active.generation ∧ frame.isOpenSuccess = true ∧
        ∃ info c, Opens decode frame i (onUpstreamFrame decode now g frame i).1 info c) := by
  unfold onUpstreamFrame
  split_ifs with hstale hopen herror hscoped
  · exact Or.inl (.refl i)
  · have hsuccess : frame.isOpenSuccess = true := by simpa [Sv2Frame.isOpenSuccess] using hopen
    cases hinfo : parseOpenSuccess decode frame with
    | none =>
      left
      simp only [finalizeOpen, hinfo]
      exact .refl i
    | some info =>
      cases hpending : i.pending.lookup info.requestId with
      | none =>
        left
        simp only [finalizeOpen, hinfo, hpending]
        exact .refl i
      | some entry =>
        obtain ⟨c, hopens, _⟩ := finalizeOpen_opens hinfo hpending
        exact Or.inr ⟨not_not.mp hstale, hsuccess, info, c, hopens⟩
  · left
    obtain ⟨p, hp⟩ := rejectOpen_inner decode frame i
    simp only [hp]
    exact ⟨rfl, rfl, rfl, rfl⟩
  · exact Or.inl (.refl i)
  · left
    split
    · exact .refl i
    · exact routed_table decode now frame _ i

theorem translateSnapshot_carried {i : Inner} {channel : Reopen} {members : List Nat}
    (h : i.translateSnapshot = some (channel, members)) :
    [channel].Sublist (i.channels.map Channel.reopen) := by
  unfold Inner.translateSnapshot at h
  obtain ⟨c, hc, heq⟩ := Option.map_eq_some_iff.mp h
  cases heq
  cases hchannels : i.channels with
  | nil => simp [hchannels] at hc
  | cons c' cs =>
    simp only [hchannels, List.head?_cons, Option.some.injEq] at hc
    subst hc
    exact (List.nil_sublist _).cons_cons _

/-- What a step does to the table, in one place. -/
theorem table_of_transition {decode : Decoder} {lib : Sv1Library} {r r' : Rig} {e : Event}
    (ht : Transition decode lib r e r') : TableStep decode lib r e r' := by
  have hnothing : ∀ s : Rig, s.swap.carried = [] → Carries r s := by
    intro s hs
    left
    rw [hs]
    exact List.nil_sublist _
  cases ht with
  | attach hnative =>
    have hmember : SameTable r.inner r.inner.addMember.1 := ⟨rfl, rfl, rfl, rfl⟩
    exact .same (hmember.trans (forwardOpen_table ..)) (.of_eq rfl)
  | openChannel hmember => exact .same (openChannel_table ..) (.of_eq rfl)
  | @minerFrame member frame hmember =>
    refine .same ?_ (.of_eq (SameTasks.submitted _ _).swap)
    rw [Rig.submitted_inner]
    exact minerFrame_table ..
  | detach hmember => exact .detach rfl rfl
  | @upstreamFrame g frame now hnative =>
    rcases onUpstreamFrame_table decode now g frame r.inner with
      hsame | ⟨hg, hopen, info, c, hopens⟩
    · exact .same hsame (.of_eq rfl)
    · exact .opens hg hopen hopens rfl
  | translateLine htranslator => exact .same (.refl _) (.of_eq rfl)
  | @translateCall member cid written now state call calls htranslator =>
    let s : Rig := { r with translator := some ⟨cid, state, calls, written⟩ }
    have hcall : SameTable s.inner (s.translateCall call cid member now).inner :=
      translateCall_table s call cid member now
    exact .same hcall (.of_eq (translateCall_sameTasks s call cid member now).swap)
  | translateWrite htranslator => exact .same (.refl _) (.of_eq rfl)
  | swapOrder hswap horder htarget =>
    exact .same ⟨rfl, rfl, rfl, rfl⟩ (Or.inr (List.Sublist.refl _))
  | swapRevert hswap hdefault =>
    exact .same ⟨rfl, rfl, rfl, rfl⟩ (Or.inr (List.Sublist.refl _))
  | swapFailed hswap => exact .same (.refl _) (hnothing _ rfl)
  | swapReopened hswap hlength => exact .native hswap hlength rfl
  | swapNotSv2 hswap hchannel =>
    exact .same (.refl _) (Or.inr (translateSnapshot_carried hchannel))
  | swapTranslated hswap hconn => exact .translated hswap hconn rfl
  | repoint hswap hframe => exact .same (.refl _) (hnothing _ rfl)
  | repointFailed hswap hframe => exact .same (.refl _) (hnothing _ rfl)
  | notice hswap => exact .same (.refl _) (hnothing _ rfl)
  | swapDone hswap => exact .same (.refl _) (hnothing _ rfl)
  | reconnect howed => exact .same (.refl _) (.of_eq rfl)
  | store hstep => exact .same (.refl _) (.of_eq rfl)
  | setSeller => exact .same (.refl _) (.of_eq rfl)

/-! ## The table -/

/-- The ids of a channel, upstream and downstream. -/
def Channel.ids (c : Channel) : Nat × Nat := (c.upChannelId, c.downChannelId)

/-- No id occurs twice, and the index holds the ids of the channels. -/
structure TableOk (i : Inner) : Prop where
  downs : (i.channels.map Channel.downChannelId).Nodup
  ups : (i.channels.map Channel.upChannelId).Nodup
  index : ∀ up down, i.upToDown.lookup up = some down ↔ (up, down) ∈ i.channels.map Channel.ids

/-- The pool gives a channel an id that no channel of the table has. -/
def FreshIds (decode : Decoder) (r : Rig) : Event → Prop
  | .upstreamFrame g frame _ => g = r.inner.active.generation → frame.isOpenSuccess = true →
      ∀ info ∈ parseOpenSuccess decode frame, (r.inner.pending.lookup info.requestId).isSome →
        info.upChannelId ∉ r.inner.channels.map Channel.upChannelId
  | .swapReopened infos => (infos.map ChannelInfo.upChannelId).Nodup
  | _ => True

instance (decode : Decoder) (r : Rig) : DecidablePred (FreshIds decode r) := fun e => by
  rcases e with _ | _ <;> dsimp only [FreshIds] <;> infer_instance

/-- The table of a rig, with the ids that are still to be given out. -/
structure TableInv (r : Rig) : Prop where
  ok : TableOk r.inner
  below : ∀ c ∈ r.inner.channels, c.downChannelId < r.inner.nextDownCid
  carriedDowns : (r.swap.carried.map Reopen.downChannelId).Nodup
  carriedBelow : ∀ s ∈ r.swap.carried, s.downChannelId < r.inner.nextDownCid

theorem TableOk.of_same {i i' : Inner} (h : TableOk i) (hsame : SameTable i i') :
    TableOk i' where
  downs := by
    rw [hsame.channels.map Channel.downChannelId fun _ => rfl]
    exact h.downs
  ups := by
    rw [hsame.channels.map Channel.upChannelId fun _ => rfl]
    exact h.ups
  index up down := by
    rw [hsame.upToDown, hsame.channels.map Channel.ids fun _ => rfl]
    exact h.index up down

theorem TableOk.opens {decode : Decoder} {frame : Sv2Frame} {i i' : Inner} {info : ChannelInfo}
    {c : Channel} (h : TableOk i) (hopens : Opens decode frame i i' info c)
    (hbelow : ∀ c ∈ i.channels, c.downChannelId < i.nextDownCid)
    (hfresh : c.upChannelId ∉ i.channels.map Channel.upChannelId) : TableOk i' where
  downs := by
    have hnew : c.downChannelId ∉ i.channels.map Channel.downChannelId := by
      rintro hmem
      obtain ⟨c', hc', heq⟩ := List.mem_map.mp hmem
      have hlt := hbelow c' hc'
      rw [heq, hopens.down] at hlt
      exact lt_irrefl _ hlt
    rw [hopens.channels, List.map_append]
    exact List.nodup_append.mpr ⟨h.downs, List.nodup_singleton _, by
      rintro a ha b hb rfl
      exact hnew ((List.mem_singleton.mp hb) ▸ ha)⟩
  ups := by
    rw [hopens.channels, List.map_append]
    exact List.nodup_append.mpr ⟨h.ups, List.nodup_singleton _, by
      rintro a ha b hb rfl
      exact hfresh ((List.mem_singleton.mp hb) ▸ ha)⟩
  index up down := by
    rw [hopens.channels, hopens.upToDown, List.map_append, List.mem_append]
    by_cases hup : up = c.upChannelId
    · subst hup
      have hold : (c.upChannelId, down) ∉ i.channels.map Channel.ids := by
        intro hmem
        obtain ⟨c', hc', heq⟩ := List.mem_map.mp hmem
        exact hfresh (List.mem_map.mpr ⟨c', hc', congrArg Prod.fst heq⟩)
      simp [AList.lookup_insert, hold, Channel.ids, eq_comm]
    · rw [AList.lookup_insert_ne hup, h.index]
      simp [Channel.ids, hup]

theorem TableOk.detach {i : Inner} (h : TableOk i) (member : Nat) :
    TableOk (detachMember member i).1 where
  downs := h.downs.sublist ((List.filter_sublist).map _)
  ups := h.ups.sublist ((List.filter_sublist).map _)
  index up down := by
    have hlookup : (detachMember member i).1.upToDown.lookup up =
        if up ∈ (i.channels.filter fun c => decide (c.owner = member)).map Channel.upChannelId
        then none else i.upToDown.lookup up :=
      KeyedTable.lookup_foldl_erase Channel.upChannelId _ i.upToDown up
    have hkept : (up, down) ∈ (detachMember member i).1.channels.map Channel.ids ↔
        ∃ c ∈ i.channels, c.owner ≠ member ∧ c.ids = (up, down) := by
      simp [detachMember, and_assoc]
    rw [hlookup, hkept]
    split
    · rename_i howned
      obtain ⟨c, hc, hup⟩ := List.mem_map.mp howned
      obtain ⟨hc, howner⟩ := List.mem_filter.mp hc
      refine iff_of_false (by simp) ?_
      rintro ⟨c', hc', hother, hids⟩
      -- the channel of an id is one channel, and it has one owner
      have heq : c' = c := List.inj_on_of_nodup_map h.ups hc' hc
        ((congrArg Prod.fst hids).trans hup.symm)
      exact hother (heq ▸ of_decide_eq_true howner)
    · rename_i howned
      rw [h.index]
      constructor
      · intro hmem
        obtain ⟨c, hc, hids⟩ := List.mem_map.mp hmem
        refine ⟨c, hc, ?_, hids⟩
        intro howner
        exact howned (List.mem_map.mpr
          ⟨c, List.mem_filter.mpr ⟨hc, by simp [howner]⟩, congrArg Prod.fst hids⟩)
      · rintro ⟨c, hc, _, hids⟩
        exact List.mem_map.mpr ⟨c, hc, hids⟩

/-! ## Installs -/

theorem swapNative_downs {r : Rig} {plan : SwapPlan} {infos : List ChannelInfo}
    (hlength : infos.length = plan.snapshot.specs.length) :
    (r.swapNative plan infos).inner.channels.map Channel.downChannelId =
      plan.snapshot.specs.map Reopen.downChannelId := by
  have hfst : (plan.snapshot.specs.zip infos).map Prod.fst = plan.snapshot.specs :=
    List.map_fst_zip (by omega)
  rw [← congrArg (List.map Reopen.downChannelId) hfst, List.map_map]
  exact List.map_map

theorem swapNative_ups {r : Rig} {plan : SwapPlan} {infos : List ChannelInfo}
    (hlength : infos.length = plan.snapshot.specs.length) :
    (r.swapNative plan infos).inner.channels.map Channel.upChannelId =
      infos.map ChannelInfo.upChannelId := by
  have hsnd : (plan.snapshot.specs.zip infos).map Prod.snd = infos :=
    List.map_snd_zip (by omega)
  rw [← congrArg (List.map ChannelInfo.upChannelId) hsnd, List.map_map]
  exact List.map_map

theorem TableOk.native {r : Rig} {plan : SwapPlan} {infos : List ChannelInfo}
    (hlength : infos.length = plan.snapshot.specs.length)
    (hdowns : (plan.snapshot.specs.map Reopen.downChannelId).Nodup)
    (hups : (infos.map ChannelInfo.upChannelId).Nodup) :
    TableOk (r.swapNative plan infos).inner where
  downs := by
    rw [swapNative_downs hlength]
    exact hdowns
  ups := by
    rw [swapNative_ups hlength]
    exact hups
  index up down := by
    have hkeys : ((plan.snapshot.specs.zip infos).map fun p => p.2.upChannelId).Nodup := by
      have hsnd : (plan.snapshot.specs.zip infos).map Prod.snd = infos :=
        List.map_snd_zip (by omega)
      rw [← hsnd, List.map_map] at hups
      exact hups
    have hlookup := KeyedTable.lookup_foldl_insert (fun p : Reopen × ChannelInfo => p.2.upChannelId)
      (fun p => p.1.downChannelId) hkeys ∅ up down
    refine hlookup.trans ?_
    simp [Rig.swapNative, installNative, Channel.ids, reopened]

/-- A table of one channel. -/
theorem TableOk.single {i : Inner} {c : Channel} (hchannels : i.channels = [c])
    (hindex : i.upToDown = (∅ : AList fun _ : Nat => Nat).insert c.upChannelId c.downChannelId) :
    TableOk i where
  downs := by
    rw [hchannels]
    exact List.nodup_singleton _
  ups := by
    rw [hchannels]
    exact List.nodup_singleton _
  index up down := by
    rw [hindex, hchannels, KeyedTable.lookup_single]
    simp [Channel.ids]

/-! ## Runs -/

theorem Opens.next_le {decode : Decoder} {frame : Sv2Frame} {i i' : Inner} {info : ChannelInfo}
    {c : Channel} (h : Opens decode frame i i' info c) : i.nextDownCid < i'.nextDownCid := by
  rcases h.group with ⟨_, _, _, hnext⟩ | ⟨_, _, _, hnext⟩ | ⟨_, _, _, hnext⟩ <;> omega

/-- The downstream ids of the table, and of what a swap carries, whatever ids the pools give
out. -/
structure DownIds (r : Rig) : Prop where
  downs : (r.inner.channels.map Channel.downChannelId).Nodup
  below : ∀ c ∈ r.inner.channels, c.downChannelId < r.inner.nextDownCid
  carriedDowns : (r.swap.carried.map Reopen.downChannelId).Nodup
  carriedBelow : ∀ s ∈ r.swap.carried, s.downChannelId < r.inner.nextDownCid

/-- What a swap carries next has distinct ids, when this holds of what it carries
and of the table. -/
theorem DownIds.carries {r r' : Rig} (h : DownIds r) (hcarries : Carries r r') :
    (r'.swap.carried.map Reopen.downChannelId).Nodup ∧
      ∀ s ∈ r'.swap.carried, s.downChannelId < r.inner.nextDownCid := by
  rcases hcarries with hsub | hsub
  · exact ⟨h.carriedDowns.sublist (hsub.map _), fun s hs => h.carriedBelow s (hsub.subset hs)⟩
  · constructor
    · refine List.Nodup.sublist (hsub.map _) ?_
      rw [List.map_map]
      exact h.downs
    · intro s hs
      obtain ⟨c, hc, rfl⟩ := List.mem_map.mp (hsub.subset hs)
      exact h.below c hc

/-- A new channel takes an id that no channel has. -/
theorem DownIds.fresh {r : Rig} (h : DownIds r) :
    r.inner.nextDownCid ∉ r.inner.channels.map Channel.downChannelId := by
  intro hmem
  obtain ⟨c, hc, heq⟩ := List.mem_map.mp hmem
  exact absurd (heq ▸ h.below c hc) (lt_irrefl _)

theorem DownIds.step {decode : Decoder} {lib : Sv1Library} {r r' : Rig} {e : Event}
    (h : DownIds r) (ht : TableStep decode lib r e r') : DownIds r' := by
  cases ht with
  | same hsame hcarries =>
    obtain ⟨hcarriedDowns, hcarriedBelow⟩ := h.carries hcarries
    have hmap := hsame.channels.map Channel.downChannelId fun _ => rfl
    refine ⟨by rw [hmap]; exact h.downs, ?_, hcarriedDowns, by rwa [hsame.nextDownCid]⟩
    intro c hc
    have hmem := List.mem_map_of_mem (f := Channel.downChannelId) hc
    rw [hmap] at hmem
    obtain ⟨c', hc', heq⟩ := List.mem_map.mp hmem
    rw [hsame.nextDownCid, ← heq]
    exact h.below c' hc'
  | @opens g frame now info c _ hg hopen hopens hswap =>
    have hnext := hopens.next_le
    refine ⟨?_, ?_, by rw [hswap]; exact h.carriedDowns, ?_⟩
    · rw [hopens.channels, List.map_append]
      refine List.nodup_append.mpr ⟨h.downs, List.nodup_singleton _, ?_⟩
      rintro a ha b hb rfl
      rw [List.mem_singleton.mp hb, hopens.down] at ha
      exact h.fresh ha
    · intro c' hc'
      rw [hopens.channels] at hc'
      rcases List.mem_append.mp hc' with hold | hnew
      · exact (h.below c' hold).trans hnext
      · rw [List.mem_singleton.mp hnew, hopens.down]
        exact hnext
    · rw [hswap]
      exact fun s hs => (h.carriedBelow s hs).trans hnext
  | detach hdetach hswap =>
    refine ⟨?_, ?_, by rw [hswap]; exact h.carriedDowns, ?_⟩
    · rw [hdetach]
      exact h.downs.sublist ((List.filter_sublist).map _)
    · rw [hdetach]
      exact fun c hc => h.below c (List.mem_filter.mp hc).1
    · rw [hswap, hdetach]
      exact h.carriedBelow
  | native hswap hlength hinstall =>
    subst hinstall
    have hcarried : r.swap.carried = _ := congrArg SwapTask.carried hswap
    have hdowns := h.carriedDowns
    have hbelow := h.carriedBelow
    rw [hcarried] at hdowns hbelow
    refine ⟨by rw [swapNative_downs hlength]; exact hdowns, ?_, List.nodup_nil,
      fun s hs => by cases hs⟩
    intro c hc
    have hmem := List.mem_map_of_mem (f := Channel.downChannelId) hc
    rw [swapNative_downs hlength] at hmem
    obtain ⟨s, hs, heq⟩ := List.mem_map.mp hmem
    rw [← heq]
    exact hbelow s hs
  | translated hswap hconn hinstall =>
    subst hinstall
    have hbelow := h.carriedBelow
    rw [hswap] at hbelow
    refine ⟨List.nodup_singleton _, ?_, List.nodup_nil, fun s hs => by cases hs⟩
    intro c hc
    rw [List.mem_singleton.mp hc]
    exact hbelow _ List.mem_cons_self

theorem TableInv.downIds {r : Rig} (h : TableInv r) : DownIds r :=
  ⟨h.ok.downs, h.below, h.carriedDowns, h.carriedBelow⟩

/-- The table stays consistent when the pool gives out fresh ids. -/
theorem TableOk.step {decode : Decoder} {lib : Sv1Library} {r r' : Rig} {e : Event}
    (h : TableInv r) (hfresh : FreshIds decode r e) (ht : TableStep decode lib r e r') :
    TableOk r'.inner := by
  cases ht with
  | same hsame hcarries => exact h.ok.of_same hsame
  | @opens g frame now info c _ hg hopen hopens hswap =>
    have hup : c.upChannelId ∉ r.inner.channels.map Channel.upChannelId := by
      rw [hopens.up]
      exact hfresh hg hopen info hopens.parsed (by rw [hopens.asked]; rfl)
    exact h.ok.opens hopens h.below hup
  | detach hdetach hswap => exact hdetach ▸ h.ok.detach _
  | native hswap hlength hinstall =>
    subst hinstall
    have hdowns := h.carriedDowns
    rw [congrArg SwapTask.carried hswap] at hdowns
    exact .native hlength hdowns hfresh
  | translated hswap hconn hinstall =>
    subst hinstall
    exact .single rfl rfl

theorem TableInv.step {decode : Decoder} {lib : Sv1Library} {r r' : Rig} {e : Event}
    (h : TableInv r) (hfresh : FreshIds decode r e) (ht : TableStep decode lib r e r') :
    TableInv r' := by
  have hids := h.downIds.step ht
  exact ⟨.step h hfresh ht, hids.below, hids.carriedDowns, hids.carriedBelow⟩

theorem TableInv.of_start {lib : Sv1Library} {worker : String} {spec : OpenSpec}
    {store : OrderStore} {idlePool : Option UpstreamTarget} {now : Int}
    {failed : Option InitialAnswer} {answer : InitialAnswer} {r : Rig}
    (h : start lib worker spec store idlePool now failed answer = some r) : TableInv r := by
  obtain ⟨_, _, _, _, _, hinstall⟩ := start_firstInstall h
  cases hinstall with
  | native =>
    refine ⟨⟨List.nodup_nil, List.nodup_nil, ?_⟩, ?_, List.nodup_nil, ?_⟩
    · intro up down
      simp [Rig.unconnected, placeholder]
    · intro c hc
      cases hc
    · intro s hs
      cases hs
  | sv1 =>
    refine ⟨.single rfl rfl, ?_, List.nodup_nil, ?_⟩
    · intro c hc
      rw [List.mem_singleton.mp hc]
      exact Nat.lt_succ_self _
    · intro s hs
      cases hs

/-- The downstream ids are distinct in every state that a rig can reach. -/
theorem DownIds.of_reaches {decode : Decoder} {lib : Sv1Library} {G : Rig → Event → Prop}
    {r : Rig} (h : ReachesUnder decode lib G r) : DownIds r :=
  h.invariant (fun _ _ _ _ _ _ _ _ _ hstart => (TableInv.of_start hstart).downIds)
    fun _ _ _ hids _ hstep => hids.step (table_of_transition (transition_of_step hstep))

/-- A step that breaks the condition breaks the table. -/
theorem freshIds_of_tableOk {decode : Decoder} {lib : Sv1Library} {r r' : Rig} {e : Event}
    (hstep : step decode lib r e = some r') (hok : TableOk r'.inner) : FreshIds decode r e := by
  unfold FreshIds
  split
  · rename_i g frame now
    intro hg hopen info hinfo hpending hmem
    subst hg
    obtain ⟨⟨member, spec⟩, hasked⟩ := Option.isSome_iff_exists.mp hpending
    obtain ⟨c, hopens, _⟩ := finalizeOpen_opens hinfo hasked
    have hups := hok.ups
    simp only [step] at hstep
    split at hstep <;> cases hstep
    simp only [Rig.queue_inner, Rig.credit_inner, onUpstreamFrame_open hopen, hopens.channels,
      List.map_append, List.map_cons, List.map_nil] at hups
    rw [← hopens.up] at hmem
    exact (List.nodup_append.mp hups).2.2 _ hmem _ List.mem_cons_self rfl
  · rename_i infos
    simp only [step] at hstep
    split at hstep
    · split at hstep <;> cases hstep
      rename_i hinstall
      rw [← swapNative_ups hinstall.1]
      exact hok.ups
    · cases hstep
  · trivial

/-- The table of a rig is consistent as long as the pools give out fresh ids, and
the first id that is not fresh breaks it. -/
theorem table_ok {decode : Decoder} {lib : Sv1Library} {r : Rig}
    (h : ReachesUnder decode lib (FreshIds decode) r) :
    TableOk r.inner ∧
      ∀ e r', step decode lib r e = some r' → (TableOk r'.inner ↔ FreshIds decode r e) := by
  have hinv : TableInv r := h.invariant (fun _ _ _ _ _ _ _ _ _ hstart => .of_start hstart)
    fun _ _ _ hinv hfresh hstep =>
      hinv.step hfresh (table_of_transition (transition_of_step hstep))
  refine ⟨hinv.ok, ?_⟩
  intro e r' hstep
  constructor
  · exact freshIds_of_tableOk hstep
  · intro hfresh
    exact (hinv.step hfresh (table_of_transition (transition_of_step hstep))).ok

/-- A first open, a second one by a bundled miner, and a swap. -/
def twoOpens : List Event :=
  [.upstreamFrame 0 (openedFrame 1 10 0) 0, .attach (extendedOpen 8),
    .upstreamFrame 0 (openedFrame 2 11 0) 0, .createOrder buyerOrder,
    .swapOrder .retry "o1" false, .swapReopened [reopenedInfo 30, reopenedInfo 31]]

theorem table_ok_two_opens :
    ∃ r, ReachesUnder wireDecoder plainLibrary (FreshIds wireDecoder) r ∧
      r.inner.channels.length = 2 ∧ TableOk r.inner := by
  obtain ⟨r, hr, hlength⟩ := exists_of_idleRig (G := FreshIds wireDecoder)
    (p := fun r => decide (r.inner.channels.length = 2)) twoOpens (by decide +kernel)
  exact ⟨r, hr, of_decide_eq_true hlength, (table_ok hr).1⟩

/-! ## Ids on a connection -/

/-- The ids of the channels that are open on the active connection: one is opened
by an OpenSuccess, and closed by a CloseChannel in either direction. -/
def openIds (decode : Decoder) (lib : Sv1Library) (r : Rig) (e : Event) (ids : List Nat) :
    List Nat :=
  match e with
  | .upstreamFrame g frame _ =>
    if g ≠ r.inner.active.generation then ids
    else if frame.isOpenSuccess then
      ids ++ ((parseOpenSuccess decode frame).map ChannelInfo.upChannelId).toList
    else if frame.msgType = .closeChannel then
      ids.filter fun id => decide (readChannelId frame ≠ some id)
    else ids
  | .minerFrame _ frame =>
    if frame.msgType = .closeChannel then
      ids.filter fun id => decide ((readChannelId frame).bind r.inner.upForDown ≠ some id)
    else ids
  | .detach member =>
    if r.inner.translating then ids
    else ids.filter fun id => !(r.inner.channels.any fun c =>
      decide (c.owner = member) && decide (c.upChannelId = id))
  | .swapReopened infos => infos.map ChannelInfo.upChannelId
  | .swapTranslated lines => if (connectSv1Upstream lib lines).isSome then [] else ids
  | _ => ids

/-- The pool gives an OpenSuccess an id that is not open on its connection. -/
def PoolIds (decode : Decoder) (x : Rig × List Nat) : Event → Prop
  | .upstreamFrame g frame _ => g = x.1.inner.active.generation → frame.isOpenSuccess = true →
      ∀ info ∈ parseOpenSuccess decode frame, info.upChannelId ∉ x.2
  | .swapReopened infos => (infos.map ChannelInfo.upChannelId).Nodup
  | _ => True

instance (decode : Decoder) (x : Rig × List Nat) : DecidablePred (PoolIds decode x) := fun e => by
  rcases e with _ | _ <;> dsimp only [PoolIds] <;> infer_instance

/-- A CloseChannel. -/
def closedFrame (channelId : Nat) : Sv2Frame where
  msgType := .closeChannel
  payload := leBytes 4 channelId ++ [0]

/-- The pool closes the channel of the first miner, and reuses its id for the
channel of the second. -/
def reusedId : List Event :=
  [.upstreamFrame 0 (openedFrame 1 10 0) 0, .upstreamFrame 0 (closedFrame 10) 0,
    .attach (extendedOpen 8), .upstreamFrame 0 (openedFrame 2 10 0) 0]

/-- The table holds the id twice, and what is for the second miner goes to the
first. -/
theorem reused_id_breaks_table :
    ∃ x, ReachesWith wireDecoder plainLibrary (openIds wireDecoder plainLibrary) (fun _ => [])
        (PoolIds wireDecoder) x ∧
      x.1.inner.translating = false ∧ ¬TableOk x.1.inner ∧
      (∃ c ∈ x.1.inner.channels, c.owner = 2 ∧
        x.1.inner.recipients 10 = [(c.downChannelId, 1)]) := by
  obtain ⟨x, hx, hp⟩ := exists_history_of_idleRig (openIds wireDecoder plainLibrary)
    (fun _ => []) (G := PoolIds wireDecoder) reusedId
    (p := fun x => !x.1.inner.translating &&
      !decide ((x.1.inner.channels.map Channel.upChannelId).Nodup) &&
      x.1.inner.channels.any fun c => decide (c.owner = 2) &&
        decide (x.1.inner.recipients 10 = [(c.downChannelId, 1)]))
    (by decide +kernel)
  simp only [Bool.and_eq_true, Bool.not_eq_true', decide_eq_false_iff_not, List.any_eq_true,
    decide_eq_true_eq] at hp
  obtain ⟨⟨hnative, hups⟩, c, hc, howner, hrecipients⟩ := hp
  exact ⟨x, hx, hnative, fun hok => hups hok.ups, c, hc, howner, hrecipients⟩

end RentalProxy.Sv2
