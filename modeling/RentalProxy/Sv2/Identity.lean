import RentalProxy.Sv2.Table

/-!
# Who a channel is

A miner is told in an OpenSuccess under which id it has a channel, and under which
group id the jobs of its group come.  It is never told a new one, so the record of
the channel has to keep them over every swap, and no id may be given out twice.

* `given` is the history of the records that OpenSuccesses were sent for.
* `DistinctIds` says that no id was given out twice.  It holds of every run.
* `Stable` says that the table holds what was given.  The translated swap writes a
  group id of `0` into the record (`translation_forgets_group`), so `Stable` needs
  `KeepsGroup`: the channel that is carried over to an SV1 pool has no group.
-/

namespace RentalProxy.Sv2

open StepSystem

/-! ## What was given -/

/-- The channels that a frame of the pool adds to the table. -/
def newChannels (decode : Decoder) (r : Rig) : Event → List Channel
  | .upstreamFrame g frame now =>
    (onUpstreamFrame decode now g frame r.inner).1.channels.drop r.inner.channels.length
  | _ => []

/-- The channels that miners were given, as they were when their OpenSuccess was
sent. -/
def given (decode : Decoder) (r : Rig) (e : Event) (cs : List Channel) : List Channel :=
  cs ++ newChannels decode r e

/-- The channel that a rig starts with. -/
def givenAtStart (r : Rig) : List Channel := r.inner.channels

/-- No channel id was given twice, and none is the group of an Extended channel. -/
def DistinctIds (cs : List Channel) : Prop :=
  (cs.map Channel.downChannelId).Nodup ∧
    ∀ c ∈ cs, c.spec.isExtended = true → ∀ d ∈ cs, c.downGroupId ≠ d.downChannelId

/-- Every channel of the table has the id, owner, open spec and group id that it
was given. -/
def Stable (r : Rig) (cs : List Channel) : Prop :=
  ∀ c ∈ r.inner.channels, c.reopen ∈ cs.map Channel.reopen

/-- A channel that is carried over to an SV1 pool has no group. -/
def KeepsGroup (lib : Sv1Library) (r : Rig) : Event → Prop
  | .swapTranslated lines => match r.swap with
    | .translating _ channel _ =>
      (connectSv1Upstream lib lines).isSome → channel.downGroupId = 0
    | _ => True
  | _ => True

instance (lib : Sv1Library) (r : Rig) : DecidablePred (KeepsGroup lib r) := fun e => by
  rcases e with _ | _ <;> dsimp only [KeepsGroup] <;> try infer_instance
  rcases r.swap with _ | _ <;> infer_instance

section Steps

variable {decode : Decoder} {lib : Sv1Library} {r r' : Rig}

theorem newChannels_of_same {e : Event} (hstep : step decode lib r e = some r')
    (hsame : SameTable r.inner r'.inner) : newChannels decode r e = [] := by
  unfold newChannels
  split
  · rename_i g frame now
    simp only [step] at hstep
    split at hstep <;> cases hstep
    have hlength := congrArg List.length hsame.channels
    simp only [List.length_map, Rig.queue_inner, Rig.credit_inner] at hlength
    exact List.drop_of_length_le (le_of_eq hlength)
  · rfl

theorem newChannels_of_opens {g : Nat} {frame : Sv2Frame} {now : Rat} {info : ChannelInfo}
    {c : Channel} (hstep : step decode lib r (.upstreamFrame g frame now) = some r')
    (hopens : Opens decode frame r.inner r'.inner info c) :
    newChannels decode r (.upstreamFrame g frame now) = [c] := by
  have hchannels := hopens.channels
  simp only [step] at hstep
  split at hstep <;> cases hstep
  simp only [Rig.queue_inner, Rig.credit_inner] at hchannels
  simp only [newChannels, hchannels, List.drop_left]

end Steps

/-! ## Ids -/

/-- An id that was given out, to no channel. -/
def GroupId (next : Nat) (cs : List Channel) (g : Nat) : Prop :=
  g < next ∧ ∀ d ∈ cs, g ≠ d.downChannelId

/-- The group of an Extended channel is no channel. -/
def GroupOk (next : Nat) (cs : List Channel) (s : Reopen) : Prop :=
  s.spec.isExtended = true → GroupId next cs s.downGroupId

/-- The ids that were given out, in the table and in what a swap carries. -/
structure Identities (r : Rig) (cs : List Channel) : Prop where
  next : 0 < r.inner.nextDownCid
  downs : (cs.map Channel.downChannelId).Nodup
  bounds : ∀ c ∈ cs, 0 < c.downChannelId ∧ c.downChannelId < r.inner.nextDownCid
  groups : ∀ s ∈ cs.map Channel.reopen, GroupOk r.inner.nextDownCid cs s
  table : ∀ s ∈ r.inner.channels.map Channel.reopen, GroupOk r.inner.nextDownCid cs s
  carried : ∀ s ∈ r.swap.carried, GroupOk r.inner.nextDownCid cs s
  known : ∀ up g, r.inner.groupDown.lookup up = some g → GroupId r.inner.nextDownCid cs g

theorem Identities.distinct {r : Rig} {cs : List Channel} (h : Identities r cs) :
    DistinctIds cs :=
  ⟨h.downs, fun _ hc hextended => (h.groups _ (List.mem_map_of_mem hc) hextended).2⟩

/-- A new channel takes the next id, so it is none of those given out before. -/
theorem GroupId.opens {next next' g : Nat} {cs : List Channel} {c : Channel}
    (h : GroupId next cs g) (hdown : c.downChannelId = next) (hnext : next < next') :
    GroupId next' (cs ++ [c]) g := by
  refine ⟨h.1.trans hnext, ?_⟩
  intro d hd
  rcases List.mem_append.mp hd with hold | hnew
  · exact h.2 d hold
  · rw [List.mem_singleton.mp hnew, hdown]
    exact ne_of_lt h.1

/-- The id `0` stands for no group. -/
theorem GroupId.zero {next : Nat} {cs : List Channel} (hnext : 0 < next)
    (hpositive : ∀ c ∈ cs, 0 < c.downChannelId) : GroupId next cs 0 :=
  ⟨hnext, fun d hd => ne_of_lt (hpositive d hd)⟩

@[simp] theorem reopened_reopen (s : Reopen) (info : ChannelInfo) :
    (reopened s info).reopen = s := rfl

theorem swapNative_reopen {r : Rig} {plan : SwapPlan} {infos : List ChannelInfo}
    (hlength : infos.length = plan.snapshot.specs.length) :
    (r.swapNative plan infos).inner.channels.map Channel.reopen = plan.snapshot.specs := by
  have hfst : (plan.snapshot.specs.zip infos).map Prod.fst = plan.snapshot.specs :=
    List.map_fst_zip (by omega)
  rw [← hfst]
  simp only [Rig.swapNative, installNative, List.map_map]
  exact List.map_congr_left fun _ _ => rfl

theorem Identities.opens {decode : Decoder} {frame : Sv2Frame} {r r' : Rig} {cs : List Channel}
    {info : ChannelInfo} {c : Channel} (h : Identities r cs)
    (hopens : Opens decode frame r.inner r'.inner info c) (hswap : r'.swap = r.swap) :
    Identities r' (cs ++ [c]) := by
  have hnext := hopens.next_le
  have hdown := hopens.down
  have hpositive : ∀ d ∈ cs ++ [c],
      0 < d.downChannelId ∧ d.downChannelId < r'.inner.nextDownCid := by
    intro d hd
    rcases List.mem_append.mp hd with hold | hnew
    · exact ⟨(h.bounds d hold).1, (h.bounds d hold).2.trans hnext⟩
    · rw [List.mem_singleton.mp hnew, hdown]
      exact ⟨h.next, hnext⟩
  -- a new group id comes right after that of the channel
  have hfresh : r'.inner.nextDownCid = r.inner.nextDownCid + 2 →
      GroupId r'.inner.nextDownCid (cs ++ [c]) (r.inner.nextDownCid + 1) := by
    intro htwo
    refine ⟨by omega, ?_⟩
    intro d hd
    rcases List.mem_append.mp hd with hold | hnew
    · have hlt := (h.bounds d hold).2
      omega
    · rw [List.mem_singleton.mp hnew, hdown]
      omega
  have hnew : GroupOk r'.inner.nextDownCid (cs ++ [c]) c.reopen := by
    rcases hopens.group with ⟨hnone, hgroup, _, _⟩ | ⟨_, hlookup, _, _⟩ | ⟨_, hgroup, _, htwo⟩
    · intro hextended
      rcases hnone with hstandard | hzero
      · rw [show c.spec.isExtended = true from hextended] at hstandard
        cases hstandard
      · rw [show c.reopen.downGroupId = _ from hgroup.trans hzero]
        exact .zero (h.next.trans hnext) fun d hd => (hpositive d hd).1
    · exact fun _ => (h.known _ _ hlookup).opens hdown hnext
    · intro _
      rw [show c.reopen.downGroupId = _ from hgroup]
      exact hfresh htwo
  refine ⟨h.next.trans hnext, ?_, hpositive, ?_, ?_, ?_, ?_⟩
  · rw [List.map_append]
    refine List.nodup_append.mpr ⟨h.downs, List.nodup_singleton _, ?_⟩
    rintro a ha b hb rfl
    obtain ⟨d, hd, heq⟩ := List.mem_map.mp ha
    have hlt := (h.bounds d hd).2
    rw [heq, List.mem_singleton.mp hb, hdown] at hlt
    exact lt_irrefl _ hlt
  · intro s hs
    rw [List.map_append] at hs
    rcases List.mem_append.mp hs with hold | hlast
    · exact fun hextended => (h.groups s hold hextended).opens hdown hnext
    · rw [List.mem_singleton.mp hlast]
      exact hnew
  · intro s hs
    rw [hopens.channels, List.map_append] at hs
    rcases List.mem_append.mp hs with hold | hlast
    · exact fun hextended => (h.table s hold hextended).opens hdown hnext
    · rw [List.mem_singleton.mp hlast]
      exact hnew
  · rw [hswap]
    exact fun s hs hextended => (h.carried s hs hextended).opens hdown hnext
  · intro up g hlookup
    rcases hopens.group with ⟨_, _, hsame, _⟩ | ⟨_, _, hsame, _⟩ | ⟨_, hgroup, hinsert, htwo⟩
    · rw [hsame] at hlookup
      exact (h.known up g hlookup).opens hdown hnext
    · rw [hsame] at hlookup
      exact (h.known up g hlookup).opens hdown hnext
    · rw [hinsert] at hlookup
      rcases KeyedTable.lookup_insert_cases hlookup with ⟨_, heq⟩ | ⟨_, hold⟩
      · rw [heq, hgroup]
        exact hfresh htwo
      · exact (h.known up g hold).opens hdown hnext

theorem Identities.carries {r r' : Rig} {cs : List Channel} (h : Identities r cs)
    (hcarries : Carries r r') :
    ∀ s ∈ r'.swap.carried, GroupOk r.inner.nextDownCid cs s := by
  rcases hcarries with hsub | hsub
  · exact fun s hs => h.carried s (hsub.subset hs)
  · exact fun s hs => h.table s (hsub.subset hs)

theorem Identities.native {r : Rig} {cs : List Channel} {plan : SwapPlan}
    {infos : List ChannelInfo} (h : Identities r cs) (hswap : r.swap = .connecting plan)
    (hlength : infos.length = plan.snapshot.specs.length) :
    Identities (r.swapNative plan infos) cs := by
  have hcarried : ∀ s ∈ plan.snapshot.specs, GroupOk r.inner.nextDownCid cs s := by
    have hold := h.carried
    rw [hswap] at hold
    exact hold
  refine ⟨h.next, h.downs, h.bounds, h.groups, ?_, (fun s hs => by cases hs), ?_⟩
  · rw [swapNative_reopen hlength]
    exact hcarried
  · intro up g hlookup
    have hinsert := KeyedTable.lookup_foldl_insert_if
      (p := fun p : Reopen × ChannelInfo => reopenGroup p.1.spec p.2 ≠ 0 ∧ p.1.downGroupId ≠ 0)
      (fun p => reopenGroup p.1.spec p.2) (fun p => p.1.downGroupId) hlookup
    rcases hinsert with ⟨p, hp, ⟨hgroup, _⟩, _, rfl⟩ | hempty
    · refine hcarried p.1 (List.of_mem_zip hp).1 ?_
      -- only an Extended channel is re-opened into a group
      by_contra hstandard
      exact hgroup (if_neg hstandard)
    · rw [AList.lookup_empty] at hempty
      cases hempty

theorem Identities.translated {r : Rig} {cs : List Channel} (h : Identities r cs)
    (plan : SwapPlan) (channel : Reopen) (members : List Nat) (conn : Sv1UpConn) :
    Identities (r.swapTranslate plan channel members conn) cs := by
  refine ⟨h.next, h.downs, h.bounds, h.groups, ?_, (fun s hs => by cases hs), ?_⟩
  · intro s hs _
    rw [List.mem_singleton.mp hs]
    exact .zero h.next fun d hd => (h.bounds d hd).1
  · intro up g hlookup
    have hempty : (∅ : AList fun _ : Nat => Nat).lookup up = some g := hlookup
    rw [AList.lookup_empty] at hempty
    cases hempty

theorem Identities.step {decode : Decoder} {lib : Sv1Library} {r r' : Rig} {e : Event}
    {cs : List Channel} (h : Identities r cs) (hstep : step decode lib r e = some r') :
    Identities r' (given decode r e cs) := by
  unfold given
  cases table_of_transition (transition_of_step hstep) with
  | same hsame hcarries =>
    rw [newChannels_of_same hstep hsame, List.append_nil]
    refine ⟨?_, h.downs, ?_, ?_, ?_, ?_, ?_⟩ <;> rw [hsame.nextDownCid]
    · exact h.next
    · exact h.bounds
    · exact h.groups
    · rw [hsame.channels.map Channel.reopen fun _ => rfl]
      exact h.table
    · exact h.carries hcarries
    · rw [hsame.groupDown]
      exact h.known
  | opens hg hopen hopens hswap =>
    rw [newChannels_of_opens hstep hopens]
    exact h.opens hopens hswap
  | detach hdetach hswap =>
    simp only [newChannels, List.append_nil]
    refine ⟨?_, h.downs, ?_, ?_, ?_, ?_, ?_⟩ <;> rw [hdetach]
    · exact h.next
    · exact h.bounds
    · exact h.groups
    · exact fun s hs => h.table s (((List.filter_sublist).map Channel.reopen).subset hs)
    · rw [hswap]
      exact h.carried
    · exact h.known
  | native hswap hlength hinstall =>
    simp only [newChannels, List.append_nil]
    subst hinstall
    exact h.native hswap hlength
  | translated hswap hconn hinstall =>
    simp only [newChannels, List.append_nil]
    subst hinstall
    exact h.translated _ _ _ _

theorem Identities.of_start {lib : Sv1Library} {worker : String} {spec : OpenSpec}
    {store : OrderStore} {idlePool : Option UpstreamTarget} {now : Int}
    {failed : Option InitialAnswer} {answer : InitialAnswer} {r : Rig}
    (h : start lib worker spec store idlePool now failed answer = some r) :
    Identities r (givenAtStart r) := by
  have hempty : ∀ up g, (∅ : AList fun _ : Nat => Nat).lookup up ≠ some g := by
    intro up g
    rw [AList.lookup_empty]
    exact fun hnone => by cases hnone
  obtain ⟨_, _, _, _, _, hinstall⟩ := start_firstInstall h
  cases hinstall with
  | native hleft =>
    refine ⟨hleft.cid_pos, List.nodup_nil, ?_, ?_, ?_, ?_, fun up g hlookup =>
      absurd hlookup (hempty up g)⟩
    all_goals
      intro s hs
      cases hs
  | @sv1 cid _ _ _ conn _ hleft =>
    have hzero : ∀ s : Reopen, s ∈ [Channel.reopen (translatedChannel ⟨cid, firstMember, spec, 0⟩
        conn.initialDiff)] → GroupOk (cid + 1) [translatedChannel ⟨cid, firstMember, spec, 0⟩
          conn.initialDiff] s := by
      intro s hs _
      rw [List.mem_singleton.mp hs]
      refine .zero (Nat.succ_pos cid) ?_
      intro c hc
      rw [List.mem_singleton.mp hc]
      exact hleft.cid_pos
    refine ⟨Nat.succ_pos cid, List.nodup_singleton _, ?_, hzero, hzero, ?_, fun up g hlookup =>
      absurd hlookup (hempty up g)⟩
    · intro c hc
      rw [List.mem_singleton.mp hc]
      exact ⟨hleft.cid_pos, Nat.lt_succ_self cid⟩
    · intro s hs
      cases hs

/-- In every run no id is given out twice. -/
theorem distinct_ids {decode : Decoder} {lib : Sv1Library} {G : Rig × List Channel → Event → Prop}
    {x : Rig × List Channel} (h : ReachesWith decode lib (given decode) givenAtStart G x) :
    Identities x.1 x.2 :=
  h.invariant (I := Identities) (fun _ _ _ _ _ _ _ _ _ hstart => .of_start hstart)
    fun _ _ _ _ hinv _ hstep => hinv.step hstep

/-! ## Records -/

/-- The table, and what a swap carries, hold what was given. -/
structure Recorded (r : Rig) (cs : List Channel) : Prop where
  table : Stable r cs
  carried : ∀ s ∈ r.swap.carried, s ∈ cs.map Channel.reopen

theorem Recorded.step {decode : Decoder} {lib : Sv1Library} {r r' : Rig} {e : Event}
    {cs : List Channel} (h : Recorded r cs) (hkeeps : KeepsGroup lib r e)
    (hstep : step decode lib r e = some r') : Recorded r' (given decode r e cs) := by
  have hstable : ∀ s ∈ r.inner.channels.map Channel.reopen, s ∈ cs.map Channel.reopen := by
    intro s hs
    obtain ⟨c, hc, rfl⟩ := List.mem_map.mp hs
    exact h.table c hc
  unfold given
  cases table_of_transition (transition_of_step hstep) with
  | same hsame hcarries =>
    rw [newChannels_of_same hstep hsame, List.append_nil]
    constructor
    · intro c hc
      have hmem := List.mem_map_of_mem (f := Channel.reopen) hc
      rw [hsame.channels.map Channel.reopen fun _ => rfl] at hmem
      exact hstable _ hmem
    · intro s hs
      rcases hcarries with hsub | hsub
      · exact h.carried s (hsub.subset hs)
      · exact hstable s (hsub.subset hs)
  | opens hg hopen hopens hswap =>
    rw [newChannels_of_opens hstep hopens]
    constructor
    · intro c hc
      rw [List.map_append]
      rw [hopens.channels] at hc
      rcases List.mem_append.mp hc with hold | hnew
      · exact List.mem_append_left _ (h.table c hold)
      · exact List.mem_append_right _ (List.mem_map_of_mem hnew)
    · rw [hswap, List.map_append]
      exact fun s hs => List.mem_append_left _ (h.carried s hs)
  | detach hdetach hswap =>
    simp only [newChannels, List.append_nil]
    constructor
    · intro c hc
      rw [hdetach] at hc
      exact h.table c (List.mem_filter.mp hc).1
    · rw [hswap]
      exact h.carried
  | native hswap hlength hinstall =>
    simp only [newChannels, List.append_nil]
    subst hinstall
    have hcarried := h.carried
    rw [hswap] at hcarried
    refine ⟨?_, fun s hs => by cases hs⟩
    intro c hc
    have hmem := List.mem_map_of_mem (f := Channel.reopen) hc
    rw [swapNative_reopen hlength] at hmem
    exact hcarried _ hmem
  | @translated lines plan channel members conn _ hswap hconn hinstall =>
    simp only [newChannels, List.append_nil]
    subst hinstall
    have hcarried := h.carried channel (by rw [hswap]; exact List.mem_cons_self)
    refine ⟨?_, fun s hs => by cases hs⟩
    intro c hc
    have hgroup : channel.downGroupId = 0 := by
      simp only [KeepsGroup, hswap] at hkeeps
      exact hkeeps (by rw [hconn]; rfl)
    have hrecord : c.reopen = channel := by
      rw [List.mem_singleton.mp hc]
      cases channel
      simpa [translatedChannel, Channel.reopen] using hgroup.symm
    rw [hrecord]
    exact hcarried

/-- A swap that breaks the condition forgets a group id. -/
theorem keepsGroup_of_stable {decode : Decoder} {lib : Sv1Library} {r r' : Rig} {e : Event}
    {cs : List Channel} (hids : (cs.map Channel.downChannelId).Nodup) (h : Recorded r cs)
    (hstep : step decode lib r e = some r') (hstable : Stable r' (given decode r e cs)) :
    KeepsGroup lib r e := by
  unfold KeepsGroup
  split
  · rename_i lines
    split
    · rename_i plan channel members hswap
      intro hsome
      obtain ⟨conn, hconn⟩ := Option.isSome_iff_exists.mp hsome
      simp only [step, hswap, hconn] at hstep
      cases hstep
      simp only [given, newChannels, List.append_nil] at hstable
      have hcarried := h.carried channel (by rw [hswap]; exact List.mem_cons_self)
      obtain ⟨d, hd, hrecord⟩ := List.mem_map.mp hcarried
      obtain ⟨d', hd', hrecord'⟩ := List.mem_map.mp
        (hstable (translatedChannel channel conn.initialDiff) List.mem_cons_self)
      -- both records have the id of the channel, so they are one
      have hdown : d'.downChannelId = d.downChannelId :=
        (congrArg Reopen.downChannelId hrecord').trans
          (congrArg Reopen.downChannelId hrecord).symm
      have hsame : d' = d := List.inj_on_of_nodup_map hids hd' hd hdown
      rw [hsame, hrecord] at hrecord'
      exact congrArg Reopen.downGroupId hrecord'
    · trivial
  · trivial

/-- A channel keeps the id, owner, open spec and group id that its miner was told,
as long as no channel with a group is carried over to an SV1 pool, and the first
swap that does so forgets a group id.  No id is given out twice in any case. -/
theorem channel_identity {decode : Decoder} {lib : Sv1Library} {x : Rig × List Channel}
    (h : ReachesWith decode lib (given decode) givenAtStart (fun x e => KeepsGroup lib x.1 e) x) :
    Stable x.1 x.2 ∧ DistinctIds x.2 ∧
      ∀ e r', step decode lib x.1 e = some r' →
        DistinctIds (given decode x.1 e x.2) ∧
          (Stable r' (given decode x.1 e x.2) ↔ KeepsGroup lib x.1 e) := by
  have hids := distinct_ids h
  have hrecorded : Recorded x.1 x.2 := by
    refine h.invariant (I := Recorded) ?_ fun r cs e r' hinv hkeeps hstep =>
      hinv.step hkeeps hstep
    intro worker spec store idlePool now failed answer r₀ _ hstart
    obtain ⟨_, _, _, _, _, hstarted⟩ := start_started hstart
    refine ⟨fun c hc => List.mem_map_of_mem hc, ?_⟩
    rw [hstarted.swap]
    exact fun s hs => by cases hs
  refine ⟨hrecorded.table, hids.distinct, ?_⟩
  intro e r' hstep
  exact ⟨(hids.step hstep).distinct, keepsGroup_of_stable hids.downs hrecorded hstep,
    fun hkeeps => (hrecorded.step hkeeps hstep).table⟩

/-- A rig with two channels moves to the buyer's pool. -/
theorem channel_identity_native :
    ∃ x, ReachesWith wireDecoder plainLibrary (given wireDecoder) givenAtStart
        (fun x e => KeepsGroup plainLibrary x.1 e) x ∧
      x.1.inner.channels.length = 2 ∧ Stable x.1 x.2 ∧ DistinctIds x.2 := by
  obtain ⟨x, hx, hlength⟩ := exists_history_of_idleRig (given wireDecoder) givenAtStart
    (G := fun x e => KeepsGroup plainLibrary x.1 e) twoOpens
    (p := fun x => decide (x.1.inner.channels.length = 2)) (by decide +kernel)
  obtain ⟨hstable, hdistinct, _⟩ := channel_identity hx
  exact ⟨x, hx, of_decide_eq_true hlength, hstable, hdistinct⟩

/-- A grouped channel is carried over to an SV1 pool, and back to an SV2 pool. -/
def throughSv1 : List Event :=
  [.upstreamFrame 0 (openedFrame 1 10 5) 0, .createOrder buyerOrder,
    .swapOrder .attach "o1" false, .swapNotSv2, .swapTranslated sv1Handshake, .swapSend, .swapSend,
    .swapSend, .swapRevert .attach, .swapReopened [reopenedInfo 30]]

/-- The miner was told of a group, and its record has none. -/
theorem translation_forgets_group :
    ∃ x, ReachesWith wireDecoder plainLibrary (given wireDecoder) givenAtStart
        (fun _ _ => True) x ∧ x.1.inner.translating = false ∧ ¬Stable x.1 x.2 := by
  obtain ⟨x, hx, hp⟩ := exists_history_of_idleRig (given wireDecoder) givenAtStart
    (G := fun _ _ => True) throughSv1
    (p := fun x => !x.1.inner.translating && x.1.inner.channels.any fun c =>
      !decide (c.reopen ∈ x.2.map Channel.reopen)) (by decide +kernel)
  simp only [Bool.and_eq_true, Bool.not_eq_true', List.any_eq_true, decide_eq_false_iff_not] at hp
  obtain ⟨hnative, c, hc, hforgotten⟩ := hp
  exact ⟨x, hx, hnative, fun hstable => hforgotten (hstable c hc)⟩

end RentalProxy.Sv2
