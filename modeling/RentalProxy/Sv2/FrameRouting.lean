import RentalProxy.Sv2.Groups

/-!
# Where a frame of the pool goes

A frame of the pool names a channel, or a group of Extended channels, in its first four
payload bytes.  `on_upstream_frame` asks for the group first, and for the channel when no
channel is in the group, and writes the id that the miner knows over the id of the pool.

* `RoutingTable` is what the lookups need of the table.  `TableOk` gives its first part.
* `Sv2Frame.withChannelId` is the frame under another id.
* `frames_routed_exactly` says what is queued, for the three kinds of ids there are.
-/

namespace RentalProxy.Sv2

/-! ## The table and the copies -/

/-- The channel is an Extended one of this group.  `0` is no group. -/
def Channel.InGroup (c : Channel) (group : Nat) : Prop :=
  group ≠ 0 ∧ c.upGroupId = group ∧ c.spec.isExtended = true

/-- The ids of the pool tell the channels and the groups apart, and `up_to_down` is the graph of
the table. -/
structure RoutingTable (i : Inner) : Prop where
  ups : (i.channels.map Channel.upChannelId).Nodup
  groups : ∀ c ∈ i.channels, ∀ d ∈ i.channels, ¬d.InGroup c.upChannelId
  index : ∀ up down, i.upToDown.lookup up = some down ↔ (up, down) ∈ i.channels.map Channel.ids

/-- The frame with another id in its first four bytes: the header and the other bytes stay. -/
def Sv2Frame.withChannelId (frame : Sv2Frame) (channelId : Nat) : Sv2Frame :=
  { frame with payload := leBytes 4 channelId ++ frame.payload.drop 4 }

theorem rewriteChannelId_eq {frame : Sv2Frame} (channelId : Nat)
    (hlength : 4 ≤ frame.payload.length) :
    rewriteChannelId frame channelId = frame.withChannelId channelId :=
  if_neg (not_lt.mpr hlength)

instance (c : Channel) (group : Nat) : Decidable (c.InGroup group) :=
  inferInstanceAs (Decidable (_ ∧ _ ∧ _))

theorem RoutingTable.empty {i : Inner} (hchannels : i.channels = []) (hindex : i.upToDown = ∅) :
    RoutingTable i where
  ups := by rw [hchannels]; exact List.nodup_nil
  groups := by rw [hchannels]; exact List.forall_mem_nil _
  index up down := by simp [hchannels, hindex]

/-- A channel whose id is new comes to the table. -/
theorem RoutingTable.register {i : Inner} (h : RoutingTable i) {c : Channel}
    (hup : c.upChannelId ∉ i.channels.map Channel.upChannelId)
    (hgroups : ∀ d ∈ i.channels ++ [c], ∀ e ∈ i.channels ++ [c], ¬e.InGroup d.upChannelId) :
    RoutingTable (i.registerChannel c) where
  ups := by
    simp only [Inner.registerChannel, List.map_append, List.map_cons, List.map_nil]
    exact List.nodup_append.mpr ⟨h.ups, List.nodup_singleton _, by simpa using hup⟩
  groups := hgroups
  index up down := by
    simp only [Inner.registerChannel, List.map_append, List.mem_append]
    by_cases hid : up = c.upChannelId
    · have hold : (up, down) ∉ i.channels.map Channel.ids := by
        intro hmem
        obtain ⟨d, hd, hids⟩ := List.mem_map.mp hmem
        exact hup (List.mem_map.mpr ⟨d, hd, (congrArg Prod.fst hids).trans hid⟩)
      rw [hid, AList.lookup_insert, Option.some.injEq]
      rw [hid] at hold
      simp [hold, Channel.ids, eq_comm]
    · rw [AList.lookup_insert_ne hid, h.index]
      simp [Channel.ids, hid]

/-- Of two channels with one id of the pool there is one. -/
theorem RoutingTable.unique {i : Inner} (h : RoutingTable i) {c d : Channel}
    (hc : c ∈ i.channels) (hd : d ∈ i.channels) (hid : d.upChannelId = c.upChannelId) : d = c :=
  List.inj_on_of_nodup_map h.ups hd hc hid

/-! ## The lookups -/

variable {i : Inner} {upCid : Nat}

/-- Without a channel in the group the frame is for a channel. -/
theorem groupRecipients_eq_nil (h : ∀ c ∈ i.channels, ¬c.InGroup upCid) :
    i.groupRecipients upCid = [] := by
  by_cases hzero : upCid = 0
  · rw [Inner.groupRecipients, if_pos hzero]
  · refine List.eq_nil_iff_forall_not_mem.mpr fun p hp => ?_
    obtain ⟨c, hc, hgroup, hextended, _⟩ := (mem_groupRecipients hzero).mp hp
    exact h c hc ⟨hzero, hgroup, hextended⟩

/-- The id of a channel leads to the channel and its owner. -/
theorem RoutingTable.recipients_of_channel (h : RoutingTable i) {c : Channel}
    (hc : c ∈ i.channels) : i.recipients c.upChannelId = [(c.downChannelId, c.owner)] := by
  have hgroup := groupRecipients_eq_nil (h.groups c hc)
  have hindex : i.upToDown.lookup c.upChannelId = some c.downChannelId :=
    (h.index _ _).mpr (List.mem_map_of_mem hc)
  have howner : i.ownerOfUp c.upChannelId = some c.owner := by
    have hfind : (i.channels.find? fun d => decide (d.upChannelId = c.upChannelId)) = some c := by
      cases hfound : i.channels.find? fun d => decide (d.upChannelId = c.upChannelId) with
      | none =>
        have hnone := List.find?_eq_none.mp hfound c hc
        simp at hnone
      | some d =>
        have hid : d.upChannelId = c.upChannelId := by simpa using List.find?_some hfound
        rw [h.unique hc (List.mem_of_find?_eq_some hfound) hid]
    rw [Inner.ownerOfUp, hfind]
    rfl
  rw [Inner.recipients, hgroup, hindex, howner]

/-- The id of a group leads to the pairs of its channels. -/
theorem recipients_of_inGroup {c : Channel} (hc : c ∈ i.channels) (hgroup : c.InGroup upCid) :
    i.recipients upCid = i.groupRecipients upCid := by
  obtain ⟨hzero, hup, hextended⟩ := hgroup
  have hmem := (mem_groupRecipients hzero).mpr ⟨c, hc, hup, hextended, rfl⟩
  unfold Inner.recipients
  split
  · rename_i hnone
    rw [hnone] at hmem
    cases hmem
  · rfl

/-- Any other id leads nowhere. -/
theorem RoutingTable.recipients_eq_nil (h : RoutingTable i)
    (hnone : ∀ c ∈ i.channels, c.upChannelId ≠ upCid ∧ ¬c.InGroup upCid) :
    i.recipients upCid = [] := by
  have hgroup := groupRecipients_eq_nil fun c hc => (hnone c hc).2
  have hindex : i.upToDown.lookup upCid = none := by
    cases hlookup : i.upToDown.lookup upCid with
    | none => rfl
    | some down =>
      obtain ⟨c, hc, hids⟩ := List.mem_map.mp ((h.index upCid down).mp hlookup)
      exact absurd (congrArg Prod.fst hids) (hnone c hc).1
  rw [Inner.recipients, hgroup, hindex]

/-! ## The result -/

/-- A channel-scoped frame goes to the owner of the channel it names, under the id that the
owner knows; or once to each pair of group id and member, for the channels of the group it
names; or nowhere. -/
theorem frames_routed_exactly {decode : Decoder} {now : Rat} {frame : Sv2Frame}
    (htable : RoutingTable i) (hscoped : isChannelScoped frame.msgType = true)
    (hlength : 4 ≤ frame.payload.length) :
    (∀ c ∈ i.channels, c.upChannelId = leNat (frame.payload.take 4) →
      (onUpstreamFrame decode now i.active.generation frame i).2.2 =
        if c.owner ∈ i.members then
          [⟨c.owner, .received (frame.withChannelId c.downChannelId)⟩] else []) ∧
    ((∃ c ∈ i.channels, c.InGroup (leNat (frame.payload.take 4))) →
      ∃ pairs : List (Nat × Nat), pairs.Nodup ∧
        (∀ p, p ∈ pairs ↔ p.2 ∈ i.members ∧ ∃ c ∈ i.channels,
          c.InGroup (leNat (frame.payload.take 4)) ∧ (c.downGroupId, c.owner) = p) ∧
        (onUpstreamFrame decode now i.active.generation frame i).2.2 =
          pairs.map fun p => ⟨p.2, .received (frame.withChannelId p.1)⟩) ∧
    ((∀ c ∈ i.channels, c.upChannelId ≠ leNat (frame.payload.take 4) ∧
        ¬c.InGroup (leNat (frame.payload.take 4))) →
      (onUpstreamFrame decode now i.active.generation frame i).2.2 = []) := by
  have hid : readChannelId frame = some (leNat (frame.payload.take 4)) :=
    if_neg (not_lt.mpr hlength)
  have hcopies := @onUpstreamFrame_copies decode now frame _ i hscoped hid
  simp only [rewriteChannelId_eq _ hlength] at hcopies
  rw [hcopies]
  refine ⟨?_, ?_, ?_⟩
  · rintro c hc hup
    rw [← hup, Inner.copies, htable.recipients_of_channel hc]
    by_cases howner : c.owner ∈ i.members
    · simp [howner]
    · simp [howner]
  · rintro ⟨c, hc, hgroup⟩
    refine ⟨i.copies _, (recipients_nodup i _).filter _, fun p => ?_, rfl⟩
    rw [Inner.copies, List.mem_filter, decide_eq_true_eq, and_comm,
      recipients_of_inGroup hc hgroup, mem_groupRecipients hgroup.1]
    simp only [Channel.InGroup, ne_eq, hgroup.1, not_false_eq_true, true_and, and_assoc]
  · intro hnone
    rw [Inner.copies, htable.recipients_eq_nil hnone]
    rfl

/-- A channel of group 7 on the pool. -/
def groupedChannel (downChannelId upChannelId owner : Nat) : Channel where
  downChannelId
  upChannelId
  spec := extendedOpen downChannelId
  difficulty := 1
  owner
  upGroupId := 7
  downGroupId := 3

/-- Two miners in one group. -/
def groupedInner : Inner :=
  ((placeholder sellerPool .idle none "bc1q.rig").addMember.1.registerChannel
    (groupedChannel 1 10 1)).registerChannel (groupedChannel 2 11 2)

theorem groupedInner_routing : RoutingTable groupedInner :=
  ((RoutingTable.empty rfl rfl).register (by decide) (by decide)).register (by decide) (by decide)

/-- A job for the group goes to both miners, and one for the second channel to its owner. -/
theorem frames_routed_exactly_grouped :
    (∃ pairs : List (Nat × Nat), pairs.Nodup ∧
      (∀ p, p ∈ pairs ↔ p.2 ∈ groupedInner.members ∧ ∃ c ∈ groupedInner.channels,
        c.InGroup 7 ∧ (c.downGroupId, c.owner) = p) ∧
      (onUpstreamFrame wireDecoder 0 0 (jobFrame 7) groupedInner).2.2 =
        pairs.map fun p => ⟨p.2, .received ((jobFrame 7).withChannelId p.1)⟩) ∧
    (onUpstreamFrame wireDecoder 0 0 (jobFrame 11) groupedInner).2.2 =
      [⟨2, .received ((jobFrame 11).withChannelId 2)⟩] := by
  constructor
  · have hjob := (@frames_routed_exactly groupedInner wireDecoder 0 (jobFrame 7)
      groupedInner_routing rfl (by decide)).2.1
    exact hjob ⟨groupedChannel 1 10 1, by decide, by decide⟩
  · have hjob := (@frames_routed_exactly groupedInner wireDecoder 0 (jobFrame 11)
      groupedInner_routing rfl (by decide)).1
    exact hjob (groupedChannel 2 11 2) (by decide) (by decide)

end RentalProxy.Sv2
