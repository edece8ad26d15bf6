import RentalProxy.Sv2.Table

/-!
# Members are isolated

Every frame of a member passes through one lookup, from the channel id that it carries to the
channel of the pool.  The table holds the channels of all members, and the lookup does not ask who
owns the channel: a member that guesses an id mines, updates and closes the channel of another
(`foreign_share_counts`).

* `Inner.Addresses` says that a frame is for a channel of the member that sent it, and `Dropped`
  that the rig took no notice of it.
* `members_isolated` is the result: what is for no channel of the member is dropped exactly when
  it is for no channel of another member either.
-/

namespace RentalProxy.Sv2

/-! ## Who a frame is for -/

/-- The frame carries the id of a channel that the member owns. -/
def Inner.Addresses (i : Inner) (member : Nat) (frame : Sv2Frame) : Prop :=
  ∃ c ∈ i.channels, readChannelId frame = some c.downChannelId ∧ c.owner = member

/-- The condition: the frame carries no id of another member's channel. -/
def Inner.SparesOthers (i : Inner) (member : Nat) (frame : Sv2Frame) : Prop :=
  ∀ c ∈ i.channels, readChannelId frame = some c.downChannelId → c.owner = member

instance (i : Inner) (member : Nat) (frame : Sv2Frame) : Decidable (i.Addresses member frame) :=
  inferInstanceAs (Decidable (∃ c ∈ i.channels,
    readChannelId frame = some c.downChannelId ∧ c.owner = member))

/-- Nothing was sent upstream, and nothing was counted. -/
structure Dropped (r r' : Rig) : Prop where
  toUp : r'.inner.active.toUp = r.inner.active.toUp
  submitted : r'.inner.submittedShares = r.inner.submittedShares
  accepted : r'.inner.acceptedShares = r.inner.acceptedShares
  delivered : r'.inner.deliveredWork = r.inner.deliveredWork
  orders : r'.store = r.store

/-! ## The lookup -/

/-- An id that no channel has is looked up in vain. -/
theorem upForDown_eq_none {i : Inner} {downCid : Nat} :
    i.upForDown downCid = none ↔ ∀ c ∈ i.channels, c.downChannelId ≠ downCid := by
  simp [Inner.upForDown]

/-- A frame whose id no channel has changes nothing. -/
theorem minerFrame_unknown {i : Inner} {frame : Sv2Frame}
    (h : ∀ c ∈ i.channels, readChannelId frame ≠ some c.downChannelId) :
    minerFrame frame i = (i, none) := by
  unfold minerFrame
  cases hid : readChannelId frame with
  | none => rfl
  | some downCid =>
    have hnone : i.upForDown downCid = none :=
      upForDown_eq_none.mpr fun c hc heq => h c hc (by rw [hid, heq])
    simp only [hnone]

/-- A frame whose id a channel has goes to the pool. -/
theorem minerFrame_known {i : Inner} {frame : Sv2Frame} {c : Channel} (hc : c ∈ i.channels)
    (hid : readChannelId frame = some c.downChannelId) :
    (minerFrame frame i).1.active.toUp ≠ i.active.toUp := by
  have hsome : i.upForDown c.downChannelId ≠ none := fun hnone =>
    upForDown_eq_none.mp hnone c hc rfl
  obtain ⟨up, hup⟩ := Option.ne_none_iff_exists'.mp hsome
  unfold minerFrame
  simp only [hid, hup, Inner.sendUp]
  exact fun heq => by simpa using congrArg List.length heq

/-! ## The result -/

/-- What a member sends for a channel that is not its own is dropped exactly when no other
member's channel has the id. -/
theorem members_isolated {decode : Decoder} {lib : Sv1Library} {r r' : Rig} {member : Nat}
    {frame : Sv2Frame} (h : Reaches decode lib r)
    (hstep : step decode lib r (.minerFrame member frame) = some r') :
    (¬r.inner.Addresses member frame → Dropped r r') ↔ r.inner.SparesOthers member frame := by
  have hids := DownIds.of_reaches h
  simp only [step] at hstep
  split at hstep <;> cases hstep
  constructor
  · intro hdropped c hc hid
    by_contra hother
    have hforeign : ¬r.inner.Addresses member frame := by
      rintro ⟨c', hc', hid', howner⟩
      -- the id is the id of one channel
      have heq : c' = c := List.inj_on_of_nodup_map hids.downs hc' hc
        (Option.some.inj (hid'.symm.trans hid))
      exact hother (heq ▸ howner)
    have htoUp := (hdropped hforeign).toUp
    rw [Rig.submitted_inner] at htoUp
    exact minerFrame_known hc hid htoUp
  · intro hspares hforeign
    have hunknown : minerFrame frame r.inner = (r.inner, none) :=
      minerFrame_unknown fun c hc hid => hforeign ⟨c, hc, hid, hspares c hc hid⟩
    rw [hunknown]
    exact ⟨rfl, rfl, rfl, rfl, rfl⟩

/-! ## Two miners on one rig -/

/-- A share for a channel, as far as the relay reads it. -/
def shareFor (channelId : Nat) : Sv2Frame where
  msgType := .submitSharesExtended
  payload := leBytes 4 channelId ++ leBytes 4 0

/-- The first miner has channel 1 and the second one channel 2. -/
def twoMembers : List Event :=
  [.upstreamFrame 0 (openedFrame 1 10 0) 0, .attach (extendedOpen 8),
    .upstreamFrame 0 (openedFrame 2 11 0) 0]

/-- A share for a channel that nobody has. -/
theorem members_isolated_unknown :
    ∃ r r', Reaches wireDecoder plainLibrary r ∧ r.inner.channels.length = 2 ∧
      step wireDecoder plainLibrary r (.minerFrame 2 (shareFor 9)) = some r' ∧
      Dropped r r' := by
  obtain ⟨r, hr, hp⟩ := exists_of_idleRig (G := fun _ _ => True) twoMembers
    (p := fun r => decide (r.inner.channels.length = 2) &&
      r.inner.channels.all (fun c =>
        decide (readChannelId (shareFor 9) ≠ some c.downChannelId)) &&
      (step wireDecoder plainLibrary r (.minerFrame 2 (shareFor 9))).isSome)
    (by decide +kernel)
  simp only [Bool.and_eq_true, decide_eq_true_eq, List.all_eq_true] at hp
  obtain ⟨⟨htwo, hunknown⟩, hsome⟩ := hp
  obtain ⟨r', hstep⟩ := Option.isSome_iff_exists.mp hsome
  refine ⟨r, r', hr, htwo, hstep, ?_⟩
  refine (members_isolated hr hstep).mpr (fun c hc hid => absurd hid (hunknown c hc)) ?_
  rintro ⟨c, hc, hid, _⟩
  exact hunknown c hc hid

/-- The second miner submits a share for the channel of the first: it goes to the pool, and is
counted. -/
theorem foreign_share_counts :
    ∃ r r', Reaches wireDecoder plainLibrary r ∧
      step wireDecoder plainLibrary r (.minerFrame 2 (shareFor 1)) = some r' ∧
      ¬r.inner.Addresses 2 (shareFor 1) ∧
      r'.inner.submittedShares = r.inner.submittedShares + 1 ∧ ¬Dropped r r' := by
  obtain ⟨r, hr, hp⟩ := exists_of_idleRig (G := fun _ _ => True) twoMembers
    (p := fun r => !decide (r.inner.Addresses 2 (shareFor 1)) &&
      (step wireDecoder plainLibrary r (.minerFrame 2 (shareFor 1))).any fun r' =>
        decide (r'.inner.submittedShares = r.inner.submittedShares + 1))
    (by decide +kernel)
  simp only [Bool.and_eq_true, Bool.not_eq_true', decide_eq_false_iff_not, Option.any_eq_true,
    decide_eq_true_eq] at hp
  obtain ⟨hforeign, r', hstep, hcount⟩ := hp
  refine ⟨r, r', hr, hstep, hforeign, hcount, ?_⟩
  intro hdropped
  have hsame := hdropped.submitted
  omega

end RentalProxy.Sv2
