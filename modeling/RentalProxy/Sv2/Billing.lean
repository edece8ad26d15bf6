import RentalProxy.Sv2.Accounting
import RentalProxy.Sv1.Accounting
import RentalProxy.Lib.Shares

/-!
# The bill of an SV2 miner

A rig with one miner is put through the trace of a connection, behind an SV2 pool
(`driveNative`) and behind an SV1 pool (`driveTranslated`).

Both weigh accepted shares at the difficulty of the channel when the answer
comes: `native_simulates` and `translated_simulates` show that they credit the
bill and the drift of the ledger.
-/

namespace RentalProxy.Sv2

open StepSystem ShareLedger
open Sv1 (setDifficultyLine poolAnswer)

/-- The shares of a miner on an Extended channel, for one job. -/
structure MinerShares (decode : Decoder) (channelId jobId : Nat) where
  frame : Nat → Sv2Frame
  type : ∀ n, (frame n).msgType = .submitSharesExtended
  channel : ∀ n, readChannelId (frame n) = some channelId
  parse : ∀ n, ∃ share, shareOf decode (rewriteChannelId (frame n) channelId) = some share ∧
    share.jobId = jobId ∧ share.extranonce.isSome = true

/-- The shares in the binary format. -/
def wireShares (channelId jobId : Nat) :
    MinerShares wireDecoder (wireId channelId) (jobId % 2 ^ 32) where
  frame n := {
    msgType := .submitSharesExtended
    payload := leBytes 4 channelId ++ (leBytes 4 n ++ (leBytes 4 jobId ++
      (leBytes 4 0 ++ (leBytes 4 0 ++ (leBytes 4 0 ++ [0]))))) }
  type _ := rfl
  channel _ := readChannelId_leBytes ..
  parse n := by
    have hlen : (leBytes 4 channelId).length = 4 := leBytes_length 4 channelId
    refine ⟨{ channelId := wireId channelId % 256 ^ 4, sequenceNumber := n % 256 ^ 4
              jobId := jobId % 256 ^ 4, nonce := 0, ntime := 0, version := 0
              extranonce := some [] }, ?_, rfl, rfl⟩
    unfold rewriteChannelId
    rw [if_neg (by simp [hlen]), List.drop_left' hlen]
    simp only [shareOf, wireDecoder, Option.bind_eq_bind, takeNat_leBytes, Option.bind_some,
      takeBytes]
    rfl

/-! ## The difficulty of a channel -/

/-- The test does not look at the difficulty of a channel. -/
def IgnoresDifficulty (p : Channel → Bool) : Prop := ∀ c d, p { c with difficulty := d } = p c

theorem find?_setDifficulty {p : Channel → Bool} (hp : IgnoresDifficulty p) (d : Rat)
    (cs : List Channel) :
    (setDifficulty p d cs).find? p = (cs.find? p).map fun c => { c with difficulty := d } := by
  induction cs with
  | nil => rfl
  | cons c cs ih =>
    unfold setDifficulty
    by_cases hc : p c = true
    · simp [hc, hp c d]
    · simp only [hc, Bool.false_eq_true, if_false, List.find?_cons]
      exact ih

/-- The channels are found as before, up to their difficulty. -/
theorem SameChannels.find? {i i' : Inner} (h : SameChannels i i') {p : Channel → Bool}
    (hp : IgnoresDifficulty p) :
    (i'.channels.find? p).map Channel.identity = (i.channels.find? p).map Channel.identity := by
  have hfind : ∀ cs : List Channel,
      (cs.find? p).map Channel.identity = (cs.map Channel.identity).find? p := by
    intro cs
    have hcomp : p ∘ Channel.identity = p := funext fun c => hp c 0
    rw [List.find?_map, hcomp]
  rw [hfind, hfind, h]

/-- A channel has the difficulty that was set. -/
theorem difficultyOf_setDifficulty {p : Channel → Bool} (hp : IgnoresDifficulty p) (d : Rat)
    {i : Inner} (h : (i.channels.find? p).isSome = true) :
    ({ i with channels := setDifficulty p d i.channels } : Inner).difficultyOf p = d := by
  obtain ⟨c, hc⟩ := Option.isSome_iff_exists.mp h
  simp [Inner.difficultyOf, find?_setDifficulty hp, hc]

theorem minerFrame_deliveredWork (frame : Sv2Frame) (i : Inner) :
    (minerFrame frame i).1.deliveredWork = i.deliveredWork := by
  rcases minerFrame_cases frame i with h | ⟨n, up, h⟩ <;> rw [h]
  rfl

/-- Crediting keeps the channels. -/
theorem creditAccepted_channels (i : Inner) (now work : Rat) (count : Nat) :
    (i.creditAccepted now work count).1.channels = i.channels := by
  obtain ⟨_, _, _, _, h⟩ := creditAccepted_cases i now work count
  rw [h]

/-! ## Behind an SV2 pool -/

section Native

variable {decode : Decoder} {up cid jobId : Nat} (frames : PoolFrames decode up)
  (miner : MinerShares decode cid jobId) (lib : Sv1Library)

/-- What happens on a rig behind an SV2 pool. -/
def nativeEvents (g member n : Nat) (now : Rat) : ShareLedger.Event Target → List Event
  | .retarget t => [.upstreamFrame g (frames.setTarget t) now]
  | .submit => [.minerFrame member (miner.frame n)]
  | .accept shares => [.upstreamFrame g (frames.success (shares.foldl max 0) shares.length) now]
  | .reject k => [.upstreamFrame g (frames.error k) now]

/-- The rig takes one event of the trace. -/
def driveNative (g member n : Nat) (now : Rat) (e : ShareLedger.Event Target) (r : Rig) :
    Option Rig :=
  run (step decode lib) r (nativeEvents frames miner g member n now e)

/-- The channel behind an upstream id. -/
def ofUp (up : Nat) (c : Channel) : Bool := decide (c.upChannelId = up)

/-- A rig on the native upstream of this generation, with a channel of a member. -/
structure Native (g member up : Nat) (r : Rig) : Prop where
  generation : r.inner.active.generation = g
  translator : r.translator = none
  member : member ∈ r.inner.members
  channel : (r.inner.channels.find? (ofUp up)).isSome = true

/-- The rig follows the ledger: it has credited the bill and the drift. -/
structure BillsNative (g member up : Nat) (base : Rat) (l : Ledger Rat) (r : Rig) : Prop where
  rig : Native g member up r
  inForce : r.inner.difficultyOf (ofUp up) = l.inForce
  nonneg : 0 ≤ l.inForce
  work : r.inner.deliveredWork = base + (l.billed + l.drift)

/-- A frame of the active pool is processed. -/
theorem Native.run_frame {g member : Nat} {r : Rig} (h : Native g member up r)
    (decode : Decoder) (now : Rat) (frame : Sv2Frame) :
    ∃ r', run (step decode lib) r [.upstreamFrame g frame now] = some r' ∧
      r'.inner = (onUpstreamFrame decode now g frame r.inner).1 ∧ r'.translator = none := by
  have hguard : g = r.inner.active.generation → r.translator = none := fun _ => h.translator
  let r' := ({ r with inner := (onUpstreamFrame decode now g frame r.inner).1 }.credit
    (onUpstreamFrame decode now g frame r.inner).2.1).queue (.reader g)
      (onUpstreamFrame decode now g frame r.inner).2.2
  have hstep : step decode lib r (.upstreamFrame g frame now) = some r' := by
    simp only [step, if_pos hguard]
    rfl
  exact ⟨r', run_one hstep, rfl, h.translator⟩

/-- A frame that is routed to a channel. -/
theorem onUpstreamFrame_routed {now : Rat} {g : Nat} {frame : Sv2Frame} {i : Inner}
    (hg : g = i.active.generation) (hscoped : isChannelScoped frame.msgType = true)
    (hid : readChannelId frame = some up) :
    (onUpstreamFrame decode now g frame i).1 =
      (creditFrame decode now frame up (retarget decode frame up i)).1 := by
  have hopen : ¬(frame.msgType = .openExtendedMiningChannelSuccess ∨
      frame.msgType = .openStandardMiningChannelSuccess) := by
    rintro (h | h) <;> rw [h] at hscoped <;> cases hscoped
  have herror : frame.msgType ≠ .openMiningChannelError := by
    intro h
    rw [h] at hscoped
    cases hscoped
  simp only [onUpstreamFrame, hg, ne_eq, not_true, if_false, hopen, herror, hscoped, Bool.not_true,
    Bool.false_eq_true, hid]

/-- The rig after a step that keeps the upstream and the members. -/
theorem Native.of_sameRig {g member : Nat} {r r' : Rig} (h : Native g member up r)
    (hrig : SameRig r.inner r'.inner) (htranslator : r'.translator = none)
    (hchannel : (r'.inner.channels.find? (ofUp up)).isSome = true) : Native g member up r' where
  generation := hrig.upstream.generation.trans h.generation
  translator := htranslator
  member := by
    rw [hrig.members.members]
    exact h.member
  channel := hchannel

theorem ofUp_ignoresDifficulty (up : Nat) : IgnoresDifficulty (ofUp up) := fun _ _ => rfl

namespace BillsNative

variable {g member : Nat} {base : Rat} {l l' : Ledger Rat} {r : Rig}

/-- The target of the channel changes. -/
theorem on_retarget (h : BillsNative g member up base l r) (t : Target) (now : Rat) :
    ∃ r', run (step decode lib) r [.upstreamFrame g (frames.setTarget t) now] = some r' ∧
      BillsNative g member up base { l with inForce := t.difficulty } r' := by
  obtain ⟨r', hrun, hinner, htranslator⟩ := h.rig.run_frame lib decode now (frames.setTarget t)
  have htype := frames.setTarget_type t
  have hset : r'.inner = { r.inner with
      channels := setDifficulty (ofUp up) t.difficulty r.inner.channels } := by
    rw [hinner, onUpstreamFrame_routed h.rig.generation.symm (by rw [htype]; rfl)
      (frames.setTarget_channel t)]
    simp only [creditFrame, retarget, htype, frames.setTarget_parse t, if_true, reduceCtorEq,
      if_false]
    rfl
  have hchannel : (r'.inner.channels.find? (ofUp up)).isSome = true := by
    rw [hset, find?_setDifficulty (ofUp_ignoresDifficulty up), Option.isSome_map]
    exact h.rig.channel
  refine ⟨r', hrun, h.rig.of_sameRig ?_ htranslator hchannel, ?_,
    difficultyFromTarget_nonneg _, ?_⟩
  · rw [hset]
    exact setDifficulty_sameRig ..
  · rw [hset]
    exact difficultyOf_setDifficulty (ofUp_ignoresDifficulty up) _ h.rig.channel
  · rw [hset]
    exact h.work

/-- The miner submits a share. -/
theorem on_submit (h : BillsNative g member up base l r) :
    ∃ r', run (step decode lib) r [.minerFrame member (miner.frame l.submitted)] = some r' ∧
      BillsNative g member up base l.submit r' := by
  let inner := (minerFrame (miner.frame l.submitted) r.inner).1
  let r' := { r with inner }.submitted (minerFrame (miner.frame l.submitted) r.inner).2
  have hrun : step decode lib r (.minerFrame member (miner.frame l.submitted)) = some r' := by
    simp only [step, h.rig.member, if_true]
    rfl
  have hinner : r'.inner = inner := Rig.submitted_inner _ _
  have hchannels : inner.channels = r.inner.channels := minerFrame_channels _ _
  have hwork : inner.deliveredWork = r.inner.deliveredWork := minerFrame_deliveredWork _ _
  have hup := minerFrame_upstream (miner.frame l.submitted) r.inner
  have hmembers := minerFrame_members (miner.frame l.submitted) r.inner
  refine ⟨r', run_one hrun, ⟨?_, ?_, ?_, ?_⟩, ?_, h.nonneg, ?_⟩
  · rw [hinner]
    exact hup.generation.trans h.rig.generation
  · exact (SameTasks.submitted _ _).translator.trans h.rig.translator
  · rw [hinner, hmembers.members]
    exact h.rig.member
  · rw [hinner, hchannels]
    exact h.rig.channel
  · rw [hinner, Inner.difficultyOf, hchannels]
    exact h.inForce
  · rw [hinner, hwork]
    exact h.work

/-- The pool accepts shares, at the difficulty of the channel. -/
theorem on_accept (h : BillsNative g member up base l r) {shares : List Nat}
    (hfits : shares.length < 2 ^ 32) (hstep : shares.foldlM Ledger.accept l = some l')
    (now : Rat) :
    ∃ r', run (step decode lib) r
        [.upstreamFrame g (frames.success (shares.foldl max 0) shares.length) now] = some r' ∧
      BillsNative g member up base l' r' := by
  obtain ⟨hforce, _, hsettled⟩ := Ledger.accept_settled hstep
  let last := shares.foldl max 0
  obtain ⟨r', hrun, hinner, htranslator⟩ := h.rig.run_frame lib decode now
    (frames.success last shares.length)
  obtain ⟨seq, hparse⟩ := frames.success_parse last shares.length hfits
  have htype := frames.success_type last shares.length
  have hid := frames.success_channel last shares.length
  have hcount : (parseAcceptedCount decode (frames.success last shares.length)).getD 0 =
      shares.length := by rw [parseAcceptedCount_of_success hparse]; rfl
  have hretarget : retarget decode (frames.success last shares.length) up r.inner = r.inner :=
    retarget_other (by rw [htype]; decide) up r.inner
  have hcredit : r'.inner = (r.inner.creditAccepted now
      (r.inner.difficultyOf (ofUp up) * shares.length) shares.length).1 := by
    rw [hinner, onUpstreamFrame_routed h.rig.generation.symm (by rw [htype]; rfl) hid, hretarget]
    simp only [creditFrame, htype, if_true, hcount]
    rfl
  have hchannels : r'.inner.channels = r.inner.channels := by
    rw [hcredit, creditAccepted_channels]
  refine ⟨r', hrun, h.rig.of_sameRig ?_ htranslator ?_, ?_, ?_, ?_⟩
  · rw [hcredit]
    exact creditAccepted_sameRig ..
  · rw [hchannels]
    exact h.rig.channel
  · rw [Inner.difficultyOf, hchannels, hforce]
    exact h.inForce
  · rw [hforce]
    exact h.nonneg
  · have hnonneg : 0 ≤ l.inForce * shares.length :=
      mul_nonneg h.nonneg (Nat.cast_nonneg _)
    rw [hcredit, (creditAccepted_work r.inner now _ shares.length ∅ "").1, h.inForce,
      counted_of_nonneg hnonneg, h.work, hsettled, nsmul_eq_mul]
    ring

/-- The pool rejects a share, which the rig only passes on. -/
theorem on_reject (h : BillsNative g member up base l r) (k : Nat) (now : Rat) :
    ∃ r', run (step decode lib) r [.upstreamFrame g (frames.error k) now] = some r' ∧
      BillsNative g member up base { l with unanswered := l.unanswered.erase k } r' := by
  obtain ⟨r', hrun, hinner, htranslator⟩ := h.rig.run_frame lib decode now (frames.error k)
  have htype := frames.error_type k
  have hsame : r'.inner = r.inner := by
    rw [hinner, onUpstreamFrame_routed h.rig.generation.symm (by rw [htype]; rfl)
      (frames.error_channel k), retarget_other (by rw [htype]; decide)]
    simp [creditFrame, htype]
  refine ⟨r', hrun, h.rig.of_sameRig ?_ htranslator ?_, ?_, h.nonneg, ?_⟩ <;> rw [hsame]
  · exact .refl _
  · exact h.rig.channel
  · exact h.inForce
  · exact h.work

end BillsNative

/-- Behind an SV2 pool a rig credits the bill and the drift. -/
theorem native_simulates (g member : Nat) (base : Rat) :
    Simulates Target.difficulty (ShareLedger.Event.BatchBelow (2 ^ 32))
      (driveNative frames miner lib g member) (BillsNative g member up base) := by
  intro l l' r now e h hfits hstep
  cases e with
  | retarget t =>
    cases hstep
    exact h.on_retarget frames lib t now
  | submit =>
    cases hstep
    exact h.on_submit miner lib
  | accept shares => exact h.on_accept frames lib hfits hstep now
  | reject k =>
    simp only [Ledger.step] at hstep
    split at hstep <;> cases hstep
    exact h.on_reject frames lib k now

end Native

/-- A rig behind an SV2 pool, as it starts on its upstream at some difficulty. -/
structure NativeSession (inForce : Rat) where
  decode : Decoder
  lib : Sv1Library
  up : Nat
  /-- What the pool sends for the channel. -/
  frames : PoolFrames decode up
  cid : Nat
  jobId : Nat
  miner : MinerShares decode cid jobId
  generation : Nat
  member : Nat
  rig : Rig
  established : BillsNative generation member up rig.inner.deliveredWork (.fresh inForce) rig

namespace NativeSession

variable {inForce : Rat}

/-- The work that a trace adds to the rig. -/
def credited (s : NativeSession inForce) (trace : List (Rat × ShareLedger.Event Target)) :
    Option Rat :=
  (driveTrace (driveNative s.frames s.miner s.lib s.generation s.member) 0 trace s.rig).map
    fun r => r.inner.deliveredWork - s.rig.inner.deliveredWork

theorem credited_eq (s : NativeSession inForce) {trace : List (Rat × ShareLedger.Event Target)}
    {l : Ledger Rat} (hfits : ∀ te ∈ trace, te.2.BatchBelow (2 ^ 32))
    (htrace : run (Ledger.step Target.difficulty) (.fresh inForce) (trace.map Prod.snd) = some l) :
    s.credited trace = some (l.billed + l.drift) := by
  obtain ⟨r, hdrive, hbills⟩ := (native_simulates s.frames s.miner s.lib s.generation s.member
    s.rig.inner.deliveredWork).run s.established hfits htrace
  simp only [Ledger.fresh] at hdrive
  simp only [credited, hdrive, Option.map_some, hbills.work, add_sub_cancel_left]

end NativeSession

/-! ## Behind an SV1 pool -/

/-- What the SV1 library makes of the lines that concern shares. -/
structure ReadsLines (lib : Sv1Library) : Prop where
  difficulty : ∀ d, lib.notify (setDifficultyLine d) = none ∧
    lib.setDifficulty (setDifficultyLine d) = some d
  answer : ∀ line : RpcMessage, line.method = none →
    lib.notify line = none ∧ lib.setDifficulty line = none

section Translated

variable {decode : Decoder} {cid jobId : Nat} (miner : MinerShares decode cid jobId)
  (lib : Sv1Library)

/-- A line of the pool, and the calls that the reader makes for it. -/
def lineEvents (member calls : Nat) (now : Rat) (line : RpcMessage) : List Event :=
  .translateLine line :: List.replicate calls (.translateCall member now)

/-- What happens on a rig behind an SV1 pool.  The pool answers a share under the
id that the translator gave it. -/
def translatedEvents (member firstId n : Nat) (now : Rat) :
    ShareLedger.Event Target → List Event
  | .retarget t => lineEvents member 2 now (setDifficultyLine t.difficulty)
  | .submit => [.minerFrame member (miner.frame n), .translateWrite]
  | .accept shares => shares.flatMap fun k =>
    lineEvents member 2 now (poolAnswer (firstId + k) true)
  | .reject k => lineEvents member 1 now (poolAnswer (firstId + k) false)

/-- The rig takes one event of the trace. -/
def driveTranslated (member firstId n : Nat) (now : Rat) (e : ShareLedger.Event Target)
    (r : Rig) : Option Rig :=
  run (step decode lib) r (translatedEvents miner member firstId n now e)

/-- The channel behind a downstream id. -/
def ofDown (cid : Nat) (c : Channel) : Bool := decide (c.downChannelId = cid)

/-- A rig on a translated upstream whose one channel is a member's.  The translator
knows the job, and has nothing left to do. -/
structure Translated (member cid jobId : Nat) (s : Sv1UpState) (r : Rig) : Prop where
  translator : r.translator = some ⟨cid, s, [], r.inner.active.toUp.length⟩
  job : (s.jobMap.lookup jobId).isSome = true
  member : member ∈ r.inner.members
  channel : (r.inner.channels.find? (ofDown cid)).isSome = true
  upForDown : r.inner.upForDown cid = some cid

/-- The rig follows the ledger: the table of submits has the unanswered shares,
and the rig has credited the bill and the drift. -/
structure BillsTranslated (member cid jobId firstId : Nat) (base : Rat) (s : Sv1UpState)
    (l : Ledger Rat) (r : Rig) : Prop where
  rig : Translated member cid jobId s r
  nextId : s.nextSubmitId = firstId + l.submitted
  due : ∀ k, (s.submitSeq.lookup (firstId + k)).isSome = (l.unanswered.lookup k).isSome
  inForce : r.inner.difficultyOf (ofDown cid) = l.inForce
  nonneg : 0 ≤ l.inForce
  work : r.inner.deliveredWork = base + (l.billed + l.drift)

/-- The calls that one member sees. -/
def Inner.afterCall (cid : Nat) (now : Rat) (i : Inner) : SessionCall → Inner
  | .sendTranslateFrame _ => i
  | .setTranslateDiff diff => setTranslateDiff i.active.generation cid diff i
  | .creditTranslate => (creditTranslate now i.active.generation cid i).1

theorem translateCall_inner (r : Rig) (call : SessionCall) (cid member : Nat) (now : Rat) :
    (r.translateCall call cid member now).inner = r.inner.afterCall cid now call := by
  cases call <;> rfl

theorem ofDown_ignoresDifficulty (cid : Nat) : IgnoresDifficulty (ofDown cid) := fun _ _ => rfl

/-- Calls account; they leave the rig and its upstream alone. -/
theorem afterCall_same (i : Inner) (cid : Nat) (now : Rat) (call : SessionCall) :
    SameRig i (i.afterCall cid now call) ∧ (i.afterCall cid now call).active = i.active := by
  cases call with
  | sendTranslateFrame frame => exact ⟨.refl i, rfl⟩
  | setTranslateDiff diff =>
    refine ⟨setTranslateDiff_sameRig .., ?_⟩
    simp [Inner.afterCall, setTranslateDiff]
  | creditTranslate =>
    refine ⟨creditTranslate_sameRig .., ?_⟩
    obtain ⟨_, _, _, _, h⟩ := creditAccepted_cases i now
      (i.difficultyOf fun c => decide (c.downChannelId = cid)) 1
    simp [Inner.afterCall, creditTranslate, h]

/-- The reader makes the calls of a line. -/
theorem run_calls (decode : Decoder) (lib : Sv1Library) (member written : Nat) (now : Rat)
    (s : Sv1UpState) (calls : List SessionCall) {r : Rig}
    (htranslator : r.translator = some ⟨cid, s, calls, written⟩)
    (hmember : member ∈ r.inner.members) :
    ∃ r', run (step decode lib) r (List.replicate calls.length (.translateCall member now)) =
        some r' ∧
      r'.translator = some ⟨cid, s, [], written⟩ ∧
      r'.inner = calls.foldl (Inner.afterCall cid now) r.inner := by
  induction calls generalizing r with
  | nil => exact ⟨r, rfl, htranslator, rfl⟩
  | cons call calls ih =>
    let s' :=
      { r with translator := some ⟨cid, s, calls, written⟩ }.translateCall call cid member now
    have hguard : r.inner.members ≠ [] → member ∈ r.inner.members := fun _ => hmember
    have hstep : step decode lib r (.translateCall member now) = some s' := by
      simp only [step, htranslator, if_pos hguard]
      rfl
    have hinner : s'.inner = r.inner.afterCall cid now call := translateCall_inner ..
    have hmember' : member ∈ s'.inner.members := by
      rw [hinner, (afterCall_same r.inner cid now call).1.members.members]
      exact hmember
    obtain ⟨r', hrun, hdone, hinner'⟩ := ih (translateCall_sameTasks ..).translator hmember'
    refine ⟨r', ?_, hdone, by rw [hinner', hinner, List.foldl_cons]⟩
    simp only [List.length_cons, List.replicate_succ, run, hstep, Option.bind_some]
    exact hrun

/-- A line of the pool is taken and its calls are made. -/
theorem Translated.run_line {member : Nat} {s : Sv1UpState} {r : Rig}
    (h : Translated member cid jobId s r) (decode : Decoder) (lib : Sv1Library) (now : Rat)
    (line : RpcMessage) :
    ∃ r', run (step decode lib) r
        (lineEvents member (handleSv1Line lib cid line s).2.length now line) = some r' ∧
      r'.translator =
        some ⟨cid, (handleSv1Line lib cid line s).1, [], r.inner.active.toUp.length⟩ ∧
      r'.inner = (handleSv1Line lib cid line s).2.foldl (Inner.afterCall cid now) r.inner := by
  let r₀ : Rig := { r with
    translator := some ⟨cid, (handleSv1Line lib cid line s).1,
      (handleSv1Line lib cid line s).2, r.inner.active.toUp.length⟩ }
  have hstep : step decode lib r (.translateLine line) = some r₀ := by
    simp only [step, h.translator]
    rfl
  obtain ⟨r', hrun, hdone, hinner⟩ := run_calls decode lib member r.inner.active.toUp.length now
    (handleSv1Line lib cid line s).1 (handleSv1Line lib cid line s).2 (r := r₀) rfl h.member
  refine ⟨r', ?_, hdone, hinner⟩
  simp only [lineEvents, run, hstep, Option.bind_some]
  exact hrun

/-- The rig after the calls of a line that keeps the jobs. -/
theorem Translated.of_calls {member : Nat} {s s' : Sv1UpState} {r r' : Rig}
    (h : Translated member cid jobId s r) {calls : List SessionCall} {now : Rat}
    (htranslator : r'.translator = some ⟨cid, s', [], r.inner.active.toUp.length⟩)
    (hjobs : s'.jobMap = s.jobMap)
    (hinner : r'.inner = calls.foldl (Inner.afterCall cid now) r.inner) :
    Translated member cid jobId s' r' := by
  have hsame : ∀ (calls : List SessionCall) (i : Inner),
      SameRig i (calls.foldl (Inner.afterCall cid now) i) ∧
        (calls.foldl (Inner.afterCall cid now) i).active = i.active := by
    intro calls
    induction calls with
    | nil => exact fun i => ⟨.refl i, rfl⟩
    | cons call calls ih =>
      intro i
      obtain ⟨hrig, hactive⟩ := afterCall_same i cid now call
      obtain ⟨hrig', hactive'⟩ := ih (i.afterCall cid now call)
      exact ⟨hrig.trans hrig', hactive'.trans hactive⟩
  obtain ⟨hrig, hactive⟩ := hsame calls r.inner
  rw [← hinner] at hrig hactive
  refine ⟨by rw [htranslator, hactive], by rw [hjobs]; exact h.job, ?_, ?_, ?_⟩
  · rw [hrig.members.members]
    exact h.member
  · have hfind := congrArg Option.isSome (hrig.channels.find? (ofDown_ignoresDifficulty cid))
    rw [Option.isSome_map, Option.isSome_map] at hfind
    exact hfind.trans h.channel
  · have hfind := congrArg (Option.map Channel.upChannelId)
      (hrig.channels.find? (ofDown_ignoresDifficulty cid))
    rw [Option.map_map, Option.map_map] at hfind
    exact hfind.trans h.upForDown

/-- The calls for a new difficulty: the channel, and the target for the miner. -/
theorem handleSv1Line_difficulty {lib : Sv1Library} (hlib : ReadsLines lib) (cid : Nat) (d : Rat)
    (s : Sv1UpState) :
    ∃ frame, handleSv1Line lib cid (setDifficultyLine d) s =
      (s, [.setTranslateDiff d, .sendTranslateFrame frame]) := by
  obtain ⟨hnotify, hdiff⟩ := hlib.difficulty d
  refine ⟨.built (.setTarget cid (targetFromDifficulty d)), ?_⟩
  simp only [handleSv1Line, hnotify, hdiff, setTarget, u256, targetFromDifficulty_length, if_true,
    Option.map_some, Option.toList_some]

/-- The calls for the answer to a share. -/
theorem handleSv1Line_answer {lib : Sv1Library} (hlib : ReadsLines lib) (cid : Nat) {id seq : Nat}
    {s : Sv1UpState} (hseq : s.submitSeq.lookup id = some seq) (ok : Bool) :
    ∃ frame, handleSv1Line lib cid (poolAnswer id ok) s =
      ({ s with submitSeq := s.submitSeq.erase id },
        if ok then [.creditTranslate, .sendTranslateFrame frame]
        else [.sendTranslateFrame frame]) := by
  obtain ⟨hnotify, hdiff⟩ := hlib.answer (poolAnswer id ok) rfl
  have hid : (poolAnswer id ok).id.bind Value.asU64 = some id := rfl
  have hmethod : (poolAnswer id ok).method.isSome = false := rfl
  have hresult : (poolAnswer id ok).result = some (.bool ok) := rfl
  cases ok with
  | true =>
    refine ⟨.built (.submitSharesSuccess cid seq 1 1), ?_⟩
    simp [handleSv1Line, hnotify, hdiff, hmethod, translateResponse, hid, hseq, hresult]
  | false =>
    refine ⟨.built (.submitSharesError cid seq "rejected"), ?_⟩
    simp [handleSv1Line, hnotify, hdiff, hmethod, translateResponse, hid, hseq, hresult]

/-- Taking a share out of both tables. -/
private theorem due_erase {submitSeq : AList fun _ : Nat => Nat}
    {unanswered : AList fun _ : Nat => Rat} {firstId : Nat}
    (h : ∀ k, (submitSeq.lookup (firstId + k)).isSome = (unanswered.lookup k).isSome) (n k : Nat) :
    ((submitSeq.erase (firstId + n)).lookup (firstId + k)).isSome =
      ((unanswered.erase n).lookup k).isSome := by
  by_cases hk : k = n
  · subst hk
    rw [AList.lookup_erase, AList.lookup_erase]
    rfl
  · rw [AList.lookup_erase_ne (by omega), AList.lookup_erase_ne hk]
    exact h k

/-- Entering a share in both tables. -/
private theorem due_insert {submitSeq : AList fun _ : Nat => Nat}
    {unanswered : AList fun _ : Nat => Rat} {firstId : Nat}
    (h : ∀ k, (submitSeq.lookup (firstId + k)).isSome = (unanswered.lookup k).isSome) (n seq : Nat)
    (weight : Rat) (k : Nat) :
    ((submitSeq.insert (firstId + n) seq).lookup (firstId + k)).isSome =
      ((unanswered.insert n weight).lookup k).isSome := by
  by_cases hk : k = n
  · subst hk
    rw [AList.lookup_insert, AList.lookup_insert]
    rfl
  · rw [AList.lookup_insert_ne (by omega), AList.lookup_insert_ne hk]
    exact h k

/-- The answer to a share that is due. -/
theorem BillsTranslated.answer {lib : Sv1Library} (hlib : ReadsLines lib) (decode : Decoder)
    {member firstId k : Nat} {base : Rat} {s : Sv1UpState} {l l' : Ledger Rat} {r : Rig}
    (h : BillsTranslated member cid jobId firstId base s l r)
    (hdue : (l.unanswered.lookup k).isSome = true) (now : Rat) (ok : Bool)
    (hforce : l'.inForce = l.inForce) (hsubmitted : l'.submitted = l.submitted)
    (hunanswered : l'.unanswered = l.unanswered.erase k)
    (hsettled : l'.billed + l'.drift = l.billed + l.drift + if ok then l.inForce else 0) :
    ∃ r', run (step decode lib) r
        (lineEvents member (if ok then 2 else 1) now (poolAnswer (firstId + k) ok)) = some r' ∧
      ∃ s', BillsTranslated member cid jobId firstId base s' l' r' := by
  obtain ⟨seq, hseq⟩ := Option.isSome_iff_exists.mp ((h.due k).trans hdue)
  obtain ⟨frame, hcalls⟩ := handleSv1Line_answer hlib cid hseq ok
  obtain ⟨r', hrun, htranslator, hinner⟩ :=
    h.rig.run_line decode lib now (poolAnswer (firstId + k) ok)
  rw [hcalls] at hrun htranslator hinner
  have hrig := h.rig.of_calls htranslator rfl hinner
  have hdue' : ∀ n, ((s.submitSeq.erase (firstId + k)).lookup (firstId + n)).isSome =
      (l'.unanswered.lookup n).isSome := by
    rw [hunanswered]
    exact due_erase h.due k
  have hnext : s.nextSubmitId = firstId + l'.submitted := by rw [hsubmitted, h.nextId]
  cases ok with
  | true =>
    have hcredit : r'.inner =
        (r.inner.creditAccepted now (r.inner.difficultyOf (ofDown cid)) 1).1 := by
      rw [hinner]
      simp only [if_true, List.foldl_cons, List.foldl_nil, Inner.afterCall, creditTranslate,
        ne_eq, not_true, if_false]
      rfl
    refine ⟨r', hrun, _, hrig, hnext, hdue', ?_, hforce ▸ h.nonneg, ?_⟩
    · rw [hcredit, Inner.difficultyOf, creditAccepted_channels, hforce]
      exact h.inForce
    · rw [hcredit, (creditAccepted_work r.inner now _ 1 ∅ "").1, h.inForce,
        counted_of_nonneg h.nonneg, h.work, hsettled, if_pos rfl, add_assoc]
  | false =>
    have hsame : r'.inner = r.inner := hinner
    refine ⟨r', hrun, _, hrig, hnext, hdue', ?_, hforce ▸ h.nonneg, ?_⟩
    · rw [hsame, hforce]
      exact h.inForce
    · rw [hsame, h.work, hsettled, if_neg Bool.false_ne_true, add_zero]

/-- A share of the miner crosses to the pool. -/
theorem BillsTranslated.submit (lib : Sv1Library) {member firstId : Nat} {base : Rat}
    {s : Sv1UpState} {l : Ledger Rat} {r : Rig}
    (h : BillsTranslated member cid jobId firstId base s l r) :
    ∃ r', run (step decode lib) r [.minerFrame member (miner.frame l.submitted), .translateWrite] =
        some r' ∧
      ∃ s', BillsTranslated member cid jobId firstId base s' l.submit r' := by
  obtain ⟨share, hshare, hjob, hextranonce⟩ := miner.parse l.submitted
  obtain ⟨extranonce, hextranonce⟩ := Option.isSome_iff_exists.mp hextranonce
  have hknown : (s.jobMap.lookup share.jobId).isSome = true := by
    rw [hjob]
    exact h.rig.job
  obtain ⟨info, hinfo⟩ := Option.isSome_iff_exists.mp hknown
  let sent := rewriteChannelId (miner.frame l.submitted) cid
  let inner :=
    { r.inner with submittedShares := r.inner.submittedShares + 1 }.sendUp (.received sent)
  let s' := { s with
    nextSubmitId := s.nextSubmitId + 1
    submitSeq := s.submitSeq.insert s.nextSubmitId share.sequenceNumber }
  have hminer :
      minerFrame (miner.frame l.submitted) r.inner = (inner, r.inner.routing.orderId?) := by
    simp [minerFrame, miner.channel, miner.type, h.rig.upForDown, inner, sent]
  let r₁ := { r with inner }.submitted r.inner.routing.orderId?
  have hfirst : step decode lib r (.minerFrame member (miner.frame l.submitted)) = some r₁ := by
    simp only [step, h.rig.member, if_true, hminer]
    rfl
  have hinner₁ : r₁.inner = inner := Rig.submitted_inner _ _
  have htranslator₁ : r₁.translator = some ⟨cid, s, [], r.inner.active.toUp.length⟩ :=
    (SameTasks.submitted _ _).translator.trans h.rig.translator
  have htaken : r₁.inner.active.toUp[r.inner.active.toUp.length]? = some (.received sent) := by
    rw [hinner₁]
    exact List.getElem?_concat_length
  have hwritten : (translateSubmit decode sent s).1 = s' := by
    simp [translateSubmit, hshare, hinfo, hextranonce, sent, s']
  have hsecond : step decode lib r₁ .translateWrite = some { r₁ with
      translator := some ⟨cid, s', [], r.inner.active.toUp.length + 1⟩ } := by
    simp only [step, htranslator₁, htaken, hwritten]
  have hlength : inner.active.toUp.length = r.inner.active.toUp.length + 1 :=
    List.length_append
  refine ⟨{ r₁ with translator := some ⟨cid, s', [], r.inner.active.toUp.length + 1⟩ }, ?_, s',
    ⟨?_, h.rig.job, ?_, ?_, ?_⟩, ?_, ?_, ?_, h.nonneg, ?_⟩
  · simp only [run, hfirst, hsecond, Option.bind_some]
  · simp only [hinner₁, hlength]
  · rw [hinner₁]
    exact h.rig.member
  · rw [hinner₁]
    exact h.rig.channel
  · rw [hinner₁]
    exact h.rig.upForDown
  · simp only [s', h.nextId, Ledger.submit, Nat.add_assoc]
  · simp only [s', h.nextId]
    exact due_insert h.due l.submitted share.sequenceNumber l.inForce
  · rw [hinner₁]
    exact h.inForce
  · rw [hinner₁]
    exact h.work

/-- Behind an SV1 pool a rig credits the bill and the drift. -/
theorem translated_simulates {lib : Sv1Library} (hlib : ReadsLines lib) (member firstId : Nat)
    (base : Rat) :
    Simulates Target.difficulty (ShareLedger.Event.BatchBelow (2 ^ 32))
      (driveTranslated miner lib member firstId)
      (fun l r => ∃ s, BillsTranslated member cid jobId firstId base s l r) := by
  rintro l l' r now e ⟨s, h⟩ _ hstep
  cases e with
  | retarget t =>
    cases hstep
    obtain ⟨frame, hcalls⟩ := handleSv1Line_difficulty hlib cid t.difficulty s
    obtain ⟨r', hrun, htranslator, hinner⟩ :=
      h.rig.run_line decode lib now (setDifficultyLine t.difficulty)
    rw [hcalls] at hrun htranslator hinner
    have hset : r'.inner = { r.inner with
        channels := setDifficulty (ofDown cid) t.difficulty r.inner.channels } := by
      rw [hinner]
      simp only [List.foldl_cons, List.foldl_nil, Inner.afterCall, setTranslateDiff, ne_eq,
        not_true, if_false]
      rfl
    refine ⟨r', hrun, s, h.rig.of_calls htranslator rfl hinner, h.nextId, h.due, ?_,
      difficultyFromTarget_nonneg _, ?_⟩
    · rw [hset]
      exact difficultyOf_setDifficulty (ofDown_ignoresDifficulty cid) _ h.rig.channel
    · rw [hset]
      exact h.work
  | submit =>
    cases hstep
    exact h.submit miner lib
  | accept shares =>
    refine simulates_each (R := fun l r => ∃ s, BillsTranslated member cid jobId firstId base s l r)
      ?_ ⟨s, h⟩ hstep
    rintro l l' r k ⟨s, hR⟩ haccept
    obtain ⟨weight, hdue, rfl⟩ := Option.map_eq_some_iff.mp haccept
    refine hR.answer hlib decode (by rw [hdue]; rfl) now true rfl rfl rfl ?_
    simp only [if_true]
    ring
  | reject k =>
    simp only [Ledger.step] at hstep
    split at hstep
    · rename_i hdue
      cases hstep
      exact h.answer hlib decode hdue now false rfl rfl rfl (by simp)
    · cases hstep

end Translated

/-- A rig behind an SV1 pool, as it starts on its upstream at some difficulty. -/
structure TranslatedSession (inForce : Rat) where
  decode : Decoder
  lib : Sv1Library
  reads : ReadsLines lib
  cid : Nat
  jobId : Nat
  miner : MinerShares decode cid jobId
  member : Nat
  /-- The id that the translator gives the first share. -/
  firstId : Nat
  state : Sv1UpState
  rig : Rig
  established :
    BillsTranslated member cid jobId firstId rig.inner.deliveredWork state (.fresh inForce) rig

namespace TranslatedSession

variable {inForce : Rat}

/-- The work that a trace adds to the rig. -/
def credited (s : TranslatedSession inForce) (trace : List (Rat × ShareLedger.Event Target)) :
    Option Rat :=
  (driveTrace (driveTranslated s.miner s.lib s.member s.firstId) 0 trace s.rig).map
    fun r => r.inner.deliveredWork - s.rig.inner.deliveredWork

theorem credited_eq (s : TranslatedSession inForce)
    {trace : List (Rat × ShareLedger.Event Target)} {l : Ledger Rat}
    (hfits : ∀ te ∈ trace, te.2.BatchBelow (2 ^ 32))
    (htrace : run (Ledger.step Target.difficulty) (.fresh inForce) (trace.map Prod.snd) = some l) :
    s.credited trace = some (l.billed + l.drift) := by
  obtain ⟨r, hdrive, _, hbills⟩ := (translated_simulates s.miner s.reads s.member s.firstId
    s.rig.inner.deliveredWork).run ⟨s.state, s.established⟩ hfits htrace
  simp only [Ledger.fresh] at hdrive
  simp only [credited, hdrive, Option.map_some, hbills.work, add_sub_cancel_left]

end TranslatedSession

end RentalProxy.Sv2
