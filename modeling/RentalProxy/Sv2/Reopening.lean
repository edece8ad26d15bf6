import RentalProxy.Lib.SelectiveReceive
import RentalProxy.Sv2.Table

/-!
# Re-opening the channels on a new pool

A swap opens the channels of its snapshot one after another on the connection to the new pool.
While it waits for the OpenSuccess of one channel the pool already sends work for those before
it.  `open_on` keeps these frames, and the steady reader of the connection replays them before it
reads on.

* `openOn` and `reopenChannels` are the loops, `spawnUpstreamReader` what the reader hands to
  `on_upstream_frame`.
* `reopenChannels_answered` says what the loop keeps and binds, `installNative_tables` what the
  tables of the ids bind.
* `reopen_loses_no_frame` is the result, for the swap of a rig.
-/

namespace RentalProxy.Sv2

open SelectiveReceive

variable (decode : Decoder)

/-! ## The loops -/

/-- How the wait for an open ends with a frame of the pool: with the channel, or with an error.
Any other frame is kept. -/
def openReply (frame : Sv2Frame) : Option (Option ChannelInfo) :=
  if frame.isOpenSuccess then some (parseOpenSuccess decode frame)
  else if frame.msgType = .openMiningChannelError then some none
  else none

/-- `open_on`, against the frames that the pool has still to send.  The open goes out under the
request id of the miner. -/
def openOn (spec : OpenSpec) (account : String) (deferred frames : List Sv2Frame) :
    Option (ChannelInfo × List Sv2Frame × List Sv2Frame) :=
  match openChannelUpstream spec account spec.requestId with
  | none => none
  | some _ =>
    match await (openReply decode) deferred frames with
    | some (some info, deferred, frames) => some (info, deferred, frames)
    | _ => none

/-- The loop of `swap_upstream`: the channels with what the pool opened for them, the frames that
were kept, and the frames that are still to come. -/
def reopenChannels (account : String) : List Reopen → (deferred frames : List Sv2Frame) →
    Option (List (Reopen × ChannelInfo) × List Sv2Frame × List Sv2Frame)
  | [], deferred, frames => some ([], deferred, frames)
  | r :: rs, deferred, frames => do
    let (info, deferred, frames) ← openOn decode r.spec account deferred frames
    let (opened, deferred, frames) ← reopenChannels account rs deferred frames
    some ((r, info) :: opened, deferred, frames)

/-- What `spawn_upstream_reader` hands to `on_upstream_frame`: the frames that were kept, and
then what it reads. -/
def spawnUpstreamReader (generation : Nat) (deferred read : List Sv2Frame) :
    List (Nat × Sv2Frame) :=
  deferred.map (generation, ·) ++ read.map (generation, ·)

variable {decode}

/-! ## What the loop keeps -/

theorem isOpenSuccess_of_kept {frame : Sv2Frame} (h : openReply decode frame = none) :
    frame.isOpenSuccess = false := by
  unfold openReply at h
  split at h
  · cases h
  · simpa using ‹¬frame.isOpenSuccess = true›

theorem isOpenSuccess_of_answer {frame : Sv2Frame} {info : ChannelInfo}
    (h : openReply decode frame = some (some info)) :
    frame.isOpenSuccess = true ∧ parseOpenSuccess decode frame = some info := by
  unfold openReply at h
  split at h
  · rename_i hopen
    exact ⟨hopen, Option.some.inj h⟩
  · split at h <;> cases h

/-- A pool that answers every re-open: the loop ends, nothing is lost and nothing changes places,
and every channel is bound to its own success. -/
theorem reopenChannels_answered {account : String} {rs : List Reopen}
    {frames : List Sv2Frame} (deferred : List Sv2Frame)
    (hbuilt : ∀ r ∈ rs, (openChannelUpstream r.spec account r.spec.requestId).isSome = true)
    (hanswers : Answers (openReply decode) rs.length frames) :
    ∃ opened deferred' read,
      reopenChannels decode account rs deferred frames = some (opened, deferred', read) ∧
      deferred' ++ read = deferred ++ (List.eraseP Sv2Frame.isOpenSuccess)^[rs.length] frames ∧
      opened.map Prod.fst = rs ∧
      opened.map (fun p => some p.2) =
        ((frames.filter Sv2Frame.isOpenSuccess).take rs.length).map (parseOpenSuccess decode) := by
  induction rs generalizing deferred frames with
  | nil => exact ⟨[], deferred, frames, rfl, rfl, rfl, rfl⟩
  | cons r rs ih =>
    obtain ⟨info, kept, rest, hawait, hrest⟩ := hanswers.await deferred
    obtain ⟨opened, deferred', read, hloop, hreplay, hchannels, hinfos⟩ :=
      ih kept (fun s hs => hbuilt s (List.mem_cons_of_mem _ hs)) hrest
    obtain ⟨frame, hframe⟩ := Option.isSome_iff_exists.mp (hbuilt r List.mem_cons_self)
    have hopen : openOn decode r.spec account deferred frames = some (info, kept, rest) := by
      simp only [openOn, hframe, hawait]
    have hended : ∀ f, openReply decode f = some (some info) → f.isOpenSuccess = true :=
      fun f hf => (isOpenSuccess_of_answer hf).1
    obtain ⟨success, hsuccess, hfilter⟩ :=
      await_filter (fun f hf => isOpenSuccess_of_kept hf) hended hawait
    refine ⟨(r, info) :: opened, deferred', read, ?_, ?_, ?_, ?_⟩
    · simp only [reopenChannels, hopen, hloop, Option.bind_eq_bind, Option.bind_some]
    · rw [hreplay]
      exact await_replay (fun f hf => isOpenSuccess_of_kept hf) hended hawait _
    · rw [List.map_cons, hchannels]
    · rw [List.map_cons, hinfos, hfilter, List.length_cons, List.take_succ_cons, List.map_cons,
        (isOpenSuccess_of_answer hsuccess).2]

/-! ## The result -/

/-- The channel of the miner that is behind this id of the pool. -/
def channelUnder (up : Nat) (p : Reopen × ChannelInfo) : Option Nat :=
  if p.2.upChannelId = up then some p.1.downChannelId else none

/-- The group of the miner that is behind this group of the pool. -/
def groupUnder (group : Nat) (p : Reopen × ChannelInfo) : Option Nat :=
  if (reopenGroup p.1.spec p.2 ≠ 0 ∧ p.1.downGroupId ≠ 0) ∧ reopenGroup p.1.spec p.2 = group then
    some p.1.downGroupId
  else none

/-- The tables of the install lead from the ids of the successes to the channels and the groups
that they were for. -/
theorem installNative_tables (generation : Nat) (target : UpstreamTarget) (routing : Routing)
    (opened : List (Reopen × ChannelInfo)) (i : Inner) :
    (∀ up, (installNative generation target routing opened i).1.upToDown.lookup up =
        Log.latest (channelUnder up) opened) ∧
      ∀ group, (installNative generation target routing opened i).1.groupDown.lookup group =
        Log.latest (groupUnder group) opened := by
  constructor
  · intro up
    have hlookup := KeyedTable.lookup_foldl_insert_latest (p := fun _ => True)
      (fun p : Reopen × ChannelInfo => p.2.upChannelId) (fun p => p.1.downChannelId) opened ∅ up
    simp only [if_true, true_and, AList.lookup_empty, Option.or_none] at hlookup
    exact hlookup
  · intro group
    have hlookup := KeyedTable.lookup_foldl_insert_latest
      (p := fun p : Reopen × ChannelInfo => reopenGroup p.1.spec p.2 ≠ 0 ∧ p.1.downGroupId ≠ 0)
      (fun p => reopenGroup p.1.spec p.2) (fun p => p.1.downGroupId) opened ∅ group
    rw [AList.lookup_empty, Option.or_none] at hlookup
    exact hlookup

/-- The pool answers every re-open of a swap, with other frames before, between and after the
successes.  The swap installs, with the channels and the tables of the ids bound to the successes in
order; and what the reader hands to `on_upstream_frame`, under the generation that is active then,
is what the pool sent without these successes. -/
theorem reopen_loses_no_frame {lib : Sv1Library} {r : Rig} {plan : SwapPlan}
    {frames : List Sv2Frame} (hswap : r.swap = .connecting plan) (hbuilt : plan.canReopen = true)
    (hanswers : Answers (openReply decode) plan.snapshot.specs.length frames) :
    ∃ opened deferred read r',
      reopenChannels decode plan.identity plan.snapshot.specs [] frames =
        some (opened, deferred, read) ∧
      step decode lib r (.swapReopened (opened.map Prod.snd)) = some r' ∧
      spawnUpstreamReader r'.inner.active.generation deferred read =
        ((List.eraseP Sv2Frame.isOpenSuccess)^[plan.snapshot.specs.length] frames).map
          (plan.snapshot.generation, ·) ∧
      r'.inner.channels = opened.map (fun p => reopened p.1 p.2) ∧
      (∀ up, r'.inner.upToDown.lookup up = Log.latest (channelUnder up) opened) ∧
      (∀ group, r'.inner.groupDown.lookup group = Log.latest (groupUnder group) opened) ∧
      opened.map Prod.fst = plan.snapshot.specs ∧
      opened.map (fun p => some p.2) = ((frames.filter Sv2Frame.isOpenSuccess).take
        plan.snapshot.specs.length).map (parseOpenSuccess decode) := by
  have hopens : ∀ s ∈ plan.snapshot.specs,
      (openChannelUpstream s.spec plan.identity s.spec.requestId).isSome = true :=
    List.all_eq_true.mp hbuilt
  obtain ⟨opened, deferred, read, hloop, hreplay, hchannels, hinfos⟩ :=
    reopenChannels_answered [] hopens hanswers
  have hlength : (opened.map Prod.snd).length = plan.snapshot.specs.length := by
    rw [← hchannels, List.length_map, List.length_map]
  have hzip : plan.snapshot.specs.zip (opened.map Prod.snd) = opened :=
    (List.zip_of_prod hchannels rfl).symm
  obtain ⟨hupToDown, hgroupDown⟩ := installNative_tables plan.snapshot.generation plan.target
    plan.routing opened r.inner
  have hinner : (r.swapNative plan (opened.map Prod.snd)).inner =
      (installNative plan.snapshot.generation plan.target plan.routing opened r.inner).1 := by
    rw [Rig.swapNative, hzip]
  refine ⟨opened, deferred, read, r.swapNative plan (opened.map Prod.snd), hloop, ?_, ?_, ?_,
    hinner ▸ hupToDown, hinner ▸ hgroupDown, hchannels, hinfos⟩
  · simp only [step, hswap, hlength, hbuilt, true_and, if_true]
  · rw [spawnUpstreamReader, ← List.map_append, hreplay, List.nil_append]
    rfl
  · rw [hinner]
    rfl

/-- The swap of a rig with two channels is connecting. -/
def twoChannels : List Event :=
  [.upstreamFrame 0 (openedFrame 1 10 0) 0, .attach (extendedOpen 8),
    .upstreamFrame 0 (openedFrame 2 11 0) 0, .createOrder buyerOrder,
    .swapOrder .retry "o1" false]

/-- The job of the first channel comes before the success of the second. -/
def framesOfTwo : List Sv2Frame :=
  [openedFrame 7 30 0, jobFrame 30, openedFrame 8 31 0, jobFrame 31]

/-- The connected pool is to open the channels of two miners. -/
def reopensTwo (r : Rig) : Bool :=
  match r.swap with
  | .connecting plan => plan.canReopen && decide (plan.snapshot.specs.length = 2)
  | _ => false

theorem reopen_loses_no_frame_two :
    ∃ r plan r' opened deferred read, Reaches wireDecoder plainLibrary r ∧
      r.swap = .connecting plan ∧ plan.snapshot.specs.length = 2 ∧
      step wireDecoder plainLibrary r (.swapReopened (opened.map Prod.snd)) = some r' ∧
      reopenChannels wireDecoder plan.identity plan.snapshot.specs [] framesOfTwo =
        some (opened, deferred, read) ∧
      spawnUpstreamReader r'.inner.active.generation deferred read =
        [jobFrame 30, jobFrame 31].map (plan.snapshot.generation, ·) := by
  obtain ⟨r, hr, hp⟩ := exists_of_idleRig (G := fun _ _ => True) twoChannels
    (p := reopensTwo) (by decide +kernel)
  unfold reopensTwo at hp
  split at hp
  · rename_i plan hswap
    simp only [Bool.and_eq_true, decide_eq_true_eq] at hp
    obtain ⟨hbuilt, hlength⟩ := hp
    have hanswers : Answers (openReply wireDecoder) plan.snapshot.specs.length framesOfTwo := by
      rw [hlength]
      exact .answer rfl (.other rfl (.answer rfl (.done _)))
    obtain ⟨opened, deferred, read, r', hloop, hstep, hhanded, _⟩ :=
      @reopen_loses_no_frame _ plainLibrary _ _ _ hswap hbuilt hanswers
    rw [hlength] at hhanded
    exact ⟨r, plan, r', opened, deferred, read, hr, hswap, hlength, hstep, hloop, hhanded⟩
  · cases hp

end RentalProxy.Sv2
