import RentalProxy.Sv2.Swaps
import RentalProxy.Sv2.Table
import RentalProxy.ConnectFailover

/-!
# A failed switch

The callers of a switch take an error for a switch that did not happen: they try the fallback,
or again later.  The error can come after the install, though.  A re-point frame that cannot be
built, for an SV1 pool with an extranonce1 of more than 32 bytes, ends a swap that has installed
the pool; and the first open of a session is built after the pool was installed.

* `Inner.switchState` is what a switch is about.  `SwapLog` keeps what the steps of the swap
  itself did to it, and `SwapsUntouched` says that a swap that failed did nothing.
* `RepointsBuild` is the condition on an install.
* `failed_switch_changes_nothing` is the result: for the tasks of a rig, and for the calls
  `swapUpstream` and `connectAndInstallInitial` the exact condition.
-/

namespace RentalProxy.Sv2

open StepSystem
open Sv1 (upstreamWorker)

variable (decode : Decoder) (lib : Sv1Library)

/-! ## What a switch is about -/

/-- The upstream, where it leads, and the channels on it. -/
structure SwitchState where
  active : ActiveUpstream
  routing : Routing
  translating : Bool
  channels : List Channel
  upToDown : AList fun _ : Nat => Nat
  groupDown : AList fun _ : Nat => Nat
  pending : AList fun _ : Nat => Nat × OpenSpec

def Inner.switchState (i : Inner) : SwitchState where
  active := i.active
  routing := i.routing
  translating := i.translating
  channels := i.channels
  upToDown := i.upToDown
  groupDown := i.groupDown
  pending := i.pending

/-- The step is one of a swap. -/
def Event.ofSwap : Event → Bool
  | .swapOrder .. | .swapRevert _ | .swapFailed | .swapReopened _ | .swapNotSv2
  | .swapTranslated _ | .swapSend => true
  | _ => false

/-- What the steps of the swaps did: each is the state before it and the state after it. -/
structure SwapLog where
  /-- The steps of the swap that is under way. -/
  own : List (SwitchState × SwitchState)
  /-- The steps of the swaps that returned an error. -/
  failed : List (List (SwitchState × SwitchState))

/-- The log after a step.  A swap that ends without having sent all its frames returns an
error. -/
def noteSwap (r : Rig) (e : Event) (log : SwapLog) : SwapLog :=
  match step decode lib r e with
  | some r' =>
    if e.ofSwap then
      let own := (if r.swap.isIdle then [] else log.own) ++
        [(r.inner.switchState, r'.inner.switchState)]
      { own, failed := if r'.swap.isIdle && !r.swap.returning then log.failed ++ [own]
                       else log.failed }
    else log
  | none => log

/-- Every swap that returned an error left the state as it was. -/
def SwapsUntouched (log : SwapLog) : Prop := ∀ own ∈ log.failed, ∀ p ∈ own, p.2 = p.1

/-- The condition on an install: the frames that re-point the channels can be built.  The format
of the messages sees to it for a pool that speaks SV2. -/
def RepointsBuild (r : Rig) : Event → Prop
  | .swapReopened infos => match r.swap with
    | .connecting plan => ∀ p ∈ plan.snapshot.specs.zip infos, p.1.owner ∈ plan.snapshot.members →
        p.2.extranoncePrefix.length ≤ 32 ∧ p.2.target.length = 32
    | _ => True
  | .swapTranslated lines => match r.swap with
    | .translating _ channel members => channel.owner ∈ members →
        ∀ conn ∈ connectSv1Upstream lib lines, conn.extranonce1.length ≤ 32
    | _ => True
  | _ => True

instance (r : Rig) : DecidablePred (RepointsBuild lib r) := fun e => by
  rcases e with _ | _ <;> dsimp only [RepointsBuild] <;> try infer_instance
  all_goals rcases r.swap with _ | _ <;> infer_instance

variable {decode lib}

/-! ## The swap of a rig -/

/-- What is known of the swap that is under way: it has changed nothing while it connects, and
sends only frames that can be built once it has installed. -/
structure SwapSafe (r : Rig) (log : SwapLog) : Prop where
  failed : SwapsUntouched log
  own : ∀ plan, r.swap.Connecting plan → ∀ p ∈ log.own, p.2 = p.1
  built : ∀ s ∈ r.swap.todo, s.frame.isSome = true

theorem noteSwap_of_step {r r' : Rig} {e : Event} {log : SwapLog}
    (hstep : step decode lib r e = some r') (he : e.ofSwap = true) :
    (noteSwap decode lib r e log).own = (if r.swap.isIdle then [] else log.own) ++
        [(r.inner.switchState, r'.inner.switchState)] ∧
      (noteSwap decode lib r e log).failed =
        if r'.swap.isIdle && !r.swap.returning then
          log.failed ++ [(noteSwap decode lib r e log).own] else log.failed := by
  simp only [noteSwap, hstep, he, if_true, and_self]

theorem noteSwap_of_other {r : Rig} {e : Event} {log : SwapLog} (he : e.ofSwap = false) :
    noteSwap decode lib r e log = log := by
  unfold noteSwap
  split
  · rw [he]
    rfl
  · rfl

/-- No other task moves the swap. -/
theorem swap_of_other {r r' : Rig} {e : Event} (hstep : step decode lib r e = some r')
    (he : e.ofSwap = false) : r'.swap = r.swap := by
  cases e with
  | swapOrder | swapRevert | swapFailed | swapReopened | swapNotSv2 | swapTranslated | swapSend =>
    cases he
  | attach spec =>
    obtain ⟨_, _, rfl⟩ := Option.map_eq_some_iff.mp hstep
    rfl
  | minerFrame member frame =>
    simp only [step] at hstep
    split at hstep <;> cases hstep
    exact (SameTasks.submitted _ _).swap
  | translateLine line =>
    simp only [step] at hstep
    split at hstep <;> cases hstep
    rfl
  | translateCall member now =>
    simp only [step] at hstep
    split at hstep
    · split at hstep <;> cases hstep
      exact (translateCall_sameTasks ..).swap
    · cases hstep
  | translateWrite =>
    simp only [step] at hstep
    split at hstep
    · split at hstep <;> cases hstep
      rfl
    · cases hstep
  | createOrder order =>
    obtain ⟨_, _, rfl⟩ := Option.map_eq_some_iff.mp hstep
    rfl
  | cancelOrder id now =>
    obtain ⟨_, _, rfl⟩ := Option.map_eq_some_iff.mp hstep
    rfl
  | expireOrders | flushOrders | setSeller =>
    cases hstep
    rfl
  | openChannel | detach | upstreamFrame | reconnect =>
    simp only [step] at hstep
    split at hstep <;> cases hstep
    rfl

namespace SwapSafe

variable {r r' : Rig} {log : SwapLog} {e : Event}

/-- A step of the swap.  One that connects on, or returns an error, must come before the install
and change nothing. -/
theorem note (h : SwapSafe r log) (hstep : Sv2.step decode lib r e = some r')
    (he : e.ofSwap = true)
    (hquiet : (r'.swap.isIdle = true ∧ r.swap.returning = false) ∨
        (∃ plan, r'.swap.Connecting plan) →
      (r.swap = .idle ∨ ∃ plan, r.swap.Connecting plan) ∧
        r'.inner.switchState = r.inner.switchState)
    (hbuilt : ∀ s ∈ r'.swap.todo, s.frame.isSome = true) :
    SwapSafe r' (noteSwap decode lib r e log) := by
  obtain ⟨hown, hfailed⟩ : (noteSwap decode lib r e log).own = _ ∧
      (noteSwap decode lib r e log).failed = _ := noteSwap_of_step hstep he
  have hsame : (r'.swap.isIdle = true ∧ r.swap.returning = false) ∨
      (∃ plan, r'.swap.Connecting plan) →
        ∀ p ∈ (noteSwap decode lib r e log).own, p.2 = p.1 := by
    intro hends p hp
    obtain ⟨hbefore, hstate⟩ := hquiet hends
    rw [hown] at hp
    rcases List.mem_append.mp hp with hold | hnew
    · rcases hbefore with hidle | ⟨plan, hplan⟩
      · rw [hidle] at hold
        cases hold
      · split at hold
        · cases hold
        · exact h.own plan hplan p hold
    · rw [List.mem_singleton.mp hnew]
      exact hstate
  refine ⟨?_, fun plan hplan => hsame (Or.inr ⟨plan, hplan⟩), hbuilt⟩
  unfold SwapsUntouched
  rw [hfailed]
  split
  · rename_i hreturns
    simp only [Bool.and_eq_true, Bool.not_eq_true'] at hreturns
    intro own hmem
    rcases List.mem_append.mp hmem with hold | hnew
    · exact h.failed own hold
    · rw [List.mem_singleton.mp hnew]
      exact hsame (Or.inl hreturns)
  · exact h.failed

/-- The swap gives up before it has installed anything. -/
theorem gives_up (h : SwapSafe r log) (hstep : Sv2.step decode lib r e = some r')
    (he : e.ofSwap = true) {plan : SwapPlan} (hplan : r.swap.Connecting plan)
    (hr' : r' = { r with swap := .idle }) : SwapSafe r' (noteSwap decode lib r e log) := by
  subst hr'
  exact h.note hstep he (fun _ => ⟨Or.inr ⟨plan, hplan⟩, rfl⟩) nofun

/-- The swap installs, and has frames to send that can be built. -/
theorem installs (h : SwapSafe r log) (hstep : Sv2.step decode lib r e = some r')
    (he : e.ofSwap = true) {plan : SwapPlan} {todo : List RepointStep}
    {abandoned : List (Nat × Nat)} {members : List Nat}
    (hswap : r'.swap = .repointing plan todo abandoned members)
    (hbuilt : ∀ s ∈ todo, s.frame.isSome = true) : SwapSafe r' (noteSwap decode lib r e log) := by
  refine h.note hstep he ?_ (by rw [hswap]; exact hbuilt)
  rw [hswap]
  rintro (⟨hidle, _⟩ | ⟨_, hplan | ⟨_, _, hplan⟩⟩)
  · cases hidle
  · cases hplan
  · cases hplan

theorem step (h : SwapSafe r log) (hbuild : RepointsBuild lib r e)
    (hstep : Sv2.step decode lib r e = some r') : SwapSafe r' (noteSwap decode lib r e log) := by
  by_cases he : e.ofSwap = true
  swap
  · have he : e.ofSwap = false := by simpa using he
    have hswap := swap_of_other hstep he
    rw [noteSwap_of_other he]
    exact ⟨h.failed, by rw [hswap]; exact h.own, by rw [hswap]; exact h.built⟩
  have hcall := hstep
  cases e with
  | swapOrder caller id fallback =>
    simp only [Sv2.step] at hcall
    split at hcall
    · rename_i hidle _
      obtain ⟨_, _, rfl⟩ := Option.map_eq_some_iff.mp hcall
      exact h.note hstep he (fun _ => ⟨Or.inl hidle, rfl⟩) (List.forall_mem_nil _)
    · cases hcall
  | swapRevert caller =>
    simp only [Sv2.step] at hcall
    split at hcall <;> cases hcall
    rename_i hidle _
    exact h.note hstep he (fun _ => ⟨Or.inl hidle, rfl⟩) (List.forall_mem_nil _)
  | swapFailed =>
    simp only [Sv2.step] at hcall
    split at hcall <;> cases hcall
    · exact h.gives_up hstep he (Or.inl ‹_›) rfl
    · exact h.gives_up hstep he (Or.inr ⟨_, _, ‹_›⟩) rfl
  | swapReopened infos =>
    simp only [Sv2.step] at hcall
    split at hcall
    · rename_i plan hswap
      split at hcall <;> cases hcall
      simp only [RepointsBuild, hswap] at hbuild
      refine h.installs hstep he rfl fun s hs => repointSteps_built ?_ hs
      intro rp hrp howner
      obtain ⟨p, hp, rfl⟩ := List.mem_map.mp hrp
      exact hbuild p hp howner
    · cases hcall
  | swapNotSv2 =>
    simp only [Sv2.step] at hcall
    split at hcall
    · rename_i plan hswap
      split at hcall <;> cases hcall
      · exact h.note hstep he (fun _ => ⟨Or.inr ⟨plan, Or.inl hswap⟩, rfl⟩)
          (List.forall_mem_nil _)
      · exact h.gives_up hstep he (Or.inl hswap) rfl
    · cases hcall
  | swapTranslated lines =>
    simp only [Sv2.step] at hcall
    split at hcall
    · rename_i plan channel members hswap
      split at hcall <;> cases hcall
      · rename_i conn hconn
        simp only [RepointsBuild, hswap] at hbuild
        refine h.installs hstep he rfl fun s hs => repointSteps_built ?_ hs
        intro rp hrp howner
        rw [List.mem_singleton.mp hrp] at howner ⊢
        exact ⟨hbuild howner conn hconn, targetFromDifficulty_length _⟩
      · exact h.gives_up hstep he (Or.inr ⟨_, _, hswap⟩) rfl
    · cases hcall
  | swapSend =>
    have hbuilt := h.built
    simp only [Sv2.step] at hcall
    split at hcall
    · rename_i plan s todo abandoned members hswap
      rw [hswap] at hbuilt
      split at hcall <;> cases hcall
      · exact h.installs hstep he rfl fun t ht => hbuilt t (List.mem_cons_of_mem _ ht)
      · -- the frame can be built
        rename_i hnone
        have hsome := hbuilt s List.mem_cons_self
        rw [hnone] at hsome
        cases hsome
    · cases hcall
      exact h.installs hstep he rfl (List.forall_mem_nil _)
    · rename_i hswap
      cases hcall
      refine h.note hstep he ?_ (List.forall_mem_nil _)
      rw [hswap]
      rintro (⟨_, hreturns⟩ | ⟨_, hplan | ⟨_, _, hplan⟩⟩)
      · cases hreturns
      · cases hplan
      · cases hplan
    · cases hcall
  | _ => cases he

end SwapSafe

/-! ## The calls -/

/-- The frames that re-point the channels can all be built exactly when they are of the sizes
that the format has, for the channels whose owner is there. -/
theorem repointSteps_all {members : List Nat} {rs : List Repoint} :
    (repointSteps members rs).all (·.frame.isSome) = true ↔
      ∀ r ∈ rs, r.owner ∈ members → r.extranoncePrefix.length ≤ 32 ∧ r.target.length = 32 := by
  rw [List.all_eq_true]
  constructor
  · intro hall r hr howner
    have hsteps : ∀ s ∈ r.steps, s.frame.isSome = true := fun s hs =>
      hall s (List.mem_flatMap.mpr ⟨r, List.mem_filter.mpr ⟨hr, decide_eq_true howner⟩, hs⟩)
    constructor
    · have hprefix := hsteps _ List.mem_cons_self
      simpa [RepointStep.frame, setExtranoncePrefix, b032] using hprefix
    · have htarget := hsteps _ (List.mem_cons_of_mem _ List.mem_cons_self)
      simpa [RepointStep.frame, setTarget, u256] using htarget
  · exact fun hrs s hs => repointSteps_built hrs hs

/-- The condition on a swap: if it gets as far as the install, the frames that re-point its
channels can be built. -/
def Inner.FailsClean (answer : SwapAnswer) (target : UpstreamTarget) (i : Inner) : Prop :=
  i.CanSwap answer target →
    match answer with
    | .native info => ∀ c ∈ i.channels, c.owner ∈ i.members →
        (info c.reopen).extranoncePrefix.length ≤ 32 ∧ (info c.reopen).target.length = 32
    | .sv1 conn => ∀ c ∈ i.channels.head?, c.owner ∈ i.members → conn.extranonce1.length ≤ 32

section Calls

variable {i : Inner} {answer : SwapAnswer} {target : UpstreamTarget} {routing : Routing}

/-- A swap that gets as far as the install is under a new generation, and returns `Ok` exactly
when the frames can be built. -/
theorem swapUpstream_installs (h : i.CanSwap answer target) :
    (i.swapUpstream answer target routing).1.active.generation = i.generationCounter + 1 ∧
      ((i.swapUpstream answer target routing).2 = true ↔ i.FailsClean answer target) := by
  unfold Inner.swapUpstream
  cases answer with
  | native info =>
    have hreopen : (i.attachPlan target routing).canReopen = true := canReopen_attachPlan.mpr h
    simp only [hreopen, if_true]
    -- what the channels are re-pointed with
    have hrepoints : ((i.attachPlan target routing).snapshot.specs.zip
        ((i.attachPlan target routing).snapshot.specs.map info)).map
          (fun p => repointOf p.1 p.2) =
        i.channels.map fun c => repointOf c.reopen (info c.reopen) := by
      have hspecs : (i.attachPlan target routing).snapshot.specs =
          i.channels.map Channel.reopen := rfl
      rw [hspecs, List.map_map, List.zip_map', List.map_map]
      rfl
    refine ⟨rfl, repointSteps_all.trans ?_⟩
    rw [hrepoints]
    constructor
    · exact fun hall _ c hc howner => hall _ (List.mem_map_of_mem hc) howner
    · rintro hclean _ hrp howner
      obtain ⟨c, hc, rfl⟩ := List.mem_map.mp hrp
      exact hclean h c hc howner
  | sv1 conn =>
    obtain ⟨c, cs, hcs⟩ := List.exists_cons_of_ne_nil h
    simp only [Inner.translateSnapshot, Inner.snapshot, hcs, List.head?_cons, Option.map_some]
    refine ⟨rfl, repointSteps_all.trans ⟨?_, ?_⟩⟩
    · intro hall _ d hd howner
      rw [hcs] at hd
      cases hd
      exact (hall _ List.mem_cons_self howner).1
    · intro hclean rp hrp howner
      rw [List.mem_singleton.mp hrp] at howner ⊢
      exact ⟨hclean h c (by rw [hcs]; rfl) howner, targetFromDifficulty_length _⟩

/-- `swap_upstream` against a pool that answers.  Ids are given out in order. -/
theorem swapUpstream_failsClean :
    (i.FailsClean answer target → (i.swapUpstream answer target routing).2 = false →
        (i.swapUpstream answer target routing).1.switchState = i.switchState) ∧
      (i.active.generation ≤ i.generationCounter → ¬i.FailsClean answer target →
        (i.swapUpstream answer target routing).2 = false ∧
          (i.swapUpstream answer target routing).1.switchState ≠ i.switchState) := by
  by_cases hswap : i.CanSwap answer target
  · obtain ⟨hgeneration, hok⟩ := @swapUpstream_installs i answer target routing hswap
    constructor
    · intro hclean hfailed
      rw [hok.mpr hclean] at hfailed
      cases hfailed
    · intro hcounter hclean
      refine ⟨by simpa using fun h => hclean (hok.mp h), fun hstate => ?_⟩
      have hsame := congrArg (fun s => s.active.generation) hstate
      simp only [Inner.switchState] at hsame
      omega
  · rw [swapUpstream_not_swapped routing hswap]
    exact ⟨fun _ _ => rfl, fun _ hclean => absurd (fun h => absurd h hswap) hclean⟩

/-- The condition on the first open of a session: if the pool speaks SV2, the open can be built
for it. -/
def Reach.OpensClean (reach : Reach) (spec : OpenSpec) (target : UpstreamTarget) (i : Inner) :
    Prop :=
  match reach target with
  | some (.native _) =>
    (openChannelUpstream spec (upstreamWorker target.user i.label) i.nextUpReq).isSome = true
  | _ => True

/-- `connect_and_install_initial`.  The request id is one that no pending open has. -/
theorem connectAndInstallInitial_opensClean {reach : Reach} {spec : OpenSpec} :
    (reach.OpensClean spec target i → (reach.connectAndInstallInitial spec target routing i).2 =
        false → (reach.connectAndInstallInitial spec target routing i).1.switchState =
          i.switchState) ∧
      (i.pending.lookup i.nextUpReq = none → ¬reach.OpensClean spec target i →
        (reach.connectAndInstallInitial spec target routing i).2 = false ∧
          (reach.connectAndInstallInitial spec target routing i).1.switchState ≠
            i.switchState) := by
  unfold Reach.connectAndInstallInitial Reach.OpensClean
  cases reach target with
  | none => exact ⟨fun _ _ => rfl, fun _ h => absurd trivial h⟩
  | some answer =>
    cases answer with
    | native info =>
      cases hopen : openChannelUpstream spec (upstreamWorker target.user i.label) i.nextUpReq with
      | some frame =>
        unfold Inner.installSv2Initial
        simp only [hopen]
        exact ⟨fun _ h => absurd h (by simp), fun _ h => absurd rfl h⟩
      | none =>
        unfold Inner.installSv2Initial
        simp only [hopen]
        refine ⟨fun h => absurd h (by simp), fun hfresh _ => ⟨trivial, fun hstate => ?_⟩⟩
        have hpending := congrArg (fun s => s.pending.lookup i.nextUpReq) hstate
        simp only [Inner.switchState, AList.lookup_insert] at hpending
        rw [hfresh] at hpending
        cases hpending
    | sv1 conn =>
      refine ⟨fun _ => ?_, fun _ h => absurd trivial h⟩
      simp only [Inner.installSv1TranslateInitial]
      split
      · exact fun h => by cases h
      · exact fun _ => rfl

end Calls

/-! ## The result -/

/-- A switch that fails changes nothing, as long as what follows the install can be built: in
every run of the tasks of a rig from any state, and for the two calls in any state.  Where the
condition fails, the call returns an error on a session that has switched. -/
theorem failed_switch_changes_nothing {decode : Decoder} {lib : Sv1Library} :
    (∀ r₀ x, r₀.swap = .idle →
      Run (observed (step decode lib) (noteSwap decode lib)) (fun x e => RepointsBuild lib x.1 e)
        (r₀, ⟨[], []⟩) x → SwapsUntouched x.2) ∧
    (∀ (i : Inner) answer target routing,
      (i.FailsClean answer target → (i.swapUpstream answer target routing).2 = false →
        (i.swapUpstream answer target routing).1.switchState = i.switchState) ∧
      (i.active.generation ≤ i.generationCounter → ¬i.FailsClean answer target →
        (i.swapUpstream answer target routing).2 = false ∧
          (i.swapUpstream answer target routing).1.switchState ≠ i.switchState)) ∧
    ∀ (i : Inner) (reach : Reach) spec target routing,
      (reach.OpensClean spec target i → (reach.connectAndInstallInitial spec target routing i).2 =
        false → (reach.connectAndInstallInitial spec target routing i).1.switchState =
          i.switchState) ∧
      (i.pending.lookup i.nextUpReq = none → ¬reach.OpensClean spec target i →
        (reach.connectAndInstallInitial spec target routing i).2 = false ∧
          (reach.connectAndInstallInitial spec target routing i).1.switchState ≠
            i.switchState) := by
  refine ⟨?_, fun _ _ _ _ => swapUpstream_failsClean,
    fun _ _ _ _ _ => connectAndInstallInitial_opensClean⟩
  intro r₀ x hidle hrun
  have hsafe : SwapSafe x.1 x.2 := by
    refine hrun.invariant (I := fun x => SwapSafe x.1 x.2) ⟨nofun, fun _ _ => nofun, ?_⟩ ?_
    · rw [hidle]
      exact nofun
    · intro y e z hy hbuild hnext
      obtain ⟨hstep, hlog⟩ := observed_eq_some.mp hnext
      rw [hlog]
      exact hy.step hbuild hstep
  exact hsafe.failed

/-- A switch that does not reach its pool, and then one to an SV1 pool that does. -/
theorem failed_switch_changes_nothing_unreachable :
    ∃ x, ReachesWith wireDecoder plainLibrary (noteSwap wireDecoder plainLibrary)
        (fun _ => ⟨[], []⟩) (fun x e => RepointsBuild plainLibrary x.1 e) x ∧
      x.2.failed.length = 1 ∧ x.1.inner.translating = true ∧ SwapsUntouched x.2 := by
  obtain ⟨x, hx, hp⟩ := exists_history_of_idleRig (noteSwap wireDecoder plainLibrary)
    (fun _ => ⟨[], []⟩) (G := fun x e => RepointsBuild plainLibrary x.1 e)
    [.upstreamFrame 0 (openedFrame 1 10 0) 0, .swapRevert .supervisor, .swapFailed,
      .swapRevert .retry, .swapNotSv2, .swapTranslated sv1Handshake, .swapSend, .swapSend,
      .swapSend]
    (p := fun x => decide (x.2.failed.length = 1) && x.1.inner.translating) (by decide +kernel)
  simp only [Bool.and_eq_true, decide_eq_true_eq] at hp
  have hreaches := hx
  obtain ⟨_, _, _, _, _, _, _, r₀, _, hstart, hrun⟩ := hx
  obtain ⟨_, _, _, _, _, hstarted⟩ := start_started hstart
  exact ⟨x, hreaches, hp.1, hp.2, failed_switch_changes_nothing.1 r₀ x hstarted.swap hrun⟩

/-- An SV1 pool whose extranonce1 has 33 bytes. -/
def longHandshake : List RpcMessage :=
  [{ id := some (.num (.int 1)), result := some (.obj [("version-rolling", .bool true)]) },
    { id := some (.num (.int 2)), result := some (.arr [.arr [],
        .str (String.ofList (List.replicate 66 '0')), .num (.int 4)]) },
    { id := some (.num (.int 3)), result := some (.bool true) }]

/-- The switch to this pool installs it, and then returns an error. -/
theorem failed_switch_installs :
    ∃ x, ReachesWith wireDecoder plainLibrary (noteSwap wireDecoder plainLibrary)
        (fun _ => ⟨[], []⟩) (fun _ _ => True) x ∧
      (∃ own ∈ x.2.failed, ∃ p ∈ own, p.1.translating = false ∧ p.2.translating = true) ∧
      ¬SwapsUntouched x.2 := by
  obtain ⟨x, hx, hp⟩ := exists_history_of_idleRig (noteSwap wireDecoder plainLibrary)
    (fun _ => ⟨[], []⟩) (G := fun _ _ => True)
    [.upstreamFrame 0 (openedFrame 1 10 0) 0, .swapRevert .supervisor, .swapNotSv2,
      .swapTranslated longHandshake, .swapSend]
    (p := fun x => x.2.failed.any fun own => own.any fun p =>
      !p.1.translating && p.2.translating) (by decide +kernel)
  simp only [List.any_eq_true, Bool.and_eq_true, Bool.not_eq_true'] at hp
  refine ⟨x, hx, hp, fun huntouched => ?_⟩
  obtain ⟨own, hown, p, hmem, hbefore, hafter⟩ := hp
  rw [huntouched own hown p hmem, hbefore] at hafter
  cases hafter

end RentalProxy.Sv2
