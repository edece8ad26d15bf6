import RentalProxy.Sv1.Transitions

/-!
# The difficulty a passthrough session is credited at

The miner works at the difficulty of the last `mining.set_difficulty` it was
sent.  The proxy credits its shares at `current_difficulty`.  The two are kept
by different code: the steady reader stores the difficulty of a line under the
lock and queues the line afterwards, while the handshake prelude is stashed by
`install_raw` and queued by the subscribe handler or by the swap.

`install_raw` stores no difficulty for a passthrough upstream.  A difficulty
that the pool sets during the handshake therefore reaches the miner and not the
accounting: `handshake_difficulty_is_not_credited` is such a session.

`currentDifficulty_tracks_queue` says when the two agree.  `KeepsDifficulty` is
the condition on a step.  An install must find the accounting difficulty
already equal to the last one of the handshake, and the steady reader must not
change the difficulty while a prelude that sets one is still unsent.
-/

namespace RentalProxy.Sv1

open StepSystem

/-- The difficulty of the last line that sets one. -/
def lastDifficulty (lines : List RpcMessage) : Option Rat :=
  (lines.filterMap RpcMessage.setDifficulty?).getLast?

/-- The line was sent by the pool of this generation. -/
def Line.fromUpstream (g : Nat) (l : Line) : Bool :=
  decide (l.source = .handshake g) || decide (l.source = .reader g)

/-- The lines of the pool of this generation. -/
def ofUpstream (g : Nat) (lines : List Line) : List RpcMessage :=
  (lines.filter (Line.fromUpstream g)).map Line.msg

/-- The difficulty the miner was told last by the active upstream. -/
def Relay.lastQueued (r : Relay) : Option Rat :=
  lastDifficulty (ofUpstream r.inner.active.generation r.toMiner)

/-- The places a prelude of the active upstream passes before it is queued. -/
def Relay.preludes (r : Relay) : List (List RpcMessage) :=
  [r.inner.pendingPrelude, r.miner.lines, r.swap.lines].map
    (ofUpstream r.inner.active.generation)

/-- The prelude of the active upstream was flushed to the miner. -/
def Relay.PreludeFlushed (r : Relay) : Prop := ∀ p ∈ r.preludes, p = []

/-- The reader of the active upstream has no difficulty in hand: it is not
between storing one and queueing its line. -/
def Relay.NoneInHand (r : Relay) : Prop :=
  ∀ l ∈ r.readers.lookup r.inner.active.generation, l.msg.setDifficulty? = none

instance (r : Relay) : Decidable r.PreludeFlushed :=
  inferInstanceAs (Decidable (∀ p ∈ r.preludes, p = []))

instance (r : Relay) : Decidable r.NoneInHand :=
  inferInstanceAs (Decidable (∀ l ∈ r.readers.lookup r.inner.active.generation,
    l.msg.setDifficulty? = none))

/-- On a passthrough upstream the accounting difficulty is the one the miner
was told last. -/
def Relay.DifficultyTracks (r : Relay) : Prop :=
  r.inner.translating = false → r.PreludeFlushed → r.NoneInHand →
    ∀ d ∈ r.lastQueued, r.inner.currentDifficulty = d

/-- The handshake of a passthrough upstream leaves the miner at the difficulty
that is already recorded. -/
def HandshakeAgrees (current : Rat) : RawUpstream → Prop
  | .sv1 conn => ∀ d ∈ lastDifficulty conn.handshakeLines, d = current
  | .sv2 _ => True

/-- The condition on a step. -/
def KeepsDifficulty (r : Relay) : Event → Prop
  | .swapConnect answer => match r.swap with
    | .connecting snap => ∀ raw ∈ connectRaw snap.target snap.configure
        (upstreamWorker snap.target.user snap.label) answer,
        HandshakeAgrees r.inner.currentDifficulty raw
    | _ => True
  | .upstreamLine g msg _ => g = r.inner.active.generation →
      ∀ d ∈ msg.setDifficulty?, ∀ p ∈ r.preludes, ∀ d' ∈ lastDifficulty p, d' = d
  | _ => True

instance (current : Rat) : DecidablePred (HandshakeAgrees current)
  | .sv1 conn => inferInstanceAs (Decidable (∀ d ∈ lastDifficulty conn.handshakeLines, d = current))
  | .sv2 _ => .isTrue trivial

instance (r : Relay) : DecidablePred (KeepsDifficulty r) := fun e => by
  rcases e with _ | _ <;> dsimp only [KeepsDifficulty] <;> try infer_instance
  rcases r.swap with _ | _ <;> infer_instance

theorem KeepsDifficulty.connecting {r : Relay} {answer : PoolAnswer} {snap : SwapSnapshot}
    {raw : RawUpstream} (h : KeepsDifficulty r (.swapConnect answer))
    (hswap : r.swap = .connecting snap)
    (hraw : connectRaw snap.target snap.configure
      (upstreamWorker snap.target.user snap.label) answer = some raw) :
    HandshakeAgrees r.inner.currentDifficulty raw := by
  simp only [KeepsDifficulty, hswap] at h
  exact h raw hraw

/-! ## Lists of lines -/

@[simp] theorem lastDifficulty_nil : lastDifficulty [] = none := rfl

@[simp] theorem ofUpstream_nil (g : Nat) : ofUpstream g [] = [] := rfl

theorem lastDifficulty_append (xs ys : List RpcMessage) :
    lastDifficulty (xs ++ ys) = (lastDifficulty ys).or (lastDifficulty xs) := by
  simp [lastDifficulty, List.filterMap_append, List.getLast?_append]

theorem lastDifficulty_singleton (msg : RpcMessage) :
    lastDifficulty [msg] = msg.setDifficulty? := by
  unfold lastDifficulty
  cases h : msg.setDifficulty? <;> simp [h]

theorem ofUpstream_append (g : Nat) (xs ys : List Line) :
    ofUpstream g (xs ++ ys) = ofUpstream g xs ++ ofUpstream g ys := by
  simp [ofUpstream]

/-- A line of another source is not a line of the pool. -/
theorem ofUpstream_singleton_of_not {g : Nat} {l : Line} (h : l.fromUpstream g = false) :
    ofUpstream g [l] = [] := by
  simp [ofUpstream, h]

/-- Lines of earlier generations are not lines of a later one. -/
theorem ofUpstream_eq_nil {g : Nat} {lines : List Line}
    (h : ∀ l ∈ lines, ∀ g' ∈ l.source.generation?, g' < g) : ofUpstream g lines = [] := by
  simp only [ofUpstream, List.map_eq_nil_iff, List.filter_eq_nil_iff]
  intro l hl hfrom
  simp only [Line.fromUpstream, Bool.or_eq_true, decide_eq_true_eq] at hfrom
  have hlt := h l hl g (by rcases hfrom with hsrc | hsrc <;> simp [hsrc, LineSource.generation?])
  exact lt_irrefl g hlt

/-- The prelude after a passthrough install is the handshake of the new pool. -/
theorem ofUpstream_handshake (g : Nat) (msgs : List RpcMessage) :
    ofUpstream g (msgs.map (⟨.handshake g, ·⟩)) = msgs := by
  simp only [ofUpstream]
  induction msgs with
  | nil => rfl
  | cons m ms ih => simpa [Line.fromUpstream] using ih

/-! ## The invariant -/

/-- Wherever a difficulty of the active upstream is on its way to the miner it
is the recorded one, and with none on its way the miner was told the recorded
one. -/
structure DifficultyInv (r : Relay) : Prop where
  unsent : ∀ p ∈ r.preludes, ∀ d ∈ lastDifficulty p, d = r.inner.currentDifficulty
  inHand : ∀ l ∈ r.readers.lookup r.inner.active.generation,
    ∀ d ∈ l.msg.setDifficulty?, d = r.inner.currentDifficulty
  told : (∀ p ∈ r.preludes, lastDifficulty p = none) → r.NoneInHand →
    ∀ d ∈ r.lastQueued, d = r.inner.currentDifficulty

theorem noneInHand_congr {r r' : Relay} (hr : r'.readers = r.readers)
    (hg : r'.inner.active.generation = r.inner.active.generation) :
    r'.NoneInHand ↔ r.NoneInHand := by
  unfold Relay.NoneInHand
  rw [hr, hg]

/-- The invariant looks at these parts of a session only. -/
theorem DifficultyInv.congr {r r' : Relay} (h : DifficultyInv r)
    (hg : r'.inner.active.generation = r.inner.active.generation)
    (hd : r'.inner.currentDifficulty = r.inner.currentDifficulty)
    (hp : ∀ p ∈ r'.preludes, p ∈ r.preludes ∨ p = [])
    (hp' : ∀ p ∈ r.preludes, p ∈ r'.preludes ∨ p = [])
    (hr : r'.readers = r.readers) (hq : r'.lastQueued = r.lastQueued) :
    DifficultyInv r' where
  unsent := by
    intro p hmem d hlast
    rw [hd]
    rcases hp p hmem with hold | rfl
    · exact h.unsent p hold d hlast
    · simp at hlast
  inHand := by
    rw [hr, hg, hd]
    exact h.inHand
  told := by
    rw [hq, hd]
    intro hnone hhand
    refine h.told ?_ ((noneInHand_congr hr hg).mp hhand)
    intro p hmem
    rcases hp' p hmem with hnew | rfl
    · exact hnone p hnew
    · rfl

theorem mem_preludes {r : Relay} {p : List RpcMessage} :
    p ∈ r.preludes ↔ p = ofUpstream r.inner.active.generation r.inner.pendingPrelude ∨
      p = ofUpstream r.inner.active.generation r.miner.lines ∨
      p = ofUpstream r.inner.active.generation r.swap.lines := by
  simp [Relay.preludes]

/-- Queueing a line that is not the pool's changes nothing. -/
theorem lastQueued_of_toMiner {r r' : Relay} {l : Line}
    (hg : r'.inner.active.generation = r.inner.active.generation)
    (hq : r'.toMiner = r.toMiner ++ [l])
    (hl : l.fromUpstream r.inner.active.generation = false) :
    r'.lastQueued = r.lastQueued := by
  simp only [Relay.lastQueued, hg, hq, ofUpstream_append, ofUpstream_singleton_of_not hl,
    List.append_nil]

/-- A task queues the first line of a prelude it is flushing. -/
theorem DifficultyInv.flush {r r' : Relay} (h : DifficultyInv r) (line : Line)
    (rest : List Line)
    (hg : r'.inner.active.generation = r.inner.active.generation)
    (hd : r'.inner.currentDifficulty = r.inner.currentDifficulty)
    (hr : r'.readers = r.readers) (hq : r'.toMiner = r.toMiner ++ [line])
    (hfrom : ofUpstream r.inner.active.generation (line :: rest) ∈ r.preludes)
    (hp : ∀ p ∈ r'.preludes, p ∈ r.preludes ∨
      p = ofUpstream r.inner.active.generation rest)
    (hp' : ∀ p ∈ r.preludes, p ∈ r'.preludes ∨
      p = ofUpstream r.inner.active.generation (line :: rest))
    (hrest : ofUpstream r.inner.active.generation rest ∈ r'.preludes) :
    DifficultyInv r' := by
  set g := r.inner.active.generation
  have hsplit : ofUpstream g (line :: rest) = ofUpstream g [line] ++ ofUpstream g rest := by
    rw [← List.singleton_append, ofUpstream_append]
  have hlast : lastDifficulty (ofUpstream g (line :: rest)) =
      (lastDifficulty (ofUpstream g rest)).or (lastDifficulty (ofUpstream g [line])) := by
    rw [hsplit, lastDifficulty_append]
  have hqueued : r'.lastQueued = (lastDifficulty (ofUpstream g [line])).or r.lastQueued := by
    simp only [Relay.lastQueued, hg, hq, ofUpstream_append, lastDifficulty_append]
    rfl
  refine ⟨?_, ?_, ?_⟩
  · intro p hmem d hd'
    rw [hd]
    rcases hp p hmem with hold | rfl
    · exact h.unsent p hold d hd'
    · refine h.unsent _ hfrom d ?_
      rw [Option.mem_def] at hd' ⊢
      rw [hlast, hd', Option.some_or]
  · rw [hr, hg, hd]
    exact h.inHand
  · intro hnone hhand d hd'
    rw [hd]
    have hrestNone : lastDifficulty (ofUpstream g rest) = none := hnone _ hrest
    rw [hrestNone, Option.none_or] at hlast
    rw [Option.mem_def, hqueued] at hd'
    -- the line just queued either sets the difficulty or changes nothing
    cases hline : lastDifficulty (ofUpstream g [line]) with
    | some d' =>
      rw [hline, Option.some_or, Option.some.injEq] at hd'
      subst hd'
      exact h.unsent _ hfrom _ (by rw [Option.mem_def, hlast, hline])
    | none =>
      rw [hline, Option.none_or] at hd'
      refine h.told ?_ ((noneInHand_congr hr hg).mp hhand) d hd'
      intro p hmem
      rcases hp' p hmem with hnew | rfl
      · exact hnone p hnew
      · rw [hlast, hline]

/-- The install of a passthrough upstream: what is there is of earlier generations, but for the
handshake. -/
theorem DifficultyInv.install {r : Relay} {snap : SwapSnapshot} {conn : UpstreamConn}
    (hgen : Generations r) (hswap : r.swap = .connecting snap)
    (hagree : HandshakeAgrees r.inner.currentDifficulty (.sv1 conn)) :
    DifficultyInv (r.install snap (.sv1 conn)) := by
  have hnew := hgen.connecting snap.generation (by simp [hswap])
  have hbefore : ∀ l, r.Holds l → ∀ g ∈ l.source.generation?, g < snap.generation :=
    fun l hl g hg => lt_of_le_of_lt (hgen.held l hl g hg) hnew.1
  have hminer : ofUpstream snap.generation r.miner.lines = [] :=
    ofUpstream_eq_nil fun l hl => hbefore l (Or.inr (Or.inl hl))
  have hqueued : ofUpstream snap.generation r.toMiner = [] :=
    ofUpstream_eq_nil fun l hl => hbefore l (Or.inl hl)
  refine ⟨?_, ?_, ?_⟩
  · intro p hp d hd
    rw [mem_preludes] at hp
    simp only [Relay.install, installRaw, SwapTask.lines, hminer, ofUpstream_nil,
      ofUpstream_handshake] at hp
    rcases hp with rfl | rfl | rfl
    · exact hagree d hd
    · simp at hd
    · simp at hd
  · intro l hl
    have htag := hgen.tagged _ l hl
    have hlt := hbefore l (Or.inr (Or.inr (Or.inr (Or.inr ⟨_, hl⟩))))
      snap.generation (by rw [htag]; rfl)
    exact absurd hlt (lt_irrefl _)
  · intro _ _ d hd
    have hnone : (r.install snap (.sv1 conn)).lastQueued = none := by
      change lastDifficulty (ofUpstream snap.generation r.toMiner) = none
      rw [hqueued, lastDifficulty_nil]
    simp [hnone] at hd

/-- The reader of the active upstream takes a line in hand. -/
theorem DifficultyInv.line {r : Relay} {msg : RpcMessage} {now : Rat} (h : DifficultyInv r)
    (hguard : KeepsDifficulty r (.upstreamLine r.inner.active.generation msg now))
    (hfree : r.readerFree r.inner.active.generation = true) :
    DifficultyInv { r with
      inner := (onUpstreamMsg now r.inner.active.generation msg r.inner).1
      orders := r.orders.credit (onUpstreamMsg now r.inner.active.generation msg r.inner).2.1
      readers := r.readers.insert r.inner.active.generation
        ⟨.reader r.inner.active.generation, msg⟩ } := by
  obtain ⟨hactive, _, _, _, hstash, _⟩ :=
    (onUpstreamMsg_same now r.inner.active.generation msg r.inner).fields
  have hdiff := onUpstreamMsg_currentDifficulty now msg (i := r.inner) rfl
  set r' : Relay := { r with
    inner := (onUpstreamMsg now r.inner.active.generation msg r.inner).1
    orders := r.orders.credit (onUpstreamMsg now r.inner.active.generation msg r.inner).2.1
    readers := r.readers.insert r.inner.active.generation
      ⟨.reader r.inner.active.generation, msg⟩ }
  have hg : r'.inner.active.generation = r.inner.active.generation :=
    congrArg ActiveUpstream.generation hactive
  have hpre : r'.preludes = r.preludes := by
    simp only [Relay.preludes, hg]
    rw [show r'.inner.pendingPrelude = r.inner.pendingPrelude from hstash]
  have hlook : r'.readers.lookup r.inner.active.generation =
      some ⟨.reader r.inner.active.generation, msg⟩ := AList.lookup_insert _
  refine ⟨?_, ?_, ?_⟩
  · intro p hp d hd
    rw [hpre] at hp
    rw [show r'.inner.currentDifficulty = _ from hdiff]
    cases hset : msg.setDifficulty? with
    | none => exact h.unsent p hp d hd
    | some d' => exact hguard rfl d' hset p hp d hd
  · intro l hl d hd
    rw [hg, hlook, Option.mem_def, Option.some.injEq] at hl
    subst hl
    rw [show r'.inner.currentDifficulty = _ from hdiff, Option.mem_def.mp hd, Option.getD_some]
  · intro hnone hhand d hd
    have hset : msg.setDifficulty? = none :=
      hhand ⟨.reader r.inner.active.generation, msg⟩ (by rw [hg]; exact hlook)
    rw [show r'.inner.currentDifficulty = _ from hdiff, hset, Option.getD_none]
    refine h.told (by rwa [hpre] at hnone) ?_ d ?_
    · intro l hl
      rw [Option.mem_def] at hl
      simp [Relay.readerFree, hl] at hfree
    · simpa only [Relay.lastQueued, hg] using hd

/-- A reader queues the line that it has in hand. -/
theorem DifficultyInv.forward {r : Relay} {g : Nat} {line : Line} (h : DifficultyInv r)
    (hgen : Generations r) (hline : r.readers.lookup g = some line) :
    DifficultyInv ({ r with readers := r.readers.erase g }.queue line) := by
  have htag := hgen.tagged g line hline
  by_cases hg : g = r.inner.active.generation
  · -- the reader of the active upstream queues what it has in hand
    have hfrom : line.fromUpstream r.inner.active.generation = true := by
      simp [Line.fromUpstream, htag, hg]
    have hqueued : ({ r with readers := r.readers.erase g }.queue line).lastQueued =
        line.msg.setDifficulty?.or r.lastQueued := by
      simp only [Relay.lastQueued, Relay.queue_inner, Relay.queue_toMiner, ofUpstream_append,
        lastDifficulty_append]
      rw [show ofUpstream r.inner.active.generation [line] = [line.msg] by
        simp [ofUpstream, hfrom], lastDifficulty_singleton]
    refine ⟨h.unsent, ?_, ?_⟩
    · intro l hl
      simp [hg] at hl
    · intro hnone _ d hd
      rw [Option.mem_def, hqueued] at hd
      cases hset : line.msg.setDifficulty? with
      | some d' =>
        rw [hset, Option.some_or, Option.some.injEq] at hd
        subst hd
        exact h.inHand line (by rw [← hg]; exact hline) _ hset
      | none =>
        rw [hset, Option.none_or] at hd
        refine h.told hnone ?_ d hd
        intro l hl
        rw [← hg, Option.mem_def, hline, Option.some.injEq] at hl
        rw [← hl, hset]
  · -- a superseded reader queues a line of its own upstream
    have hfrom : line.fromUpstream r.inner.active.generation = false := by
      simp [Line.fromUpstream, htag, hg]
    have hlook : (r.readers.erase g).lookup r.inner.active.generation =
        r.readers.lookup r.inner.active.generation :=
      AList.lookup_erase_ne (Ne.symm hg)
    refine ⟨h.unsent, ?_, ?_⟩
    · intro l hl
      exact h.inHand l (hlook ▸ hl)
    · intro hnone hhand d hd
      refine h.told hnone (fun l hl => hhand l ?_) d ?_
      · exact hlook.symm ▸ hl
      · have hsame : ({ r with readers := r.readers.erase g }.queue line).lastQueued =
            r.lastQueued := lastQueued_of_toMiner (r := r) rfl rfl hfrom
        rwa [hsame] at hd

/-- The step lemma. -/
theorem DifficultyInv.step {r r' : Relay} {e : Event} (hgen : Generations r)
    (hsv1 : r.inner.translating = false → DifficultyInv r) (hguard : KeepsDifficulty r e)
    (ht : Transition r e r') (hsv1' : r'.inner.translating = false) : DifficultyInv r' := by
  cases ht with
  | quiet hq =>
    have hold := hsv1 (by rw [← hq.translating]; exact hsv1')
    have hpre : r'.preludes = r.preludes := by
      simp only [Relay.preludes, hq.generation, hq.stashed, hq.miner, hq.swap]
    refine hold.congr hq.generation hq.difficulty ?_ ?_ hq.readers ?_
    · intro p hp
      exact Or.inl (hpre ▸ hp)
    · intro p hp
      exact Or.inl (hpre ▸ hp)
    · rcases hq.toMiner with hto | ⟨msg, _, hto⟩
      · simp only [Relay.lastQueued, hq.generation, hto]
      · exact lastQueued_of_toMiner hq.generation hto rfl
  | @install _ snap raw hswap hraw =>
    cases raw with
    | sv2 up => simp [Relay.install, installRaw] at hsv1'
    | sv1 conn => exact .install hgen hswap (hguard.connecting hswap hraw)
  | line hfree hsv1r => exact (hsv1 hsv1r).line hguard hfree
  | forward hline => exact (hsv1 hsv1').forward hgen hline
  | @minerFlush line rest hminer =>
    refine (hsv1 hsv1').flush line rest rfl rfl rfl rfl ?_ ?_ ?_ ?_ <;>
      simp [mem_preludes, hminer]
  | @swapFlush line rest hswap =>
    refine (hsv1 hsv1').flush line rest rfl rfl rfl rfl ?_ ?_ ?_ ?_ <;>
      simp [mem_preludes, hswap]
  -- the remaining steps move a whole prelude, or nothing
  | subscribe hminer =>
    refine (hsv1 hsv1').congr rfl rfl ?_ ?_ rfl rfl <;> simp [mem_preludes, hminer]
  | subscribeReply hminer =>
    refine (hsv1 hsv1').congr rfl rfl ?_ ?_ rfl (lastQueued_of_toMiner rfl rfl rfl) <;>
      simp [mem_preludes, hminer]
  | subscribed hminer =>
    refine (hsv1 hsv1').congr rfl rfl ?_ ?_ rfl rfl <;> simp [mem_preludes, hminer]
  | minerFlushed hminer =>
    refine (hsv1 hsv1').congr rfl rfl ?_ ?_ rfl rfl <;> simp [mem_preludes, hminer]
  | swapBegin hswap =>
    refine (hsv1 hsv1').congr rfl rfl ?_ ?_ rfl rfl <;> simp [mem_preludes, hswap]
  | swapFailed hswap =>
    refine (hsv1 hsv1').congr rfl rfl ?_ ?_ rfl rfl <;> simp [mem_preludes, hswap]
  | repointLive hswap =>
    refine (hsv1 hsv1').congr rfl rfl ?_ ?_ rfl (lastQueued_of_toMiner rfl rfl rfl) <;>
      simp [mem_preludes, hswap]
  | repointDrop hswap =>
    refine (hsv1 hsv1').congr rfl rfl ?_ ?_ rfl rfl <;> simp [mem_preludes, hswap]
  | takePrelude hswap =>
    refine (hsv1 hsv1').congr rfl rfl ?_ ?_ rfl rfl <;> simp [mem_preludes, hswap]
  | swapFlushed hswap =>
    refine (hsv1 hsv1').congr rfl rfl ?_ ?_ rfl rfl <;> simp [mem_preludes, hswap]
  | translateDifficulty hsv2 => simp [hsv2] at hsv1'
  | translateSend hsv2 hfree hsub => simp [hsv2] at hsv1'
  | translateStash hsv2 hsub => simp [hsv2] at hsv1'
  | @translateResult g id ok hfree hsv2 =>
    -- a translating reader of an earlier upstream, so not the active one
    have hsv1r : r.inner.translating = false := hsv1'
    have hne : r.inner.active.generation ≠ g := by
      rintro rfl
      simp [Relay.translateReader, hsv1r] at hsv2
    have hold := hsv1 hsv1'
    have hlook : (r.readers.insert g ⟨.reader g, submitResultLine id ok⟩).lookup
        r.inner.active.generation = r.readers.lookup r.inner.active.generation :=
      AList.lookup_insert_ne hne
    exact ⟨hold.unsent, fun l hl => hold.inHand l (hlook ▸ hl),
      fun hnone hhand => hold.told hnone fun l hl => hhand l (hlook.symm ▸ hl)⟩

/-- The bootstrap session. -/
theorem DifficultyInv.start {target : UpstreamTarget} {peer : String} {orders : WorkBuffer}
    {answer : PoolAnswer} {r : Relay} (h : start target peer orders answer = some r)
    (hboot : ∀ raw, connectRaw target none target.user answer = some raw →
      HandshakeAgrees (bootstrap target peer).currentDifficulty raw)
    (hsv1 : r.inner.translating = false) : DifficultyInv r := by
  simp only [Sv1.start, Option.map_eq_some_iff] at h
  obtain ⟨raw, hraw, rfl⟩ := h
  have hagree := hboot raw hraw
  cases raw with
  | sv2 up => simp [installRaw] at hsv1
  | sv1 conn =>
    refine ⟨?_, by simp, ?_⟩
    · intro p hp d hd
      rw [mem_preludes] at hp
      simp only [installRaw, ofUpstream_handshake, MinerTask.lines, SwapTask.lines,
        ofUpstream_nil] at hp
      rcases hp with rfl | rfl | rfl
      · exact hagree d hd
      · simp at hd
      · simp at hd
    · intro _ _ d hd
      simp [Relay.lastQueued] at hd

/-- Along a run whose steps keep the difficulty, what the miner was told last
is what its next share is credited at. -/
theorem currentDifficulty_tracks_queue {target : UpstreamTarget} {peer : String}
    {orders : WorkBuffer} {answer : PoolAnswer} {r₀ r : Relay}
    (hstart : start target peer orders answer = some r₀)
    (hboot : ∀ raw, connectRaw target none target.user answer = some raw →
      HandshakeAgrees (bootstrap target peer).currentDifficulty raw)
    (hrun : Run step KeepsDifficulty r₀ r) : r.DifficultyTracks := by
  have hinv : Generations r ∧ (r.inner.translating = false → DifficultyInv r) := by
    refine hrun.invariant (I := fun x => Generations x ∧
      (x.inner.translating = false → DifficultyInv x))
      ⟨.start hstart, .start hstart hboot⟩ ?_
    rintro x e y ⟨hgen, hsv1⟩ hguard hstep
    exact ⟨hgen.step hstep, .step hgen hsv1 hguard (transition_of_step hstep)⟩
  intro hsv1 hflushed hhand d hd
  refine ((hinv.2 hsv1).told ?_ hhand d hd).symm
  intro p hp
  rw [hflushed p hp, lastDifficulty_nil]

/-- A pool that keeps difficulty 1 in the handshake and raises it later. -/
theorem currentDifficulty_tracks_queue_raised :
    ∃ r₀ r, start ⟨"pool:3333", "bc1q", "", none⟩ "peer" ∅ (eagerPool 1) = some r₀ ∧
      Run step KeepsDifficulty r₀ r ∧ r.lastQueued = some 2048 ∧ r.DifficultyTracks := by
  obtain ⟨r₀, hstart, hrun⟩ := run_of_eager (G := KeepsDifficulty) 1
    (subscribeEvents ++ [
      .upstreamLine 1 (.request .null "mining.set_difficulty" (.arr [.num (.int 2048)])) 0,
      .readerForward 1]) rfl
  exact ⟨r₀, _, hstart, hrun, rfl, currentDifficulty_tracks_queue hstart (by decide) hrun⟩

/-- A difficulty of the handshake reaches the miner and not the accounting. -/
theorem handshake_difficulty_is_not_credited :
    ∃ r, Reaches r ∧ r.PreludeFlushed ∧ r.lastQueued = some 1024 ∧
      r.inner.currentDifficulty = 1 ∧ ¬r.DifficultyTracks := by
  obtain ⟨r₀, hstart, hrun⟩ := run_of_eager (G := fun _ _ => True) 1024
    (subscribeEvents) rfl
  refine ⟨_, ⟨_, _, _, _, r₀, hstart, hrun⟩, by decide, rfl, rfl, ?_⟩
  intro htracks
  have hone := htracks rfl (by decide) (by decide) 1024 rfl
  revert hone
  decide

end RentalProxy.Sv1
