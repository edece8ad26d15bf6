import RentalProxy.Sv1.Transitions

/-!
# The order of the lines a miner gets

The miner loop, the swap and the readers all write to one queue.  The protocol
asks for one order in it: the subscribe reply before any job or difficulty, and
after a live switch the new extranonce, then what the new pool sent in its
handshake, then what its reader reads, and nothing of the old pool.

The code does not enforce this order.  The passthrough reader queues a line
whether or not the miner has subscribed, the swap flushes the handshake lines
without looking at `subscribed`, and a reader checks its generation under a
lock that it gives back before it queues the line.  `lines_out_of_order` is two
runs with the wrong order.

`KeepsOrder` is the condition on a step under which `lines_in_order` holds.  The
proof follows `Relay.flow`, everything of the active upstream that is queued or
still on its way: a step that keeps the order only moves the front of what is on
its way to the end of the queue, or adds a line of the reader at the back.
-/

namespace RentalProxy.Sv1

open StepSystem

/-! ## The order -/

/-- No job and no difficulty before the first subscribe reply. -/
def SubscribeFirst (queue : List Line) : Prop :=
  ∀ l ∈ queue.takeWhile fun l => decide (l.source ≠ .subscribeReply), isPoolWork l.msg = false

/-- The lines of one upstream. -/
def ofGeneration (g : Nat) (lines : List Line) : List Line :=
  lines.filter fun l => decide (l.source.generation? = some g)

/-- The new extranonce, the whole handshake in the order of the pool, then
lines of the reader. -/
def FullOrder (g : Nat) (handshake : List RpcMessage) (lines : List Line) : Prop :=
  ∃ ext reads, ext.source = .extranonce g ∧ (∀ l ∈ reads, l.source = .reader g) ∧
    lines = ext :: (handshake.map (⟨.handshake g, ·⟩) ++ reads)

/-- As far as the lines go they follow the order of a swap. -/
def InSwapOrder (g : Nat) (handshake : List RpcMessage) (lines : List Line) : Prop :=
  ∃ full, FullOrder g handshake full ∧ lines <+: full

/-- No line of an older upstream after a line of a newer one. -/
def Ascending (queue : List Line) : Prop :=
  queue.Pairwise fun a b => ∀ g ∈ a.source.generation?, ∀ g' ∈ b.source.generation?, g ≤ g'

/-! ## The condition on a step -/

/-- The `mining.set_extranonce` that a swap has still to queue. -/
def SwapTask.owed : SwapTask → List Line
  | .installed g true en1 en2 => [⟨.extranonce g, .setExtranonce en1 en2⟩]
  | .installed _ false _ _ => []
  | .idle => []
  | .connecting _ => []
  | .repointed _ => []
  | .flushing _ => []

@[simp] theorem SwapTask.owed_live (g : Nat) (en1 : String) (en2 : Nat) :
    (installed g true en1 en2).owed = [⟨.extranonce g, .setExtranonce en1 en2⟩] := rfl
@[simp] theorem SwapTask.owed_drop (g : Nat) (en1 : String) (en2 : Nat) :
    (installed g false en1 en2).owed = [] := rfl
@[simp] theorem SwapTask.owed_idle : idle.owed = [] := rfl
@[simp] theorem SwapTask.owed_connecting (s : SwapSnapshot) : (connecting s).owed = [] := rfl
@[simp] theorem SwapTask.owed_repointed (g : Nat) : (repointed g).owed = [] := rfl
@[simp] theorem SwapTask.owed_flushing (ls : List Line) : (flushing ls).owed = [] := rfl

/-- The miner has all that precedes the lines of the active reader: it is
subscribed, and no extranonce and no prelude is unsent. -/
def Relay.Settled (r : Relay) : Prop :=
  r.inner.subscribed = true ∧ r.swap.owed = [] ∧ r.inner.pendingPrelude = [] ∧
    r.miner.lines = [] ∧ r.swap.lines = []

/-- The condition on a step.  A reader takes a line in hand only when the
session is settled.  A swap installs only while no reader has a line in hand
and the subscribe handler is not flushing.  The handshake lines are taken
neither before the miner is subscribed nor before the new extranonce. -/
def KeepsOrder (r : Relay) : Event → Prop
  | .upstreamLine g _ _ => g = r.inner.active.generation → r.Settled
  | .translateLine g _ => g = r.inner.active.generation → r.inner.subscribed = true → r.Settled
  | .translateResult g _ _ => g = r.inner.active.generation ∧ r.Settled
  | .swapConnect answer => match r.swap with
    | .connecting snap => (connectRaw snap.target snap.configure
        (upstreamWorker snap.target.user snap.label) answer).isSome →
        r.readers.keys = [] ∧ r.miner.lines = []
    | _ => True
  | .swapTakePrelude => r.inner.pendingPrelude ≠ [] → r.inner.subscribed = true
  | .minerSubscribed => r.swap.owed ≠ [] → r.inner.pendingPrelude = []
  | _ => True

instance (r : Relay) : Decidable r.Settled :=
  inferInstanceAs (Decidable (_ ∧ _ ∧ _ ∧ _ ∧ _))

instance (r : Relay) : DecidablePred (KeepsOrder r) := fun e => by
  rcases e with _ | _ <;> dsimp only [KeepsOrder] <;> try infer_instance
  rcases r.swap with _ | _ <;> infer_instance

theorem KeepsOrder.connecting {r : Relay} {answer : PoolAnswer} {snap : SwapSnapshot}
    {raw : RawUpstream} (h : KeepsOrder r (.swapConnect answer))
    (hswap : r.swap = .connecting snap)
    (hraw : connectRaw snap.target snap.configure
      (upstreamWorker snap.target.user snap.label) answer = some raw) :
    (∀ g, r.readers.lookup g = none) ∧ r.miner.lines = [] := by
  simp only [KeepsOrder, hswap, hraw, Option.isSome_some, true_implies] at h
  refine ⟨fun g => ?_, h.2⟩
  rw [AList.lookup_eq_none, AList.mem_keys, h.1]
  exact List.not_mem_nil

/-! ## Where the lines are -/

/-- Everything that is not queued yet belongs to the active upstream, and only
one place at a time holds lines that are to be queued next. -/
structure Holders (r : Relay) : Prop where
  current : ∀ l, l ∈ r.miner.lines ∨ l ∈ r.swap.lines ∨ l ∈ r.inner.pendingPrelude →
    l.source.generation? = some r.inner.active.generation
  hand : ∀ g l, r.readers.lookup g = some l → g = r.inner.active.generation ∧ r.Settled
  stash : r.inner.pendingPrelude ≠ [] → r.miner.lines = []
  swapping : r.swap.lines ≠ [] →
    r.miner.lines = [] ∧ r.inner.pendingPrelude = [] ∧ r.inner.subscribed = true
  owed : r.swap.owed ≠ [] → r.miner.lines = []
  unsubscribed : r.inner.subscribed = false → r.miner.lines = []

/-- The places look at these parts of a session only. -/
theorem Holders.congr {r r' : Relay} (h : Holders r)
    (hg : r'.inner.active.generation = r.inner.active.generation)
    (hsub : r'.inner.subscribed = r.inner.subscribed)
    (hstash : r'.inner.pendingPrelude = r.inner.pendingPrelude)
    (hminer : r'.miner.lines = r.miner.lines) (hswap : r'.swap.lines = r.swap.lines)
    (howed : r'.swap.owed = r.swap.owed) (hreaders : r'.readers = r.readers) : Holders r' := by
  have hsettled : r'.Settled ↔ r.Settled := by
    unfold Relay.Settled
    rw [hsub, hstash, hminer, hswap, howed]
  refine ⟨?_, ?_, ?_, ?_, ?_, ?_⟩
  · rw [hg, hstash, hminer, hswap]
    exact h.current
  · rw [hg, hreaders, hsettled]
    exact h.hand
  · rw [hstash, hminer]
    exact h.stash
  · rw [hswap, hminer, hstash, hsub]
    exact h.swapping
  · rw [howed, hminer]
    exact h.owed
  · rw [hsub, hminer]
    exact h.unsubscribed

/-- A reader of the active upstream takes a line in hand. -/
theorem Holders.take {r r' : Relay} {l : Line} (h : Holders r) (hsettled : r.Settled)
    (hg : r'.inner.active.generation = r.inner.active.generation)
    (hsub : r'.inner.subscribed = r.inner.subscribed)
    (hstash : r'.inner.pendingPrelude = r.inner.pendingPrelude)
    (hminer : r'.miner = r.miner) (hswap : r'.swap = r.swap)
    (hreaders : r'.readers = r.readers.insert r.inner.active.generation l) : Holders r' := by
  have hsettled' : r'.Settled := by
    unfold Relay.Settled
    rw [hsub, hstash, hminer, hswap]
    exact hsettled
  have hsame : Holders { r' with readers := r.readers } :=
    h.congr hg hsub hstash (by simp only [hminer]) (by simp only [hswap])
      (by simp only [hswap]) rfl
  refine ⟨hsame.current, ?_, hsame.stash, hsame.swapping, hsame.owed, hsame.unsubscribed⟩
  intro g l' hl
  rw [hreaders] at hl
  rcases KeyedTable.lookup_insert_cases hl with ⟨rfl, _⟩ | ⟨_, hold⟩
  · exact ⟨hg.symm, hsettled'⟩
  · exact ⟨(h.hand g l' hold).1.trans hg.symm, hsettled'⟩

theorem Holders.step {r r' : Relay} {e : Event} (h : Holders r) (hguard : KeepsOrder r e)
    (ht : Transition r e r') : Holders r' := by
  cases ht with
  | quiet hq =>
    exact h.congr hq.generation hq.subscribed hq.stashed (by rw [hq.miner]) (by rw [hq.swap])
      (by rw [hq.swap]) hq.readers
  | subscribe hminer => exact h.congr rfl rfl rfl (by simp [hminer]) rfl rfl rfl
  | subscribeReply hminer => exact h.congr rfl rfl rfl (by simp [hminer]) rfl rfl rfl
  | minerFlushed hminer => exact h.congr rfl rfl rfl (by simp [hminer]) rfl rfl rfl
  | swapBegin hswap =>
    exact h.congr rfl rfl rfl rfl (by simp [hswap]) (by simp [hswap]) rfl
  | swapFailed hswap =>
    exact h.congr rfl rfl rfl rfl (by simp [hswap]) (by simp [hswap]) rfl
  | swapFlushed hswap =>
    exact h.congr rfl rfl rfl rfl (by simp [hswap]) (by simp [hswap]) rfl
  | repointDrop hswap =>
    exact h.congr rfl rfl rfl rfl (by simp [hswap]) (by simp [hswap]) rfl
  | translateDifficulty hsv2 => exact h.congr rfl rfl rfl rfl rfl rfl rfl
  | line hfree hsv1 =>
    obtain ⟨hactive, _, _, _, hstash, _, hsub, _⟩ := (onUpstreamMsg_same ..).fields
    exact h.take (hguard rfl) (congrArg ActiveUpstream.generation hactive) hsub hstash rfl rfl rfl
  | translateSend hsv2 hfree hsub => exact h.take (hguard rfl hsub) rfl rfl rfl rfl rfl rfl
  | translateResult hfree hsv2 =>
    obtain ⟨rfl, hsettled⟩ := hguard
    exact h.take hsettled rfl rfl rfl rfl rfl rfl
  | forward hline =>
    refine ⟨h.current, ?_, h.stash, h.swapping, h.owed, h.unsubscribed⟩
    intro g l hl
    exact h.hand g l (KeyedTable.lookup_of_lookup_erase hl).2
  | translateStash hsv2 hsub =>
    have hminer := h.unsubscribed hsub
    have hswap : r.swap.lines = [] := by
      by_contra hne
      have hmarked := (h.swapping hne).2.2
      simp [hsub] at hmarked
    refine ⟨?_, ?_, fun _ => hminer, fun hne => absurd hswap hne, h.owed, h.unsubscribed⟩
    · intro l hl
      rcases hl with hl | hl | hl
      · exact h.current l (Or.inl hl)
      · exact h.current l (Or.inr (Or.inl hl))
      · rcases List.mem_append.mp hl with hl | hl
        · exact h.current l (Or.inr (Or.inr hl))
        · rw [List.mem_singleton.mp hl]
          rfl
    · intro g l hl
      have hsettled := (h.hand g l hl).2.1
      simp [hsub] at hsettled
  | subscribed hminer =>
    refine ⟨?_, ?_, by simp, ?_, ?_, by simp⟩
    · intro l hl
      rcases hl with hl | hl | hl
      · exact h.current l (Or.inr (Or.inr hl))
      · exact h.current l (Or.inr (Or.inl hl))
      · cases hl
    · intro g l hl
      obtain ⟨hg, hsub, howed, hstash, _, hswap⟩ := h.hand g l hl
      exact ⟨hg, rfl, howed, rfl, hstash, hswap⟩
    · intro hne
      exact ⟨(h.swapping hne).2.1, rfl, rfl⟩
    · exact hguard
  | @minerFlush line rest hminer =>
    have hne : r.miner.lines ≠ [] := by simp [hminer]
    refine ⟨?_, ?_, ?_, ?_, ?_, ?_⟩
    · intro l hl
      refine h.current l ?_
      rcases hl with hl | hl
      · exact Or.inl (by simpa [hminer] using Or.inr hl)
      · exact Or.inr hl
    · intro g l hl
      exact absurd (h.hand g l hl).2.2.2.2.1 hne
    · exact fun hs => absurd (h.stash hs) hne
    · exact fun hs => absurd (h.swapping hs).1 hne
    · exact fun hs => absurd (h.owed hs) hne
    · exact fun hs => absurd (h.unsubscribed hs) hne
  | repointLive hswap =>
    refine ⟨?_, ?_, h.stash, by simp, by simp, h.unsubscribed⟩
    · intro l hl
      refine h.current l ?_
      rcases hl with hl | hl | hl
      · exact Or.inl hl
      · cases hl
      · exact Or.inr (Or.inr hl)
    · intro g l hl
      have howed := (h.hand g l hl).2.2.1
      simp [hswap] at howed
  | takePrelude hswap =>
    refine ⟨?_, ?_, by simp, ?_, by simp, h.unsubscribed⟩
    · intro l hl
      rcases hl with hl | hl | hl
      · exact h.current l (Or.inl hl)
      · exact h.current l (Or.inr (Or.inr hl))
      · cases hl
    · intro g l hl
      obtain ⟨hg, hsub, _, hstash, hminer, _⟩ := h.hand g l hl
      exact ⟨hg, hsub, rfl, rfl, hminer, hstash⟩
    · intro hne
      exact ⟨h.stash hne, rfl, hguard hne⟩
  | @swapFlush line rest hswap =>
    obtain ⟨hminer, hstash, hsub⟩ := h.swapping (by simp [hswap])
    refine ⟨?_, ?_, h.stash, fun _ => ⟨hminer, hstash, hsub⟩, by simp,
      h.unsubscribed⟩
    · intro l hl
      refine h.current l ?_
      rcases hl with hl | hl | hl
      · exact Or.inl hl
      · exact Or.inr (Or.inl (by simpa [hswap] using Or.inr hl))
      · exact Or.inr (Or.inr hl)
    · intro g l hl
      have hlines := (h.hand g l hl).2.2.2.2.2
      simp [hswap] at hlines
  | @install _ snap raw hswap hraw =>
    obtain ⟨hnone, hminer⟩ := hguard.connecting hswap hraw
    refine ⟨?_, ?_, fun _ => hminer, by simp [Relay.install], fun _ => hminer, fun _ => hminer⟩
    · intro l hl
      simp only [Relay.install, SwapTask.lines, hminer, List.not_mem_nil, false_or] at hl
      rw [installRaw_source hl]
      simp [Relay.install, LineSource.generation?]
    · intro g l hl
      rw [show (r.install snap raw).readers = r.readers from rfl, hnone] at hl
      cases hl

/-! ## What a step queues -/

/-- A line the proxy answers with, or a line of the active upstream that is no
job and no difficulty unless the miner is subscribed. -/
def Queueable (r : Relay) (l : Line) : Prop :=
  (l.source.generation? = none ∧ isPoolWork l.msg = false) ∨
    (l.source.generation? = some r.inner.active.generation ∧
      (isPoolWork l.msg = true → r.inner.subscribed = true))

/-- A step queues nothing, or one line that may be queued now. -/
theorem Holders.queued {r r' : Relay} {e : Event} (h : Holders r) (hgen : Generations r)
    (ht : Transition r e r') :
    r'.toMiner = r.toMiner ∨ ∃ l, r'.toMiner = r.toMiner ++ [l] ∧ Queueable r l := by
  cases ht with
  | quiet hq =>
    rcases hq.toMiner with hto | ⟨msg, hmsg, hto⟩
    · exact Or.inl hto
    · exact Or.inr ⟨_, hto, Or.inl ⟨rfl, hmsg⟩⟩
  | subscribeReply hminer => exact Or.inr ⟨_, rfl, Or.inl ⟨rfl, rfl⟩⟩
  | @minerFlush line rest hminer =>
    refine Or.inr ⟨_, rfl, Or.inr ⟨h.current line (Or.inl (by simp [hminer])), fun _ => ?_⟩⟩
    by_contra hsub
    have hlines := h.unsubscribed (by simpa using hsub)
    simp [hminer] at hlines
  | @swapFlush line rest hswap =>
    have hmem : line ∈ r.swap.lines := by simp [hswap]
    exact Or.inr ⟨_, rfl, Or.inr ⟨h.current line (Or.inr (Or.inl hmem)),
      fun _ => (h.swapping (List.ne_nil_of_mem hmem)).2.2⟩⟩
  | @repointLive g en1 en2 hswap =>
    have hg : g = r.inner.active.generation := hgen.installed g (by simp [hswap])
    exact Or.inr ⟨_, rfl, Or.inr ⟨congrArg some hg, fun hwork => by
      simp [isPoolWork, RpcMessage.setExtranonce, RpcMessage.request] at hwork⟩⟩
  | @forward g line hline =>
    obtain ⟨rfl, hsettled⟩ := h.hand g line hline
    refine Or.inr ⟨_, rfl, Or.inr ⟨?_, fun _ => hsettled.1⟩⟩
    rw [hgen.tagged _ _ hline]
    rfl
  | _ => exact Or.inl rfl

theorem subscribeFirst_append {queue : List Line} {l : Line} (h : SubscribeFirst queue)
    (hl : isPoolWork l.msg = false ∨ ∃ a ∈ queue, a.source = .subscribeReply) :
    SubscribeFirst (queue ++ [l]) := by
  intro x hx
  rw [List.takeWhile_append] at hx
  split at hx
  · rename_i hlen
    have hall := (List.takeWhile_prefix _).eq_of_length hlen
    rcases List.mem_append.mp hx with hx | hx
    · exact h x (hall.symm ▸ hx)
    · obtain rfl : x = l := by simpa using (List.takeWhile_subset _ hx)
      rcases hl with hl | ⟨a, ha, hreply⟩
      · exact hl
      · -- the reply would have ended the prefix
        rw [← hall] at ha
        have hnot := List.all_eq_true.mp List.all_takeWhile a ha
        simp [hreply] at hnot
  · exact h x hx

theorem ascending_append {queue : List Line} {l : Line} (top : Nat) (h : Ascending queue)
    (hle : ∀ a ∈ queue, ∀ g ∈ a.source.generation?, g ≤ top)
    (hl : ∀ g ∈ l.source.generation?, g = top) : Ascending (queue ++ [l]) := by
  refine List.pairwise_append.mpr ⟨h, List.pairwise_singleton _ _, ?_⟩
  intro a ha b hb g hg g' hg'
  rw [List.mem_singleton.mp hb] at hg'
  rw [hl g' hg']
  exact hle a ha g hg

/-! ## The lines of the active upstream -/

@[simp] theorem ofGeneration_append (g : Nat) (xs ys : List Line) :
    ofGeneration g (xs ++ ys) = ofGeneration g xs ++ ofGeneration g ys := by
  simp [ofGeneration]

theorem ofGeneration_singleton {g : Nat} {l : Line} (h : l.source.generation? = some g) :
    ofGeneration g [l] = [l] := by
  simp [ofGeneration, h]

theorem ofGeneration_singleton_ne {g : Nat} {l : Line} (h : l.source.generation? ≠ some g) :
    ofGeneration g [l] = [] := by
  simp [ofGeneration, h]

/-- The lines of one upstream, queued and still on their way. -/
def Relay.flow (r : Relay) (g : Nat) : List Line :=
  ofGeneration g r.toMiner ++ (r.swap.owed ++ (r.miner.lines ++ (r.swap.lines ++
    (r.inner.pendingPrelude ++ (r.readers.lookup g).toList))))

/-- The lines only moved, or the reader added one at the back. -/
def FlowStep (g : Nat) (before after : List Line) : Prop :=
  after = before ∨ ∃ l, l.source = .reader g ∧ after = before ++ [l]

theorem Relay.readerFree_iff {r : Relay} {g : Nat} :
    r.readerFree g = true ↔ r.readers.lookup g = none := by
  simp [Relay.readerFree]

/-- Along a step that installs nothing the lines of the active upstream only
move, and the reader may add one at the back. -/
theorem Holders.flow {r r' : Relay} {e : Event} (h : Holders r) (hgen : Generations r)
    (hguard : KeepsOrder r e) (ht : Transition r e r')
    (hsame : r'.inner.active.generation = r.inner.active.generation) :
    FlowStep r.inner.active.generation (r.flow r.inner.active.generation)
      (r'.flow r.inner.active.generation) := by
  cases ht with
  | install hswap hraw =>
    have hnew := hgen.connecting _ (by rw [hswap]; rfl)
    simp [Relay.install] at hsame
    omega
  | quiet hq =>
    have hqueue : ofGeneration r.inner.active.generation r'.toMiner =
        ofGeneration r.inner.active.generation r.toMiner := by
      rcases hq.toMiner with hto | ⟨msg, _, hto⟩
      · rw [hto]
      · rw [hto, ofGeneration_append, ofGeneration_singleton_ne (by simp [LineSource.generation?]),
          List.append_nil]
    left
    simp only [Relay.flow, hq.swap, hq.miner, hq.stashed, hq.readers, hqueue]
  | subscribeReply hminer =>
    left
    simp [Relay.flow, hminer, ofGeneration_singleton_ne (l := ⟨.subscribeReply, _⟩)
      (show none ≠ some _ by simp)]
  | @minerFlush line rest hminer =>
    have howed : r.swap.owed = [] := by
      by_contra hne
      have hlines := h.owed hne
      simp [hminer] at hlines
    have hline := h.current line (Or.inl (by simp [hminer]))
    left
    simp [Relay.flow, hminer, howed, ofGeneration_singleton hline]
  | @swapFlush line rest hswap =>
    obtain ⟨hminer, _⟩ := h.swapping (by simp [hswap])
    have hline := h.current line (Or.inr (Or.inl (by simp [hswap])))
    left
    simp [Relay.flow, hminer, hswap, ofGeneration_singleton hline]
  | @repointLive g en1 en2 hswap =>
    have hg : g = r.inner.active.generation := hgen.installed g (by simp [hswap])
    left
    simp [Relay.flow, hswap, ofGeneration_singleton (l := ⟨.extranonce g, _⟩) (congrArg some hg)]
  | @forward g line hline =>
    obtain ⟨rfl, hsub, howed, hstash, hminer, hswap⟩ := h.hand g line hline
    have hsource : line.source.generation? = some r.inner.active.generation := by
      rw [hgen.tagged _ _ hline]
      rfl
    left
    simp [Relay.flow, howed, hstash, hminer, hswap, hline, ofGeneration_singleton hsource]
  | takePrelude hswap =>
    left
    simp [Relay.flow, hswap]
  | subscribed hminer =>
    have hlines : r.inner.pendingPrelude = [] ∨ r.swap.lines = [] := by
      by_contra hboth
      rw [not_or] at hboth
      exact hboth.1 (h.swapping hboth.2).2.1
    left
    rcases hlines with hnil | hnil <;> simp [Relay.flow, hminer, hnil]
  | @line msg now hfree hsv1 =>
    obtain ⟨_, _, _, _, hstash, _⟩ :=
      (onUpstreamMsg_same now r.inner.active.generation msg r.inner).fields
    have hnone := Relay.readerFree_iff.mp hfree
    refine Or.inr ⟨⟨.reader r.inner.active.generation, msg⟩, rfl, ?_⟩
    simp [Relay.flow, hstash, hnone]
  | @translateSend msg hsv2 hfree hsub =>
    have hnone := Relay.readerFree_iff.mp hfree
    refine Or.inr ⟨⟨.reader r.inner.active.generation, msg⟩, rfl, ?_⟩
    simp [Relay.flow, hnone]
  | @translateResult g id ok hfree hsv2 =>
    obtain ⟨rfl, _⟩ := hguard
    have hnone := Relay.readerFree_iff.mp hfree
    refine Or.inr ⟨⟨.reader r.inner.active.generation, submitResultLine id ok⟩, rfl, ?_⟩
    simp [Relay.flow, hnone]
  | @translateStash msg hsv2 hsub =>
    -- before the subscribe no reader has a line in hand
    have hnone : r.readers.lookup r.inner.active.generation = none := by
      by_contra hsome
      obtain ⟨l, hl⟩ := Option.ne_none_iff_exists'.mp hsome
      have hsettled := (h.hand _ l hl).2.1
      simp [hsub] at hsettled
    refine Or.inr ⟨⟨.reader r.inner.active.generation, msg⟩, rfl, ?_⟩
    simp [Relay.flow, hnone]
  | subscribe hminer | minerFlushed hminer =>
    left
    simp [Relay.flow, hminer]
  | swapBegin hswap | swapFailed hswap | repointDrop hswap | swapFlushed hswap =>
    left
    simp [Relay.flow, hswap]
  | translateDifficulty hsv2 => exact Or.inl rfl

/-- After an install the new upstream has its extranonce and its handshake on
the way, in this order. -/
theorem install_flow {r : Relay} {snap : SwapSnapshot} {raw : RawUpstream}
    (hgen : Generations r) (hswap : r.swap = .connecting snap)
    (hnone : ∀ g, r.readers.lookup g = none) (hminer : r.miner.lines = [])
    (hcapable : snap.capable = true) :
    FullOrder snap.generation (installRecord snap raw).handshakeLines
      ((r.install snap raw).flow snap.generation) := by
  have hnew := hgen.connecting snap.generation (by simp [hswap])
  have hqueue : ofGeneration snap.generation r.toMiner = [] := by
    simp only [ofGeneration, List.filter_eq_nil_iff, decide_eq_true_eq]
    intro l hl hsource
    have hle := hgen.held l (Or.inl hl) snap.generation hsource
    omega
  cases raw with
  | sv1 conn =>
    refine ⟨⟨.extranonce snap.generation, .setExtranonce conn.extranonce1 conn.extranonce2Size⟩,
      [], rfl, by simp, ?_⟩
    simp [Relay.flow, Relay.install, installRaw, installRecord, hqueue, hminer, hnone, hcapable]
  | sv2 up =>
    refine ⟨⟨.extranonce snap.generation, .setExtranonce up.extranonce1 up.extranonce2Size⟩,
      [], rfl, by simp, ?_⟩
    simp [Relay.flow, Relay.install, installRaw, installRecord, hqueue, hminer, hnone, hcapable]

theorem FullOrder.append {g : Nat} {hs : List RpcMessage} {lines : List Line} {l : Line}
    (h : FullOrder g hs lines) (hl : l.source = .reader g) : FullOrder g hs (lines ++ [l]) := by
  obtain ⟨ext, reads, hext, hreads, rfl⟩ := h
  refine ⟨ext, reads ++ [l], hext, ?_, by simp⟩
  intro x hx
  rcases List.mem_append.mp hx with hx | hx
  · exact hreads x hx
  · rwa [List.mem_singleton.mp hx]

theorem FullOrder.step {g : Nat} {hs : List RpcMessage} {before after : List Line}
    (h : FullOrder g hs before) (hstep : FlowStep g before after) : FullOrder g hs after := by
  rcases hstep with rfl | ⟨l, hl, rfl⟩
  · exact h
  · exact h.append hl

/-! ## The run -/

/-- The order of the queue, and of what is on its way into it. -/
structure OrderInv (r : Relay) : Prop where
  generations : Generations r
  holders : Holders r
  replied : r.inner.subscribed = true ∨ r.miner = .answered →
    ∃ l ∈ r.toMiner, l.source = .subscribeReply
  subscribeFirst : SubscribeFirst r.toMiner
  ascending : Ascending r.toMiner
  known : ∀ i ∈ r.installs, i.generation ≤ r.inner.active.generation
  current : ∀ i ∈ r.installs, i.capable = true → i.generation = r.inner.active.generation →
    FullOrder i.generation i.handshakeLines (r.flow i.generation)
  earlier : ∀ i ∈ r.installs, i.capable = true → i.generation ≠ r.inner.active.generation →
    InSwapOrder i.generation i.handshakeLines (ofGeneration i.generation r.toMiner)

/-- What is queued of an upstream is in order, whether it is the active one or
an earlier one. -/
theorem OrderInv.inSwapOrder {r : Relay} (h : OrderInv r) {i : Install} (hi : i ∈ r.installs)
    (hcapable : i.capable = true) :
    InSwapOrder i.generation i.handshakeLines (ofGeneration i.generation r.toMiner) := by
  by_cases hg : i.generation = r.inner.active.generation
  · exact ⟨_, h.current i hi hcapable hg, List.prefix_append _ _⟩
  · exact h.earlier i hi hcapable hg

/-- A step leaves the installs alone, or is an install. -/
theorem Transition.installs_cases {r r' : Relay} {e : Event} (ht : Transition r e r') :
    (r'.inner.active.generation = r.inner.active.generation ∧ r'.installs = r.installs) ∨
      ∃ answer snap raw, e = .swapConnect answer ∧ r.swap = .connecting snap ∧
        connectRaw snap.target snap.configure (upstreamWorker snap.target.user snap.label)
          answer = some raw ∧ r' = r.install snap raw := by
  cases ht with
  | quiet hq => exact Or.inl ⟨hq.generation, hq.installs⟩
  | install hswap hraw => exact Or.inr ⟨_, _, _, rfl, hswap, hraw, rfl⟩
  | line hfree hsv1 =>
    exact Or.inl ⟨congrArg ActiveUpstream.generation (onUpstreamMsg_same ..).fields.1, rfl⟩
  | _ => exact Or.inl ⟨rfl, rfl⟩

/-- The reply is queued before the session is marked subscribed. -/
theorem Transition.replied {r r' : Relay} {e : Event} (ht : Transition r e r')
    (h : r.inner.subscribed = true ∨ r.miner = .answered →
      ∃ l ∈ r.toMiner, l.source = .subscribeReply)
    (hsub : r'.inner.subscribed = true ∨ r'.miner = .answered) :
    ∃ l ∈ r'.toMiner, l.source = .subscribeReply := by
  have hgrow : (∃ l ∈ r.toMiner, l.source = .subscribeReply) → ∀ x,
      ∃ l ∈ r.toMiner ++ [x], l.source = .subscribeReply := by
    rintro ⟨l, hl, hs⟩ x
    exact ⟨l, List.mem_append_left _ hl, hs⟩
  cases ht with
  | quiet hq =>
    rw [hq.subscribed, hq.miner] at hsub
    rcases hq.toMiner with hto | ⟨msg, _, hto⟩
    · rw [hto]
      exact h hsub
    · rw [hto]
      exact hgrow (h hsub) _
  | subscribeReply hminer => exact ⟨_, List.mem_append_right _ (List.mem_singleton_self _), rfl⟩
  | subscribed hminer => exact h (Or.inr hminer)
  | subscribe hminer => exact h (Or.inl (hsub.resolve_right (by simp)))
  | minerFlushed hminer => exact h (Or.inl (hsub.resolve_right (by simp)))
  | minerFlush hminer => exact hgrow (h (Or.inl (hsub.resolve_right (by simp)))) _
  | swapFlush hswap => exact hgrow (h hsub) _
  | repointLive hswap => exact hgrow (h hsub) _
  | forward hline => exact hgrow (h hsub) _
  | line hfree hsv1 =>
    rw [(onUpstreamMsg_same ..).fields.2.2.2.2.2.2.1] at hsub
    exact h hsub
  | @install _ snap raw hswap hraw =>
    refine h ?_
    cases raw <;> exact hsub
  | _ => exact h hsub

/-- A step that installs nothing. -/
theorem OrderInv.step_same {r r' : Relay} {e : Event} (h : OrderInv r) (hguard : KeepsOrder r e)
    (hstep : step r e = some r')
    (hsame : r'.inner.active.generation = r.inner.active.generation)
    (hinstalls : r'.installs = r.installs) : OrderInv r' := by
  have ht := transition_of_step hstep
  have hflow := h.holders.flow h.generations hguard ht hsame
  have hqueued := h.holders.queued h.generations ht
  refine ⟨h.generations.step hstep, h.holders.step hguard ht, ht.replied h.replied,
    ?_, ?_, ?_, ?_, ?_⟩
  · rcases hqueued with hto | ⟨l, hto, hl⟩
    · rw [hto]
      exact h.subscribeFirst
    · rw [hto]
      refine subscribeFirst_append h.subscribeFirst ?_
      rcases hl with ⟨_, hmsg⟩ | ⟨_, hmsg⟩
      · exact Or.inl hmsg
      · by_cases hwork : isPoolWork l.msg = true
        · exact Or.inr (h.replied (Or.inl (hmsg hwork)))
        · exact Or.inl (by simpa using hwork)
  · rcases hqueued with hto | ⟨l, hto, hl⟩
    · rw [hto]
      exact h.ascending
    · rw [hto]
      refine ascending_append r.inner.active.generation h.ascending
        (fun a ha => h.generations.held a (Or.inl ha)) ?_
      rcases hl with ⟨hnone, _⟩ | ⟨hsome, _⟩
      · simp [hnone]
      · simp [hsome]
  · rw [hinstalls, hsame]
    exact h.known
  · rw [hinstalls, hsame]
    intro i hi hcapable hg
    have hfull := h.current i hi hcapable hg
    rw [hg] at hfull ⊢
    exact hfull.step hflow
  · rw [hinstalls, hsame]
    intro i hi hcapable hg
    have hearlier := h.earlier i hi hcapable hg
    rcases hqueued with hto | ⟨l, hto, hl⟩
    · rwa [hto]
    · have hother : l.source.generation? ≠ some i.generation := by
        rcases hl with ⟨hnone, _⟩ | ⟨hsome, _⟩
        · simp [hnone]
        · rw [hsome]
          simpa using Ne.symm hg
      rw [hto, ofGeneration_append, ofGeneration_singleton_ne hother, List.append_nil]
      exact hearlier

/-- The step lemma. -/
theorem OrderInv.step {r r' : Relay} {e : Event} (h : OrderInv r) (hguard : KeepsOrder r e)
    (hstep : step r e = some r') : OrderInv r' := by
  have ht := transition_of_step hstep
  rcases ht.installs_cases with
    ⟨hsame, hinstalls⟩ | ⟨answer, snap, raw, rfl, hswap, hraw, rfl⟩
  · exact h.step_same hguard hstep hsame hinstalls
  obtain ⟨hnone, hminer⟩ := hguard.connecting hswap hraw
  have hnew := h.generations.connecting snap.generation (by simp [hswap])
  have hg : (r.install snap raw).inner.active.generation = snap.generation := by
    simp [Relay.install]
  have holder : ∀ i ∈ r.installs, i.generation < snap.generation :=
    fun i hi => (h.known i hi).trans_lt hnew.1
  refine ⟨h.generations.step hstep, h.holders.step hguard ht, ht.replied h.replied,
    h.subscribeFirst, h.ascending, ?_, ?_, ?_⟩
  · rw [hg]
    intro i hi
    rcases List.mem_append.mp hi with hi | hi
    · exact (holder i hi).le
    · rw [List.mem_singleton.mp hi]
      exact le_rfl
  · rw [hg]
    intro i hi hcapable hgi
    rcases List.mem_append.mp hi with hi | hi
    · exact absurd hgi (holder i hi).ne
    · obtain rfl := List.mem_singleton.mp hi
      exact install_flow h.generations hswap hnone hminer hcapable
  · rw [hg]
    intro i hi hcapable hgi
    rcases List.mem_append.mp hi with hi | hi
    · exact h.inSwapOrder hi hcapable
    · obtain rfl := List.mem_singleton.mp hi
      exact absurd rfl hgi

/-- The bootstrap session. -/
theorem OrderInv.start {target : UpstreamTarget} {peer : String} {orders : WorkBuffer}
    {answer : PoolAnswer} {r : Relay} (h : start target peer orders answer = some r) :
    OrderInv r := by
  have hgen := Generations.start h
  simp only [Sv1.start, Option.map_eq_some_iff] at h
  obtain ⟨raw, _, rfl⟩ := h
  have hsub : (installRaw raw bootstrapGeneration target .idle
      (bootstrap target peer)).1.subscribed = false := by
    cases raw <;> rfl
  refine ⟨hgen, ⟨?_, by simp, by simp, by simp, by simp, by simp⟩, ?_, by simp [SubscribeFirst],
    List.Pairwise.nil, by simp, by simp, by simp⟩
  · intro l hl
    have hstash : l ∈ (installRaw raw bootstrapGeneration target .idle
        (bootstrap target peer)).1.pendingPrelude := by
      simpa using hl
    rw [installRaw_source hstash]
    simp [LineSource.generation?]
  · simp [hsub]

/-- Along a run whose steps keep the order, no job and no difficulty precedes
the subscribe reply, every live switch shows its lines in order, and no line of
an older upstream follows one of a newer. -/
theorem lines_in_order {r : Relay} (hrun : ReachesUnder KeepsOrder r) :
    SubscribeFirst r.toMiner ∧ Ascending r.toMiner ∧ ∀ i ∈ r.installs, i.capable = true →
      InSwapOrder i.generation i.handshakeLines (ofGeneration i.generation r.toMiner) := by
  have hinv : OrderInv r := hrun.invariant (fun _ _ _ _ _ h => .start h)
    fun _ _ _ hx hguard hstep => hx.step hguard hstep
  exact ⟨hinv.subscribeFirst, hinv.ascending, fun i hi => hinv.inSwapOrder hi⟩

/-- A live switch, up to its install. -/
def switchEvents : List Event :=
  [.minerExtranonceSubscribe (.request .null "mining.extranonce.subscribe" (.arr [])),
    .swapBegin ⟨"buyer:3333", "bc1p", "", none⟩ .idle, .swapConnect (eagerPool 64)]

/-- A job of the pool. -/
def notifyLine : RpcMessage := .request .null "mining.notify" (.arr [.str "job"])

/-- A live switch of a subscribed miner, with a first job of the new pool. -/
theorem lines_in_order_switch :
    ∃ r, ReachesUnder KeepsOrder r ∧
      r.toMiner.map Line.source = [.subscribeReply, .handshake 1, .reply, .extranonce 2,
        .handshake 2, .reader 2] ∧
      SubscribeFirst r.toMiner ∧ Ascending r.toMiner ∧ ∀ i ∈ r.installs, i.capable = true →
        InSwapOrder i.generation i.handshakeLines (ofGeneration i.generation r.toMiner) := by
  obtain ⟨r₀, hstart, hrun⟩ := run_of_eager (G := KeepsOrder) 1
    (subscribeEvents ++ (switchEvents ++ [.swapRepoint, .swapTakePrelude, .swapFlush,
      .swapFlush, .upstreamLine 2 notifyLine 0, .readerForward 2])) rfl
  have hreach : ReachesUnder KeepsOrder _ := ⟨_, _, _, _, r₀, hstart, hrun⟩
  exact ⟨_, hreach, rfl, lines_in_order hreach⟩

instance (queue : List Line) : Decidable (SubscribeFirst queue) :=
  inferInstanceAs (Decidable (∀ l ∈ queue.takeWhile _, _))

instance (queue : List Line) : Decidable (Ascending queue) :=
  inferInstanceAs (Decidable (queue.Pairwise _))

/-- Two runs with the wrong order.  In the first the passthrough reader queues
a job before the miner subscribes.  In the second the reader of the old pool has
passed the generation check when the switch installs, and queues its job after
the new extranonce. -/
theorem lines_out_of_order :
    (∃ r, Reaches r ∧ r.toMiner = [⟨.reader 1, notifyLine⟩] ∧ ¬SubscribeFirst r.toMiner) ∧
      ∃ r, Reaches r ∧ (∃ i ∈ r.installs, i.capable = true ∧ i.generation = 2) ∧
        r.toMiner.map Line.source =
          [.subscribeReply, .handshake 1, .reply, .extranonce 2, .reader 1] ∧
        ¬Ascending r.toMiner := by
  constructor
  · obtain ⟨r₀, hstart, hrun⟩ := run_of_eager (G := fun _ _ => True) 1
      ([.upstreamLine 1 notifyLine 0, .readerForward 1]) rfl
    exact ⟨_, ⟨_, _, _, _, r₀, hstart, hrun⟩, rfl, by decide⟩
  · obtain ⟨r₀, hstart, hrun⟩ := run_of_eager (G := fun _ _ => True) 1
      (subscribeEvents ++ (.upstreamLine 1 notifyLine 0 :: switchEvents ++
        [.swapRepoint, .readerForward 1])) rfl
    exact ⟨_, ⟨_, _, _, _, r₀, hstart, hrun⟩, ⟨_, List.mem_singleton_self _, rfl, rfl⟩, rfl,
      by decide⟩

end RentalProxy.Sv1
