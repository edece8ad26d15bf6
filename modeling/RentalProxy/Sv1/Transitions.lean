import RentalProxy.Lib.Tables
import RentalProxy.Sv1.Tasks

/-!
# The SV1 relay: what a step can do

`Transition r e r'` lists what one step of a session can do, with the guards
it was taken under and the state it leaves.  `transition_of_step` is the one
place where `step` is taken apart; every invariant of a session is a case
analysis of `Transition`.

Steps that touch neither a difficulty, nor a prelude, nor a reader, nor the
state of a swap are one case, `Quiet`.  A quiet step may queue an answer of
the miner loop, and such an answer is never a notification of a pool.
-/

namespace RentalProxy.Sv1

/-- A line the pool sends unasked: a job or a difficulty. -/
def isPoolWork (msg : RpcMessage) : Bool :=
  decide (msg.method = some "mining.notify") ||
    decide (msg.method = some "mining.set_difficulty")

/-- A step that leaves the upstream side of the session alone. -/
structure Quiet (r r' : Relay) : Prop where
  generation : r'.inner.active.generation = r.inner.active.generation
  counter : r'.inner.generationCounter = r.inner.generationCounter
  translating : r'.inner.translating = r.inner.translating
  subscribed : r'.inner.subscribed = r.inner.subscribed
  difficulty : r'.inner.currentDifficulty = r.inner.currentDifficulty
  stashed : r'.inner.pendingPrelude = r.inner.pendingPrelude
  swap : r'.swap = r.swap
  miner : r'.miner = r.miner
  readers : r'.readers = r.readers
  installs : r'.installs = r.installs
  toMiner : r'.toMiner = r.toMiner ∨
    ∃ msg, isPoolWork msg = false ∧ r'.toMiner = r.toMiner ++ [⟨.reply, msg⟩]

/-- What one step can do. -/
inductive Transition (r : Relay) : Event → Relay → Prop where
  | quiet {e : Event} {r' : Relay} (h : Quiet r r') : Transition r e r'
  | subscribe {msg : RpcMessage} (hminer : r.miner = .ready) :
      Transition r (.minerSubscribe msg) { r with
        miner := .subscribing msg.id r.inner.extranonce1 r.inner.extranonce2Size }
  | subscribeReply {id : Option Value} {en1 : String} {en2 : Nat}
      (hminer : r.miner = .subscribing id en1 en2) :
      Transition r .minerSubscribeReply ({ r with miner := .answered }.queue
        ⟨.subscribeReply, okReply id (subscribeResult en1 en2)⟩)
  | subscribed (hminer : r.miner = .answered) :
      Transition r .minerSubscribed { r with
        inner := { r.inner with subscribed := true, pendingPrelude := [] }
        miner := .flushing r.inner.pendingPrelude }
  | minerFlushed (hminer : r.miner = .flushing []) :
      Transition r .minerFlush { r with miner := .ready }
  | minerFlush {line : Line} {rest : List Line} (hminer : r.miner = .flushing (line :: rest)) :
      Transition r .minerFlush ({ r with miner := .flushing rest }.queue line)
  | swapBegin {target : UpstreamTarget} {routing : Routing} (hswap : r.swap = .idle) :
      Transition r (.swapBegin target routing) { r with
        inner := { r.inner with generationCounter := r.inner.generationCounter + 1 }
        swap := .connecting {
          target, routing, configure := r.inner.configure
          capable := r.inner.extranonceCapable
          generation := r.inner.generationCounter + 1, label := r.inner.label } }
  | swapFailed {answer : PoolAnswer} {snap : SwapSnapshot} (hswap : r.swap = .connecting snap) :
      Transition r (.swapConnect answer) { r with swap := .idle }
  | install {answer : PoolAnswer} {snap : SwapSnapshot} {raw : RawUpstream}
      (hswap : r.swap = .connecting snap)
      (hraw : connectRaw snap.target snap.configure
        (upstreamWorker snap.target.user snap.label) answer = some raw) :
      Transition r (.swapConnect answer) (r.install snap raw)
  | repointLive {g : Nat} {en1 : String} {en2 : Nat}
      (hswap : r.swap = .installed g true en1 en2) :
      Transition r .swapRepoint ({ r with swap := .repointed g }.queue
        ⟨.extranonce g, .setExtranonce en1 en2⟩)
  | repointDrop {g : Nat} {en1 : String} {en2 : Nat}
      (hswap : r.swap = .installed g false en1 en2) :
      Transition r .swapRepoint { r with swap := .repointed g, reconnects := r.reconnects + 1 }
  | takePrelude {g : Nat} (hswap : r.swap = .repointed g) :
      Transition r .swapTakePrelude { r with
        inner := { r.inner with pendingPrelude := [] }
        swap := .flushing r.inner.pendingPrelude }
  | swapFlushed (hswap : r.swap = .flushing []) :
      Transition r .swapFlush { r with swap := .idle }
  | swapFlush {line : Line} {rest : List Line} (hswap : r.swap = .flushing (line :: rest)) :
      Transition r .swapFlush ({ r with swap := .flushing rest }.queue line)
  | line {msg : RpcMessage} {now : Rat}
      (hfree : r.readerFree r.inner.active.generation = true)
      (hsv1 : r.inner.translating = false) :
      Transition r (.upstreamLine r.inner.active.generation msg now) { r with
        inner := (onUpstreamMsg now r.inner.active.generation msg r.inner).1
        orders := r.orders.credit
          (onUpstreamMsg now r.inner.active.generation msg r.inner).2.1
        readers := r.readers.insert r.inner.active.generation
          ⟨.reader r.inner.active.generation, msg⟩ }
  | forward {g : Nat} {line : Line} (hline : r.readers.lookup g = some line) :
      Transition r (.readerForward g)
        ({ r with readers := r.readers.erase g }.queue line)
  | translateDifficulty {diff : Rat} (hsv2 : r.inner.translating = true) :
      Transition r (.translateDifficulty r.inner.active.generation diff)
        { r with inner := { r.inner with currentDifficulty := diff } }
  | translateSend {msg : RpcMessage} (hsv2 : r.inner.translating = true)
      (hfree : r.readerFree r.inner.active.generation = true)
      (hsub : r.inner.subscribed = true) :
      Transition r (.translateLine r.inner.active.generation msg) { r with
        readers := r.readers.insert r.inner.active.generation
          ⟨.reader r.inner.active.generation, msg⟩ }
  | translateStash {msg : RpcMessage} (hsv2 : r.inner.translating = true)
      (hsub : r.inner.subscribed = false) :
      Transition r (.translateLine r.inner.active.generation msg) { r with
        inner := { r.inner with pendingPrelude := r.inner.pendingPrelude ++
          [⟨.reader r.inner.active.generation, msg⟩] } }
  | translateResult {g : Nat} {id : Option Value} {ok : Bool}
      (hfree : r.readerFree g = true) (hsv2 : r.translateReader g = true) :
      Transition r (.translateResult g id ok) { r with
        readers := r.readers.insert g ⟨.reader g, submitResultLine id ok⟩ }

/-- A step that changes the session around the accounting and around what the
miner told, and queues nothing, is quiet. -/
theorem Quiet.of_same {r : Relay} {inner : Inner} {orders : WorkBuffer}
    (h : r.inner.SameSession inner)
    (hdiff : inner.currentDifficulty = r.inner.currentDifficulty) :
    Quiet r { r with inner, orders } := by
  obtain ⟨hactive, hcounter, _, _, hstash, htrans, hsub, _⟩ := h.fields
  exact ⟨by rw [hactive], hcounter, htrans, hsub, hdiff, hstash, rfl, rfl, rfl, rfl, Or.inl rfl⟩

theorem onMinerMsg_quiet (r : Relay) (msg : RpcMessage) (orders : WorkBuffer) :
    Quiet r { r with inner := (onMinerMsg msg r.inner).1, orders } := by
  unfold onMinerMsg
  split_ifs <;>
    exact ⟨rfl, rfl, rfl, rfl, rfl, rfl, rfl, rfl, rfl, rfl, Or.inl rfl⟩

theorem creditTranslateAccepted_difficulty (now : Rat) (g n : Nat) (i : Inner) :
    (creditTranslateAccepted now g n i).1.currentDifficulty = i.currentDifficulty := by
  unfold creditTranslateAccepted
  split_ifs
  · rfl
  · dsimp only
    split <;> simp

/-- A step of the miner loop that only answers. -/
theorem Quiet.reply (r : Relay) (msg : RpcMessage) (h : isPoolWork msg = false)
    {inner : Inner} (hinner : ∃ c x l, inner =
      { r.inner with configure := c, extranonceCapable := x, label := l }) :
    Quiet r ({ r with inner }.queue ⟨.reply, msg⟩) := by
  obtain ⟨c, x, l, rfl⟩ := hinner
  exact ⟨rfl, rfl, rfl, rfl, rfl, rfl, rfl, rfl, rfl, rfl, Or.inr ⟨msg, h, rfl⟩⟩

private theorem quiet_rfl (r : Relay) : Quiet r r :=
  ⟨rfl, rfl, rfl, rfl, rfl, rfl, rfl, rfl, rfl, rfl, Or.inl rfl⟩

private theorem transition_upstreamLine {r r' : Relay} {g : Nat} {msg : RpcMessage} {now : Rat}
    (h : step r (.upstreamLine g msg now) = some r') :
    Transition r (.upstreamLine g msg now) r' := by
  simp only [step] at h
  split at h
  · rename_i hguard
    rw [Bool.and_eq_true] at hguard
    obtain ⟨hfree, hreader⟩ := hguard
    by_cases hg : g = r.inner.active.generation
    · subst hg
      rw [onUpstreamMsg_forward rfl] at h
      cases h
      exact .line hfree (by simpa [Relay.passthroughReader] using hreader)
    · rw [onUpstreamMsg_stale hg] at h
      cases h
      exact .quiet (quiet_rfl r)
  · cases h

private theorem transition_translateLine {r r' : Relay} {g : Nat} {msg : RpcMessage}
    (h : step r (.translateLine g msg) = some r') :
    Transition r (.translateLine g msg) r' := by
  simp only [step] at h
  split at h
  · rename_i hguard
    rw [Bool.and_eq_true] at hguard
    obtain ⟨hfree, hreader⟩ := hguard
    by_cases hg : g = r.inner.active.generation
    · subst hg
      have hsv2 : r.inner.translating = true := by
        simpa [Relay.translateReader] using hreader
      by_cases hsub : r.inner.subscribed = true
      · rw [sendOrStash_send hsub] at h
        cases h
        exact .translateSend hsv2 hfree hsub
      · rw [sendOrStash_stash (by simpa using hsub)] at h
        cases h
        exact .translateStash hsv2 (by simpa using hsub)
    · rw [sendOrStash_stale hg] at h
      cases h
      exact .quiet (quiet_rfl r)
  · cases h

private theorem transition_translateDifficulty {r r' : Relay} {g : Nat} {diff : Rat}
    (h : step r (.translateDifficulty g diff) = some r') :
    Transition r (.translateDifficulty g diff) r' := by
  simp only [step] at h
  split at h
  · rename_i hguard
    rw [Bool.and_eq_true] at hguard
    by_cases hg : g = r.inner.active.generation
    · subst hg
      simp only [setTranslateDifficulty, ne_eq, not_true, if_false] at h
      cases h
      exact .translateDifficulty (by simpa [Relay.translateReader] using hguard.2)
    · simp only [setTranslateDifficulty, ne_eq, hg, not_false_eq_true, if_true] at h
      cases h
      exact .quiet (quiet_rfl r)
  · cases h

private theorem transition_swapConnect {r r' : Relay} {answer : PoolAnswer}
    (h : step r (.swapConnect answer) = some r') :
    Transition r (.swapConnect answer) r' := by
  simp only [step] at h
  split at h
  · rename_i snap hswap
    split at h
    · cases h
      exact .swapFailed hswap
    · rename_i raw hraw
      cases h
      exact .install hswap hraw
  · cases h

/-- What a step can do, in one place. -/
theorem transition_of_step {r r' : Relay} {e : Event} (h : step r e = some r') :
    Transition r e r' := by
  cases e with
  | upstreamLine g msg now => exact transition_upstreamLine h
  | translateLine g msg => exact transition_translateLine h
  | translateDifficulty g diff => exact transition_translateDifficulty h
  | swapConnect answer => exact transition_swapConnect h
  | minerConfigure msg =>
    simp only [step] at h
    split at h
    · split at h <;> cases h
      exact .quiet (Quiet.reply r _ (by rfl) ⟨_, _, _, rfl⟩)
    · cases h
  | minerSubscribe msg =>
    simp only [step] at h; split at h <;> cases h
    exact .subscribe ‹_›
  | minerSubscribeReply =>
    simp only [step] at h; split at h <;> cases h
    exact .subscribeReply ‹_›
  | minerSubscribed =>
    simp only [step] at h; split at h <;> cases h
    exact .subscribed ‹_›
  | minerFlush =>
    simp only [step] at h; split at h <;> cases h
    · exact .minerFlushed ‹_›
    · exact .minerFlush ‹_›
  | minerExtranonceSubscribe msg =>
    simp only [step] at h; split at h <;> cases h
    exact .quiet (Quiet.reply r _ (by rfl) ⟨_, _, _, rfl⟩)
  | minerAuthorize worker id =>
    simp only [step] at h; split at h <;> cases h
    exact .quiet (Quiet.reply r _ (by rfl) ⟨_, _, _, rfl⟩)
  | minerReject id =>
    simp only [step] at h; split at h <;> cases h
    exact .quiet (Quiet.reply r _ (by rfl) ⟨_, _, _, rfl⟩)
  | minerClientReconnect =>
    simp only [step] at h; split at h <;> cases h
    exact .quiet (Quiet.reply r _ (by decide) ⟨_, _, _, rfl⟩)
  | minerMsg msg =>
    simp only [step] at h; split at h <;> cases h
    exact .quiet (onMinerMsg_quiet r msg _)
  | attachOrder o =>
    cases h
    exact .quiet ⟨rfl, rfl, rfl, rfl, rfl, rfl, rfl, rfl, rfl, rfl, Or.inl rfl⟩
  | setDefault target =>
    cases h
    exact .quiet ⟨rfl, rfl, rfl, rfl, rfl, rfl, rfl, rfl, rfl, rfl, Or.inl rfl⟩
  | swapBegin target routing =>
    simp only [step] at h; split at h <;> cases h
    exact .swapBegin ‹_›
  | swapRepoint =>
    simp only [step] at h; split at h <;> cases h
    · exact .repointLive ‹_›
    · exact .repointDrop ‹_›
  | swapTakePrelude =>
    simp only [step] at h; split at h <;> cases h
    exact .takePrelude ‹_›
  | swapFlush =>
    simp only [step] at h; split at h <;> cases h
    · exact .swapFlushed ‹_›
    · exact .swapFlush ‹_›
  | readerForward g =>
    simp only [step] at h; split at h <;> cases h
    exact .forward ‹_›
  | translateCredit g n now =>
    simp only [step] at h; split at h <;> cases h
    exact .quiet (Quiet.of_same (creditTranslateAccepted_same ..)
      (creditTranslateAccepted_difficulty ..))
  | translateResult g id ok =>
    simp only [step] at h
    split at h
    · rename_i hguard
      rw [Bool.and_eq_true] at hguard
      cases h
      exact .translateResult hguard.1 hguard.2
    · cases h

/-! ## Generations -/

/-- The upstream a line belongs to. -/
def LineSource.generation? : LineSource → Option Nat
  | .extranonce g | .handshake g | .reader g => some g
  | .reply | .subscribeReply => none

/-- The lines the miner loop is about to queue. -/
def MinerTask.lines : MinerTask → List Line
  | .flushing lines => lines
  | .ready => []
  | .subscribing .. => []
  | .answered => []

/-- The lines the swap is about to queue. -/
def SwapTask.lines : SwapTask → List Line
  | .flushing lines => lines
  | .idle => []
  | .connecting _ => []
  | .installed .. => []
  | .repointed _ => []

@[simp] theorem MinerTask.lines_flushing (ls : List Line) : (flushing ls).lines = ls := rfl
@[simp] theorem MinerTask.lines_ready : ready.lines = [] := rfl
@[simp] theorem MinerTask.lines_answered : answered.lines = [] := rfl
@[simp] theorem MinerTask.lines_subscribing (id : Option Value) (en1 : String) (en2 : Nat) :
    (subscribing id en1 en2).lines = [] := rfl

@[simp] theorem SwapTask.lines_flushing (ls : List Line) : (flushing ls).lines = ls := rfl
@[simp] theorem SwapTask.lines_idle : idle.lines = [] := rfl
@[simp] theorem SwapTask.lines_connecting (s : SwapSnapshot) : (connecting s).lines = [] := rfl
@[simp] theorem SwapTask.lines_repointed (g : Nat) : (repointed g).lines = [] := rfl
@[simp] theorem SwapTask.lines_installed (g : Nat) (capable : Bool) (en1 : String) (en2 : Nat) :
    (installed g capable en1 en2).lines = [] := rfl

/-- The line is somewhere in the session: queued, stashed, or in the hands of
a task. -/
def Relay.Holds (r : Relay) (l : Line) : Prop :=
  l ∈ r.toMiner ∨ l ∈ r.miner.lines ∨ l ∈ r.swap.lines ∨ l ∈ r.inner.pendingPrelude ∨
    ∃ g, r.readers.lookup g = some l

/-- The generation a swap is about to install. -/
@[simp] def SwapTask.connecting? : SwapTask → Option Nat
  | .connecting snap => some snap.generation
  | .idle => none
  | .installed .. => none
  | .repointed _ => none
  | .flushing _ => none

/-- The generation a swap has installed and not finished re-pointing. -/
@[simp] def SwapTask.installed? : SwapTask → Option Nat
  | .installed g .. => some g
  | .repointed g => some g
  | .idle => none
  | .connecting _ => none
  | .flushing _ => none

/-- No line belongs to an upstream that is still to be installed, a reader has
lines of its own upstream only, and a swap installs a generation that was never
used. -/
structure Generations (r : Relay) : Prop where
  held : ∀ l, r.Holds l → ∀ g ∈ l.source.generation?, g ≤ r.inner.active.generation
  tagged : ∀ g l, r.readers.lookup g = some l → l.source = .reader g
  counter : r.inner.active.generation ≤ r.inner.generationCounter
  connecting : ∀ g ∈ r.swap.connecting?,
    r.inner.active.generation < g ∧ g ≤ r.inner.generationCounter
  installed : ∀ g ∈ r.swap.installed?, g = r.inner.active.generation

@[simp] theorem installRaw_generation (raw : RawUpstream) (g : Nat) (t : UpstreamTarget)
    (ro : Routing) (i : Inner) : (installRaw raw g t ro i).1.active.generation = g := by
  cases raw <;> rfl

@[simp] theorem installRaw_counter (raw : RawUpstream) (g : Nat) (t : UpstreamTarget)
    (ro : Routing) (i : Inner) :
    (installRaw raw g t ro i).1.generationCounter = i.generationCounter := by
  cases raw <;> rfl

/-- The prelude after an install is what the new pool sent in the handshake. -/
theorem installRaw_source {raw : RawUpstream} {g : Nat} {t : UpstreamTarget} {ro : Routing}
    {i : Inner} {l : Line} (h : l ∈ (installRaw raw g t ro i).1.pendingPrelude) :
    l.source = .handshake g := by
  cases raw with
  | sv1 conn =>
      simp only [installRaw, List.mem_map] at h
      obtain ⟨_, _, rfl⟩ := h
      rfl
  | sv2 up =>
      simp only [installRaw, List.mem_singleton] at h
      rw [h]

/-- The lines that a step may bring into the session. -/
def Relay.writes (r : Relay) : Event → List Line
  | .minerConfigure msg => [⟨.reply, okReply msg.id configureResult⟩]
  | .minerSubscribeReply => match r.miner with
    | .subscribing id en1 en2 => [⟨.subscribeReply, okReply id (subscribeResult en1 en2)⟩]
    | _ => []
  | .minerExtranonceSubscribe msg => [⟨.reply, okReply msg.id (.bool true)⟩]
  | .minerAuthorize _ id => [⟨.reply, okReply id (.bool true)⟩]
  | .minerReject id => [⟨.reply, rejectReply id⟩]
  | .minerClientReconnect => [⟨.reply, .clientReconnect "" 0 1⟩]
  | .swapConnect answer => match r.swap with
    | .connecting snap => match connectRaw snap.target snap.configure
        (upstreamWorker snap.target.user snap.label) answer with
      | some raw => (r.install snap raw).inner.pendingPrelude
      | none => []
    | _ => []
  | .swapRepoint => match r.swap with
    | .installed g true en1 en2 => [⟨.extranonce g, .setExtranonce en1 en2⟩]
    | _ => []
  | .upstreamLine g msg _ => if g = r.inner.active.generation then [⟨.reader g, msg⟩] else []
  | .translateLine g msg => [⟨.reader g, msg⟩]
  | .translateResult g id ok => [⟨.reader g, submitResultLine id ok⟩]
  | _ => []

theorem Relay.holds_queue {r : Relay} {l l' : Line} :
    (r.queue l').Holds l ↔ l = l' ∨ r.Holds l := by
  simp only [Relay.Holds, Relay.queue_toMiner, Relay.queue_miner, Relay.queue_swap,
    Relay.queue_inner, Relay.queue_readers, List.mem_append, List.mem_singleton]
  tauto

/-- A step that queues one line to a session with no line more than before. -/
theorem Relay.holds_of_queue {r r' : Relay} {e : Event} {l l' : Line}
    (hl : (r'.queue l').Holds l) (hwrites : l' ∈ r.writes e) (hold : r'.Holds l → r.Holds l) :
    r.Holds l ∨ l ∈ r.writes e := by
  rcases Relay.holds_queue.mp hl with rfl | hl
  · exact Or.inr hwrites
  · exact Or.inl (hold hl)

/-- A step that puts one line into the hands of a reader. -/
theorem Relay.holds_of_reader {r r' : Relay} {e : Event} {l l' : Line} {g : Nat}
    (hl : r'.Holds l) (hto : r'.toMiner = r.toMiner) (hminer : r'.miner = r.miner)
    (hswap : r'.swap = r.swap) (hstash : r'.inner.pendingPrelude = r.inner.pendingPrelude)
    (hreaders : r'.readers = r.readers.insert g l') (hwrites : l' ∈ r.writes e) :
    r.Holds l ∨ l ∈ r.writes e := by
  unfold Relay.Holds at hl ⊢
  rw [hto, hminer, hswap, hstash, hreaders] at hl
  rcases hl with hl | hl | hl | hl | ⟨g', hl⟩
  · exact Or.inl (Or.inl hl)
  · exact Or.inl (Or.inr (Or.inl hl))
  · exact Or.inl (Or.inr (Or.inr (Or.inl hl)))
  · exact Or.inl (Or.inr (Or.inr (Or.inr (Or.inl hl))))
  · rcases KeyedTable.lookup_insert_cases hl with ⟨_, rfl⟩ | ⟨_, hl⟩
    · exact Or.inr hwrites
    · exact Or.inl (Or.inr (Or.inr (Or.inr (Or.inr ⟨g', hl⟩))))

/-- A step that only changes what the session knows. -/
theorem Relay.holds_of_same {r r' : Relay} {l : Line} (hl : r'.Holds l)
    (hto : r'.toMiner = r.toMiner) (hminer : r'.miner = r.miner) (hswap : r'.swap = r.swap)
    (hstash : r'.inner.pendingPrelude = r.inner.pendingPrelude)
    (hreaders : r'.readers = r.readers) : r.Holds l := by
  unfold Relay.Holds at hl ⊢
  rwa [hto, hminer, hswap, hstash, hreaders] at hl

/-- Every line after a step was there before it, or is one that the step writes. -/
theorem holds_of_step {r r' : Relay} {e : Event} {l : Line} (h : step r e = some r')
    (hl : r'.Holds l) : r.Holds l ∨ l ∈ r.writes e := by
  cases e with
  -- the miner loop answers
  | minerConfigure msg =>
    simp only [step] at h
    split at h
    · split at h <;> cases h
      exact Relay.holds_of_queue hl List.mem_cons_self id
    · cases h
  | minerSubscribeReply =>
    simp only [step] at h
    split at h <;> cases h
    rename_i hminer
    refine Relay.holds_of_queue hl (by simp [Relay.writes, hminer]) fun hold => ?_
    simpa [Relay.Holds, hminer] using hold
  | minerExtranonceSubscribe msg =>
    simp only [step] at h
    split at h <;> cases h
    exact Relay.holds_of_queue hl List.mem_cons_self id
  | minerAuthorize worker id' =>
    simp only [step] at h
    split at h <;> cases h
    exact Relay.holds_of_queue hl List.mem_cons_self id
  | minerReject id' =>
    simp only [step] at h
    split at h <;> cases h
    exact Relay.holds_of_queue hl List.mem_cons_self id
  | minerClientReconnect =>
    simp only [step] at h
    split at h <;> cases h
    exact Relay.holds_of_queue hl List.mem_cons_self id
  -- a swap installs an upstream and tells the miner
  | swapConnect answer =>
    simp only [step] at h
    split at h
    · rename_i snap hswap
      split at h
      · cases h
        exact Or.inl (by simpa [Relay.Holds, hswap] using hl)
      · rename_i raw hraw
        cases h
        simp only [Relay.Holds, Relay.install, hswap, SwapTask.lines_connecting,
          SwapTask.lines_installed, Relay.writes, hraw] at hl ⊢
        tauto
    · cases h
  | swapRepoint =>
    simp only [step] at h
    split at h <;> cases h
    · rename_i g en1 en2 hswap
      refine Relay.holds_of_queue hl (by simp [Relay.writes, hswap]) fun hold => ?_
      simpa [Relay.Holds, hswap] using hold
    · rename_i hswap
      exact Or.inl (by simpa [Relay.Holds, hswap] using hl)
  -- a reader has a line for the miner
  | upstreamLine g msg now =>
    simp only [step] at h
    split at h
    · by_cases hg : g = r.inner.active.generation
      · rw [onUpstreamMsg_forward hg] at h
        cases h
        exact Relay.holds_of_reader hl rfl rfl rfl
          (onUpstreamMsg_same now g msg r.inner).fields.2.2.2.2.1 rfl (by simp [Relay.writes, hg])
      · rw [onUpstreamMsg_stale hg] at h
        cases h
        exact Or.inl hl
    · cases h
  | translateLine g msg =>
    simp only [step] at h
    split at h
    · by_cases hg : g = r.inner.active.generation
      · by_cases hsub : r.inner.subscribed = true
        · rw [hg, sendOrStash_send hsub] at h
          cases h
          exact Relay.holds_of_reader hl rfl rfl rfl rfl rfl (by simp [Relay.writes, hg])
        · rw [hg, sendOrStash_stash (by simpa using hsub)] at h
          cases h
          simp only [Relay.Holds, List.mem_append, List.mem_singleton, Relay.writes, hg] at hl ⊢
          tauto
      · rw [sendOrStash_stale hg] at h
        cases h
        exact Or.inl hl
    · cases h
  | translateResult g id' ok =>
    simp only [step] at h
    split at h <;> cases h
    exact Relay.holds_of_reader hl rfl rfl rfl rfl rfl List.mem_cons_self
  | readerForward g =>
    simp only [step] at h
    split at h <;> cases h
    rename_i line hline
    rcases Relay.holds_queue.mp hl with rfl | hl
    · exact Or.inl (Or.inr (Or.inr (Or.inr (Or.inr ⟨g, hline⟩))))
    · rcases hl with hl | hl | hl | hl | ⟨g', hl⟩
      · exact Or.inl (Or.inl hl)
      · exact Or.inl (Or.inr (Or.inl hl))
      · exact Or.inl (Or.inr (Or.inr (Or.inl hl)))
      · exact Or.inl (Or.inr (Or.inr (Or.inr (Or.inl hl))))
      · exact Or.inl (Or.inr (Or.inr (Or.inr (Or.inr
          ⟨g', (KeyedTable.lookup_of_lookup_erase hl).2⟩))))
  -- a line goes from one holder to the next
  | minerSubscribe msg =>
    simp only [step] at h
    split at h <;> cases h
    rename_i hminer
    exact Or.inl (by simpa [Relay.Holds, hminer] using hl)
  | minerSubscribed =>
    simp only [step] at h
    split at h <;> cases h
    rename_i hminer
    simp only [Relay.Holds, hminer, MinerTask.lines_flushing, MinerTask.lines_answered] at hl ⊢
    tauto
  | minerFlush =>
    simp only [step] at h
    split at h <;> cases h
    · rename_i hminer
      exact Or.inl (by simpa [Relay.Holds, hminer] using hl)
    · rename_i line rest hminer
      simp only [Relay.holds_queue] at hl
      simp only [Relay.Holds, hminer, MinerTask.lines_flushing, List.mem_cons] at hl ⊢
      tauto
  | swapBegin target routing =>
    simp only [step] at h
    split at h <;> cases h
    rename_i hswap
    exact Or.inl (by simpa [Relay.Holds, hswap] using hl)
  | swapTakePrelude =>
    simp only [step] at h
    split at h <;> cases h
    rename_i hswap
    simp only [Relay.Holds, hswap, SwapTask.lines_flushing, SwapTask.lines_repointed] at hl ⊢
    tauto
  | swapFlush =>
    simp only [step] at h
    split at h <;> cases h
    · rename_i hswap
      exact Or.inl (by simpa [Relay.Holds, hswap] using hl)
    · rename_i line rest hswap
      simp only [Relay.holds_queue] at hl
      simp only [Relay.Holds, hswap, SwapTask.lines_flushing, List.mem_cons] at hl ⊢
      tauto
  -- the session only learns or counts
  | minerMsg msg =>
    simp only [step] at h
    split at h <;> cases h
    exact Or.inl (Relay.holds_of_same hl rfl rfl rfl (onMinerMsg_quiet r msg ∅).stashed rfl)
  | attachOrder o =>
    cases h
    exact Or.inl hl
  | setDefault target =>
    cases h
    exact Or.inl hl
  | translateDifficulty g diff =>
    simp only [step, setTranslateDifficulty] at h
    split at h <;> cases h
    exact Or.inl (Relay.holds_of_same hl rfl rfl rfl (by split_ifs <;> rfl) rfl)
  | translateCredit g n now =>
    simp only [step] at h
    split at h <;> cases h
    exact Or.inl (Relay.holds_of_same hl rfl rfl rfl
      (creditTranslateAccepted_same ..).fields.2.2.2.2.1 rfl)

/-- The active generation never goes back. -/
theorem Transition.generation_le {r r' : Relay} {e : Event} (hgen : Generations r)
    (ht : Transition r e r') :
    r.inner.active.generation ≤ r'.inner.active.generation := by
  cases ht with
  | quiet hq => rw [hq.generation]
  | @install _ snap _ hswap hraw =>
    have hnew := hgen.connecting snap.generation (by simp [hswap])
    simpa [Relay.install] using hnew.1.le
  | line hfree hsv1 => rw [(onUpstreamMsg_same ..).fields.1]
  | _ => exact le_rfl

/-- What a step writes belongs to no upstream, or to an installed one. -/
theorem generation_of_writes {r r' : Relay} {e : Event} {l : Line} {g : Nat}
    (hgen : Generations r) (h : step r e = some r') (hl : l ∈ r.writes e)
    (hg : l.source.generation? = some g) : g ≤ r'.inner.active.generation := by
  cases e with
  | swapConnect answer =>
    simp only [step] at h
    simp only [Relay.writes] at hl
    split at h
    · rename_i snap hswap
      rw [hswap] at hl
      split at h
      · rename_i hraw
        simp [hraw] at hl
      · rename_i raw hraw
        cases h
        simp only [hraw, Relay.install] at hl
        rw [installRaw_source hl] at hg
        cases hg
        simp [Relay.install]
    · cases h
  | swapRepoint =>
    refine le_trans ?_ ((transition_of_step h).generation_le hgen)
    simp only [Relay.writes] at hl
    split at hl
    · rename_i hswap
      rw [List.mem_singleton.mp hl] at hg
      cases hg
      exact (hgen.installed _ (by simp [hswap])).le
    · cases hl
  | upstreamLine g' msg now =>
    refine le_trans ?_ ((transition_of_step h).generation_le hgen)
    simp only [Relay.writes] at hl
    split at hl
    · rename_i hactive
      rw [List.mem_singleton.mp hl] at hg
      cases hg
      exact hactive.le
    · cases hl
  | translateLine g' msg =>
    refine le_trans ?_ ((transition_of_step h).generation_le hgen)
    rw [List.mem_singleton.mp hl] at hg
    cases hg
    simp only [step] at h
    split at h
    · rename_i hguard
      simp only [Bool.and_eq_true, Relay.translateReader, decide_eq_true_eq] at hguard
      exact hguard.2.1
    · cases h
  | translateResult g' id ok =>
    refine le_trans ?_ ((transition_of_step h).generation_le hgen)
    rw [List.mem_singleton.mp hl] at hg
    cases hg
    simp only [step] at h
    split at h
    · rename_i hguard
      simp only [Bool.and_eq_true, Relay.translateReader, decide_eq_true_eq] at hguard
      exact hguard.2.1
    · cases h
  | minerSubscribeReply =>
    simp only [Relay.writes] at hl
    split at hl
    · rw [List.mem_singleton.mp hl] at hg
      cases hg
    · cases hl
  | minerConfigure | minerExtranonceSubscribe | minerAuthorize | minerReject
  | minerClientReconnect =>
    rw [List.mem_singleton.mp hl] at hg
    cases hg
  | _ => cases hl

theorem Generations.step {r r' : Relay} {e : Event} (h : Generations r)
    (hstep : step r e = some r') : Generations r' where
  held := by
    intro l hl g hg
    rcases holds_of_step hstep hl with hold | hwrites
    · exact (h.held l hold g hg).trans ((transition_of_step hstep).generation_le h)
    · exact generation_of_writes h hstep hwrites hg
  tagged := by
    have ht := transition_of_step hstep
    have htag := h.tagged
    cases ht with
    | quiet hq => rw [hq.readers]; exact htag
    | forward hline => exact fun g l hl => htag g l (KeyedTable.lookup_of_lookup_erase hl).2
    | line | translateSend | translateResult =>
      intro g l hl
      rcases KeyedTable.lookup_insert_cases hl with ⟨rfl, rfl⟩ | ⟨_, hl⟩
      · rfl
      · exact htag g l hl
    | _ => exact htag
  counter := by
    have ht := transition_of_step hstep
    have hcounter := h.counter
    cases ht with
    | quiet hq => rw [hq.generation, hq.counter]; exact hcounter
    | @install _ snap _ hswap hraw =>
      have hnew := h.connecting snap.generation (by simp [hswap])
      simpa [Relay.install] using hnew.2
    | line hfree hsv1 =>
      obtain ⟨hactive, hc, _⟩ := (onUpstreamMsg_same ..).fields
      rw [hactive, hc]
      exact hcounter
    | swapBegin hswap => exact hcounter.trans (Nat.le_succ _)
    | _ => exact hcounter
  connecting := by
    have ht := transition_of_step hstep
    have hconn := h.connecting
    have hcounter := h.counter
    cases ht with
    | quiet hq => rw [hq.swap, hq.generation, hq.counter]; exact hconn
    | swapBegin hswap => simp; omega
    | install hswap hraw => simp [Relay.install]
    | line hfree hsv1 =>
      obtain ⟨hactive, hc, _⟩ := (onUpstreamMsg_same ..).fields
      rw [hactive, hc]
      exact hconn
    | swapFailed hswap => simp
    | repointLive hswap => simp
    | repointDrop hswap => simp
    | takePrelude hswap => simp
    | swapFlushed hswap => simp
    | swapFlush hswap => simp
    | _ => exact hconn
  installed := by
    have ht := transition_of_step hstep
    have hinst := h.installed
    cases ht with
    | quiet hq => rw [hq.swap, hq.generation]; exact hinst
    | install hswap hraw => simp [Relay.install]
    | line hfree hsv1 => rw [(onUpstreamMsg_same ..).fields.1]; exact hinst
    | repointLive hswap => simpa [hswap] using hinst
    | repointDrop hswap => simpa [hswap] using hinst
    | swapBegin hswap => simp
    | swapFailed hswap => simp
    | takePrelude hswap => simp
    | swapFlushed hswap => simp
    | swapFlush hswap => simp
    | _ => exact hinst

/-- The bootstrap session. -/
theorem Generations.start {target : UpstreamTarget} {peer : String} {orders : WorkBuffer}
    {answer : PoolAnswer} {r : Relay} (h : start target peer orders answer = some r) :
    Generations r := by
  simp only [Sv1.start, Option.map_eq_some_iff] at h
  obtain ⟨raw, _, rfl⟩ := h
  refine ⟨?_, by simp, by simp [bootstrap, bootstrapGeneration], by simp, by simp⟩
  intro l hl g hg
  have hstash : l ∈ (installRaw raw bootstrapGeneration target .idle
      (bootstrap target peer)).1.pendingPrelude := by
    simpa [Relay.Holds] using hl
  rw [installRaw_source hstash] at hg
  simp only [LineSource.generation?, Option.mem_def, Option.some.injEq] at hg
  simp [hg]

end RentalProxy.Sv1
