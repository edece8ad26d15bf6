import RentalProxy.Lib.History
import RentalProxy.Sv1.Activation
import RentalProxy.Sv1.Transitions

/-!
# Lines that send the miner away

`client.reconnect` moves a miner to another host.  The proxy writes one with no host, at
authorize, to bring the miner back onto its own pool.  A passthrough upstream may send one
too: `read_response` sets aside every line with a method, the steady reader forwards every
line, and neither looks at the method.  The steady stream parses a line and writes it out
again: id, method, params, result and error come through, and an explicit null is left out.

`sentBy` records what the passthrough upstreams sent, and `redirects_to_miner` says that
there is no third source.  A translated upstream has no such line: the translator writes
jobs and difficulties.
-/

namespace RentalProxy.Sv1

open StepSystem
open Sv2 (Decoder)

/-- The line moves the miner to another host. -/
def isRedirect (msg : RpcMessage) : Bool := decide (msg.method = some "client.reconnect")

/-- What a pool sent to a connect that ended in passthrough. -/
def PoolAnswer.passthroughLines (answer : PoolAnswer) : Option RawUpstream → List RpcMessage
  | some (.sv1 _) => answer.sv1.getD []
  | some (.sv2 _) => []
  | none => []

/-- What the passthrough upstreams sent so far, by generation: to the connect, and while active. -/
def sentBy (r : Relay) (e : Event) (sent : List (Nat × RpcMessage)) : List (Nat × RpcMessage) :=
  match e with
  | .swapConnect answer => match r.swap with
    | .connecting snap => sent ++ (answer.passthroughLines (connectRaw snap.target snap.configure
        (upstreamWorker snap.target.user snap.label) answer)).map (snap.generation, ·)
    | _ => sent
  | .upstreamLine g msg _ => if g = r.inner.active.generation then sent ++ [(g, msg)] else sent
  | _ => sent

/-- What the bootstrap upstream sent to the connect. -/
def sentAtStart (target : UpstreamTarget) (answer : PoolAnswer) : List (Nat × RpcMessage) :=
  (answer.passthroughLines (connectRaw target none target.user answer)).map
    (bootstrapGeneration, ·)

/-- The lines of a translated upstream are what the translator makes of a frame. -/
def Translates (decode : Decoder) (lib : Sv2Library) : Event → Prop
  | .translateLine _ msg => ∃ frame s, .sendOrStash msg ∈ (handleSv2Frame decode lib frame s).2
  | _ => True

/-- The line is the redirect that the proxy writes at authorize. -/
def Line.isOwnRedirect (l : Line) : Prop := l = ⟨.reply, .clientReconnect "" 0 1⟩

/-- The line is one of those a passthrough upstream sent, with the same members. -/
def Line.SentIn (sent : List (Nat × RpcMessage)) (l : Line) : Prop :=
  ∃ g, (l.source = .handshake g ∨ l.source = .reader g) ∧ (g, l.msg) ∈ sent

/-- A redirect is the proxy's own or a passthrough upstream's. -/
def Line.Allowed (sent : List (Nat × RpcMessage)) (l : Line) : Prop :=
  isRedirect l.msg = true → l.isOwnRedirect ∨ l.SentIn sent

/-- The sessions that can be reached along events that meet `G`, with what their passthrough
upstreams sent. -/
def HeardReaches (G : Event → Prop) (x : Relay × List (Nat × RpcMessage)) : Prop :=
  ∃ target peer orders answer r₀, start target peer orders answer = some r₀ ∧
    Run (observed step sentBy) (fun _ e => G e) (r₀, sentAtStart target answer) x

/-- The rule for lines: what is true of every line that is written is true of every line that a
session holds. -/
theorem HeardReaches.lines {G : Event → Prop} {P : List (Nat × RpcMessage) → Line → Prop}
    {x : Relay × List (Nat × RpcMessage)} (h : HeardReaches G x)
    (hstart : ∀ target peer answer raw l, connectRaw target none target.user answer = some raw →
      l ∈ (installRaw raw bootstrapGeneration target .idle
        (bootstrap target peer)).1.pendingPrelude → P (sentAtStart target answer) l)
    (hmono : ∀ r e sent l, P sent l → P (sentBy r e sent) l)
    (hwrites : ∀ r e sent l, G e → l ∈ r.writes e → P (sentBy r e sent) l) :
    ∀ l, x.1.Holds l → P x.2 l := by
  obtain ⟨target, peer, orders, answer, r₀, hr₀, hrun⟩ := h
  refine hrun.invariant (I := fun y => ∀ l, y.1.Holds l → P y.2 l) ?_ ?_
  · intro l hl
    simp only [start, Option.map_eq_some_iff] at hr₀
    obtain ⟨raw, hraw, rfl⟩ := hr₀
    exact hstart target peer answer raw l hraw (by simpa [Relay.Holds] using hl)
  · intro y e z hy hguard hstep l hl
    obtain ⟨hnext, hsent⟩ := observed_eq_some.mp hstep
    rw [hsent]
    rcases holds_of_step hnext hl with hold | hnew
    · exact hmono y.1 e y.2 l (hy l hold)
    · exact hwrites y.1 e y.2 l hguard hnew

/-! ## The invariant -/

theorem Line.Allowed.mono {sent sent' : List (Nat × RpcMessage)} {l : Line}
    (h : l.Allowed sent) (hsent : sent ⊆ sent') : l.Allowed sent' := by
  intro hredirect
  rcases h hredirect with hown | ⟨g, hsource, hmem⟩
  · exact Or.inl hown
  · exact Or.inr ⟨g, hsource, hsent hmem⟩

theorem sentBy_mono (r : Relay) (e : Event) (sent : List (Nat × RpcMessage)) :
    sent ⊆ sentBy r e sent := by
  unfold sentBy
  split
  · split
    · exact List.subset_append_left ..
    · exact List.Subset.refl _
  · split
    · exact List.subset_append_left ..
    · exact List.Subset.refl _
  · exact List.Subset.refl _

/-- The prelude after an install is what the new pool sent, or one difficulty. -/
theorem prelude_cases {raw : RawUpstream} {g : Nat} {target t : UpstreamTarget}
    {configure : Option RpcMessage} {name : String} {answer : PoolAnswer} {ro : Routing} {i : Inner}
    {l : Line} (hraw : connectRaw target configure name answer = some raw)
    (hl : l ∈ (installRaw raw g t ro i).1.pendingPrelude) :
    l.source = .handshake g ∧ l.msg ∈ answer.passthroughLines (some raw) ∨
      ∃ d, l.msg = setDifficultyLine d := by
  cases raw with
  | sv1 conn =>
    obtain ⟨lines, hlines, hconn⟩ := connectRaw_sv1 hraw
    simp only [installRaw, List.mem_map] at hl
    obtain ⟨msg, hmsg, rfl⟩ := hl
    refine Or.inl ⟨rfl, ?_⟩
    rw [PoolAnswer.passthroughLines, hlines]
    exact connectUpstream_handshakeLines hconn hmsg
  | sv2 up =>
    rw [List.mem_singleton.mp hl]
    exact Or.inr ⟨_, rfl⟩

theorem allowed_of_prelude {sent : List (Nat × RpcMessage)} {raw : RawUpstream} {g : Nat}
    {target t : UpstreamTarget} {configure : Option RpcMessage} {name : String}
    {answer : PoolAnswer} {ro : Routing} {i : Inner} {l : Line}
    (hraw : connectRaw target configure name answer = some raw)
    (hsent : ∀ msg ∈ answer.passthroughLines (some raw), (g, msg) ∈ sent)
    (hl : l ∈ (installRaw raw g t ro i).1.pendingPrelude) : l.Allowed sent := by
  intro hredirect
  rcases prelude_cases hraw hl with ⟨hsource, hmsg⟩ | ⟨d, hmsg⟩
  · exact Or.inr ⟨g, Or.inl hsource, hsent l.msg hmsg⟩
  · rw [hmsg] at hredirect
    cases hredirect

section Notifies

variable {decode : Decoder} {lib : Sv2Library}
  (hnotify : ∀ prev job clean line, lib.notifyLine prev job clean = some line →
    line.method = some "mining.notify")

include hnotify

/-- The translator writes jobs and difficulties. -/
theorem translated_method {g : Nat} {msg : RpcMessage}
    (h : Translates decode lib (.translateLine g msg)) :
    msg.method = some "mining.notify" ∨ msg.method = some "mining.set_difficulty" := by
  obtain ⟨frame, s, hmsg⟩ := h
  have hemit : ∀ {prev job clean}, .sendOrStash msg ∈ emitTranslateNotify lib prev job clean →
      msg.method = some "mining.notify" := by
    intro prev job clean hmem
    simp only [emitTranslateNotify, Option.mem_toList, Option.map_eq_some_iff,
      SessionCall.sendOrStash.injEq] at hmem
    obtain ⟨line, hline, rfl⟩ := hmem
    exact hnotify prev job clean line hline
  unfold handleSv2Frame at hmsg
  split at hmsg
  · split at hmsg
    · split at hmsg
      · exact Or.inl (hemit hmsg)
      · cases hmsg
    · cases hmsg
  · split at hmsg
    · split at hmsg
      · exact Or.inl (hemit hmsg)
      · cases hmsg
    · cases hmsg
  · split at hmsg
    · simp only [List.mem_cons, reduceCtorEq, SessionCall.sendOrStash.injEq, List.not_mem_nil,
        or_false, false_or] at hmsg
      rw [hmsg]
      exact Or.inr rfl
    · cases hmsg
  · split at hmsg
    · simp at hmsg
    · cases hmsg
  · split at hmsg
    · simp at hmsg
    · cases hmsg
  · cases hmsg

theorem allowed_of_writes {r : Relay} {e : Event} {sent : List (Nat × RpcMessage)} {l : Line}
    (hguard : Translates decode lib e) (hl : l ∈ r.writes e) : l.Allowed (sentBy r e sent) := by
  cases e with
  | swapConnect answer =>
    simp only [Relay.writes] at hl
    split at hl
    · rename_i snap hswap
      split at hl
      · rename_i raw hraw
        refine allowed_of_prelude hraw (fun msg hmsg => ?_) hl
        simp only [sentBy, hswap, hraw]
        exact List.mem_append_right _ (List.mem_map_of_mem hmsg)
      · cases hl
    · cases hl
  | upstreamLine g msg now =>
    simp only [Relay.writes] at hl
    split at hl
    · rename_i hg
      rw [List.mem_singleton.mp hl, sentBy, if_pos hg]
      exact fun _ => Or.inr ⟨g, Or.inr rfl, List.mem_append_right _ (List.mem_singleton_self _)⟩
    · cases hl
  | translateLine g msg =>
    rw [List.mem_singleton.mp hl]
    intro hredirect
    have hmethod : msg.method = some "client.reconnect" := of_decide_eq_true hredirect
    rcases translated_method hnotify hguard with h | h <;> simp [h] at hmethod
  | minerClientReconnect =>
    exact fun _ => Or.inl (List.mem_singleton.mp hl)
  | minerSubscribeReply =>
    simp only [Relay.writes] at hl
    split at hl
    · rw [List.mem_singleton.mp hl]
      exact fun hredirect => by cases hredirect
    · cases hl
  | swapRepoint =>
    simp only [Relay.writes] at hl
    split at hl
    · rw [List.mem_singleton.mp hl]
      exact fun hredirect => by cases hredirect
    · cases hl
  | minerConfigure | minerExtranonceSubscribe | minerAuthorize | minerReject | translateResult =>
    rw [List.mem_singleton.mp hl]
    exact fun hredirect => by cases hredirect
  | _ => cases hl

end Notifies

/-- Every redirect queued to the miner is the proxy's own, or was sent by a passthrough
upstream, to its connect or while it was the active one. -/
theorem redirects_to_miner {decode : Decoder} {lib : Sv2Library}
    (hnotify : ∀ prev job clean line, lib.notifyLine prev job clean = some line →
      line.method = some "mining.notify")
    {x : Relay × List (Nat × RpcMessage)} (h : HeardReaches (Translates decode lib) x) :
    ∀ l ∈ x.1.toMiner, l.Allowed x.2 := by
  have hlines : ∀ l, x.1.Holds l → l.Allowed x.2 := by
    refine h.lines (P := fun sent l => l.Allowed sent) ?_ ?_ ?_
    · intro target peer answer raw l hraw hl
      refine allowed_of_prelude hraw (fun msg hmsg => ?_) hl
      rw [sentAtStart, hraw]
      exact List.mem_map_of_mem hmsg
    · exact fun r e sent l hl => hl.mono (sentBy_mono r e sent)
    · exact fun r e sent l hguard hl => allowed_of_writes hnotify hguard hl
  exact fun l hl => hlines l (Or.inl hl)

theorem jobLibrary_notifyLine (prev : Sv2.SetNewPrevHash) (job : Sv2.NewExtendedMiningJob)
    (clean : Bool) (line : RpcMessage) (h : jobLibrary.notifyLine prev job clean = some line) :
    line.method = some "mining.notify" := by
  simp only [jobLibrary, Option.ite_none_right_eq_some, Option.some.injEq] at h
  rw [← h.2]

/-- A redirect of a pool. -/
def poolRedirect : RpcMessage := .clientReconnect "elsewhere" 3333 0

/-- A pool that redirects the miner before it answers the subscribe. -/
def redirectingPool : PoolAnswer where
  sv1 := some [poolRedirect,
    okReply (some (.num (.int 1))) (subscribeResult "08000002" 4),
    okReply (some (.num (.int 2))) (.bool true)]

/-- The miner subscribes and gets the prelude, and the pool redirects once more. -/
def redirectEvents : List Event :=
  subscribeEvents ++ [.upstreamLine 1 poolRedirect 0, .readerForward 1, .minerClientReconnect]

/-- Both redirects of the pool and the one of the proxy are queued. -/
theorem redirects_to_miner_three :
    ∃ x, HeardReaches (Translates jobDecoder jobLibrary) x ∧
      (x.1.toMiner.filter fun l => isRedirect l.msg).map Line.source =
        [.handshake 1, .reader 1, .reply] ∧
      ∀ l ∈ x.1.toMiner, l.Allowed x.2 := by
  have hp : ((start ⟨"pool:3333", "bc1q", "", none⟩ "peer" ∅ redirectingPool).bind fun r =>
      run (observed step sentBy) (r, sentAtStart ⟨"pool:3333", "bc1q", "", none⟩ redirectingPool)
        redirectEvents).any (fun x =>
      decide ((x.1.toMiner.filter fun l => isRedirect l.msg).map Line.source =
        [.handshake 1, .reader 1, .reply])) = true := by decide +kernel
  obtain ⟨x, hx, hp⟩ := (Option.any_eq_true ..).mp hp
  obtain ⟨r₀, hstart, hrun⟩ := Option.bind_eq_some_iff.mp hx
  have hreach : HeardReaches (Translates jobDecoder jobLibrary) x :=
    ⟨_, _, _, _, r₀, hstart, .of_run_forall (by simp [redirectEvents, subscribeEvents, Translates])
      hrun⟩
  exact ⟨x, hreach, of_decide_eq_true hp, redirects_to_miner jobLibrary_notifyLine hreach⟩

/-- The pool's own redirects reach the miner, with the prelude and from the steady reader. -/
theorem pool_redirect_reaches_miner :
    ∃ r, Reaches r ∧ ⟨.handshake 1, poolRedirect⟩ ∈ r.toMiner ∧
      ⟨.reader 1, poolRedirect⟩ ∈ r.toMiner ∧ isRedirect poolRedirect = true := by
  have hp : ((start ⟨"pool:3333", "bc1q", "", none⟩ "peer" ∅ redirectingPool).bind
      (run step · redirectEvents)).any (fun r =>
        decide (⟨.handshake 1, poolRedirect⟩ ∈ r.toMiner) &&
        decide (⟨.reader 1, poolRedirect⟩ ∈ r.toMiner)) = true := by decide +kernel
  obtain ⟨r, hr, hp⟩ := (Option.any_eq_true ..).mp hp
  obtain ⟨r₀, hstart, hrun⟩ := Option.bind_eq_some_iff.mp hr
  rw [Bool.and_eq_true, decide_eq_true_eq, decide_eq_true_eq] at hp
  exact ⟨r, ⟨_, _, _, _, r₀, hstart, .of_run hrun⟩, hp.1, hp.2, rfl⟩

end RentalProxy.Sv1
