import RentalProxy.FrozenRigs
import RentalProxy.Lib.History
import RentalProxy.Lib.Logs
import RentalProxy.Lib.Tables
import RentalProxy.Sv1.Routing
import RentalProxy.Text

/-!
# Reconnect hints

A miner that cannot take a new extranonce is sent away at authorize, and a hint with its pool is
kept under its address.  When it comes back, its handshake runs against that pool.  The table has
one hint for each address, and every miner that connects from there takes it.

* `Arrivals` is the table with the miners of all addresses, `Arrivals.step` one step of one handler.
* `hint_is_latest_redirect`: a hint is the last redirect at its address, and is taken once.
* `resolved_not_redirected`: while the rigs of an address belong on one pool, a miner that was
  brought back by a hint is not sent away again.
* `shared_address_never_settles`: two rigs of one address that belong on different pools may send
  each other away for ever.
-/

namespace RentalProxy.Sv1

open StepSystem Text

/-! ## The table -/

/-- `RECONNECT_HINT_TTL`, in milliseconds. -/
def reconnectHintTtl : Int := 120000

/-- `peer_ip`: the address without the port. -/
def peerIp (peer : String) : String :=
  match rsplitOnce ':' peer.toList with
  | some (ip, _) => String.ofList ip
  | none => peer

/-- Where the miner loop of a connection stands. -/
inductive MinerStage where
  | relaying
  /-- The miner is authorized and answered. -/
  | comparing (want : UpstreamTarget)
  /-- Waits for `mining.extranonce.subscribe`. -/
  | choosing (want : UpstreamTarget)
deriving DecidableEq

/-- A connection of a miner. -/
structure Miner where
  ip : String
  /-- The pool of the hint that was taken. -/
  resolved : Option UpstreamTarget
  /-- `active.target`. -/
  target : UpstreamTarget
  stage : MinerStage
deriving DecidableEq

/-- The hints, with the miners and the stores. -/
structure Arrivals where
  /-- `reconnect_hints`. -/
  hints : AList fun _ : String => UpstreamTarget × Int
  now : Int
  orders : OrderStore
  sellers : SellerStore
  miners : Nat → Option Miner

inductive ArrivalEvent where
  | tick (now : Int)
  /-- A miner connects, and the pool of its handshake can be reached or not. -/
  | connect (c : Nat) (peer : String) (reached : Bool)
  /-- The miner authorizes, at this wall clock time. -/
  | authorize (c : Nat) (worker : String) (wall : Int)
  | compare (c : Nat)
  /-- The wait for `mining.extranonce.subscribe` ends, and a live switch succeeds or not. -/
  | choose (c : Nat) (capable switched : Bool)
  /-- The supervisor or an API call moves the session. -/
  | swap (c : Nat) (target : UpstreamTarget)
  | hangUp (c : Nat)
  /-- Others write the stores. -/
  | write (orders : OrderStore) (sellers : SellerStore)

namespace Arrivals

/-- `resolved_target`: the pool of a hint that is still fresh. -/
def resolve (s : Arrivals) (ip : String) : Option UpstreamTarget :=
  (s.hints.lookup ip).bind fun hint =>
    if s.now - hint.2 < reconnectHintTtl then some hint.1 else none

/-- The pool where the worker should mine. -/
def wanted (s : Arrivals) (worker : String) (wall : Int) : Option UpstreamTarget :=
  Authorizing.wanted (s.orders.activeForWorker worker wall)
    ((s.sellers.lookup worker).map SellerRig.defaultPool)

def put (s : Arrivals) (c : Nat) (m : Option Miner) : Arrivals :=
  { s with miners := Function.update s.miners c m }

/-- The miner takes the hint of its address. -/
def take (s : Arrivals) (ip : String) : Arrivals := { s with hints := s.hints.erase ip }

/-- The miner is sent away, to come back onto this pool. -/
def redirect (s : Arrivals) (c : Nat) (ip : String) (want : UpstreamTarget) : Arrivals :=
  { s with hints := s.hints.insert ip (want, s.now) }.put c none

/-- One step.  `boot` is the bootstrap pool, if there is one. -/
def step (boot : Option UpstreamTarget) (s : Arrivals) : ArrivalEvent → Option Arrivals
  | .tick now => if s.now ≤ now then some { s with now } else none
  | .connect c peer reached =>
    match s.miners c with
    | some _ => none
    | none =>
      let ip := peerIp peer
      let resolved := s.resolve ip
      -- the hint is gone, whether it was fresh or not
      match resolved.or boot with
      | some target =>
        if reached then some ((s.take ip).put c (some ⟨ip, resolved, target, .relaying⟩))
        else some (s.take ip)
      | none => some (s.take ip)
  | .authorize c worker wall =>
    match s.miners c with
    | some m =>
      if m.stage = .relaying then
        match s.wanted worker wall with
        | some want => some (s.put c (some { m with stage := .comparing want }))
        | none => some (s.put c none)
      else none
    | none => none
  | .compare c =>
    match s.miners c with
    | some ⟨ip, resolved, target, .comparing want⟩ =>
      some (s.put c (some ⟨ip, resolved, target,
        if target = want then .relaying else .choosing want⟩))
    | _ => none
  | .choose c capable switched =>
    match s.miners c with
    | some ⟨ip, resolved, target, .choosing want⟩ =>
      if capable then
        some (s.put c (some ⟨ip, resolved, if switched then want else target, .relaying⟩))
      else some (s.redirect c ip want)
    | _ => none
  | .swap c target =>
    match s.miners c with
    | some m => some (s.put c (some { m with target }))
    | none => none
  | .hangUp c =>
    match s.miners c with
    | some m => if m.stage = .relaying then some (s.put c none) else none
    | none => none
  | .write orders sellers => some { s with orders, sellers }

/-- Before the first miner connects. -/
def first (orders : OrderStore) (sellers : SellerStore) : Arrivals where
  hints := ∅
  now := 0
  orders
  sellers
  miners _ := none

end Arrivals

/-! ## What happens at an address -/

/-- A miner that connects takes the hint of its address, or is sent away. -/
inductive HintEntry where
  | connected (ip : String) (resolved : Option UpstreamTarget) (now : Int)
  | redirected (ip : String) (resolved : Option UpstreamTarget) (want : UpstreamTarget)
      (since : Int)
deriving DecidableEq

namespace HintEntry

def ip : HintEntry → String
  | connected ip .. => ip
  | redirected ip .. => ip

/-- The hint that is there afterwards. -/
def hint : HintEntry → Option (UpstreamTarget × Int)
  | connected .. => none
  | redirected _ _ want since => some (want, since)

def isRedirected : HintEntry → Bool
  | connected .. => false
  | redirected .. => true

/-- What happened at this address. -/
def atIp (ip : String) (entry : HintEntry) : Option HintEntry :=
  if entry.ip = ip then some entry else none

end HintEntry

/-- What a step of the miners adds. -/
def Arrivals.entries (s : Arrivals) : ArrivalEvent → List HintEntry
  | .connect _ peer _ => [.connected (peerIp peer) (s.resolve (peerIp peer)) s.now]
  | .choose c capable _ =>
    match s.miners c with
    | some ⟨ip, resolved, _, .choosing want⟩ =>
      if capable then [] else [.redirected ip resolved want s.now]
    | _ => []
  | _ => []

def noteHints (s : Arrivals) (e : ArrivalEvent) (log : List HintEntry) : List HintEntry :=
  log ++ s.entries e

/-- The states that the miners reach along steps that meet `G`, with what happened. -/
def ArrivalsReach (boot : Option UpstreamTarget) (G : Arrivals → ArrivalEvent → Prop)
    (x : Arrivals × List HintEntry) : Prop :=
  ∃ orders sellers, Run (observed (Arrivals.step boot) noteHints) (fun z e => G z.1 e)
    (.first orders sellers, []) x

/-- The hint of the address after what has happened there. -/
def lastHint (ip : String) (log : List HintEntry) : Option (UpstreamTarget × Int) :=
  (Log.latest (HintEntry.atIp ip) log).bind HintEntry.hint

/-- The last thing that happened at the address was a redirect onto the pool, not long ago. -/
def TakesLatest (before : List HintEntry) (entry : HintEntry) : Prop :=
  ∀ ip target now, entry = .connected ip (some target) now →
    ∃ resolved since, Log.latest (HintEntry.atIp ip) before =
      some (.redirected ip resolved target since) ∧ since ≤ now ∧ now - since < reconnectHintTtl

/-! ## What a step can do -/

namespace Arrivals

variable {boot : Option UpstreamTarget} {s s' : Arrivals} {e : ArrivalEvent}

/-- What one step can do. -/
inductive Moves (s : Arrivals) : ArrivalEvent → Arrivals → Prop where
  | tick {now : Int} (hle : s.now ≤ now) : Moves s (.tick now) { s with now }
  | connect {c : Nat} {peer : String} {reached : Bool} {m : Option Miner}
      (hm : ∀ x ∈ m, x.ip = peerIp peer ∧ x.stage = .relaying ∧ x.resolved = s.resolve x.ip ∧
        ∀ t ∈ x.resolved, x.target = t) :
      Moves s (.connect c peer reached) ((s.take (peerIp peer)).put c m)
  | authorize {c : Nat} {worker : String} {wall : Int} {m : Miner} {want : UpstreamTarget}
      (hm : s.miners c = some m) (hwant : s.wanted worker wall = some want) :
      Moves s (.authorize c worker wall) (s.put c (some { m with stage := .comparing want }))
  | stay {c : Nat} {m : Miner} {want : UpstreamTarget} (hm : s.miners c = some m)
      (hstage : m.stage = .comparing want) (hsame : m.target = want) :
      Moves s (.compare c) (s.put c (some { m with stage := .relaying }))
  | wait {c : Nat} {m : Miner} {want : UpstreamTarget} (hm : s.miners c = some m)
      (hstage : m.stage = .comparing want) (hother : m.target ≠ want) :
      Moves s (.compare c) (s.put c (some { m with stage := .choosing want }))
  | switch {c : Nat} {switched : Bool} {m : Miner} {want target : UpstreamTarget}
      (hm : s.miners c = some m) (hstage : m.stage = .choosing want) :
      Moves s (.choose c true switched) (s.put c (some { m with target, stage := .relaying }))
  | redirect {c : Nat} {switched : Bool} {m : Miner} {want : UpstreamTarget}
      (hm : s.miners c = some m) (hstage : m.stage = .choosing want) :
      Moves s (.choose c false switched) (s.redirect c m.ip want)
  | swap {c : Nat} {m : Miner} {target : UpstreamTarget} (hm : s.miners c = some m) :
      Moves s (.swap c target) (s.put c (some { m with target }))
  | leave {e : ArrivalEvent} {c : Nat} (he : s.entries e = []) : Moves s e (s.put c none)
  | write {orders : OrderStore} {sellers : SellerStore} :
      Moves s (.write orders sellers) { s with orders, sellers }

theorem put_none_of_free {c : Nat} (h : s.miners c = none) : s.put c none = s := by
  unfold put
  rw [← h, Function.update_eq_self]

theorem moves_of_step (h : s.step boot e = some s') : Moves s e s' := by
  cases e with
  | tick now =>
    simp only [step] at h
    split at h <;> cases h
    exact .tick ‹_›
  | connect c peer reached =>
    simp only [step] at h
    split at h
    · cases h
    · rename_i hfree
      have hgone : Moves s (.connect c peer reached) (s.take (peerIp peer)) := by
        rw [← put_none_of_free (s := s.take (peerIp peer)) hfree]
        exact .connect fun x hx => by cases hx
      split at h
      · rename_i target htarget
        split at h <;> cases h
        · refine .connect fun x hx => ?_
          cases hx
          refine ⟨rfl, rfl, rfl, fun t ht => ?_⟩
          have hresolved : s.resolve (peerIp peer) = some t := ht
          rw [hresolved] at htarget
          cases htarget
          rfl
        · exact hgone
      · cases h
        exact hgone
  | authorize c worker wall =>
    simp only [step] at h
    split at h
    · rename_i m hm
      split at h
      · split at h <;> cases h
        · exact .authorize hm ‹_›
        · exact .leave rfl
      · cases h
    · cases h
  | compare c =>
    simp only [step] at h
    split at h <;> cases h
    rename_i ip resolved target want hm
    by_cases hsame : target = want
    · rw [if_pos hsame]
      exact .stay hm rfl hsame
    · rw [if_neg hsame]
      exact .wait hm rfl hsame
  | choose c capable switched =>
    simp only [step] at h
    split at h
    · rename_i ip resolved target want hm
      cases capable with
      | true =>
        cases h
        exact .switch hm rfl
      | false =>
        cases h
        exact .redirect hm rfl
    · cases h
  | swap c target =>
    simp only [step] at h
    split at h <;> cases h
    exact .swap ‹_›
  | hangUp c =>
    simp only [step] at h
    split at h
    · split at h <;> cases h
      exact .leave rfl
    · cases h
  | write orders sellers =>
    cases h
    exact .write

/-- What the end of the wait adds. -/
theorem entries_choose {c : Nat} {m : Miner} {want : UpstreamTarget} (hm : s.miners c = some m)
    (hstage : m.stage = .choosing want) (capable switched : Bool) :
    s.entries (.choose c capable switched) =
      if capable then [] else [.redirected m.ip m.resolved want s.now] := by
  obtain ⟨ip, resolved, target, stage⟩ := m
  obtain rfl : stage = .choosing want := hstage
  simp only [entries, hm]

@[simp] theorem put_hints (c : Nat) (m : Option Miner) : (s.put c m).hints = s.hints := rfl

/-- A miner is the one that was put there, or was there before. -/
theorem put_miners {c d : Nat} {m : Option Miner} {x : Miner}
    (h : (s.put c m).miners d = some x) : m = some x ∨ s.miners d = some x := by
  by_cases hd : d = c
  · subst hd
    left
    simpa only [put, Function.update_self] using h
  · right
    simpa only [put, Function.update_of_ne hd] using h

end Arrivals

/-! ## A hint is the latest redirect -/

section Latest

variable {boot : Option UpstreamTarget} {s s' : Arrivals} {e : ArrivalEvent}
  {log : List HintEntry}

/-- The table is what has happened, address by address. -/
structure TracksHints (s : Arrivals) (log : List HintEntry) : Prop where
  hints : ∀ ip, s.hints.lookup ip = lastHint ip log
  past : ∀ ip hint, s.hints.lookup ip = some hint → hint.2 ≤ s.now
  order : Log.Ordered TakesLatest log

theorem lastHint_snoc (ip : String) (log : List HintEntry) (entry : HintEntry) :
    lastHint ip (log ++ [entry]) = if entry.ip = ip then entry.hint else lastHint ip log := by
  unfold lastHint
  rw [Log.latest_append, Log.latest_singleton]
  unfold HintEntry.atIp
  split
  · rfl
  · rw [Option.none_or]

/-- A step of which nothing is kept. -/
theorem TracksHints.quiet (h : TracksHints s log) (hhints : s'.hints = s.hints)
    (hnow : s.now ≤ s'.now) (hnone : s.entries e = []) : TracksHints s' (noteHints s e log) := by
  unfold noteHints
  rw [hnone, List.append_nil]
  refine ⟨?_, ?_, h.order⟩
  · rw [hhints]
    exact h.hints
  · intro ip hint hlookup
    rw [hhints] at hlookup
    have hpast := h.past ip hint hlookup
    omega

/-- What is resolved is the last redirect at the address. -/
theorem TracksHints.resolve (h : TracksHints s log) {ip : String} {target : UpstreamTarget}
    (hresolve : s.resolve ip = some target) :
    ∃ resolved since, Log.latest (HintEntry.atIp ip) log =
      some (.redirected ip resolved target since) ∧ since ≤ s.now ∧
        s.now - since < reconnectHintTtl := by
  obtain ⟨⟨pool, since⟩, hlookup, hfresh⟩ := Option.bind_eq_some_iff.mp hresolve
  obtain ⟨hage, heq⟩ := Option.ite_none_right_eq_some.mp hfresh
  cases heq
  have hpast := h.past ip _ hlookup
  rw [h.hints] at hlookup
  obtain ⟨entry, hlatest, hhint⟩ := Option.bind_eq_some_iff.mp hlookup
  obtain ⟨_, _, hat⟩ := Log.exists_of_latest hlatest
  obtain ⟨hip, heq⟩ := Option.ite_none_right_eq_some.mp hat
  cases heq
  cases entry with
  | connected => cases hhint
  | redirected ip' resolved want since' =>
    cases hhint
    have hip' : ip' = ip := hip
    subst hip'
    exact ⟨resolved, since, hlatest, hpast, hage⟩

theorem TracksHints.step (h : TracksHints s log) (hmoves : s.Moves e s') :
    TracksHints s' (noteHints s e log) := by
  cases hmoves with
  | tick hle => exact h.quiet rfl hle rfl
  | @connect c peer reached m hm =>
    refine ⟨?_, ?_, ?_⟩
    · intro ip
      show (s.hints.erase (peerIp peer)).lookup ip = lastHint ip (log ++ [_])
      rw [lastHint_snoc]
      by_cases hip : peerIp peer = ip
      · subst hip
        rw [AList.lookup_erase]
        exact (if_pos rfl).symm
      · rw [AList.lookup_erase_ne (Ne.symm hip), h.hints]
        exact (if_neg hip).symm
    · intro ip hint hlookup
      exact h.past ip hint (KeyedTable.lookup_of_lookup_erase hlookup).2
    · refine h.order.snoc ?_
      intro ip target now heq
      obtain ⟨rfl, hresolve, rfl⟩ := HintEntry.connected.inj heq
      exact h.resolve hresolve
  | @redirect c switched m want hm hstage =>
    unfold noteHints
    rw [Arrivals.entries_choose hm hstage]
    refine ⟨?_, ?_, ?_⟩
    · intro ip'
      show (s.hints.insert m.ip (want, s.now)).lookup ip' = lastHint ip' (log ++ [_])
      rw [lastHint_snoc]
      by_cases hip : m.ip = ip'
      · subst hip
        rw [AList.lookup_insert]
        exact (if_pos rfl).symm
      · rw [AList.lookup_insert_ne (Ne.symm hip), h.hints]
        exact (if_neg hip).symm
    · intro ip' hint hlookup
      rcases KeyedTable.lookup_insert_cases hlookup with ⟨_, rfl⟩ | ⟨_, hold⟩
      · exact le_refl _
      · exact h.past ip' hint hold
    · refine h.order.snoc ?_
      rintro _ _ _ ⟨⟩
  | @switch c switched m want target hm hstage =>
    refine h.quiet rfl (le_refl _) ?_
    rw [Arrivals.entries_choose hm hstage]
    rfl
  | leave he => exact h.quiet rfl (le_refl _) he
  | _ => exact h.quiet rfl (le_refl _) rfl

theorem TracksHints.first (orders : OrderStore) (sellers : SellerStore) :
    TracksHints (.first orders sellers) [] where
  hints _ := rfl
  past _ _ hlookup := by cases hlookup
  order := .nil

/-- A miner is taken to a pool only by the last thing that happened at its address, a redirect onto
that pool less than two minutes ago.  So every redirect brings at most one miner back. -/
theorem hint_is_latest_redirect {x : Arrivals × List HintEntry}
    (h : ArrivalsReach boot (fun _ _ => True) x) : Log.Ordered TakesLatest x.2 := by
  obtain ⟨orders, sellers, hrun⟩ := h
  refine (hrun.invariant (I := fun z => TracksHints z.1 z.2) (.first orders sellers) ?_).order
  intro z e z' hz _ hstep
  obtain ⟨hnext, hnote⟩ := observed_eq_some.mp hstep
  rw [hnote]
  exact hz.step (Arrivals.moves_of_step hnext)

end Latest

/-! ## One pool for each address -/

section OnePool

variable {boot : Option UpstreamTarget} {pool : String → UpstreamTarget} {s s' : Arrivals}
  {e : ArrivalEvent} {log : List HintEntry}

/-- The rigs of an address belong on one pool, and nobody moves them off it. -/
def OnePool (pool : String → UpstreamTarget) (s : Arrivals) : ArrivalEvent → Prop
  | .authorize c worker wall => ∀ m ∈ s.miners c, ∀ want ∈ s.wanted worker wall, want = pool m.ip
  | .swap c target => ∀ m ∈ s.miners c, target = pool m.ip
  | _ => True

instance (pool : String → UpstreamTarget) (s : Arrivals) : DecidablePred (OnePool pool s)
  | .authorize .. | .swap .. => by dsimp only [OnePool]; infer_instance
  | .tick _ | .connect .. | .compare _ | .choose .. | .hangUp _ | .write .. => isTrue trivial

/-- A miner that was brought back by a hint is on the pool of its address. -/
structure Settled (pool : String → UpstreamTarget) (m : Miner) : Prop where
  target : m.resolved.isSome = true → m.target = pool m.ip
  comparing : ∀ want, m.stage = .comparing want → want = pool m.ip
  choosing : ∀ want, m.stage = .choosing want → want = pool m.ip ∧ m.resolved = none

/-- Every hint is onto the pool of its address, and only miners of the bootstrap pool were sent
away. -/
structure Converges (pool : String → UpstreamTarget) (s : Arrivals) (log : List HintEntry) :
    Prop where
  hints : ∀ ip hint, s.hints.lookup ip = some hint → hint.1 = pool ip
  miners : ∀ c m, s.miners c = some m → Settled pool m
  log : ∀ ip resolved want since, .redirected ip resolved want since ∈ log →
    resolved = none ∧ want = pool ip

/-- Another miner at one connection. -/
theorem Converges.put {c : Nat} {m : Option Miner} (h : Converges pool s log)
    (hm : ∀ x ∈ m, Settled pool x) : Converges pool (s.put c m) log where
  hints := h.hints
  miners d x hx := by
    rcases Arrivals.put_miners hx with hnew | hold
    · exact hm x hnew
    · exact h.miners d x hold
  log := h.log

theorem Converges.take (h : Converges pool s log) (ip : String) :
    Converges pool (s.take ip) log where
  hints ip' hint hlookup := h.hints ip' hint (KeyedTable.lookup_of_lookup_erase hlookup).2
  miners := h.miners
  log := h.log

theorem Converges.redirect {c : Nat} {m : Miner} {want : UpstreamTarget}
    (h : Converges pool s log) (hm : s.miners c = some m) (hstage : m.stage = .choosing want) :
    Converges pool (s.redirect c m.ip want)
      (log ++ [.redirected m.ip m.resolved want s.now]) := by
  obtain ⟨hwant, hresolved⟩ := (h.miners c m hm).choosing want hstage
  refine ⟨?_, ?_, ?_⟩
  · intro ip hint hlookup
    rcases KeyedTable.lookup_insert_cases hlookup with ⟨rfl, rfl⟩ | ⟨_, hold⟩
    · exact hwant
    · exact h.hints ip hint hold
  · intro d x hx
    rcases Arrivals.put_miners hx with hnew | hold
    · cases hnew
    · exact h.miners d x hold
  · intro ip resolved target since hentry
    rcases List.mem_append.mp hentry with hold | hnew
    · exact h.log ip resolved target since hold
    · cases List.mem_singleton.mp hnew
      exact ⟨hresolved, hwant⟩

/-- What a step that is no redirect adds to the log is a connect, or nothing. -/
theorem Converges.note (h : Converges pool s' log)
    (hentries : ∀ entry ∈ s.entries e, entry.isRedirected = false) :
    Converges pool s' (noteHints s e log) where
  hints := h.hints
  miners := h.miners
  log ip resolved want since hentry := by
    rcases List.mem_append.mp hentry with hold | hnew
    · exact h.log ip resolved want since hold
    · cases hentries _ hnew

theorem Converges.step (h : Converges pool s log) (hguard : OnePool pool s e)
    (hmoves : s.Moves e s') : Converges pool s' (noteHints s e log) := by
  cases hmoves with
  | tick => exact .note ⟨h.hints, h.miners, h.log⟩ (by rintro _ ⟨⟩)
  | write => exact .note ⟨h.hints, h.miners, h.log⟩ (by rintro _ ⟨⟩)
  | @connect c peer reached m hm =>
    refine .note ((h.take _).put fun x hx => ?_) ?_
    · obtain ⟨_, hstage, hresolved, htarget⟩ := hm x hx
      refine ⟨?_, ?_, ?_⟩
      · intro hsome
        obtain ⟨t, ht⟩ := Option.isSome_iff_exists.mp hsome
        rw [htarget t ht]
        rw [hresolved] at ht
        obtain ⟨hint, hlookup, hfresh⟩ := Option.bind_eq_some_iff.mp ht
        obtain ⟨_, heq⟩ := Option.ite_none_right_eq_some.mp hfresh
        rw [← Option.some.inj heq]
        exact h.hints _ hint hlookup
      · intro want hcomparing
        cases hstage.symm.trans hcomparing
      · intro want hchoosing
        cases hstage.symm.trans hchoosing
    · intro entry hentry
      rw [List.mem_singleton.mp hentry]
      rfl
  | @authorize c worker wall m want hm hwant =>
    refine .note (h.put fun x hx => ?_) (by rintro _ ⟨⟩)
    cases hx
    refine ⟨(h.miners c m hm).target, ?_, ?_⟩
    · rintro _ ⟨⟩
      exact hguard m hm want hwant
    · rintro _ ⟨⟩
  | @stay c m want hm hstage hsame =>
    refine .note (h.put fun x hx => ?_) (by rintro _ ⟨⟩)
    cases hx
    exact ⟨(h.miners c m hm).target, by rintro _ ⟨⟩, by rintro _ ⟨⟩⟩
  | @wait c m want hm hstage hother =>
    refine .note (h.put fun x hx => ?_) (by rintro _ ⟨⟩)
    cases hx
    have hsettled := h.miners c m hm
    have hwant := hsettled.comparing want hstage
    refine ⟨hsettled.target, by rintro _ ⟨⟩, ?_⟩
    rintro _ ⟨⟩
    refine ⟨hwant, ?_⟩
    -- a miner that was brought back is on the wanted pool already
    show m.resolved = none
    by_contra hresolved
    exact hother ((hsettled.target (Option.isSome_iff_ne_none.mpr hresolved)).trans hwant.symm)
  | @switch c switched m want target hm hstage =>
    have hresolved := ((h.miners c m hm).choosing want hstage).2
    refine .note (h.put fun x hx => ?_) ?_
    · cases hx
      refine ⟨?_, by rintro _ ⟨⟩, by rintro _ ⟨⟩⟩
      intro hsome
      have hsome' : m.resolved.isSome = true := hsome
      rw [hresolved] at hsome'
      cases hsome'
    · rw [Arrivals.entries_choose hm hstage]
      rintro _ ⟨⟩
  | @redirect c switched m want hm hstage =>
    unfold noteHints
    rw [Arrivals.entries_choose hm hstage]
    exact h.redirect hm hstage
  | @swap c m target hm =>
    refine .note (h.put fun x hx => ?_) (by rintro _ ⟨⟩)
    cases hx
    have hsettled := h.miners c m hm
    exact ⟨fun _ => hguard m hm, hsettled.comparing, hsettled.choosing⟩
  | leave he =>
    refine .note (h.put fun x hx => by cases hx) ?_
    rw [he]
    rintro _ ⟨⟩

/-- While the rigs of every address belong on one pool, only miners on the bootstrap pool are sent
away, and always onto the pool of their address. -/
theorem resolved_not_redirected {x : Arrivals × List HintEntry}
    (h : ArrivalsReach boot (OnePool pool) x) :
    ∀ ip resolved want since, .redirected ip resolved want since ∈ x.2 →
      resolved = none ∧ want = pool ip := by
  obtain ⟨orders, sellers, hrun⟩ := h
  refine (hrun.invariant (I := fun z => Converges pool z.1 z.2) ?_ ?_).log
  · refine ⟨?_, ?_, ?_⟩
    · rintro _ _ ⟨⟩
    · rintro _ _ ⟨⟩
    · rintro _ _ _ _ ⟨⟩
  · intro z e z' hz hguard hstep
    obtain ⟨hnext, hnote⟩ := observed_eq_some.mp hstep
    rw [hnote]
    exact hz.step hguard (Arrivals.moves_of_step hnext)

end OnePool

/-- A rig of `"10.0.0.7"` that belongs on the seller's pool. -/
def rigPool : UpstreamTarget := ⟨"seller:3333", "acct", "", none⟩

def bootPool : UpstreamTarget := ⟨"boot:3333", "proxy", "", none⟩

def rigSellers : SellerStore := (∅ : SellerStore).insert "bc1q.rig" { defaultPool := rigPool }

/-- The rig is sent away from the bootstrap pool and comes back a second later. -/
def sentAway : List ArrivalEvent :=
  [.write {} rigSellers, .connect 0 "10.0.0.7:51000" true, .authorize 0 "bc1q.rig" 0, .compare 0,
    .choose 0 false false, .tick 1000, .connect 1 "10.0.0.7:51001" true,
    .authorize 1 "bc1q.rig" 1000, .compare 1]

/-- What has happened at the address of the rig. -/
def sentAwayLog : List HintEntry :=
  [.connected "10.0.0.7" none 0, .redirected "10.0.0.7" none rigPool 0,
    .connected "10.0.0.7" (some rigPool) 1000]

theorem sentAway_reach (G : Arrivals → ArrivalEvent → Prop) [hG : ∀ s, DecidablePred (G s)]
    (h : (runWhile (observed (Arrivals.step (some bootPool)) noteHints)
      (fun z e => decide (G z.1 e)) (.first {} ∅, []) sentAway).any
        (fun z => decide (z.2 = sentAwayLog)) = true) :
    ∃ x, ArrivalsReach (some bootPool) G x ∧ x.2 = sentAwayLog := by
  obtain ⟨x, hx, hlog⟩ := (Option.any_eq_true ..).mp h
  exact ⟨x, ⟨_, _, .of_runWhile (fun _ _ => of_decide_eq_true) hx⟩, of_decide_eq_true hlog⟩

theorem hint_is_latest_redirect_back :
    ∃ x : Arrivals × List HintEntry, x.2 = sentAwayLog ∧ Log.Ordered TakesLatest x.2 := by
  obtain ⟨x, hx, hlog⟩ := sentAway_reach (fun _ _ => True) (by decide +kernel)
  exact ⟨x, hlog, hint_is_latest_redirect hx⟩

theorem resolved_not_redirected_back :
    ∃ x : Arrivals × List HintEntry, x.2 = sentAwayLog ∧
      ∀ ip resolved want since, .redirected ip resolved want since ∈ x.2 →
        resolved = none ∧ want = rigPool := by
  obtain ⟨x, hx, hlog⟩ := sentAway_reach (OnePool fun _ => rigPool) (by decide +kernel)
  exact ⟨x, hlog, resolved_not_redirected hx⟩

/-! ## Two pools for one address -/

section Shared

variable {boot : Option UpstreamTarget}

/-- Every miner that is sent away comes back in time, and nobody else does anything. -/
def Undisturbed (s : Arrivals) : ArrivalEvent → Prop
  | .connect _ peer reached => reached = true ∧
      ∀ hint ∈ s.hints.lookup (peerIp peer), s.now - hint.2 < reconnectHintTtl
  | .swap .. | .hangUp _ | .write .. => False
  | _ => True

/-- The runs in which only the rigs do something. -/
abbrev Rounds (boot : Option UpstreamTarget) :
    Arrivals × List HintEntry → Arrivals × List HintEntry → Prop :=
  Run (observed (Arrivals.step boot) noteHints) fun z e => Undisturbed z.1 e

/-- One more step, with what it adds. -/
theorem Rounds.step {x : Arrivals × List HintEntry} {s s' : Arrivals} {e : ArrivalEvent}
    {log new : List HintEntry} (h : Rounds boot x (s, log)) (hstep : s.step boot e = some s')
    (hguard : Undisturbed s e) (hentries : s.entries e = new) :
    Rounds boot x (s', log ++ new) :=
  .tail h (observed_eq_some.mpr ⟨hstep, by rw [← hentries]; rfl⟩) hguard

theorem Rounds.quiet {x : Arrivals × List HintEntry} {s s' : Arrivals} {e : ArrivalEvent}
    {log : List HintEntry} (h : Rounds boot x (s, log)) (hstep : s.step boot e = some s')
    (hguard : Undisturbed s e) (hentries : s.entries e = []) : Rounds boot x (s', log) := by
  have hnext := h.step hstep hguard hentries
  rwa [List.append_nil] at hnext

/-- The first connection is of a miner that has taken the hint of its address. -/
def Arrivals.serving (s : Arrivals) (ip : String) (target : UpstreamTarget) (stage : MinerStage) :
    Arrivals :=
  (s.take ip).put 0 (some ⟨ip, s.resolve ip, target, stage⟩)

theorem serving_miners (s : Arrivals) (ip : String) (target : UpstreamTarget)
    (stage : MinerStage) :
    (s.serving ip target stage).miners 0 = some ⟨ip, s.resolve ip, target, stage⟩ := by
  simp only [Arrivals.serving, Arrivals.put, Function.update_self]

theorem serving_put (s : Arrivals) (ip : String) (target : UpstreamTarget) (stage : MinerStage)
    (m : Option Miner) : (s.serving ip target stage).put 0 m = (s.take ip).put 0 m := by
  unfold Arrivals.serving Arrivals.put
  rw [Function.update_idem]

/-- The hint of the address is onto this pool, and was set just now. -/
def Arrivals.hinted (s : Arrivals) (ip : String) (want : UpstreamTarget) : Arrivals :=
  { s with hints := (s.hints.erase ip).insert ip (want, s.now) }

theorem serving_redirect {s : Arrivals} (hfree : s.miners 0 = none) (ip : String)
    (target want : UpstreamTarget) (stage : MinerStage) :
    (s.serving ip target stage).redirect 0 ip want = s.hinted ip want := by
  unfold Arrivals.redirect Arrivals.serving Arrivals.put Arrivals.hinted Arrivals.take
  simp only [Function.update_idem]
  rw [← hfree, Function.update_eq_self]

/-- A rig connects, finds itself on a pool where it does not belong, and is sent away. -/
theorem round {s : Arrivals} (log : List HintEntry) {peer worker : String} {wall : Int}
    {target want : UpstreamTarget} (hfree : s.miners 0 = none)
    (hprompt : ∀ hint ∈ s.hints.lookup (peerIp peer), s.now - hint.2 < reconnectHintTtl)
    (htarget : (s.resolve (peerIp peer)).or boot = some target)
    (hwant : s.wanted worker wall = some want) (hother : target ≠ want) :
    Rounds boot (s, log) (s.hinted (peerIp peer) want,
      log ++ [.connected (peerIp peer) (s.resolve (peerIp peer)) s.now] ++
        [.redirected (peerIp peer) (s.resolve (peerIp peer)) want s.now]) := by
  have hconnect : s.step boot (.connect 0 peer true) =
      some (s.serving (peerIp peer) target .relaying) := by
    simp only [Arrivals.step, hfree, htarget, if_true]
    rfl
  have hauthorize : (s.serving (peerIp peer) target .relaying).step boot
      (.authorize 0 worker wall) =
        some (s.serving (peerIp peer) target (.comparing want)) := by
    have hwanted : (s.serving (peerIp peer) target .relaying).wanted worker wall = some want :=
      hwant
    simp only [Arrivals.step, serving_miners, hwanted, serving_put, if_true]
    rfl
  have hcompare : (s.serving (peerIp peer) target (.comparing want)).step boot (.compare 0) =
      some (s.serving (peerIp peer) target (.choosing want)) := by
    simp only [Arrivals.step, serving_miners, serving_put, if_neg hother]
    rfl
  have hchoose : (s.serving (peerIp peer) target (.choosing want)).step boot
      (.choose 0 false false) = some (s.hinted (peerIp peer) want) := by
    simp only [Arrivals.step, serving_miners, Bool.false_eq_true, if_false,
      serving_redirect hfree]
  have hconnected : Rounds boot (s, log) (s.serving (peerIp peer) target .relaying,
      log ++ [.connected (peerIp peer) (s.resolve (peerIp peer)) s.now]) :=
    Rounds.step .refl hconnect ⟨rfl, hprompt⟩ rfl
  have hauthorized := hconnected.quiet hauthorize trivial rfl
  have hcompared := hauthorized.quiet hcompare trivial rfl
  exact hcompared.step hchoose trivial (Arrivals.entries_choose (serving_miners ..) rfl ..)

theorem hinted_resolve (s : Arrivals) (ip : String) (want : UpstreamTarget) :
    (s.hinted ip want).resolve ip = some want := by
  unfold Arrivals.resolve Arrivals.hinted
  simp only [AList.lookup_insert, Option.bind_some, Int.sub_self]
  rfl

theorem hinted_prompt (s : Arrivals) (ip : String) (want : UpstreamTarget) :
    ∀ hint ∈ (s.hinted ip want).hints.lookup ip, (s.hinted ip want).now - hint.2 <
      reconnectHintTtl := by
  intro hint hlookup
  rw [Arrivals.hinted, AList.lookup_insert] at hlookup
  cases hlookup
  show s.now - s.now < reconnectHintTtl
  rw [Int.sub_self]
  decide

/-- Two rigs take turns, and each finds itself on the pool of the other. -/
theorem rounds (peer : String) (n : Nat) {s : Arrivals} (log : List HintEntry)
    {worker other : String} {wall : Int} {target want pool : UpstreamTarget}
    (hfree : s.miners 0 = none)
    (hprompt : ∀ hint ∈ s.hints.lookup (peerIp peer), s.now - hint.2 < reconnectHintTtl)
    (htarget : (s.resolve (peerIp peer)).or boot = some target)
    (hwant : s.wanted worker wall = some want) (hpool : s.wanted other wall = some pool)
    (hother : target ≠ want) (hpools : want ≠ pool) :
    ∃ x : Arrivals × List HintEntry, Rounds boot (s, log) x ∧ x.1.miners = s.miners ∧
      (∀ entry ∈ x.2, entry ∈ log ∨ entry.ip = peerIp peer) ∧
      x.2.length = log.length + 2 * n ∧
      x.2.countP HintEntry.isRedirected = log.countP HintEntry.isRedirected + n := by
  induction n generalizing s log worker other target want pool with
  | zero => exact ⟨_, .refl, rfl, fun _ hentry => Or.inl hentry, rfl, rfl⟩
  | succ n ih =>
    have hround := round log hfree hprompt htarget hwant hother
    have hresolve : ((s.hinted (peerIp peer) want).resolve (peerIp peer)).or boot = some want := by
      rw [hinted_resolve]
      rfl
    obtain ⟨x, hrun, hminers, hentries, hlength, hcount⟩ := ih (s := s.hinted (peerIp peer) want)
      (log ++ [.connected (peerIp peer) (s.resolve (peerIp peer)) s.now] ++
        [.redirected (peerIp peer) (s.resolve (peerIp peer)) want s.now])
      hfree (hinted_prompt s (peerIp peer) want) hresolve hpool hwant hpools hpools.symm
    refine ⟨x, hround.trans hrun, hminers, ?_, ?_, ?_⟩
    · intro entry hentry
      rcases hentries entry hentry with hbefore | hip
      · rcases List.mem_append.mp hbefore with hbefore | hredirected
        · rcases List.mem_append.mp hbefore with hold | hconnected
          · exact Or.inl hold
          · rw [List.mem_singleton.mp hconnected]
            exact Or.inr rfl
        · rw [List.mem_singleton.mp hredirected]
          exact Or.inr rfl
      · exact Or.inr hip
    · simp only [List.length_append, List.length_cons, List.length_nil] at hlength
      omega
    · simp only [List.countP_append, List.countP_cons, List.countP_nil,
        HintEntry.isRedirected] at hcount
      simp only [Bool.false_eq_true, if_false, if_true] at hcount
      omega

/-- Two rigs at one address that belong on different pools may be sent away again and again,
however promptly they come back: in a run of any length every connection ends so. -/
theorem shared_address_never_settles {orders : OrderStore} {sellers : SellerStore}
    {worker other : String} {wall : Int} {base want pool : UpstreamTarget}
    (hwant : (Arrivals.first orders sellers).wanted worker wall = some want)
    (hpool : (Arrivals.first orders sellers).wanted other wall = some pool)
    (hbase : base ≠ want) (hpools : want ≠ pool) (peer : String) (n : Nat) :
    ∃ x, ArrivalsReach (some base) Undisturbed x ∧ (∀ c, x.1.miners c = none) ∧
      (∀ entry ∈ x.2, entry.ip = peerIp peer) ∧
      x.2.length = 2 * n ∧ x.2.countP HintEntry.isRedirected = n := by
  obtain ⟨x, hrun, hminers, hentries, hlength, hcount⟩ :=
    rounds (s := .first orders sellers) peer n []
    rfl (by rintro _ ⟨⟩) rfl hwant hpool hbase hpools
  refine ⟨x, ⟨_, _, hrun⟩, fun c => ?_, fun entry hentry => ?_, ?_, ?_⟩
  · rw [hminers]
    rfl
  · rcases hentries entry hentry with hnone | hip
    · cases hnone
    · exact hip
  · simpa using hlength
  · simpa using hcount

/-- Two rigs behind one router. -/
def routerSellers : SellerStore :=
  rigSellers.insert "bc1p.rig" { defaultPool := ⟨"other:3333", "acct", "", none⟩ }

theorem shared_address_never_settles_router :
    ∃ x, ArrivalsReach (some bootPool) Undisturbed x ∧ (∀ c, x.1.miners c = none) ∧
      (∀ entry ∈ x.2, entry.ip = "10.0.0.7") ∧ x.2.length = 2 * 5 ∧
      x.2.countP HintEntry.isRedirected = 5 :=
  have hwant : (Arrivals.first {} routerSellers).wanted "bc1q.rig" 0 = some rigPool := by
    decide +kernel
  have hpool : (Arrivals.first {} routerSellers).wanted "bc1p.rig" 0 =
      some ⟨"other:3333", "acct", "", none⟩ := by
    decide +kernel
  have hip : peerIp "10.0.0.7:51000" = "10.0.0.7" := by decide +kernel
  hip ▸ shared_address_never_settles hwant hpool (by decide +kernel) (by decide +kernel)
    "10.0.0.7:51000" 5

end Shared

end RentalProxy.Sv1
