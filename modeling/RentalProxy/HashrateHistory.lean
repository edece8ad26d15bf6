import RentalProxy.Lib.History
import RentalProxy.Lib.Retention
import RentalProxy.Lib.Tables
import RentalProxy.Hashrate

/-!
# The hash rate history of the rigs

`hashrate.rs` writes one row per rig and slot of ten minutes and drops what is older than a week.
The sampler works statement by statement, a statement may fail, and the process may be started again
at any point.

* `HashrateStore` is the table, `Sampler` the background task with it.
* `noteReading` keeps what the registry said when a row was written.
* `history_samples_exact` is what a reader of the history sees, and `history_is_bounded` what is
  left in the table after a prune.
-/

namespace RentalProxy

open StepSystem

/-! ## The table -/

/-- One sample per slot, in milliseconds. -/
def slotMs : Int := 600000

/-- How long samples are kept, in milliseconds. -/
def retentionMs : Int := 7 * 24 * 60 * 60 * 1000

/-- Hashes per second in one TH/s. -/
def hsPerThs : Rat := 1000000000000

/-- A slot of the delivered hash rate. -/
structure Sample where
  slotMs : Int
  hashrateThs : Rat
  online : Bool
deriving DecidableEq

/-- A row of `rig_hashrate_samples`, less its key. -/
structure SampleRow where
  hashrateThs : Rat
  online : Bool
deriving DecidableEq

/-- The table, by worker and slot. -/
abbrev HashrateStore := AList fun _ : String × Int => SampleRow

namespace HashrateStore

/-- `HashrateStore::record`, an upsert. -/
def record (s : HashrateStore) (worker : String) (slot : Int) (hashrateThs : Rat) (online : Bool) :
    HashrateStore :=
  s.insert (worker, slot) ⟨hashrateThs, online⟩

/-- `HashrateStore::since`. -/
def since (s : HashrateStore) (worker : String) (sinceMs : Int) : List Sample :=
  (Retention.since s worker sinceMs).map fun e => ⟨e.1, e.2.hashrateThs, e.2.online⟩

/-- `HashrateStore::prune`. -/
def prune (s : HashrateStore) (olderThanMs : Int) : HashrateStore := Retention.prune s olderThanMs

end HashrateStore

/-! ## The sampler -/

/-- The slot of a time.  The division truncates. -/
def slotOf (now : Int) : Int := now.tdiv slotMs * slotMs

/-- What is recorded for a rig of which the registry says this.  A rig with no connected session, or
without hash rate, counts as offline. -/
def rowOf (hashrateHs : Option Rat) : SampleRow :=
  match hashrateHs with
  | some hs => if 0 < hs then ⟨hs / hsPerThs, true⟩ else ⟨0, false⟩
  | none => ⟨0, false⟩

inductive SamplerPhase where
  /-- The first tick is skipped: the windows of the rigs are still cold. -/
  | starting
  | waiting
  /-- A tick came at this time, and these rigs are still to be sampled. -/
  | sampling (now : Int) (workers : List String)

structure Sampler where
  store : HashrateStore
  /-- The clock at the last tick. -/
  clock : Int
  phase : SamplerPhase

inductive SamplerEvent where
  /-- The interval fires, and the seller store has these rigs. -/
  | tick (now : Int) (workers : List String)
  /-- The next rig is read and recorded. -/
  | sample (hashrateHs : Option Rat) (ok : Bool)
  | prune (ok : Bool)
  /-- The process is started again. -/
  | restart

namespace Sampler

/-- The task of `spawn_sampler`, statement by statement.  The error of a statement is not looked
at. -/
def step (s : Sampler) : SamplerEvent → Option Sampler
  | .tick now workers =>
    match s.phase with
    | .starting => some { s with phase := .waiting }
    | .waiting => some { s with clock := now, phase := .sampling now workers }
    | .sampling .. => none
  | .sample hashrateHs ok =>
    match s.phase with
    | .sampling now (worker :: workers) =>
      let row := rowOf hashrateHs
      let store := if ok then s.store.record worker (slotOf now) row.hashrateThs row.online
        else s.store
      some { s with store, phase := .sampling now workers }
    | _ => none
  | .prune ok =>
    match s.phase with
    | .sampling now [] =>
      some { s with
        store := if ok then s.store.prune (now - retentionMs) else s.store
        phase := .waiting }
    | _ => none
  | .restart => some { s with phase := .starting }

/-- The first start, on the table that the migration makes. -/
def boot : Sampler := ⟨∅, 0, .starting⟩

/-- The clock does not go back between two ticks. -/
def ClockForward (s : Sampler) : SamplerEvent → Prop
  | .tick now _ => s.clock ≤ now
  | .sample .. | .prune _ | .restart => True

instance (s : Sampler) : (e : SamplerEvent) → Decidable (s.ClockForward e)
  | .tick now _ => inferInstanceAs (Decidable (s.clock ≤ now))
  | .sample .. | .prune _ | .restart => inferInstanceAs (Decidable True)

end Sampler

/-! ## What a reader sees -/

/-- How many days of history are asked for. -/
def historyDays (days : Option Int) : Int := max 1 (min 7 (days.getD 7))

/-- Where the visible window of `get_seller_history` begins. -/
def historySince (now : Int) (days : Option Int) : Int := now - historyDays days * 86400000

/-- What the registry said, by worker and slot. -/
abbrev Readings := List ((String × Int) × Option Rat)

/-- The bookkeeping of one step: what the registry said for a row that was written. -/
def noteReading (s : Sampler) (e : SamplerEvent) (readings : Readings) : Readings :=
  match e, s.phase with
  | .sample hashrateHs true, .sampling now (worker :: _) =>
    readings ++ [((worker, slotOf now), hashrateHs)]
  | _, _ => readings

/-- The sample of a slot, by what the registry said. -/
def Sample.of (slot : Int) (hashrateHs : Option Rat) : Sample :=
  ⟨slot, (rowOf hashrateHs).hashrateThs, (rowOf hashrateHs).online⟩

/-- The runs from the first start on. -/
def SamplerReaches (x : Sampler × Readings) : Prop :=
  Run (observed Sampler.step noteReading) (fun z e => z.1.ClockForward e) (Sampler.boot, []) x

/-! ## One step -/

namespace Sampler

variable {s s' : Sampler} {e : SamplerEvent}

/-- What a step does to the table and to the clock. -/
inductive Moves (s : Sampler) : SamplerEvent → Sampler → Prop where
  | skip (now : Int) (workers : List String) (hphase : s.phase = .starting) :
      Moves s (.tick now workers) { s with phase := .waiting }
  | tick (now : Int) (workers : List String) (hphase : s.phase = .waiting) :
      Moves s (.tick now workers) { s with clock := now, phase := .sampling now workers }
  | record {now : Int} {worker : String} {workers : List String} (hashrateHs : Option Rat)
      (hphase : s.phase = .sampling now (worker :: workers)) :
      Moves s (.sample hashrateHs true) { s with
        store := s.store.insert (worker, slotOf now) (rowOf hashrateHs)
        phase := .sampling now workers }
  | lose {now : Int} {worker : String} {workers : List String} (hashrateHs : Option Rat)
      (hphase : s.phase = .sampling now (worker :: workers)) :
      Moves s (.sample hashrateHs false) { s with phase := .sampling now workers }
  | prune {now : Int} (hphase : s.phase = .sampling now []) :
      Moves s (.prune true) { s with
        store := s.store.prune (now - retentionMs), phase := .waiting }
  | keep {now : Int} (hphase : s.phase = .sampling now []) :
      Moves s (.prune false) { s with phase := .waiting }
  | restart : Moves s .restart { s with phase := .starting }

theorem moves_of_step (h : step s e = some s') : Moves s e s' := by
  cases e with
  | tick now workers =>
    cases hphase : s.phase <;> simp only [step, hphase] at h <;> cases h
    · exact .skip now workers hphase
    · exact .tick now workers hphase
  | sample hashrateHs ok =>
    cases hphase : s.phase with
    | starting | waiting => simp only [step, hphase] at h; cases h
    | sampling now workers =>
      cases workers with
      | nil => simp only [step, hphase] at h; cases h
      | cons worker workers =>
        simp only [step, hphase] at h
        cases ok <;> cases h
        · exact .lose hashrateHs hphase
        · exact .record hashrateHs hphase
  | prune ok =>
    cases hphase : s.phase with
    | starting | waiting => simp only [step, hphase] at h; cases h
    | sampling now workers =>
      cases workers with
      | cons => simp only [step, hphase] at h; cases h
      | nil =>
        simp only [step, hphase] at h
        cases ok <;> cases h
        · exact .keep hphase
        · exact .prune hphase
  | restart =>
    cases h
    exact .restart

/-- The rows that the sampler writes: those of a tick that is not later than the last one. -/
structure Sound (s : Sampler) : Prop where
  clock : 0 ≤ s.clock
  phase : ∀ now workers, s.phase = .sampling now workers → now = s.clock
  slot : ∀ worker slot row, s.store.lookup (worker, slot) = some row →
    slot ≤ s.clock ∧ slotMs ∣ slot

theorem slotOf_aligned (now : Int) : slotMs ∣ slotOf now := Int.dvd_mul_left _ _

theorem slotOf_le {now : Int} (h : 0 ≤ now) : slotOf now ≤ now := by
  unfold slotOf slotMs
  rw [Int.tdiv_eq_ediv_of_nonneg h]
  omega

theorem Sound.step (h : Sound s) (hforward : s.ClockForward e) (hmoves : Moves s e s') :
    Sound s' := by
  cases hmoves with
  | skip | lose | keep | restart =>
    refine ⟨h.clock, ?_, h.slot⟩
    intro now workers hphase
    first
      | cases hphase; exact h.phase _ _ ‹_›
      | cases hphase
  | tick now workers =>
    have hle : s.clock ≤ now := hforward
    refine ⟨le_trans h.clock hle, ?_, ?_⟩
    · intro now' workers' hphase
      cases hphase
      rfl
    · intro worker slot row hrow
      obtain ⟨hslot, haligned⟩ := h.slot worker slot row hrow
      exact ⟨le_trans hslot hle, haligned⟩
  | @record now worker workers hashrateHs hphase =>
    have hnow := h.phase _ _ hphase
    refine ⟨h.clock, ?_, ?_⟩
    · intro now' workers' hphase'
      cases hphase'
      exact hnow
    · intro w slot row hrow
      rcases KeyedTable.lookup_insert_cases hrow with ⟨hkey, _⟩ | ⟨_, hold⟩
      · cases hkey
        exact ⟨hnow ▸ slotOf_le (hnow ▸ h.clock), slotOf_aligned now⟩
      · exact h.slot w slot row hold
  | prune hphase =>
    refine ⟨h.clock, ?_, ?_⟩
    · intro now workers hphase'
      cases hphase'
    · intro worker slot row hrow
      rw [HashrateStore.prune, Retention.lookup_prune] at hrow
      split at hrow
      · exact h.slot worker slot row hrow
      · cases hrow

end Sampler

/-! ## Runs -/

theorem latest_map (key : String × Int) (readings : Readings) :
    BoundedTable.latest key (readings.map fun r => (r.1, rowOf r.2)) =
      (BoundedTable.latest key readings).map rowOf := by
  induction readings using List.reverseRecOn with
  | nil => rfl
  | append_singleton readings r ih =>
    rw [List.map_append, List.map_singleton, BoundedTable.latest_append_singleton,
      BoundedTable.latest_append_singleton, ih]
    split <;> rfl

theorem noteReading_record {s : Sampler} {now : Int} {worker : String} {workers : List String}
    (hphase : s.phase = .sampling now (worker :: workers)) (hashrateHs : Option Rat)
    (readings : Readings) : noteReading s (.sample hashrateHs true) readings =
      readings ++ [((worker, slotOf now), hashrateHs)] := by
  unfold noteReading
  rw [hphase]

namespace Sampler

variable {s s' : Sampler} {e : SamplerEvent}

/-- The table holds what was written last, from the retention on. -/
def Keeps (s : Sampler) (readings : Readings) : Prop :=
  Retention.Retains s.store (readings.map fun r => (r.1, rowOf r.2)) (s.clock - retentionMs)

theorem Keeps.step {readings : Readings} (h : s.Keeps readings) (hsound : s.Sound)
    (hforward : s.ClockForward e) (hmoves : Moves s e s') :
    s'.Keeps (noteReading s e readings) := by
  cases hmoves with
  | skip | lose | keep | restart => exact h
  | tick now workers =>
    have hle : s.clock ≤ now := hforward
    exact Retention.Retains.mono h (show s.clock - retentionMs ≤ now - retentionMs by omega)
  | @record now worker workers hashrateHs hphase =>
    rw [noteReading_record hphase, Keeps, List.map_append, List.map_singleton]
    exact Retention.Retains.insert h worker (slotOf now) (rowOf hashrateHs)
  | @prune now hphase =>
    -- the phase has the time of the last tick
    have hnow := hsound.phase _ _ hphase
    exact Retention.Retains.prune h (show now - retentionMs ≤ s.clock - retentionMs by omega)

theorem boot_sound : boot.Sound := by
  refine ⟨le_rfl, ?_, ?_⟩
  · intro now workers hphase
    cases hphase
  · intro worker slot row hrow
    rw [boot, AList.lookup_empty] at hrow
    cases hrow

end Sampler

theorem SamplerReaches.sound_keeps {x : Sampler × Readings} (h : SamplerReaches x) :
    x.1.Sound ∧ x.1.Keeps x.2 := by
  refine Run.invariant (I := fun x => x.1.Sound ∧ x.1.Keeps x.2) h
    ⟨Sampler.boot_sound, fun _ _ _ => rfl⟩ ?_
  rintro ⟨s, readings⟩ e ⟨s', readings'⟩ ⟨hsound, hkeeps⟩ hforward hstep
  obtain ⟨hnext, rfl⟩ := observed_eq_some.mp hstep
  have hmoves := Sampler.moves_of_step hnext
  exact ⟨hsound.step hforward hmoves, hkeeps.step hsound hforward hmoves⟩

/-- The samples that a reader gets are the slots of the visible window in order, each as the
registry said when the row was last written: what the prune drops is never asked for.  The reader's
clock is not behind the last tick. -/
theorem history_samples_exact {x : Sampler × Readings} (h : SamplerReaches x) {now : Int}
    (hnow : x.1.clock ≤ now) (worker : String) (days : Option Int) :
    ((x.1.store.since worker (historySince now days)).Pairwise fun a b => a.slotMs < b.slotMs) ∧
      ∀ sample, sample ∈ x.1.store.since worker (historySince now days) ↔
        historySince now days ≤ sample.slotMs ∧
          ∃ hashrateHs, BoundedTable.latest (worker, sample.slotMs) x.2 = some hashrateHs ∧
            sample = .of sample.slotMs hashrateHs := by
  constructor
  · exact List.pairwise_map.mpr (Retention.since_pairwise x.1.store worker _)
  · intro sample
    have hkeeps : Retention.Retains x.1.store _ _ := h.sound_keeps.2
    have hstart : x.1.clock - retentionMs ≤ historySince now days := by
      unfold historySince historyDays retentionMs
      omega
    rw [HashrateStore.since, List.mem_map]
    constructor
    · rintro ⟨⟨slot, row⟩, hmem, rfl⟩
      obtain ⟨hle, hlatest⟩ := (hkeeps.mem_since hstart).mp hmem
      rw [latest_map, Option.map_eq_some_iff] at hlatest
      obtain ⟨hashrateHs, hreading, rfl⟩ := hlatest
      exact ⟨hle, hashrateHs, hreading, rfl⟩
    · rintro ⟨hle, hashrateHs, hreading, hsample⟩
      refine ⟨(sample.slotMs, rowOf hashrateHs), (hkeeps.mem_since hstart).mpr ⟨hle, ?_⟩,
        hsample.symm⟩
      rw [latest_map, hreading]
      rfl

/-- Two slots of a rig that falls silent, after a start that is not sampled. -/
def quietRigEvents : List SamplerEvent :=
  [.tick 0 [], .tick 660000 ["bc1q.rig"], .sample (some 5000000000000) true, .prune true,
    .tick 1260000 ["bc1q.rig"], .sample none true]

theorem SamplerReaches.exists_of_run (es : List SamplerEvent) {test : Sampler × Readings → Bool}
    (h : ((runWhile (observed Sampler.step noteReading) (fun z e => decide (z.1.ClockForward e))
      (Sampler.boot, []) es).any test) = true) : ∃ x, SamplerReaches x ∧ test x = true := by
  obtain ⟨x, hx, htest⟩ := (Option.any_eq_true ..).mp h
  exact ⟨x, Run.of_runWhile (fun _ _ => of_decide_eq_true) hx, htest⟩

theorem history_samples_exact_quiet :
    ∃ x, SamplerReaches x ∧ x.1.clock ≤ 1300000 ∧
      x.1.store.since "bc1q.rig" (historySince 1300000 (some 3)) =
        [⟨600000, 5, true⟩, ⟨1200000, 0, false⟩] ∧
      ∀ sample, sample ∈ x.1.store.since "bc1q.rig" (historySince 1300000 (some 3)) ↔
        historySince 1300000 (some 3) ≤ sample.slotMs ∧
          ∃ hashrateHs, BoundedTable.latest ("bc1q.rig", sample.slotMs) x.2 = some hashrateHs ∧
            sample = .of sample.slotMs hashrateHs := by
  obtain ⟨x, hreach, hx⟩ := @SamplerReaches.exists_of_run quietRigEvents
    (fun x => decide (x.1.clock ≤ 1300000 ∧
      x.1.store.since "bc1q.rig" (historySince 1300000 (some 3)) =
        [⟨600000, 5, true⟩, ⟨1200000, 0, false⟩])) (by decide +kernel)
  obtain ⟨hclock, hsamples⟩ := of_decide_eq_true hx
  exact ⟨x, hreach, hclock, hsamples, (history_samples_exact hreach hclock "bc1q.rig" (some 3)).2⟩

/-- After a prune that succeeds the rows of a rig lie on the grid of the slots and within a week of
the tick, so there are at most 1009 of them. -/
theorem history_is_bounded {x y : Sampler × Readings} (h : SamplerReaches x)
    (hstep : observed Sampler.step noteReading x (.prune true) = some y) (worker : String) :
    (∀ slot row, y.1.store.lookup (worker, slot) = some row →
        y.1.clock - retentionMs ≤ slot ∧ slot ≤ y.1.clock ∧ slotMs ∣ slot) ∧
      (y.1.store.entries.filter fun e => decide (e.1.1 = worker)).length ≤ 1009 := by
  obtain ⟨hnext, -⟩ := observed_eq_some.mp hstep
  have hmoves := Sampler.moves_of_step hnext
  have hbefore := h.sound_keeps.1
  have hsound := hbefore.step (e := .prune true) trivial hmoves
  have hwindow : ∀ slot row, y.1.store.lookup (worker, slot) = some row →
      y.1.clock - retentionMs ≤ slot ∧ slot ≤ y.1.clock ∧ slotMs ∣ slot := by
    intro slot row hrow
    refine ⟨?_, hsound.slot worker slot row hrow⟩
    generalize y.1 = s' at hmoves hrow ⊢
    cases hmoves with
    | prune hphase =>
      rw [HashrateStore.prune, Retention.lookup_prune, hbefore.phase _ _ hphase] at hrow
      split at hrow
      · assumption
      · cases hrow
  refine ⟨hwindow, ?_⟩
  have haligned : ∀ slot ∈ Retention.times y.1.store worker,
      y.1.clock - retentionMs ≤ slot ∧ slot ≤ y.1.clock ∧ slotMs ∣ slot := by
    intro slot hslot
    obtain ⟨row, hrow⟩ := Retention.exists_of_mem_times hslot
    exact hwindow slot row hrow
  have hlength := Retention.length_le_of_aligned (by decide)
    (Retention.times_nodup y.1.store worker) haligned
  rw [Retention.length_times] at hlength
  refine le_trans hlength ?_
  have hspan : y.1.clock - (y.1.clock - retentionMs) = retentionMs := by omega
  rw [hspan]
  decide

theorem history_is_bounded_quiet :
    ∃ x y, SamplerReaches x ∧ observed Sampler.step noteReading x (.prune true) = some y ∧
      (y.1.store.entries.filter fun e => decide (e.1.1 = "bc1q.rig")).length ≤ 1009 := by
  obtain ⟨x, hreach, hx⟩ := @SamplerReaches.exists_of_run quietRigEvents
    (fun x => (observed Sampler.step noteReading x (.prune true)).isSome)
    (by decide +kernel)
  obtain ⟨y, hy⟩ := Option.isSome_iff_exists.mp hx
  exact ⟨x, y, hreach, hy, (history_is_bounded hreach hy "bc1q.rig").2⟩

end RentalProxy
