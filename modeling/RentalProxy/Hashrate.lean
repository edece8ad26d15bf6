import RentalProxy.Lib.Windows
import RentalProxy.Orders
import Mathlib.Algebra.Order.BigOperators.Group.List
import Mathlib.Algebra.Order.Ring.Rat

/-!
# The live hashrate

`hashes_per_second_at` reads the window as the last accepted share has left it.
Nothing is dropped at the query, so a miner that has stopped keeps its last
samples, and its hashrate, for good (`delivering_for_good`).

* `windowedRate` is the rate of the shares that are at most `window` old.
* `NoneStale` says that no share has left the window since the last record.
* `hashesPerSecondAt_eq_iff` is the result.
-/

namespace RentalProxy

/-- Floor for the rate divisor, in seconds. -/
def minRateSecs : Rat := 60

namespace HashrateWindow

/-- `hashes_per_second_at`.  `Instant::duration_since` is zero for a later instant. -/
def hashesPerSecondAt (w : HashrateWindow) (now : Rat) : Rat :=
  match w.samples with
  | [] => 0
  | (oldest, _) :: _ =>
    let sum := (w.samples.map Prod.snd).sum
    let span := max (min (max 0 (now - oldest)) w.window) minRateSecs
    sum * diff1Hashes / span

/-- A new window with these samples, recorded one after another. -/
def recordAll (window : Rat) (samples : List (Rat × Rat)) : HashrateWindow :=
  samples.foldl (fun w s => w.recordAt s.1 s.2) (.new window)

end HashrateWindow

/-- `is_delivering`. -/
def isDelivering (hashrateHs : Rat) : Bool := decide (0 < hashrateHs)

/-! ## The rate of the recent samples -/

open SlidingWindow

variable {window now : Rat} {samples : List (Rat × Rat)}

/-- The rate of the samples that are at most `window` old: their hashes over the time since the
oldest of them, clamped. -/
def windowedRate (window : Rat) (samples : List (Rat × Rat)) (now : Rat) : Rat :=
  match live Prod.fst window now samples with
  | [] => 0
  | s :: rest => diff1Hashes * ((s :: rest).map Prod.snd).sum /
      max minRateSecs (min (now - s.1) window)

/-- The samples that the last record has kept. -/
def keptSamples (window : Rat) (samples : List (Rat × Rat)) : List (Rat × Rat) :=
  match samples.getLast? with
  | some last => live Prod.fst window last.1 samples
  | none => []

/-- The time that a list of samples is spread over, clamped. -/
def rateSpan (window now : Rat) : List (Rat × Rat) → Rat
  | [] => minRateSecs
  | s :: _ => max minRateSecs (min (now - s.1) window)

/-- None of the samples that the last record has kept is out of the window by now. -/
def NoneStale (window : Rat) (samples : List (Rat × Rat)) (now : Rat) : Prop :=
  ∀ s ∈ keptSamples window samples, now - s.1 ≤ window

/-- The samples that are out of the window weigh just what the whole window in place of the span of
the others takes off. -/
def StaleBalanced (window : Rat) (samples : List (Rat × Rat)) (now : Rat) : Prop :=
  ((keptSamples window samples).map Prod.snd).sum *
      rateSpan window now (live Prod.fst window now samples) =
    ((live Prod.fst window now samples).map Prod.snd).sum * max minRateSecs window

instance : Decidable (NoneStale window samples now) :=
  inferInstanceAs (Decidable (∀ s ∈ keptSamples window samples, now - s.1 ≤ window))

instance : Decidable (StaleBalanced window samples now) :=
  inferInstanceAs (Decidable (_ = _))

theorem rateSpan_pos (window now : Rat) (l : List (Rat × Rat)) : 0 < rateSpan window now l := by
  have hfloor : (0 : Rat) < minRateSecs := by decide
  cases l with
  | nil => exact hfloor
  | cons s _ => exact lt_of_lt_of_le hfloor (le_max_left _ _)

theorem windowedRate_eq : windowedRate window samples now =
    diff1Hashes * ((live Prod.fst window now samples).map Prod.snd).sum /
      rateSpan window now (live Prod.fst window now samples) := by
  unfold windowedRate
  cases live Prod.fst window now samples with
  | nil => simp
  | cons s rest => rfl

/-- Recording keeps the samples that the window covers at the last of them. -/
theorem recordAll_eq (hsorted : InOrder Prod.fst samples) :
    HashrateWindow.recordAll window samples = ⟨window, keptSamples window samples⟩ := by
  have hfold : ∀ (l kept : List (Rat × Rat)),
      l.foldl (fun w s => w.recordAt s.1 s.2) (⟨window, kept⟩ : HashrateWindow) =
        ⟨window, l.foldl (record Prod.fst window) kept⟩ := by
    intro l
    induction l with
    | nil => exact fun _ => rfl
    | cons s l ih => exact fun kept => ih _
  unfold HashrateWindow.recordAll
  refine (hfold samples []).trans ?_
  rcases List.eq_nil_or_concat' samples with rfl | ⟨init, last, rfl⟩
  · rfl
  · rw [foldl_record hsorted, keptSamples, List.getLast?_concat]

theorem hashesPerSecondAt_eq (hsorted : InOrder Prod.fst samples)
    (hnow : ∀ s ∈ samples, s.1 ≤ now) :
    (HashrateWindow.recordAll window samples).hashesPerSecondAt now =
      diff1Hashes * ((keptSamples window samples).map Prod.snd).sum /
        rateSpan window now (keptSamples window samples) := by
  have hmem : ∀ s ∈ keptSamples window samples, s ∈ samples := by
    intro s hs
    unfold keptSamples at hs
    split at hs
    · exact List.mem_of_mem_filter hs
    · cases hs
  rw [recordAll_eq hsorted, HashrateWindow.hashesPerSecondAt]
  dsimp only
  cases hkept : keptSamples window samples with
  | nil => simp
  | cons s rest =>
    have hs : s.1 ≤ now := hnow s (hmem s (by rw [hkept]; exact List.mem_cons_self))
    dsimp only
    rw [rateSpan, max_eq_right (sub_nonneg.mpr hs), max_comm, mul_comm diff1Hashes]

/-- The recent samples are among the ones that were kept. -/
theorem live_keptSamples (hnow : ∀ s ∈ samples, s.1 ≤ now) :
    live Prod.fst window now (keptSamples window samples) = live Prod.fst window now samples := by
  rcases List.eq_nil_or_concat' samples with rfl | ⟨init, last, rfl⟩
  · rfl
  · rw [keptSamples, List.getLast?_concat]
    exact live_live (hnow last (by simp)) _

/-- The kept samples are spread over more than the window when one of them is out of it. -/
theorem rateSpan_keptSamples (hsorted : InOrder Prod.fst samples)
    (hstale : ¬NoneStale window samples now) :
    rateSpan window now (keptSamples window samples) = max minRateSecs window := by
  have hkept : InOrder Prod.fst (keptSamples window samples) := by
    unfold keptSamples
    split
    · exact hsorted.live _
    · exact List.Pairwise.nil
  simp only [NoneStale, not_forall, not_le] at hstale
  obtain ⟨s, hs, hold⟩ := hstale
  cases hlist : keptSamples window samples with
  | nil =>
    rw [hlist] at hs
    cases hs
  | cons oldest rest =>
    rw [hlist] at hkept hs
    have holdest : window < now - oldest.1 := stale_head hkept ⟨s, hs, hold⟩
    rw [rateSpan, min_eq_right holdest.le]

/-! ## The result -/

/-- The estimate is the rate of the recent samples as long as no share has left the window since the
last record, or else when the shares that have left it happen to weigh what the longer span takes
off. -/
theorem hashesPerSecondAt_eq_iff (hsorted : InOrder Prod.fst samples)
    (hnow : ∀ s ∈ samples, s.1 ≤ now) :
    (HashrateWindow.recordAll window samples).hashesPerSecondAt now =
        windowedRate window samples now ↔
      NoneStale window samples now ∨ StaleBalanced window samples now := by
  rw [hashesPerSecondAt_eq hsorted hnow, windowedRate_eq]
  by_cases hstale : NoneStale window samples now
  · have hsame : live Prod.fst window now samples = keptSamples window samples := by
      rw [← live_keptSamples hnow]
      exact List.filter_eq_self.mpr fun s hs => decide_eq_true (hstale s hs)
    rw [hsame]
    exact iff_of_true rfl (Or.inl hstale)
  · have hunit : diff1Hashes ≠ 0 := by decide
    rw [rateSpan_keptSamples hsorted hstale,
      div_eq_div_iff (lt_max_of_lt_left (by decide)).ne' (rateSpan_pos _ _ _).ne',
      mul_assoc, mul_assoc, mul_right_inj' hunit, or_iff_right hstale]
    exact Iff.rfl

/-- Steady shares, asked for while the last one is recent. -/
theorem hashesPerSecondAt_eq_steady :
    (HashrateWindow.recordAll 600 [(0, 1000), (40, 1000), (80, 1000)]).hashesPerSecondAt 200 =
      windowedRate 600 [(0, 1000), (40, 1000), (80, 1000)] 200 :=
  (hashesPerSecondAt_eq_iff (by decide) (by decide)).mpr (Or.inl (by decide +kernel))

/-- A miner that landed one share, and none for hours. -/
theorem stale_share_counts :
    (HashrateWindow.recordAll 600 [(0, 1000)]).hashesPerSecondAt 10000 ≠
        windowedRate 600 [(0, 1000)] 10000 ∧
      windowedRate 600 [(0, 1000)] 10000 = 0 ∧
      (HashrateWindow.recordAll 600 [(0, 1000)]).hashesPerSecondAt 10000 =
        1000 * diff1Hashes / 600 := by
  decide +kernel

/-- A miner that has landed a share keeps delivering, whatever it does. -/
theorem delivering_for_good (hwindow : 0 ≤ window) (hsome : samples ≠ [])
    (hsorted : InOrder Prod.fst samples) (hpos : ∀ s ∈ samples, 0 < s.2)
    (hnow : ∀ s ∈ samples, s.1 ≤ now) :
    isDelivering ((HashrateWindow.recordAll window samples).hashesPerSecondAt now) = true := by
  rw [isDelivering, decide_eq_true_eq, hashesPerSecondAt_eq hsorted hnow]
  obtain ⟨init, last, rfl⟩ := (List.eq_nil_or_concat' samples).resolve_left hsome
  have hkept : keptSamples window (init ++ [last]) ≠ [] := by
    rw [keptSamples, List.getLast?_concat]
    refine List.ne_nil_of_mem (a := last) (List.mem_filter.mpr ⟨by simp, ?_⟩)
    rw [decide_eq_true_eq, sub_self]
    exact hwindow
  have hsum : 0 < ((keptSamples window (init ++ [last])).map Prod.snd).sum := by
    refine List.sum_pos _ (fun d hd => ?_) (by simpa using hkept)
    obtain ⟨s, hs, rfl⟩ := List.mem_map.mp hd
    rw [keptSamples, List.getLast?_concat] at hs
    exact hpos s (List.mem_of_mem_filter hs)
  exact div_pos (mul_pos (by decide) hsum) (rateSpan_pos _ _ _)

end RentalProxy
