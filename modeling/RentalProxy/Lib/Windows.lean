import Mathlib.Algebra.Order.Group.Defs
import Mathlib.Algebra.Order.Group.Unbundled.Basic
import Mathlib.Data.List.Induction

/-!
# Sliding windows

Entries are appended in the order of their times, and those that a window no
longer covers are dropped from the front.  `record` does both.  As the entries
are in order, what is left is `live`: exactly the entries that the window covers
at the time of the last one (`foldl_record`).

Nothing is dropped between two records, so a later reader still finds entries
that have left the window meanwhile (`stale_head`).
-/

namespace SlidingWindow

variable {α T : Type*} [LinearOrder T] [AddCommGroup T] (time : α → T) (window : T)

/-- No entry is older than the one before it. -/
def InOrder (entries : List α) : Prop :=
  entries.Pairwise fun a b => time a ≤ time b

instance (entries : List α) : Decidable (InOrder time entries) :=
  inferInstanceAs (Decidable (entries.Pairwise fun a b => time a ≤ time b))

/-- The entries that the window covers. -/
def live (now : T) (entries : List α) : List α :=
  entries.filter fun a => decide (now - time a ≤ window)

/-- Drop what is too old, from the front. -/
def prune (now : T) (entries : List α) : List α :=
  entries.dropWhile fun a => decide (window < now - time a)

/-- Append an entry and drop what is too old at its time. -/
def record (entries : List α) (a : α) : List α :=
  prune time window (time a) (entries ++ [a])

variable {time window} {entries : List α}

/-- A test that holds up to some entry, and from there no more. -/
theorem dropWhile_eq_filter {p : α → Bool} {l : List α}
    (h : l.Pairwise fun a b => p b = true → p a = true) :
    l.dropWhile p = l.filter fun a => !p a := by
  induction l with
  | nil => rfl
  | cons a l ih =>
    obtain ⟨hhead, htail⟩ := List.pairwise_cons.mp h
    cases ha : p a with
    | true =>
      rw [List.dropWhile_cons_of_pos ha, List.filter_cons_of_neg (by simp [ha])]
      exact ih htail
    | false =>
      rw [List.dropWhile_cons_of_neg (by simp [ha]), List.filter_cons_of_pos (by simp [ha])]
      refine congrArg (a :: ·) (List.filter_eq_self.mpr fun b hb => ?_).symm
      by_contra hb'
      rw [hhead b hb (by simpa using hb')] at ha
      cases ha

theorem InOrder.live (h : InOrder time entries) (now : T) :
    InOrder time (live time window now entries) :=
  List.Pairwise.filter _ h

section Covered

variable [IsOrderedAddMonoid T]

theorem prune_eq_live (h : InOrder time entries) (now : T) :
    prune time window now entries = live time window now entries := by
  rw [prune, live, dropWhile_eq_filter]
  · refine List.filter_congr fun a _ => ?_
    simp only [← decide_not, not_lt]
  · refine h.imp fun {a b} hab hb => ?_
    simp only [decide_eq_true_eq] at hb ⊢
    exact lt_of_lt_of_le hb (sub_le_sub_left hab now)

/-- What is covered later was covered before. -/
theorem live_live {before now : T} (h : before ≤ now) (entries : List α) :
    live time window now (live time window before entries) = live time window now entries := by
  rw [live, live, List.filter_filter]
  refine List.filter_congr fun a _ => ?_
  rw [← Bool.decide_and, decide_eq_decide]
  constructor
  · exact And.left
  · exact fun ha => ⟨ha, (sub_le_sub_right h (time a)).trans ha⟩

/-- What has been recorded is what the window covers at the last record. -/
theorem foldl_record {a : α} (h : InOrder time (entries ++ [a])) :
    (entries ++ [a]).foldl (record time window) [] =
      SlidingWindow.live time window (time a) (entries ++ [a]) := by
  induction entries using List.reverseRecOn generalizing a with
  | nil => exact prune_eq_live h (time a)
  | append_singleton entries b ih =>
    obtain ⟨hinit, -, hlast⟩ := List.pairwise_append.mp h
    have hba : time b ≤ time a := hlast b (by simp) a (by simp)
    have hkept : InOrder time
        (SlidingWindow.live time window (time b) (entries ++ [b]) ++ [a]) := by
      refine List.pairwise_append.mpr ⟨InOrder.live hinit _, by simp, fun c hc => ?_⟩
      exact hlast c (List.mem_filter.mp hc).1
    rw [List.foldl_append, ih hinit]
    change prune time window (time a) _ = _
    rw [prune_eq_live hkept]
    change List.filter _ _ = List.filter _ _
    rw [List.filter_append, List.filter_append (entries ++ [b])]
    exact congrArg (· ++ _) (live_live hba _)

end Covered

/-- Entries in order of which not all are covered begin with one that is not. -/
theorem stale_head [IsOrderedAddMonoid T] {now : T} {a : α} {rest : List α}
    (h : InOrder time (a :: rest)) (hstale : ∃ b ∈ a :: rest, window < now - time b) :
    window < now - time a := by
  obtain ⟨b, hb, hold⟩ := hstale
  rcases List.mem_cons.mp hb with rfl | hb
  · exact hold
  · exact lt_of_lt_of_le hold (sub_le_sub_left ((List.pairwise_cons.mp h).1 b hb) now)

end SlidingWindow
