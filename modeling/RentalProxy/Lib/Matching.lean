import Mathlib.Data.List.AList

/-!
# Answers matched through a keyed table

A client sends requests one after another, each under a key of its own
choosing.  Some requests carry a weight, which is put into a table under the
request's key.  A server answers the requests in order and echoes the key, and
the answer takes the weight back out of the table.

The list `outstanding` is the truth: the keys and weights of the requests that
are still unanswered, oldest first.  `Tracks table outstanding` says that the
table is a faithful index of it.  Looking an answer up in the table then gives
the weight of the request that was really answered (`Tracks.lookup_head`).

`Tracks` survives a new request only if its key is not in use: no unanswered
request has the key of a new weighted request (`Tracks.push_weighted`), and no
unanswered weighted request has the key of a new plain one
(`Tracks.push_plain`).
-/

namespace KeyedMatching

variable {κ α : Type*} [DecidableEq κ]

/-- The table holds exactly the weights of the outstanding requests, and no
outstanding request shares the key of a weighted one. -/
structure Tracks (table : AList fun _ : κ => α)
    (outstanding : List (κ × Option α)) : Prop where
  /-- The entries of the table are the weighted requests. -/
  entry : ∀ k a, table.lookup k = some a ↔ (k, some a) ∈ outstanding
  /-- A weighted request shares its key with no other request. -/
  unique : outstanding.Pairwise fun p q =>
    (p.2.isSome ∨ q.2.isSome) → p.1 ≠ q.1

namespace Tracks

variable {table : AList fun _ : κ => α} {outstanding : List (κ × Option α)}
  {k : κ} {a : α}

/-- With nothing outstanding the table is empty. -/
theorem nil : Tracks (∅ : AList fun _ : κ => α) [] where
  entry := by simp
  unique := List.Pairwise.nil

/-- A weighted request under an unused key. -/
theorem push_weighted (h : Tracks table outstanding)
    (hfresh : ∀ p ∈ outstanding, p.1 ≠ k) :
    Tracks (table.insert k a) (outstanding ++ [(k, some a)]) where
  entry := by
    intro k' a'
    by_cases hk : k' = k
    · subst hk
      have hout : (k', some a') ∉ outstanding := fun hmem => hfresh _ hmem rfl
      simp [AList.lookup_insert, hout, eq_comm]
    · rw [AList.lookup_insert_ne hk, h.entry]
      simp [hk]
  unique := by
    rw [List.pairwise_append]
    refine ⟨h.unique, by simp, ?_⟩
    intro p hp q hq _
    rw [List.mem_singleton] at hq
    subst hq
    exact hfresh p hp

/-- A request without a weight, under a key that no weighted request uses. -/
theorem push_plain (h : Tracks table outstanding)
    (hfresh : ∀ p ∈ outstanding, p.2.isSome → p.1 ≠ k) :
    Tracks table (outstanding ++ [(k, none)]) where
  entry := by
    intro k' a'
    rw [h.entry]
    simp
  unique := by
    rw [List.pairwise_append]
    refine ⟨h.unique, by simp, ?_⟩
    intro p hp q hq hsome
    rw [List.mem_singleton] at hq
    subst hq
    exact hfresh p hp (by simpa using hsome)

/-- The table gives the weight of the oldest request. -/
theorem lookup_head {w : Option α} (h : Tracks table ((k, w) :: outstanding)) :
    table.lookup k = w := by
  cases w with
  | some a => exact (h.entry k a).mpr (by simp)
  | none =>
      -- an entry under `k` would be a weighted request with the same key
      cases hlook : table.lookup k with
      | none => rfl
      | some a =>
          have hmem : (k, some a) ∈ (k, none) :: outstanding :=
            (h.entry k a).mp hlook
          have htail : (k, some a) ∈ outstanding := by simpa using hmem
          have hpair := List.pairwise_cons.mp h.unique
          exact absurd rfl (hpair.1 (k, some a) htail (by simp))

/-- Answering the oldest request: its entry, if any, leaves the table. -/
theorem pop {w : Option α} (h : Tracks table ((k, w) :: outstanding)) :
    Tracks (table.erase k) outstanding where
  entry := by
    have hpair := List.pairwise_cons.mp h.unique
    intro k' a'
    by_cases hk : k' = k
    · subst hk
      have hout : (k', some a') ∉ outstanding := fun hmem =>
        hpair.1 _ hmem (by simp) rfl
      simp [AList.lookup_erase, hout]
    · rw [AList.lookup_erase_ne hk, h.entry]
      simp [hk]
  unique := (List.pairwise_cons.mp h.unique).2

/-- Answering a request without a weight leaves the table alone. -/
theorem pop_plain (h : Tracks table ((k, none) :: outstanding)) :
    Tracks table outstanding where
  entry := by
    intro k' a'
    rw [h.entry]
    simp
  unique := (List.pairwise_cons.mp h.unique).2

end Tracks

end KeyedMatching
