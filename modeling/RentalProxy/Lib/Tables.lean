import Mathlib.Data.List.AList
import Mathlib.Data.List.Induction
import RentalProxy.Lib.Logs

/-!
# Tables that are filled and emptied in a loop

What a lookup finds in a table after a loop over a list has erased or inserted
one key per element, and after a single erase or insert.
-/

namespace KeyedTable

variable {κ α β : Type*} [DecidableEq κ]

/-- What is left after an erase was there before. -/
theorem lookup_of_lookup_erase {m : AList fun _ : κ => β} {k k' : κ} {v : β}
    (h : (m.erase k').lookup k = some v) : k ≠ k' ∧ m.lookup k = some v := by
  by_cases hk : k = k'
  · subst hk
    rw [AList.lookup_erase] at h
    cases h
  · rw [AList.lookup_erase_ne hk] at h
    exact ⟨hk, h⟩

/-- What is there after an insert is new, or was there before. -/
theorem lookup_insert_cases {m : AList fun _ : κ => β} {k k' : κ} {v v' : β}
    (h : (m.insert k' v').lookup k = some v) :
    (k = k' ∧ v = v') ∨ (k ≠ k' ∧ m.lookup k = some v) := by
  by_cases hk : k = k'
  · subst hk
    rw [AList.lookup_insert] at h
    cases h
    exact Or.inl ⟨rfl, rfl⟩
  · rw [AList.lookup_insert_ne hk] at h
    exact Or.inr ⟨hk, h⟩

/-- A lookup in a table of one entry finds that entry only. -/
theorem lookup_single {k k' : κ} {v v' : β} :
    ((∅ : AList fun _ : κ => β).insert k v).lookup k' = some v' ↔ k' = k ∧ v' = v := by
  by_cases hk : k' = k
  · subst hk
    rw [AList.lookup_insert]
    simp [eq_comm]
  · rw [AList.lookup_insert_ne hk, AList.lookup_empty]
    simp [hk]

/-- After a loop of erases the erased keys are gone, and the others are as before. -/
theorem lookup_foldl_erase (f : α → κ) (xs : List α) (m : AList fun _ : κ => β) (k : κ) :
    (xs.foldl (fun m x => m.erase (f x)) m).lookup k =
      if k ∈ xs.map f then none else m.lookup k := by
  induction xs generalizing m with
  | nil => simp
  | cons x xs ih =>
    rw [List.foldl_cons, ih]
    by_cases hk : k = f x
    · subst hk
      simp [AList.lookup_erase]
    · simp [hk, AList.lookup_erase_ne hk]

/-- After a loop of inserts under distinct keys each key has the value that was inserted under it,
and the others are as before. -/
theorem lookup_foldl_insert (f : α → κ) (g : α → β) {xs : List α} (hnodup : (xs.map f).Nodup)
    (m : AList fun _ : κ => β) (k : κ) (v : β) :
    (xs.foldl (fun m x => m.insert (f x) (g x)) m).lookup k = some v ↔
      (∃ x ∈ xs, f x = k ∧ g x = v) ∨ (k ∉ xs.map f ∧ m.lookup k = some v) := by
  induction xs generalizing m with
  | nil => simp
  | cons x xs ih =>
    obtain ⟨hx, hxs⟩ := List.nodup_cons.mp hnodup
    rw [List.foldl_cons, ih hxs]
    by_cases hk : k = f x
    · subst hk
      have hnone : ¬∃ y ∈ xs, f y = f x ∧ g y = v := by
        rintro ⟨y, hy, heq, _⟩
        exact hx (heq ▸ List.mem_map_of_mem hy)
      simp only [hnone, false_or, hx, not_false_eq_true, true_and, AList.lookup_insert,
        Option.some.injEq, List.mem_cons, exists_eq_or_imp, List.map_cons, not_true, false_and,
        or_false]
    · rw [AList.lookup_insert_ne hk]
      simp [hk, Ne.symm hk]

/-- After a loop that inserts the elements with `p`, a key has the last value that was inserted
under it, or what it had before. -/
theorem lookup_foldl_insert_latest {p : α → Prop} [DecidablePred p] (f : α → κ) (g : α → β)
    (xs : List α) (m : AList fun _ : κ => β) (k : κ) :
    (xs.foldl (fun m x => if p x then m.insert (f x) (g x) else m) m).lookup k =
      (Log.latest (fun x => if p x ∧ f x = k then some (g x) else none) xs).or (m.lookup k) := by
  induction xs using List.reverseRecOn with
  | nil => rfl
  | append_singleton xs x ih =>
    rw [List.foldl_append, List.foldl_cons, List.foldl_nil, Log.latest_append,
      Log.latest_singleton]
    by_cases hx : p x ∧ f x = k
    · obtain ⟨hp, rfl⟩ := hx
      rw [if_pos hp, AList.lookup_insert, if_pos ⟨hp, rfl⟩]
      rfl
    · rw [if_neg hx, Option.none_or, ← ih]
      split
      · rename_i hp
        exact AList.lookup_insert_ne fun hk => hx ⟨hp, hk.symm⟩
      · rfl

/-- What a loop that inserts some elements leaves was inserted, or was there before. -/
theorem lookup_foldl_insert_if {p : α → Prop} [DecidablePred p] (f : α → κ) (g : α → β)
    {xs : List α} {m : AList fun _ : κ => β} {k : κ} {v : β}
    (h : (xs.foldl (fun m x => if p x then m.insert (f x) (g x) else m) m).lookup k = some v) :
    (∃ x ∈ xs, p x ∧ f x = k ∧ g x = v) ∨ m.lookup k = some v := by
  rw [lookup_foldl_insert_latest, Option.or_eq_some_iff] at h
  rcases h with hlatest | ⟨_, hold⟩
  · obtain ⟨x, hx, hof⟩ := Log.exists_of_latest hlatest
    obtain ⟨⟨hp, hk⟩, hv⟩ := Option.ite_none_right_eq_some.mp hof
    exact Or.inl ⟨x, hx, hp, hk, Option.some.inj hv⟩
  · exact Or.inr hold

/-- What a loop of inserts leaves was inserted, or was there before. -/
theorem lookup_foldl_insert_mem (f : α → κ) (g : α → β) {xs : List α} {m : AList fun _ : κ => β}
    {k : κ} {v : β} (h : (xs.foldl (fun m x => m.insert (f x) (g x)) m).lookup k = some v) :
    (∃ x ∈ xs, f x = k ∧ g x = v) ∨ m.lookup k = some v := by
  have hall : (xs.foldl (fun m x => if True then m.insert (f x) (g x) else m) m).lookup k =
      some v := by
    simpa only [if_true] using h
  rcases lookup_foldl_insert_if f g hall with ⟨x, hx, _, hkey, hvalue⟩ | hold
  · exact Or.inl ⟨x, hx, hkey, hvalue⟩
  · exact Or.inr hold

/-- After a loop that erases the keys of the elements with `p` these keys are gone, and the others
are as before. -/
theorem lookup_foldl_erase_if {p : α → Prop} [DecidablePred p] (f : α → κ) (xs : List α)
    (m : AList fun _ : κ => β) (k : κ) :
    (xs.foldl (fun m x => if p x then m.erase (f x) else m) m).lookup k =
      if ∃ x ∈ xs, p x ∧ f x = k then none else m.lookup k := by
  induction xs generalizing m with
  | nil => simp
  | cons x xs ih =>
    rw [List.foldl_cons, ih]
    by_cases hx : p x ∧ f x = k
    · obtain ⟨hp, rfl⟩ := hx
      simp [hp, AList.lookup_erase]
    · have hhead : (if p x then m.erase (f x) else m).lookup k = m.lookup k := by
        split
        · rename_i hp
          exact AList.lookup_erase_ne fun hk => hx ⟨hp, hk.symm⟩
        · rfl
      simp only [hhead, List.mem_cons, exists_eq_or_imp, hx, false_or]

/-! ## Counting entries -/

/-- An erased entry is counted no more. -/
theorem countP_erase {m : AList fun _ : κ => β} {k : κ} {v : β} (h : m.lookup k = some v)
    (p : (Sigma fun _ : κ => β) → Bool) :
    m.entries.countP p = (m.erase k).entries.countP p + if p ⟨k, v⟩ then 1 else 0 := by
  have hkey : k ∈ m.entries.keys := AList.lookup_isSome.mp (by rw [h]; rfl)
  obtain ⟨b, before, after, _, hentries, herase⟩ := List.exists_of_kerase hkey
  have hb : b = v := by
    have hlookup : m.lookup k = some b :=
      AList.mem_lookup_iff.mpr (by rw [hentries]; exact List.mem_append_right _ List.mem_cons_self)
    rw [h] at hlookup
    exact (Option.some.inj hlookup).symm
  subst hb
  have hleft : (m.erase k).entries = before ++ after := herase
  rw [hentries, hleft, List.countP_append, List.countP_append, List.countP_cons]
  omega

/-- An entry under a new key is counted once. -/
theorem countP_insert {m : AList fun _ : κ => β} {k : κ} (h : m.lookup k = none) (v : β)
    (p : (Sigma fun _ : κ => β) → Bool) :
    (m.insert k v).entries.countP p = m.entries.countP p + if p ⟨k, v⟩ then 1 else 0 := by
  rw [AList.entries_insert_of_notMem (AList.lookup_eq_none.mp h), List.countP_cons]

/-- A loop of erases that erases no entry with `p` leaves the count of the entries with `p`. -/
theorem countP_foldl_erase_if {q : (Sigma fun _ : κ => β) → Prop} [DecidablePred q]
    (p : (Sigma fun _ : κ => β) → Bool) (xs : List (Sigma fun _ : κ => β))
    {m : AList fun _ : κ => β}
    (hreach : ∀ x ∈ xs, q x → ∀ v, m.lookup x.1 = some v → p ⟨x.1, v⟩ = false) :
    (xs.foldl (fun m x => if q x then m.erase x.1 else m) m).entries.countP p =
      m.entries.countP p := by
  induction xs generalizing m with
  | nil => rfl
  | cons x xs ih =>
    rw [List.foldl_cons]
    split
    · rename_i hq
      have hcount : (m.erase x.1).entries.countP p = m.entries.countP p := by
        cases hlookup : m.lookup x.1 with
        | none =>
          have hsame : (m.erase x.1).entries = m.entries :=
            List.kerase_of_notMem_keys (AList.lookup_eq_none.mp hlookup)
          rw [hsame]
        | some v =>
          rw [countP_erase hlookup p, hreach x List.mem_cons_self hq v hlookup]
          rfl
      rw [ih fun y hy hqy v hv =>
        hreach y (List.mem_cons_of_mem _ hy) hqy v (lookup_of_lookup_erase hv).2, hcount]
    · exact ih fun y hy => hreach y (List.mem_cons_of_mem _ hy)

end KeyedTable
