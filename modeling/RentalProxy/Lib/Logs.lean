import Mathlib.Data.List.Basic

/-!
# What comes before an entry of a log

A log only grows at its end.  `Ordered ok log` says that every entry `x` of the
log satisfies `ok before x`, where `before` are the entries in front of it.  A
test that a longer past does not spoil (`hmono` below) has to be made once, when
the entry is written (`Ordered.append`).

`latest f log` is the last thing that `f` sees in the log.
-/

namespace Log

variable {α β : Type*} {ok : List α → α → Prop} {log new : List α}

/-- Every entry is preceded by what it needs. -/
def Ordered (ok : List α → α → Prop) (log : List α) : Prop :=
  ∀ before x after, log = before ++ x :: after → ok before x

theorem Ordered.nil : Ordered ok [] := by
  intro before x after h
  cases before <;> cases h

/-- New entries, each after the old ones and the new ones in front of it. -/
theorem Ordered.extend (h : Ordered ok log)
    (hnew : ∀ before x after, new = before ++ x :: after → ok (log ++ before) x) :
    Ordered ok (log ++ new) := by
  intro before x after heq
  rcases List.append_eq_append_iff.mp heq with ⟨mid, hbefore, hx⟩ | ⟨mid, hlog, hx⟩
  · rw [hbefore]
    exact hnew mid x after hx
  · cases mid with
    | nil =>
      rw [List.append_nil] at hlog
      rw [← hlog, ← List.append_nil log]
      exact hnew [] x after hx.symm
    | cons y mid =>
      obtain ⟨rfl, -⟩ := List.cons.inj hx
      exact h before x mid hlog

/-- One more entry. -/
theorem Ordered.snoc {x : α} (h : Ordered ok log) (hx : ok log x) : Ordered ok (log ++ [x]) := by
  refine h.extend fun before y after heq => ?_
  obtain ⟨rfl, hx'⟩ | ⟨_, _, hnil⟩ := List.cons_eq_append_iff.mp heq
  · cases hx'
    rw [List.append_nil]
    exact hx
  · cases List.append_eq_nil_iff.mp hnil.symm |>.2

/-- New entries that are preceded by what they need. -/
theorem Ordered.append (h : Ordered ok log)
    (hmono : ∀ before more x, ok before x → ok (before ++ more) x)
    (hnew : ∀ x ∈ new, ok log x) : Ordered ok (log ++ new) :=
  h.extend fun before x _ heq => hmono log before x (hnew x (by simp [heq]))

/-! ## The latest entry -/

variable {f : α → Option β} {x : α}

/-- The last thing that `f` sees. -/
def latest (f : α → Option β) (log : List α) : Option β := (log.filterMap f).getLast?

@[simp] theorem latest_nil : latest f [] = none := rfl

theorem latest_append : latest f (log ++ new) = (latest f new).or (latest f log) := by
  rw [latest, List.filterMap_append, List.getLast?_append]
  rfl

/-- Nothing to be seen. -/
theorem latest_eq_none (h : ∀ x ∈ log, f x = none) : latest f log = none := by
  rw [latest, List.filterMap_eq_nil_iff.mpr h]
  rfl

theorem latest_append_of_none (h : ∀ x ∈ new, f x = none) :
    latest f (log ++ new) = latest f log := by
  rw [latest_append, latest_eq_none h, Option.none_or]

/-- There is a latest thing as soon as there is one. -/
theorem latest_isSome {y : β} (hx : x ∈ log) (h : f x = some y) : (latest f log).isSome = true := by
  have hmem : y ∈ log.filterMap f := List.mem_filterMap.mpr ⟨x, hx, h⟩
  rw [latest, List.getLast?_isSome]
  exact List.ne_nil_of_mem hmem

/-- The latest thing is seen in the log. -/
theorem exists_of_latest {y : β} (h : latest f log = some y) : ∃ x ∈ log, f x = some y :=
  List.mem_filterMap.mp (List.mem_of_getLast? h)

@[simp] theorem latest_singleton : latest f [x] = f x := by
  unfold latest
  cases h : f x <;> simp [h]

end Log
