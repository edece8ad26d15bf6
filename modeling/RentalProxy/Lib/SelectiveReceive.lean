import Mathlib.Data.List.Basic
import Mathlib.Logic.Function.Iterate

/-!
# Waiting for one message among others

A client that has sent a request reads until the answer is there, and keeps the other messages
for later.  `await` is the loop: `ends` says of a message how the wait ends with it, and `none`
keeps the message.

What was kept and what is still unread is, in this order, the inbox without the message that
ended the wait (`await_replay`).  `Answers` says of an inbox that it answers so many requests,
one after another, and none of them with a refusal.
-/

namespace SelectiveReceive

variable {α β γ : Type*} {ends : α → Option γ} {kept kept' inbox inbox' : List α} {c : γ}

/-- Read until a message ends the wait, and keep what comes before it. -/
def await (ends : α → Option γ) : (kept inbox : List α) → Option (γ × List α × List α)
  | _, [] => none
  | kept, a :: inbox =>
    match ends a with
    | some c => some (c, kept, inbox)
    | none => await ends (kept ++ [a]) inbox

theorem await_of_none {a : α} (h : ends a = none) :
    await ends kept (a :: inbox) = await ends (kept ++ [a]) inbox := by
  simp only [await, h]

theorem await_of_some {a : α} (h : ends a = some c) :
    await ends kept (a :: inbox) = some (c, kept, inbox) := by
  simp only [await, h]

/-- What a wait that has ended has read. -/
theorem await_cases (h : await ends kept inbox = some (c, kept', inbox')) :
    ∃ front a, inbox = front ++ a :: inbox' ∧ kept' = kept ++ front ∧
      (∀ b ∈ front, ends b = none) ∧ ends a = some c := by
  induction inbox generalizing kept with
  | nil => cases h
  | cons a inbox ih =>
    cases ha : ends a with
    | none =>
      rw [await_of_none ha] at h
      obtain ⟨front, m, rfl, rfl, hfront, hm⟩ := ih h
      refine ⟨a :: front, m, rfl, by rw [List.append_assoc]; rfl, ?_, hm⟩
      intro b hb
      rcases List.mem_cons.mp hb with rfl | hrest
      · exact ha
      · exact hfront b hrest
    | some d =>
      rw [await_of_some ha] at h
      cases h
      exact ⟨[], a, rfl, (List.append_nil _).symm, List.forall_mem_nil _, ha⟩

/-- The inbox answers so many requests, one after another. -/
inductive Answers (ends : α → Option (Option β)) : Nat → List α → Prop where
  | done (inbox : List α) : Answers ends 0 inbox
  | other {n : Nat} {a : α} {inbox : List α} (ha : ends a = none) (h : Answers ends n inbox) :
      Answers ends n (a :: inbox)
  | answer {n : Nat} {a : α} {b : β} {inbox : List α} (ha : ends a = some (some b))
      (h : Answers ends n inbox) : Answers ends (n + 1) (a :: inbox)

/-- The first wait ends with an answer, and the others are answered by the rest. -/
theorem Answers.await {ends : α → Option (Option β)} {n : Nat} (h : Answers ends (n + 1) inbox)
    (kept : List α) : ∃ b kept' inbox',
      SelectiveReceive.await ends kept inbox = some (some b, kept', inbox') ∧
        Answers ends n inbox' := by
  induction inbox generalizing kept with
  | nil => cases h
  | cons a inbox ih =>
    cases h with
    | other ha h =>
      obtain ⟨b, kept', inbox', hawait, hrest⟩ := ih h (kept ++ [a])
      exact ⟨b, kept', inbox', by rw [await_of_none ha, hawait], hrest⟩
    | answer ha h => exact ⟨_, kept, inbox, await_of_some ha, h⟩

/-- The first messages of a kind are behind others of other kinds. -/
theorem iterate_eraseP_append {p : α → Bool} {front : List α} (h : ∀ a ∈ front, p a = false)
    (n : Nat) (rest : List α) :
    (List.eraseP p)^[n] (front ++ rest) = front ++ (List.eraseP p)^[n] rest := by
  induction n generalizing rest with
  | zero => rfl
  | succ n ih =>
    rw [Function.iterate_succ_apply, Function.iterate_succ_apply,
      List.eraseP_append_right _ (fun a ha => by simp [h a ha]), ih]

section Kinds

variable {p : α → Bool} (hkept : ∀ a, ends a = none → p a = false)
  (hended : ∀ a, ends a = some c → p a = true)
  (h : await ends kept inbox = some (c, kept', inbox'))

include hkept hended h

/-- Nothing is lost, and nothing changes places, also when more messages are taken later. -/
theorem await_replay (n : Nat) :
    kept' ++ (List.eraseP p)^[n] inbox' = kept ++ (List.eraseP p)^[n + 1] inbox := by
  obtain ⟨front, a, rfl, rfl, hfront, ha⟩ := await_cases h
  have hnone : ∀ b ∈ front, p b = false := fun b hb => hkept b (hfront b hb)
  rw [iterate_eraseP_append hnone, List.append_assoc, Function.iterate_succ_apply,
    List.eraseP_cons_of_pos (hended a ha)]

/-- The message that ended the wait is the first that could. -/
theorem await_filter : ∃ a, ends a = some c ∧ inbox.filter p = a :: inbox'.filter p := by
  obtain ⟨front, a, rfl, rfl, hfront, ha⟩ := await_cases h
  have hnone : front.filter p = [] :=
    List.filter_eq_nil_iff.mpr fun b hb => by simp [hkept b (hfront b hb)]
  exact ⟨a, ha, by rw [List.filter_append, hnone, List.filter_cons_of_pos (hended a ha)]; rfl⟩

end Kinds

end SelectiveReceive
