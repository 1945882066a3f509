import MergeQueue.Lane
import Mathlib.Tactic
import Mathlib.Data.Nat.Log

/-!
# Logs and budgets of a drain

What a drain has done is read from its log. A truthful drain of batches isolates the first bad
change again and again, and the failures that this takes are bounded along the way.
-/
namespace MergeQueue

/-!
## The log of a drain

What a log says was passed and failed, and how many of its tests failed. A drain that has nothing
left to test is not changed by a higher limit.
-/

variable {C : Type}

def passedIn (log : List (DrainEntry C)) : List C := log.flatMap (·.outcome.passed)

def failedIn (log : List (DrainEntry C)) : List C := log.flatMap (·.outcome.failed)

def failuresIn (log : List (DrainEntry C)) : ℕ := log.countP (·.verdict = .fail)

@[simp] theorem passedIn_cons (e : DrainEntry C) (log : List (DrainEntry C)) :
    passedIn (e :: log) = e.outcome.passed ++ passedIn log := rfl

@[simp] theorem failedIn_cons (e : DrainEntry C) (log : List (DrainEntry C)) :
    failedIn (e :: log) = e.outcome.failed ++ failedIn log := rfl

theorem failuresIn_cons (e : DrainEntry C) (log : List (DrainEntry C)) :
    failuresIn (e :: log) = (if e.verdict = .fail then 1 else 0) + failuresIn log := by
  simp [failuresIn, List.countP_cons, Nat.add_comm]

section Limit

variable {S : Type} {dispatch : S → Option (Dispatch C) × S}
  {report : Verdict → TestKey → S → Outcome C × S} {bad : C → Bool}

theorem drainWith_of_none {s : S} (n : ℕ) (h : dispatch s = (none, s)) :
    drainWith dispatch report bad n s = ([], s) := by
  cases n with
  | zero => rfl
  | succ n => rw [drainWith, h]

theorem drainWith_of_some {s s' t : S} {d : Dispatch C} {o : Outcome C} (n : ℕ)
    (h : dispatch s = (some d, s')) (hr : report (.ofBatch bad d.changes) d.key s' = (o, t)) :
    drainWith dispatch report bad (n + 1) s =
      (⟨d.key, d.changes.length, .ofBatch bad d.changes, o⟩ ::
        (drainWith dispatch report bad n t).1, (drainWith dispatch report bad n t).2) := by
  rw [drainWith, h]
  simp only [hr]

/-- Once nothing is left to test, a higher limit changes nothing. -/
theorem drainWith_of_le {n m : ℕ} {s : S} (hle : n ≤ m)
    (h : dispatch (drainWith dispatch report bad n s).2 =
      (none, (drainWith dispatch report bad n s).2))
    (hidle : ∀ t : S, (dispatch t).1 = none → (dispatch t).2 = t) :
    drainWith dispatch report bad m s = drainWith dispatch report bad n s := by
  induction n generalizing m s with
  | zero => exact drainWith_of_none m h
  | succ n ih =>
    obtain ⟨m, rfl⟩ : ∃ k, m = k + 1 := ⟨m - 1, by omega⟩
    cases hd : dispatch s with
    | mk d s' =>
      cases d with
      | none =>
        have hs : s' = s := by
          have := hidle s (by rw [hd])
          rwa [hd] at this
        rw [hs] at hd
        rw [drainWith_of_none _ hd, drainWith_of_none _ hd]
      | some d =>
        cases hr : report (.ofBatch bad d.changes) d.key s' with
        | mk o t =>
          rw [drainWith_of_some n hd hr] at h ⊢
          rw [drainWith_of_some m hd hr, ih (Nat.le_of_succ_le_succ hle) h]

end Limit

/-!
## How many tests may fail

Halving a batch of `n` changes isolates its first bad change after `Nat.clog 2 n + 1` failing tests
at most. What is left is then one batch again, so each further bad change costs at most as much as
one among all changes. The budget counts this for any partition into batches; a passing batch does
not raise it, and every failing test uses up at least one.
-/

variable (bad : C → Bool)

/-- The failing tests that isolate the first bad change, if there is one. -/
def isolationCost : List (List C) → Nat
  | [] => 0
  | b :: bs => if b.any bad then Nat.clog 2 b.length + 1 else isolationCost bs

/-- The failing tests that isolate all bad changes, one after another. -/
def failureBudget (bs : List (List C)) : Nat :=
  isolationCost bad bs + (bs.flatten.countP bad - 1) * (Nat.clog 2 bs.flatten.length + 1)

variable {bad}

theorem isolationCost_of_any {b : List C} (bs : List (List C)) (h : b.any bad = true) :
    isolationCost bad (b :: bs) = Nat.clog 2 b.length + 1 := if_pos h

theorem isolationCost_of_not_any {b : List C} (bs : List (List C)) (h : b.any bad = false) :
    isolationCost bad (b :: bs) = isolationCost bad bs := if_neg (by simp [h])

theorem countP_pos_of_any {b : List C} (h : b.any bad = true) : 0 < b.countP bad := by
  rw [List.countP_pos_iff]
  exact List.any_eq_true.1 h

theorem countP_eq_zero_of_not_any {b : List C} (h : b.any bad = false) : b.countP bad = 0 := by
  rw [List.countP_eq_zero]
  intro c hc hp
  exact Bool.false_ne_true (h ▸ List.any_eq_true.2 ⟨c, hc, hp⟩)

theorem isolationCost_eq_zero {bs : List (List C)} (h : bs.flatten.countP bad = 0) :
    isolationCost bad bs = 0 := by
  induction bs with
  | nil => rfl
  | cons b bs ih =>
    rw [List.flatten_cons, List.countP_append] at h
    cases hb : b.any bad with
    | true =>
      have := countP_pos_of_any hb
      omega
    | false =>
      rw [isolationCost_of_not_any bs hb]
      exact ih (by omega)

/-- The batch of the first bad change is no larger than all of them together. -/
theorem isolationCost_le (bs : List (List C)) :
    isolationCost bad bs ≤ Nat.clog 2 bs.flatten.length + 1 := by
  induction bs with
  | nil => simp [isolationCost]
  | cons b bs ih =>
    rw [List.flatten_cons, List.length_append]
    cases hb : b.any bad with
    | true =>
      rw [isolationCost_of_any bs hb]
      exact Nat.add_le_add_right (Nat.clog_mono_right 2 (Nat.le_add_right _ _)) 1
    | false =>
      rw [isolationCost_of_not_any bs hb]
      exact ih.trans (Nat.add_le_add_right (Nat.clog_mono_right 2 (Nat.le_add_left _ _)) 1)

/-- Each bad change costs at most as much as one among all changes. -/
theorem failureBudget_le (bs : List (List C)) :
    failureBudget bad bs ≤ bs.flatten.countP bad * (Nat.clog 2 bs.flatten.length + 1) := by
  unfold failureBudget
  cases hk : bs.flatten.countP bad with
  | zero => simp [isolationCost_eq_zero hk]
  | succ k =>
    rw [Nat.add_sub_cancel, Nat.succ_mul, Nat.add_comm]
    exact Nat.add_le_add_left (isolationCost_le bs) _

theorem failureBudget_pass {b : List C} (bs : List (List C)) (h : b.any bad = false) :
    failureBudget bad bs ≤ failureBudget bad (b :: bs) := by
  unfold failureBudget
  rw [isolationCost_of_not_any bs h, List.flatten_cons, List.countP_append,
    countP_eq_zero_of_not_any h, Nat.zero_add, List.length_append]
  have hlog : Nat.clog 2 bs.flatten.length ≤ Nat.clog 2 (b.length + bs.flatten.length) :=
    Nat.clog_mono_right 2 (Nat.le_add_left _ _)
  exact Nat.add_le_add_left (Nat.mul_le_mul_left _ (Nat.add_le_add_right hlog 1)) _

theorem clog_half {n : ℕ} (h : 2 ≤ n) : Nat.clog 2 ((n + 1) / 2) + 1 = Nat.clog 2 n :=
  (Nat.clog_of_two_le (by norm_num) h).symm

/-- Whichever half holds the first bad change, isolating it is cheaper by one. -/
theorem isolationCost_halve {b : List C} (bs : List (List C)) (hb : b.any bad = true)
    (hlen : 2 ≤ b.length) :
    isolationCost bad (b.take (b.length / 2) :: b.drop (b.length / 2) :: bs) + 1 ≤
      isolationCost bad (b :: bs) := by
  have hhalf := clog_half hlen
  rw [isolationCost_of_any bs hb]
  cases hfront : (b.take (b.length / 2)).any bad with
  | true =>
    rw [isolationCost_of_any _ hfront, List.length_take]
    have : Nat.clog 2 (min (b.length / 2) b.length) ≤ Nat.clog 2 ((b.length + 1) / 2) :=
      Nat.clog_mono_right 2 (by omega)
    omega
  | false =>
    have hback : (b.drop (b.length / 2)).any bad = true := by
      rw [← List.take_append_drop (b.length / 2) b, List.any_append, hfront] at hb
      exact hb
    rw [isolationCost_of_not_any _ hfront, isolationCost_of_any bs hback, List.length_drop]
    have : Nat.clog 2 (b.length - b.length / 2) ≤ Nat.clog 2 ((b.length + 1) / 2) :=
      Nat.clog_mono_right 2 (by omega)
    omega

theorem failureBudget_halve {b : List C} (bs : List (List C)) (hb : b.any bad = true)
    (hlen : 2 ≤ b.length) :
    failureBudget bad (b.take (b.length / 2) :: b.drop (b.length / 2) :: bs) + 1 ≤
      failureBudget bad (b :: bs) := by
  have hsame : (b.take (b.length / 2) :: b.drop (b.length / 2) :: bs).flatten =
      (b :: bs).flatten := by
    simp [← List.append_assoc]
  have hcost := isolationCost_halve bs hb hlen
  unfold failureBudget
  rw [hsame]
  omega

/-- An isolated bad change leaves the budget for the others, also if more of them leave with it. -/
theorem failureBudget_isolate {c : C} {bs : List (List C)} {rest : List C} (hc : bad c = true)
    (hrest : rest.Sublist bs.flatten) :
    failureBudget bad [rest] + 1 ≤ failureBudget bad ([c] :: bs) := by
  have hflat : ([c] :: bs).flatten = c :: bs.flatten := rfl
  have hcount : rest.countP bad ≤ bs.flatten.countP bad := hrest.countP_le
  have hlog : Nat.clog 2 rest.length ≤ Nat.clog 2 (c :: bs.flatten).length :=
    Nat.clog_mono_right 2 (hrest.length_le.trans (Nat.le_succ _))
  have hcost : isolationCost bad ([c] :: bs) = 1 := by
    rw [isolationCost_of_any bs (by simp [hc])]
    simp
  calc failureBudget bad [rest] + 1
      ≤ rest.countP bad * (Nat.clog 2 rest.length + 1) + 1 := by
        have hle : failureBudget bad [rest] ≤ _ := failureBudget_le [rest]
        rw [List.flatten_singleton] at hle
        exact Nat.add_le_add_right hle 1
    _ ≤ bs.flatten.countP bad * (Nat.clog 2 (c :: bs.flatten).length + 1) + 1 :=
        Nat.add_le_add_right (Nat.mul_le_mul hcount (Nat.add_le_add_right hlog 1)) 1
    _ = failureBudget bad ([c] :: bs) := by
        rw [failureBudget, hcost, hflat, List.countP_cons_of_pos hc, Nat.add_sub_cancel,
          Nat.add_comm]

theorem failureBudget_append_nil (b : List C) :
    failureBudget bad [b, []] = failureBudget bad [b] := by
  cases hb : b.any bad <;> simp [failureBudget, isolationCost, hb]

end MergeQueue
