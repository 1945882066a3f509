import MergeQueue.Lane

/-!
# What the operations do to the changes of a lane

Each operation is described by what it does to the list of all changes: arrivals join its end, a
test takes changes from its front, handing out a batch leaves it as it is, and withdrawing splits
it in two without reordering either part.
-/
namespace MergeQueue.Lane

variable {C : Type}

theorem head_append_flatten_tail (l : Lane C) : l.head ++ l.batches.tail.flatten = l.changes := by
  unfold head changes
  cases l.batches <;> simp

theorem head_eq_nil {l : Lane C} (h : l.changes = []) : l.head = [] := by
  rw [← head_append_flatten_tail, List.append_eq_nil_iff] at h
  exact h.1

@[simp] theorem contains_iff [DecidableEq C] {c : C} {l : Lane C} :
    l.contains c = true ↔ c ∈ l.changes := by
  simp [contains]

theorem changes_enqueue [DecidableEq C] (c : C) (l : Lane C) :
    (l.enqueue c).2.changes = if c ∈ l.changes then l.changes else l.changes ++ [c] := by
  unfold enqueue
  by_cases h : c ∈ l.changes
  · rw [if_pos (contains_iff.2 h), if_pos h]
  · rw [if_neg (mt contains_iff.1 h), if_neg h]
    exact flatten_appendLast c l.batches

@[simp] theorem changes_dispatch (l : Lane C) : l.dispatch.2.changes = l.changes := by
  unfold dispatch
  split
  · rfl
  · cases l.outstanding <;> exact flatten_reserveLast l.batches

theorem fst_dispatch_eq_none_iff {l : Lane C} : l.dispatch.1 = none ↔ l.head = [] := by
  unfold dispatch
  cases l.head with
  | nil => simp
  | cons c cs => cases l.outstanding <;> simp

theorem changes_passHead (l : Lane C) :
    l.passHead.1.passed ++ l.passHead.2.changes = l.changes := by
  refine Eq.trans ?_ (head_append_flatten_tail l)
  unfold passHead
  cases l.batches.tail <;> simp [changes]

/-- A failing head loses at most its first change. -/
theorem changes_failHead (l : Lane C) :
    l.failHead.1.failed ++ l.failHead.2.changes = l.changes := by
  unfold failHead changes
  split <;> rename_i h <;> simp [h, Outcome.none, ← List.append_assoc]

@[simp] theorem passed_failHead (l : Lane C) : l.failHead.1.passed = [] := by
  unfold failHead
  split <;> rfl

/-- What a report classifies leaves from the front, in order. -/
theorem changes_report (verdict : Verdict) (key : TestKey) (l : Lane C) :
    (l.report verdict key).1.passed ++ (l.report verdict key).1.failed ++
      (l.report verdict key).2.changes = l.changes := by
  unfold report
  split
  · cases verdict with
    | pass =>
      change l.head ++ [] ++ l.passHead.2.changes = l.changes
      rw [List.append_nil]
      exact changes_passHead l
    | fail =>
      change l.failHead.1.passed ++ l.failHead.1.failed ++ l.failHead.2.changes = l.changes
      rw [passed_failHead]
      exact changes_failHead l
  · rfl

theorem report_of_ne {verdict : Verdict} {key : TestKey} {l : Lane C}
    (h : l.outstanding ≠ some key) : l.report verdict key = (.none, l) := if_neg h

theorem filter_of_not_any {p : C → Bool} {cs : List C} (h : ¬cs.any p = true) :
    cs.filter p = [] := by
  rw [List.filter_eq_nil_iff]
  intro c hc hp
  exact h (List.any_eq_true.2 ⟨c, hc, hp⟩)

@[simp] theorem fst_withdraw (p : C → Bool) (l : Lane C) :
    (l.withdraw p).1 = l.changes.filter p := by
  unfold withdraw
  split
  · rfl
  · rename_i h
    exact (filter_of_not_any h).symm

@[simp] theorem changes_withdraw (p : C → Bool) (l : Lane C) :
    (l.withdraw p).2.changes = l.changes.filter fun c => !p c := by
  unfold withdraw
  split
  · change (dropEmpty (l.batches.map (List.filter fun c => !p c))).flatten = _
    rw [flatten_dropEmpty, ← List.filter_flatten]
    rfl
  · rename_i h
    refine (List.filter_eq_self.2 fun c hc => ?_).symm
    cases hp : p c with
    | false => rfl
    | true => exact absurd (List.any_eq_true.2 ⟨c, hc, hp⟩) h

end MergeQueue.Lane
