import MergeQueue.Proofs.Lane.Batches

/-!
# What an operation does, case by case

One equation for each case of an operation, with what decides it. Later proofs use these and do
not look into the operations.
-/
namespace MergeQueue.Lane

variable {C : Type}

theorem enqueue_of_mem [DecidableEq C] {c : C} {l : Lane C} (h : c ∈ l.changes) :
    l.enqueue c = (false, l) := if_pos (contains_iff.2 h)

theorem enqueue_of_not_mem [DecidableEq C] {c : C} {l : Lane C} (h : c ∉ l.changes) :
    l.enqueue c = (true, { l with batches := appendLast c l.batches }) :=
  if_neg (mt contains_iff.1 h)

theorem dispatch_of_nil {l : Lane C} (h : l.head = []) : l.dispatch = (none, l) :=
  if_pos (List.isEmpty_iff.2 h)

theorem dispatch_of_some {l : Lane C} {key : TestKey} (h : l.head ≠ [])
    (hk : l.outstanding = some key) :
    l.dispatch = (some ⟨key, l.head⟩, ⟨reserveLast l.batches, some key, l.nextKey⟩) := by
  have he : ¬l.head.isEmpty := mt List.isEmpty_iff.1 h
  rcases l with ⟨bs, _, n⟩
  cases hk
  exact if_neg he

theorem dispatch_of_none {l : Lane C} (h : l.head ≠ []) (hk : l.outstanding = none) :
    l.dispatch = (some ⟨⟨l.nextKey⟩, l.head⟩,
      ⟨reserveLast l.batches, some ⟨l.nextKey⟩, l.nextKey + 1⟩) := by
  have he : ¬l.head.isEmpty := mt List.isEmpty_iff.1 h
  rcases l with ⟨bs, _, n⟩
  cases hk
  exact if_neg he

theorem report_of_eq {verdict : Verdict} {key : TestKey} {l : Lane C}
    (h : l.outstanding = some key) :
    l.report verdict key = match verdict with
      | .pass => l.passHead
      | .fail => l.failHead := if_pos h

theorem passHead_cons {l : Lane C} {b b' : List C} {bs : List (List C)}
    (h : l.batches = b :: b' :: bs) : l.passHead = (⟨b, []⟩, ⟨b' :: bs, none, l.nextKey⟩) := by
  rcases l with ⟨_, o, n⟩
  cases h
  rfl

theorem failHead_single {l : Lane C} {c : C} {bs : List (List C)} (h : l.batches = [c] :: bs) :
    l.failHead = (⟨[], [c]⟩, ⟨[bs.flatten], none, l.nextKey⟩) := by
  rcases l with ⟨_, o, n⟩
  cases h
  rfl

theorem failHead_halve {l : Lane C} {b : List C} {bs : List (List C)} (h : l.batches = b :: bs)
    (hb : 2 ≤ b.length) :
    l.failHead =
      (.none, ⟨b.take (b.length / 2) :: b.drop (b.length / 2) :: bs, none, l.nextKey⟩) := by
  rcases l with ⟨_, o, n⟩
  cases h
  match b with
  | [] => simp at hb
  | [c] => simp at hb
  | c :: d :: cs => rfl

@[simp] theorem outstanding_passHead (l : Lane C) : l.passHead.2.outstanding = none := rfl

@[simp] theorem outstanding_failHead (l : Lane C) : l.failHead.2.outstanding = none := by
  unfold failHead
  split <;> rfl

theorem outstanding_report (verdict : Verdict) {key : TestKey} {l : Lane C}
    (h : l.outstanding = some key) : (l.report verdict key).2.outstanding = none := by
  rw [report_of_eq h]
  cases verdict with
  | pass => exact outstanding_passHead l
  | fail => exact outstanding_failHead l

/-- Only a change that stands alone under test can fail. -/
theorem failed_report_cases (verdict : Verdict) (key : TestKey) (l : Lane C) :
    (l.report verdict key).1.failed = [] ∨
      verdict = .fail ∧ l.outstanding = some key ∧ ∃ c bs, l.batches = [c] :: bs := by
  by_cases hk : l.outstanding = some key
  · cases verdict with
    | pass =>
      left
      rw [report_of_eq hk]
      rfl
    | fail =>
      rw [report_of_eq hk]
      match hb : l.batches with
      | [] => exact .inl (by simp [failHead, hb, Outcome.none])
      | [] :: bs => exact .inl (by simp [failHead, hb, Outcome.none])
      | [c] :: bs => exact .inr ⟨rfl, hk, c, bs, rfl⟩
      | (c :: d :: cs) :: bs => exact .inl (by rw [failHead_halve hb (by simp)]; rfl)
  · left
    rw [report_of_ne hk]
    rfl

theorem withdraw_of_none {p : C → Bool} {l : Lane C} (h : ∀ c ∈ l.changes, p c = false) :
    l.withdraw p = ([], l) := by
  apply if_neg
  rw [List.any_eq_true]
  rintro ⟨c, hc, hp⟩
  rw [h c hc] at hp
  exact absurd hp Bool.false_ne_true

/-- Either nothing is withdrawn, or the batches lose what is, and the key is dropped if the head
does. -/
theorem withdraw_cases (p : C → Bool) (l : Lane C) :
    (∀ c ∈ l.changes, p c = false) ∧ l.withdraw p = ([], l) ∨
      (∃ c ∈ l.changes, p c = true) ∧ l.withdraw p = (l.changes.filter p,
        ⟨dropEmpty (l.batches.map (List.filter fun c => !p c)),
          if l.head.any p then none else l.outstanding, l.nextKey⟩) := by
  by_cases h : l.changes.any p = true
  · exact .inr ⟨List.any_eq_true.1 h, if_pos h⟩
  · have hnone : ∀ c ∈ l.changes, p c = false := by simpa using h
    exact .inl ⟨hnone, withdraw_of_none hnone⟩

theorem filter_batches_of_none {p : C → Bool} {l : Lane C} (h : ∀ c ∈ l.changes, p c = false) :
    l.batches.map (List.filter fun c => !p c) = l.batches := by
  refine (List.map_congr_left fun b hb => ?_).trans (List.map_id _)
  apply List.filter_eq_self.2
  intro c hc
  rw [h c (List.mem_flatten.2 ⟨b, hb, hc⟩)]
  rfl

/-- The batches lose what is withdrawn, and those that this empties disappear, but for the last
one. -/
theorem batches_withdraw (p : C → Bool) {l : Lane C} (h : OnlyLastEmpty l.batches) :
    (l.withdraw p).2.batches = dropEmpty (l.batches.map (List.filter fun c => !p c)) := by
  obtain ⟨hnone, heq⟩ | ⟨-, heq⟩ := withdraw_cases p l
  · rw [heq, filter_batches_of_none hnone, dropEmpty_eq_self h]
  · rw [heq]

theorem batches_withdraw_concat (p : C → Bool) {l : Lane C} (h : OnlyLastEmpty l.batches)
    {front : List (List C)} {last : List C} (hb : l.batches = front ++ [last]) :
    (l.withdraw p).2.batches =
      (front.map (List.filter fun c => !p c)).filter (· ≠ []) ++ [last.filter fun c => !p c] := by
  rw [batches_withdraw p h, hb, List.map_append, List.map_singleton, dropEmpty_concat]

theorem outstanding_withdraw (p : C → Bool) (l : Lane C) :
    (l.withdraw p).2.outstanding = if l.head.any p then none else l.outstanding := by
  obtain ⟨hnone, heq⟩ | ⟨-, heq⟩ := withdraw_cases p l
  · have hhead : ¬l.head.any p := by
      rw [List.any_eq_true]
      rintro ⟨c, hc, hp⟩
      rw [hnone c (head_append_flatten_tail l ▸ List.mem_append_left _ hc)] at hp
      cases hp
    rw [heq, if_neg hhead]
  · rw [heq]

@[simp] theorem nextKey_withdraw (p : C → Bool) (l : Lane C) :
    (l.withdraw p).2.nextKey = l.nextKey := by
  unfold withdraw
  split <;> rfl

/-- The only batch of a lane stays, even if nothing is left in it. -/
theorem batches_withdraw_singleton (p : C → Bool) {l : Lane C} {b : List C} (h : l.batches = [b]) :
    (l.withdraw p).2.batches = [b.filter fun c => !p c] := by
  have hshape : OnlyLastEmpty l.batches := by
    rw [h]
    exact .singleton b
  rw [batches_withdraw p hshape, h]
  rfl

end MergeQueue.Lane
