import MergeQueue.Proofs.Lane.WellFormed

/-!
# The batch under test

While a key is outstanding, nothing but a report under it or a withdrawal from the head touches the
head, and these drop the key. Handing out a batch is the only operation that moves the counter.
-/
namespace MergeQueue.Lane

variable {C : Type}

/-- The counter stands still, and a key that is outstanding afterwards was outstanding before, with
the same head. -/
structure KeepsTest (l l' : Lane C) : Prop where
  nextKey : l'.nextKey = l.nextKey
  outstanding : ∀ key, l'.outstanding = some key → l.outstanding = some key ∧ l'.head = l.head

theorem KeepsTest.refl (l : Lane C) : KeepsTest l l := ⟨rfl, fun _ h => ⟨h, rfl⟩⟩

theorem KeepsTest.trans {l₁ l₂ l₃ : Lane C} (h : KeepsTest l₁ l₂) (h' : KeepsTest l₂ l₃) :
    KeepsTest l₁ l₃ := by
  constructor
  · exact h'.nextKey.trans h.nextKey
  · intro key hk
    obtain ⟨hk₂, hd₂⟩ := h'.outstanding key hk
    obtain ⟨hk₁, hd₁⟩ := h.outstanding key hk₂
    exact ⟨hk₁, hd₂.trans hd₁⟩

theorem keepsTest_of_none {l l' : Lane C} (hn : l'.nextKey = l.nextKey)
    (hk : l'.outstanding = none) : KeepsTest l l' := by
  constructor
  · exact hn
  · intro key h
    rw [hk] at h
    cases h

theorem keepsTest_enqueue [DecidableEq C] (c : C) {l : Lane C} (h : l.WellFormed) :
    KeepsTest l (l.enqueue c).2 := by
  by_cases hc : c ∈ l.changes
  · rw [enqueue_of_mem hc]
    exact .refl l
  · rw [enqueue_of_not_mem hc]
    constructor
    · rfl
    · intro key hk
      have hne : l.outstanding ≠ none := Option.ne_none_iff_exists'.2 ⟨key, hk⟩
      exact ⟨hk, headD_appendLast c (h.head_under_test hne).2⟩

@[simp] theorem outstanding_enqueue [DecidableEq C] (c : C) (l : Lane C) :
    (l.enqueue c).2.outstanding = l.outstanding := by
  unfold enqueue
  split <;> rfl

theorem keepsTest_withdraw (p : C → Bool) {l : Lane C} (h : l.WellFormed) :
    KeepsTest l (l.withdraw p).2 := by
  constructor
  · exact nextKey_withdraw p l
  · intro key hk
    have hne : (l.withdraw p).2.outstanding ≠ none := Option.ne_none_iff_exists'.2 ⟨key, hk⟩
    obtain ⟨hout, hhead, -⟩ := withdraw_under_test p h.head_under_test hne
    exact ⟨hout ▸ hk, hhead⟩

@[simp] theorem nextKey_report (verdict : Verdict) (key : TestKey) (l : Lane C) :
    (l.report verdict key).2.nextKey = l.nextKey := by
  by_cases h : l.outstanding = some key
  · rw [report_of_eq h]
    cases verdict with
    | pass => rfl
    | fail =>
      change l.failHead.2.nextKey = l.nextKey
      unfold failHead
      split <;> rfl
  · rw [report_of_ne h]

theorem keepsTest_report (verdict : Verdict) (key : TestKey) (l : Lane C) :
    KeepsTest l (l.report verdict key).2 := by
  by_cases h : l.outstanding = some key
  · exact keepsTest_of_none (nextKey_report verdict key l) (outstanding_report verdict h)
  · rw [report_of_ne h]
    exact .refl l

/-- The head goes under test under the key that the counter stood at. -/
structure MintsKey (l l' : Lane C) : Prop where
  idle : l.outstanding = none
  outstanding : l'.outstanding = some ⟨l.nextKey⟩
  nextKey : l'.nextKey = l.nextKey + 1
  head : l'.head = l.head

/-- Handing out a batch answers nothing for an empty head, repeats the test that is outstanding, or
puts the head under test. -/
theorem dispatch_cases (l : Lane C) :
    l.dispatch = (none, l) ∨
      (∃ key, l.outstanding = some key ∧ l.dispatch.1 = some ⟨key, l.head⟩ ∧
        KeepsTest l l.dispatch.2) ∨
      l.dispatch.1 = some ⟨⟨l.nextKey⟩, l.head⟩ ∧ MintsKey l l.dispatch.2 := by
  by_cases hd : l.head = []
  · exact .inl (dispatch_of_nil hd)
  have hhead : (reserveLast l.batches).headD [] = l.head := headD_reserveLast l.batches
  cases hk : l.outstanding with
  | some key =>
    rw [dispatch_of_some hd hk]
    exact .inr (.inl ⟨key, rfl, rfl, rfl, fun _ h => ⟨hk.trans h, hhead⟩⟩)
  | none =>
    rw [dispatch_of_none hd hk]
    exact .inr (.inr ⟨rfl, hk, rfl, rfl, hhead⟩)

section EnqueueAll

variable [DecidableEq C]

/-- Puts changes into the last batch, one after another. -/
def enqueueAll (cs : List C) (l : Lane C) : Lane C := cs.foldl (fun l c => (l.enqueue c).2) l

@[simp] theorem enqueueAll_nil (l : Lane C) : enqueueAll [] l = l := rfl

@[simp] theorem enqueueAll_cons (c : C) (cs : List C) (l : Lane C) :
    enqueueAll (c :: cs) l = enqueueAll cs (l.enqueue c).2 := rfl

theorem wellFormed_enqueueAll (cs : List C) {l : Lane C} (h : l.WellFormed) :
    (enqueueAll cs l).WellFormed := by
  induction cs generalizing l with
  | nil => exact h
  | cons c cs ih => exact ih (wellFormed_enqueue c h)

@[simp] theorem outstanding_enqueueAll (cs : List C) (l : Lane C) :
    (enqueueAll cs l).outstanding = l.outstanding := by
  induction cs generalizing l with
  | nil => rfl
  | cons c cs ih => rw [enqueueAll_cons, ih, outstanding_enqueue]

theorem keepsTest_enqueueAll (cs : List C) {l : Lane C} (h : l.WellFormed) :
    KeepsTest l (enqueueAll cs l) := by
  induction cs generalizing l with
  | nil => exact .refl l
  | cons c cs ih => exact (keepsTest_enqueue c h).trans (ih (wellFormed_enqueue c h))

theorem not_mem_changes_enqueue {c : C} {cs : List C} {l : Lane C} (hnd : (c :: cs).Nodup)
    (hnew : ∀ d ∈ c :: cs, d ∉ l.changes) : ∀ d ∈ cs, d ∉ (l.enqueue c).2.changes := by
  intro d hd
  rw [changes_enqueue, if_neg (hnew c List.mem_cons_self), List.mem_append, not_or]
  refine ⟨hnew d (List.mem_cons_of_mem c hd), fun hdc => ?_⟩
  rw [List.mem_singleton.1 hdc] at hd
  exact (List.nodup_cons.1 hnd).1 hd

/-- Changes that are new to the lane all join its end, in order. -/
theorem changes_enqueueAll {cs : List C} {l : Lane C} (hnd : cs.Nodup)
    (hnew : ∀ c ∈ cs, c ∉ l.changes) : (enqueueAll cs l).changes = l.changes ++ cs := by
  induction cs generalizing l with
  | nil => rw [List.append_nil, enqueueAll_nil]
  | cons c cs ih =>
    rw [enqueueAll_cons, ih hnd.of_cons (not_mem_changes_enqueue hnd hnew), changes_enqueue,
      if_neg (hnew c List.mem_cons_self), List.append_assoc]
    rfl

theorem enqueueAll_concat {cs : List C} {l : Lane C} {front : List (List C)} {last : List C}
    (hnd : cs.Nodup) (hnew : ∀ c ∈ cs, c ∉ l.changes) (hb : l.batches = front ++ [last]) :
    enqueueAll cs l = { l with batches := front ++ [last ++ cs] } := by
  induction cs generalizing l last with
  | nil => rw [enqueueAll_nil, List.append_nil, ← hb]
  | cons c cs ih =>
    have hjoin := enqueue_of_not_mem (hnew c List.mem_cons_self)
    have hb' : (l.enqueue c).2.batches = front ++ [last ++ [c]] := by
      rw [hjoin, ← appendLast_concat, ← hb]
    rw [enqueueAll_cons, ih hnd.of_cons (not_mem_changes_enqueue hnd hnew) hb', hjoin,
      List.append_assoc]
    rfl

end EnqueueAll

end MergeQueue.Lane
