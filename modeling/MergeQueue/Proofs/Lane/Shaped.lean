import MergeQueue.Proofs.Lane.Cases
import MergeQueue.Lane.Run

/-!
# The shape of a lane

There is a batch, only the last one may be empty, and a head under test is guarded. Every action
keeps this, whatever the counter stands at: arrivals and withdrawals touch the batches one by one,
and a report rearranges the front of them and drops the key.
-/
namespace MergeQueue.Lane

/-!
## A head under test is guarded

While a key is outstanding, the head holds a change and has another batch behind it, which takes the
arrivals. Arrivals, withdrawals and handing out a batch keep this, whatever the counter stands at.
-/

variable {C : Type} {l : Lane C}

/-- A head under test holds a change and is not the last batch. -/
def HeadGuarded (l : Lane C) : Prop :=
  l.outstanding ≠ none → l.head ≠ [] ∧ 2 ≤ l.batches.length

theorem headGuarded_of_none (h : l.outstanding = none) : l.HeadGuarded := fun hk => absurd h hk

theorem HeadGuarded.batches_eq (h : l.HeadGuarded) (hk : l.outstanding ≠ none) :
    ∃ b b' bs, l.batches = b :: b' :: bs ∧ b ≠ [] := by
  obtain ⟨hd, hlen⟩ := h hk
  unfold head at hd
  match hb : l.batches with
  | [] => simp [hb] at hlen
  | [b] => simp [hb] at hlen
  | b :: b' :: bs =>
    rw [hb] at hd
    exact ⟨b, b', bs, rfl, hd⟩

theorem headGuarded_enqueue [DecidableEq C] (c : C) (h : l.HeadGuarded) :
    (l.enqueue c).2.HeadGuarded := by
  by_cases hc : c ∈ l.changes
  · rw [enqueue_of_mem hc]
    exact h
  · rw [enqueue_of_not_mem hc]
    intro hk
    obtain ⟨hd, hlen⟩ := h hk
    have hne : l.batches ≠ [] := List.ne_nil_of_length_pos (by omega)
    change (appendLast c l.batches).headD [] ≠ [] ∧ 2 ≤ (appendLast c l.batches).length
    rw [headD_appendLast c hlen, length_appendLast c hne]
    exact ⟨hd, hlen⟩

theorem headGuarded_dispatch (h : l.HeadGuarded) : l.dispatch.2.HeadGuarded := by
  by_cases hd : l.head = []
  · rw [dispatch_of_nil hd]
    exact h
  have htest : (reserveLast l.batches).headD [] ≠ [] ∧ 2 ≤ (reserveLast l.batches).length :=
    ⟨headD_reserveLast l.batches ▸ hd, two_le_length_reserveLast hd⟩
  cases hk : l.outstanding with
  | some key =>
    rw [dispatch_of_some hd hk]
    exact fun _ => htest
  | none =>
    rw [dispatch_of_none hd hk]
    exact fun _ => htest

theorem dropEmpty_filter_cons {p : C → Bool} {b : List C} (bs : List (List C)) (hb : b ≠ [])
    (hp : ∀ c ∈ b, p c = false) :
    dropEmpty ((b :: bs).map (List.filter fun c => !p c)) =
      b :: dropEmpty (bs.map (List.filter fun c => !p c)) := by
  have hkeep : b.filter (fun c => !p c) = b := List.filter_eq_self.2 fun c hc => by simp [hp c hc]
  rw [List.map_cons, hkeep]
  cases bs with
  | nil => rfl
  | cons b' bs => exact if_neg (by simpa using hb)

/-- Withdrawing drops the key, or leaves it and its head as they are. -/
theorem withdraw_under_test (p : C → Bool) (h : l.HeadGuarded)
    (hk : (l.withdraw p).2.outstanding ≠ none) :
    (l.withdraw p).2.outstanding = l.outstanding ∧ (l.withdraw p).2.head = l.head ∧
      2 ≤ (l.withdraw p).2.batches.length := by
  obtain ⟨-, heq⟩ | ⟨-, heq⟩ := withdraw_cases p l
  · rw [heq] at hk ⊢
    exact ⟨rfl, rfl, (h hk).2⟩
  · rw [heq] at hk ⊢
    by_cases hhead : l.head.any p
    · exact absurd (if_pos hhead) hk
    have hl : l.outstanding ≠ none := by simpa [hhead] using hk
    have hlose : ∀ d ∈ l.head, p d = false := by simpa using hhead
    obtain ⟨b, b', bs, hb, hne⟩ := h.batches_eq hl
    have hbhead : l.head = b := by simp [head, hb]
    rw [hbhead] at hlose
    have hbatches := dropEmpty_filter_cons (b' :: bs) hne hlose
    rw [← hb] at hbatches
    refine ⟨if_neg hhead, ?_, ?_⟩
    · change (dropEmpty (l.batches.map (List.filter fun c => !p c))).headD [] = l.head
      rw [hbatches, hbhead]
      rfl
    · change 2 ≤ (dropEmpty (l.batches.map (List.filter fun c => !p c))).length
      have hrest : dropEmpty ((b' :: bs).map (List.filter fun c => !p c)) ≠ [] :=
        dropEmpty_ne_nil (by simp)
      have := List.length_pos_iff.2 hrest
      rw [hbatches, List.length_cons]
      omega

theorem headGuarded_withdraw (p : C → Bool) (h : l.HeadGuarded) :
    (l.withdraw p).2.HeadGuarded := by
  intro hk
  obtain ⟨hout, hhead, hlen⟩ := withdraw_under_test p h hk
  rw [hhead]
  exact ⟨(h (hout ▸ hk)).1, hlen⟩

structure Shaped (l : Lane C) : Prop where
  has_batch : l.batches ≠ []
  only_last_empty : OnlyLastEmpty l.batches
  head_guarded : l.HeadGuarded

theorem shaped_empty : (empty : Lane C).Shaped :=
  ⟨List.cons_ne_nil _ _, .singleton [], headGuarded_of_none rfl⟩

theorem Shaped.exists_last (h : l.Shaped) : ∃ front last, l.batches = front ++ [last] :=
  List.eq_nil_or_concat' l.batches |>.resolve_left h.has_batch

theorem shaped_enqueue [DecidableEq C] (c : C) (h : l.Shaped) : (l.enqueue c).2.Shaped := by
  have hguarded := headGuarded_enqueue c h.head_guarded
  by_cases hc : c ∈ l.changes
  · rw [enqueue_of_mem hc]
    exact h
  · rw [enqueue_of_not_mem hc] at hguarded ⊢
    exact ⟨appendLast_ne_nil c _, onlyLastEmpty_appendLast c h.only_last_empty, hguarded⟩

theorem shaped_dispatch (h : l.Shaped) : l.dispatch.2.Shaped := by
  by_cases hd : l.head = []
  · rw [dispatch_of_nil hd]
    exact h
  have hne := reserveLast_ne_nil h.has_batch
  have hshape := onlyLastEmpty_reserveLast h.only_last_empty hd
  have hguarded := headGuarded_dispatch h.head_guarded
  cases hk : l.outstanding with
  | some key =>
    rw [dispatch_of_some hd hk] at hguarded ⊢
    exact ⟨hne, hshape, hguarded⟩
  | none =>
    rw [dispatch_of_none hd hk] at hguarded ⊢
    exact ⟨hne, hshape, hguarded⟩

theorem shaped_passHead (h : l.Shaped) (hk : l.outstanding ≠ none) : l.passHead.2.Shaped := by
  obtain ⟨b, b', bs, hb, -⟩ := h.head_guarded.batches_eq hk
  have hshape : OnlyLastEmpty (b :: b' :: bs) := hb ▸ h.only_last_empty
  rw [passHead_cons hb]
  exact ⟨List.cons_ne_nil _ _, hshape.tail, headGuarded_of_none rfl⟩

theorem shaped_failHead (h : l.Shaped) (hk : l.outstanding ≠ none) : l.failHead.2.Shaped := by
  obtain ⟨b, b', bs, hb, hne⟩ := h.head_guarded.batches_eq hk
  have hshape : OnlyLastEmpty (b :: b' :: bs) := hb ▸ h.only_last_empty
  by_cases hlen : 2 ≤ b.length
  · obtain ⟨hfront, hback⟩ := halves_ne_nil hlen
    rw [failHead_halve hb hlen]
    exact ⟨List.cons_ne_nil _ _, .cons hfront (.cons hback hshape.tail), headGuarded_of_none rfl⟩
  · obtain ⟨c, rfl⟩ := eq_singleton_of_not_two_le hne hlen
    rw [failHead_single hb]
    exact ⟨List.cons_ne_nil _ _, .singleton _, headGuarded_of_none rfl⟩

theorem shaped_report (verdict : Verdict) (key : TestKey) (h : l.Shaped) :
    (l.report verdict key).2.Shaped := by
  by_cases hk : l.outstanding = some key
  · have hk' : l.outstanding ≠ none := by simp [hk]
    rw [report_of_eq hk]
    cases verdict with
    | pass => exact shaped_passHead h hk'
    | fail => exact shaped_failHead h hk'
  · rw [report_of_ne hk]
    exact h

theorem shaped_withdraw (p : C → Bool) (h : l.Shaped) : (l.withdraw p).2.Shaped where
  has_batch := by
    rw [batches_withdraw p h.only_last_empty]
    exact dropEmpty_ne_nil (mt List.map_eq_nil_iff.1 h.has_batch)
  only_last_empty := by
    rw [batches_withdraw p h.only_last_empty]
    exact onlyLastEmpty_dropEmpty _
  head_guarded := headGuarded_withdraw p h.head_guarded

theorem shaped_act [DecidableEq C] (h : l.Shaped) (a : Action C) : (l.act a).2.Shaped := by
  cases a with
  | enqueue c => exact shaped_enqueue c h
  | dispatch => exact shaped_dispatch h
  | report verdict key => exact shaped_report verdict key h
  | withdraw p => exact shaped_withdraw p h

end MergeQueue.Lane
