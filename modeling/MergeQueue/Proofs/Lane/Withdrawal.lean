import MergeQueue.Proofs.Lane.WellFormed

/-!
# A withdrawal filters in place

A withdrawal can be made batch by batch: each batch is split into what goes and what stays, and of
what stays the batches that hold a change are kept, and the last one. A lane of the usual shape has
then lost exactly what was withdrawn. The other changes stand in the order and in the batches they
stood in before, and the key is dropped exactly if the head lost a change.
-/
namespace MergeQueue.Lane

variable {C : Type}

/-- How far a withdrawal has come: what stays in the batches it has passed over, what it took out of
them, and whether the head lost a change. -/
structure Sweep (C : Type) where
  stay : List (List C)
  taken : List C
  headLost : Bool
deriving DecidableEq, Repr

namespace Sweep

def start : Sweep C := ⟨[], [], false⟩

/-- Splits the next batch. It is the head if no batch was passed over before it. -/
def pass (p : C → Bool) (s : Sweep C) (b : List C) : Sweep C :=
  let (goes, stays) := b.partition p
  ⟨s.stay ++ [stays], s.taken ++ goes, s.headLost || (s.stay.isEmpty && !goes.isEmpty)⟩

def after (p : C → Bool) (bs : List (List C)) : Sweep C :=
  ⟨bs.map (List.filter fun c => !p c), bs.flatten.filter p, (bs.headD []).any p⟩

theorem any_eq_not_isEmpty_filter (p : C → Bool) (b : List C) :
    b.any p = !(b.filter p).isEmpty := by
  rw [Bool.eq_iff_iff]
  simp

theorem pass_after (p : C → Bool) (bs : List (List C)) (b : List C) :
    (after p bs).pass p b = after p (bs ++ [b]) := by
  have hhead : ((bs.headD []).any p ||
      ((bs.map (List.filter fun c => !p c)).isEmpty && !(b.filter p).isEmpty)) =
        ((bs ++ [b]).headD []).any p := by
    -- The head is the first batch, and every other one leaves the answer as it is.
    cases bs with
    | nil => exact (any_eq_not_isEmpty_filter p b).symm
    | cons b' bs => simp
  unfold pass after
  rw [List.partition_eq_filter_filter]
  simp only [hhead]
  simp [Function.comp_def]

theorem foldl_pass (p : C → Bool) (bs : List (List C)) :
    bs.foldl (pass p) start = after p bs := by
  induction bs using List.reverseRecOn with
  | nil => rfl
  | append_singleton bs b ih =>
    rw [List.foldl_append, ih]
    exact pass_after p bs b

end Sweep

/-- Keeps the batches that hold a change and the one at position `last`, with the positions counted
along from `i`. -/
def retainFrom (last : ℕ) : ℕ → List (List C) → List (List C)
  | _, [] => []
  | i, b :: bs =>
    if b ≠ [] ∨ i = last then b :: retainFrom last (i + 1) bs else retainFrom last (i + 1) bs

theorem retainFrom_eq_dropEmpty {last i : ℕ} {bs : List (List C)}
    (h : i + bs.length = last + 1) : retainFrom last i bs = dropEmpty bs := by
  induction bs generalizing i with
  | nil => rfl
  | cons b bs ih =>
    rw [List.length_cons] at h
    rw [retainFrom, ih (by omega)]
    cases bs with
    | nil =>
      rw [if_pos (.inr (by simpa using h))]
      rfl
    | cons b' bs =>
      -- Another batch is to come, so this one is not at the last position.
      have hi : i ≠ last := by
        rw [List.length_cons] at h
        omega
      rw [dropEmpty]
      by_cases hb : b = [] <;> simp [hb, hi]

theorem retainFrom_zero (bs : List (List C)) :
    retainFrom (bs.length - 1) 0 bs = dropEmpty bs := by
  cases bs with
  | nil => rfl
  | cons b bs => exact retainFrom_eq_dropEmpty (by simp)

/-- Withdraws batch by batch. If nothing was taken out, the batches stay as they are and so does the
key. -/
def sweep (p : C → Bool) (l : Lane C) : List C × Lane C :=
  let s := l.batches.foldl (Sweep.pass p) .start
  if s.taken.isEmpty then ([], { l with batches := s.stay })
  else
    (s.taken,
      { l with
        batches := retainFrom (s.stay.length - 1) 0 s.stay
        outstanding := if s.headLost then none else l.outstanding })

/-- Whatever its batches, a lane is swept as it is withdrawn from. -/
theorem sweep_eq_withdraw (p : C → Bool) (l : Lane C) : l.sweep p = l.withdraw p := by
  unfold sweep
  rw [Sweep.foldl_pass]
  obtain ⟨hnone, heq⟩ | ⟨⟨c, hc, hp⟩, heq⟩ := withdraw_cases p l
  · have htaken : (Sweep.after p l.batches).taken = [] :=
      List.filter_eq_nil_iff.2 fun c hc => by simp [hnone c hc]
    rw [heq]
    simp only [htaken, List.isEmpty_nil, if_true]
    simp only [Sweep.after, filter_batches_of_none hnone]
  · have htaken : (Sweep.after p l.batches).taken ≠ [] :=
      List.ne_nil_of_mem (List.mem_filter.2 ⟨hc, hp⟩)
    rw [heq]
    simp only [List.isEmpty_iff, if_neg htaken, retainFrom_zero]
    rfl

/-- What withdrawing gives out, in the order of the tests, and what it leaves. Each batch has lost
what was withdrawn from it, and those that are empty now are gone, but for the last one. The key is
dropped or kept as the head has lost a change or not. -/
structure FiltersInPlace (p : C → Bool) (l : Lane C) (taken : List C) (l' : Lane C) : Prop where
  taken_in_order : taken = l.changes.filter p
  batches : ∃ front last, l.batches = front ++ [last] ∧ l'.batches =
    (front.map (List.filter fun c => !p c)).filter (· ≠ []) ++ [last.filter fun c => !p c]
  counter : l'.nextKey = l.nextKey
  key_dropped : (∃ c ∈ l.head, p c) → l'.outstanding = none
  key_kept : (∀ c ∈ l.head, ¬p c) → l'.outstanding = l.outstanding
  shaped : l'.Shaped
  well_formed : l.WellFormed → l'.WellFormed

/-- Withdrawing from a lane of the usual shape filters its batches where they stand, drops the key
exactly if the head loses a change, and leaves a lane of the usual shape. Passing over the batches
one by one comes to the same. -/
theorem withdraw_filters_in_place (p : C → Bool) {l : Lane C} (h : l.Shaped) :
    FiltersInPlace p l (l.withdraw p).1 (l.withdraw p).2 ∧ l.sweep p = l.withdraw p := by
  obtain ⟨front, last, hb⟩ := h.exists_last
  refine ⟨?_, sweep_eq_withdraw p l⟩
  constructor
  case taken_in_order => exact fst_withdraw p l
  case batches => exact ⟨front, last, hb, batches_withdraw_concat p h.only_last_empty hb⟩
  case counter => exact nextKey_withdraw p l
  case key_dropped =>
    intro hlost
    rw [outstanding_withdraw, if_pos (List.any_eq_true.2 hlost)]
  case key_kept =>
    intro hkept
    have hhead : ¬l.head.any p := by
      rw [List.any_eq_true]
      rintro ⟨c, hc, hp⟩
      exact hkept c hc hp
    rw [outstanding_withdraw, if_neg hhead]
  case shaped => exact shaped_withdraw p h
  case well_formed => exact wellFormed_withdraw p

/-- Two changes are under test, and three batches stand behind them. -/
def crowded : Lane ℕ := ⟨[[1, 2], [4, 6], [3, 8, 5], [10]], some ⟨3⟩, 4⟩

/-- The even changes are withdrawn, one of them from the head, and then those behind the head. -/
theorem crowded_filters_in_place :
    crowded.Shaped ∧
      crowded.withdraw (· % 2 == 0) = ([2, 4, 6, 8, 10], ⟨[[1], [3, 5], []], none, 4⟩) ∧
      FiltersInPlace (· % 2 == 0) crowded (crowded.withdraw (· % 2 == 0)).1
        (crowded.withdraw (· % 2 == 0)).2 ∧
      crowded.sweep (· % 2 == 0) = crowded.withdraw (· % 2 == 0) ∧
      crowded.withdraw (2 < ·) = ([4, 6, 3, 8, 5, 10], ⟨[[1, 2], []], some ⟨3⟩, 4⟩) ∧
      FiltersInPlace (2 < ·) crowded (crowded.withdraw (2 < ·)).1 (crowded.withdraw (2 < ·)).2 := by
  have hshaped : crowded.Shaped := by
    constructor
    case has_batch => decide
    case only_last_empty =>
      change ∀ b ∈ crowded.batches.dropLast, b ≠ []
      decide
    case head_guarded =>
      intro _
      decide
  obtain ⟨heven, hsweep⟩ := withdraw_filters_in_place (· % 2 == 0) hshaped
  obtain ⟨hbehind, -⟩ := withdraw_filters_in_place (2 < ·) hshaped
  exact ⟨hshaped, by decide, heven, hsweep, by decide, hbehind⟩

end MergeQueue.Lane
