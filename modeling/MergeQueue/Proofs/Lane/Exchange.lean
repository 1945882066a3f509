import MergeQueue.Proofs.Lane.UnderTest

/-!
# An arrival and a report may be exchanged

While a key is outstanding an arrival joins a batch behind the head, and a report looks into the
head alone: a passing head leaves as it is, a failing one is halved in front of the other batches,
and when these become one batch the arrival is the last change of it. So it does not matter which of
an arrival and a report comes first, unless the arriving change is under test.
-/
namespace MergeQueue.Lane

variable {C : Type} {l : Lane C} {verdict : Verdict} {key : TestKey} {c : C}

theorem mem_head_of_classified
    (h : c ∈ (l.report verdict key).1.passed ++ (l.report verdict key).1.failed) : c ∈ l.head := by
  by_cases hk : l.outstanding = some key
  · cases verdict with
    | pass =>
      rw [report_of_eq hk] at h
      simpa [passHead] using h
    | fail =>
      rw [report_of_eq hk] at h
      rw [passed_failHead, List.nil_append] at h
      match hb : l.batches with
      | [] => simp [failHead, hb, Outcome.none] at h
      | [] :: bs => simp [failHead, hb, Outcome.none] at h
      | [d] :: bs =>
        rw [failHead_single hb] at h
        simpa [head, hb] using h
      | (d :: d' :: ds) :: bs =>
        rw [failHead_halve hb (by simp)] at h
        simp [Outcome.none] at h
  · rw [report_of_ne hk] at h
    simp [Outcome.none] at h

/-- A change outside the head is in the lane after a report exactly if it was before. -/
theorem mem_changes_report_iff (hc : c ∉ l.head) :
    c ∈ (l.report verdict key).2.changes ↔ c ∈ l.changes := by
  rw [← changes_report verdict key l, List.mem_append]
  exact (or_iff_right fun h => hc (mem_head_of_classified h)).symm

/-- The lane with a change at the end of its last batch. -/
def joined (c : C) (l : Lane C) : Lane C := { l with batches := appendLast c l.batches }

/-- A report does not look into the last of two or more batches, and leaves it last. -/
theorem report_joined (verdict : Verdict) {b b' : List C} {bs : List (List C)}
    (hb : l.batches = b :: b' :: bs) (hne : b ≠ []) (hk : l.outstanding = some key) (c : C) :
    (l.joined c).report verdict key =
      ((l.report verdict key).1, (l.report verdict key).2.joined c) := by
  obtain ⟨d, ds, hd⟩ := List.exists_cons_of_ne_nil (appendLast_ne_nil c (b' :: bs))
  have hb' : (l.joined c).batches = b :: d :: ds := by rw [joined, hb, appendLast, hd]
  have hk' : (l.joined c).outstanding = some key := hk
  rw [report_of_eq hk, report_of_eq hk']
  cases verdict with
  | pass =>
    change (l.joined c).passHead = (l.passHead.1, l.passHead.2.joined c)
    rw [passHead_cons hb, passHead_cons hb', ← hd]
    rfl
  | fail =>
    change (l.joined c).failHead = (l.failHead.1, l.failHead.2.joined c)
    by_cases hlen : 2 ≤ b.length
    · rw [failHead_halve hb hlen, failHead_halve hb' hlen, ← hd]
      rfl
    · obtain ⟨e, rfl⟩ := eq_singleton_of_not_two_le hne hlen
      rw [failHead_single hb, failHead_single hb', ← hd, flatten_appendLast]
      rfl

variable [DecidableEq C]

theorem mem_changes_enqueue (c : C) (l : Lane C) : c ∈ (l.enqueue c).2.changes := by
  rw [changes_enqueue]
  split
  · assumption
  · exact List.mem_append_right l.changes (List.mem_singleton_self c)

theorem report_enqueue_eq (h : l.HeadGuarded) (verdict : Verdict) (key : TestKey)
    (hc : c ∉ l.head) :
    (l.enqueue c).2.report verdict key =
        ((l.report verdict key).1, ((l.report verdict key).2.enqueue c).2) ∧
      (l.enqueue c).1 = ((l.report verdict key).2.enqueue c).1 := by
  by_cases hk : l.outstanding = some key
  · have hmem : c ∈ (l.report verdict key).2.changes ↔ c ∈ l.changes :=
      mem_changes_report_iff hc
    by_cases hin : c ∈ l.changes
    · rw [enqueue_of_mem hin, enqueue_of_mem (hmem.2 hin)]
      exact ⟨rfl, rfl⟩
    · obtain ⟨b, b', bs, hb, hne⟩ := h.batches_eq (by simp [hk])
      rw [enqueue_of_not_mem hin, enqueue_of_not_mem (mt hmem.1 hin)]
      exact ⟨report_joined verdict hb hne hk c, rfl⟩
  · -- A report under another key does nothing, before the arrival or after it.
    have hk' : (l.enqueue c).2.outstanding ≠ some key := by rwa [outstanding_enqueue]
    rw [report_of_ne hk, report_of_ne hk']
    exact ⟨rfl, rfl⟩

/-- Whatever its key and verdict, a report and the arrival of a change outside the head may be
exchanged: the lane is the same in the end, the report classifies the same changes, and the change
is taken in or not alike. In the end it stands in the lane. -/
theorem report_enqueue_comm (h : l.Reached) (verdict : Verdict) (key : TestKey) (hc : c ∉ l.head) :
    ((l.enqueue c).2.report verdict key).2 = ((l.report verdict key).2.enqueue c).2 ∧
      ((l.enqueue c).2.report verdict key).1 = (l.report verdict key).1 ∧
      (l.enqueue c).1 = ((l.report verdict key).2.enqueue c).1 ∧
      c ∈ ((l.enqueue c).2.report verdict key).2.changes := by
  obtain ⟨heq, htaken⟩ := report_enqueue_eq h.shaped.head_guarded verdict key hc
  rw [heq]
  exact ⟨rfl, rfl, htaken, mem_changes_enqueue c _⟩

/-- A single change is under test, with two batches behind it. -/
def alone : Lane ℕ := ⟨[[1], [2], [3, 4]], some ⟨5⟩, 6⟩

/-- The change under test fails while another arrives. -/
theorem alone_report_enqueue_comm :
    alone.Reached ∧ 7 ∉ alone.head ∧
      (alone.report .fail ⟨5⟩).2 ≠ alone ∧
      ((alone.enqueue 7).2.report .fail ⟨5⟩).2 = ((alone.report .fail ⟨5⟩).2.enqueue 7).2 ∧
      ((alone.enqueue 7).2.report .fail ⟨5⟩).1 = (alone.report .fail ⟨5⟩).1 ∧
      (alone.enqueue 7).1 = ((alone.report .fail ⟨5⟩).2.enqueue 7).1 ∧
      7 ∈ ((alone.enqueue 7).2.report .fail ⟨5⟩).2.changes := by
  have hparts : restore alone.batches alone.outstanding alone.nextKey =
      (.ok alone : Except (Inconsistency ℕ ℕ) (Lane ℕ)) := rfl
  have hreach : alone.Reached := .restored hparts
  exact ⟨hreach, by decide, by decide, report_enqueue_comm hreach .fail ⟨5⟩ (by decide)⟩

end MergeQueue.Lane
