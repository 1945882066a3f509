import MergeQueue.Proofs.Lane.Shaped

/-!
# Every action keeps a lane well-formed

Each operation keeps the shape of a lane and what else `WellFormed` asks for, so every lane that can
be reached from the empty lane or from consistent parts is well-formed. A key is minted only while
the counter can still go up; without that the new key would not be below the counter, and only the
shape is kept. A well-formed lane is made again unchanged from its own parts.
-/
namespace MergeQueue.Lane

variable {C : Type}

theorem wellFormed_of_none {bs : List (List C)} {n : UInt64} (hne : bs ≠ [])
    (hbs : OnlyLastEmpty bs) (hnd : bs.flatten.Nodup) : WellFormed ⟨bs, none, n⟩ where
  has_batch := hne
  only_last_empty := hbs
  nodup := hnd
  key_minted _ hk := by simp at hk
  head_under_test hk := absurd rfl hk

theorem wellFormed_empty : WellFormed (empty : Lane C) :=
  wellFormed_of_none (by simp) (.singleton []) (by simp)

theorem WellFormed.shaped {l : Lane C} (h : l.WellFormed) : l.Shaped :=
  ⟨h.has_batch, h.only_last_empty, h.head_under_test⟩

theorem Shaped.wellFormed {l : Lane C} (h : l.Shaped) (nodup : l.changes.Nodup)
    (key_minted : ∀ key ∈ l.outstanding, key.number < l.nextKey) : l.WellFormed :=
  ⟨h.has_batch, h.only_last_empty, nodup, key_minted, h.head_guarded⟩

theorem wellFormed_enqueue [DecidableEq C] (c : C) {l : Lane C} (h : l.WellFormed) :
    (l.enqueue c).2.WellFormed := by
  have hshaped := shaped_enqueue c h.shaped
  by_cases hc : c ∈ l.changes
  · rw [enqueue_of_mem hc]
    exact h
  · have hnd : (l.enqueue c).2.changes.Nodup := by
      rw [changes_enqueue, if_neg hc]
      exact h.nodup.append (List.nodup_singleton c) (List.disjoint_singleton.2 hc)
    rw [enqueue_of_not_mem hc] at hshaped hnd ⊢
    exact hshaped.wellFormed hnd h.key_minted

theorem nextKey_lt_succ {l : Lane C} (mint : l.CanMint) (hk : l.outstanding = none) :
    l.nextKey < l.nextKey + 1 := by
  have hn := mint hk
  rw [UInt64.lt_iff_toNat_lt, UInt64.toNat_add, UInt64.toNat_one]
  rw [UInt64.size] at hn
  omega

theorem wellFormed_dispatch {l : Lane C} (h : l.WellFormed) (mint : l.CanMint) :
    l.dispatch.2.WellFormed := by
  apply (shaped_dispatch h.shaped).wellFormed
  · rw [changes_dispatch]
    exact h.nodup
  intro k hk
  by_cases hd : l.head = []
  · rw [dispatch_of_nil hd] at hk ⊢
    exact h.key_minted k hk
  cases ho : l.outstanding with
  | some key =>
    rw [dispatch_of_some hd ho] at hk ⊢
    exact h.key_minted k (ho ▸ hk)
  | none =>
    rw [dispatch_of_none hd ho] at hk ⊢
    cases hk
    exact nextKey_lt_succ mint ho

theorem wellFormed_report (verdict : Verdict) (key : TestKey) {l : Lane C} (h : l.WellFormed) :
    (l.report verdict key).2.WellFormed := by
  by_cases hk : l.outstanding = some key
  · have hnd := h.nodup
    rw [← changes_report verdict key l] at hnd
    apply (shaped_report verdict key h.shaped).wellFormed hnd.of_append_right
    intro k hk'
    rw [outstanding_report verdict hk] at hk'
    cases hk'
  · rw [report_of_ne hk]
    exact h

theorem wellFormed_withdraw (p : C → Bool) {l : Lane C} (h : l.WellFormed) :
    (l.withdraw p).2.WellFormed := by
  apply (shaped_withdraw p h.shaped).wellFormed
  · rw [changes_withdraw]
    exact h.nodup.filter _
  · intro key hkey
    rw [outstanding_withdraw] at hkey
    rw [nextKey_withdraw]
    split at hkey
    · cases hkey
    · exact h.key_minted key hkey

section Restore

variable {I : Type} {bs : List (List C)} {outstanding : Option TestKey} {nextKey : UInt64}

theorem keyFault_eq_none_iff {hd : List C} :
    (keyFault hd outstanding nextKey : Option (Inconsistency C I)) = none ↔
      ∀ key ∈ outstanding, hd ≠ [] ∧ key.number < nextKey := by
  cases outstanding with
  | none => simp [keyFault]
  | some key =>
    by_cases hd' : hd = []
    · simp [keyFault, hd']
    · simp [keyFault, hd', UInt64.not_le]

variable [DecidableEq C]

/-- Parts are consistent exactly if there is a batch, the key was minted for a head that holds a
change, and no change stands twice. -/
theorem fault_eq_none_iff :
    (fault bs outstanding nextKey : Option (Inconsistency C I)) = none ↔
      bs ≠ [] ∧ (∀ key ∈ outstanding, bs.headD [] ≠ [] ∧ key.number < nextKey) ∧
        bs.flatten.Nodup := by
  cases bs with
  | nil => simp [fault]
  | cons b bs =>
    rw [List.headD_cons, ← keyFault_eq_none_iff (I := I), ← firstRepeat_eq_none_iff, fault]
    cases (keyFault b outstanding nextKey : Option (Inconsistency C I)) <;> simp

theorem restore_eq_ok {l : Lane C}
    (h : restore bs outstanding nextKey = (.ok l : Except (Inconsistency C I) (Lane C))) :
    (bs ≠ [] ∧ (∀ key ∈ outstanding, bs.headD [] ≠ [] ∧ key.number < nextKey) ∧
        bs.flatten.Nodup) ∧
      l = ⟨if outstanding.isSome then reserveLast (dropEmpty bs) else dropEmpty bs, outstanding,
        nextKey⟩ := by
  unfold restore at h
  cases hf : (fault bs outstanding nextKey : Option (Inconsistency C I)) with
  | some f => simp [hf] at h
  | none =>
    rw [hf] at h
    cases h
    exact ⟨fault_eq_none_iff.1 hf, rfl⟩

theorem exists_restore_eq_ok
    (h : (fault bs outstanding nextKey : Option (Inconsistency C I)) = none) :
    ∃ l, restore bs outstanding nextKey = (.ok l : Except (Inconsistency C I) (Lane C)) := by
  unfold restore
  rw [h]
  exact ⟨_, rfl⟩

theorem changes_restore {l : Lane C}
    (h : restore bs outstanding nextKey = (.ok l : Except (Inconsistency C I) (Lane C))) :
    l.changes = bs.flatten := by
  obtain ⟨-, rfl⟩ := restore_eq_ok h
  unfold changes
  cases outstanding with
  | none => exact flatten_dropEmpty bs
  | some key => exact (flatten_reserveLast _).trans (flatten_dropEmpty bs)

theorem wellFormed_restore {l : Lane C}
    (h : restore bs outstanding nextKey = (.ok l : Except (Inconsistency C I) (Lane C))) :
    l.WellFormed := by
  have hnd : l.changes.Nodup := by
    rw [changes_restore h]
    exact (restore_eq_ok h).1.2.2
  obtain ⟨⟨hne, hkey, -⟩, rfl⟩ := restore_eq_ok h
  cases outstanding with
  | none => exact wellFormed_of_none (dropEmpty_ne_nil hne) (onlyLastEmpty_dropEmpty bs) hnd
  | some key =>
    obtain ⟨hhead, hlt⟩ := hkey key rfl
    have hkept : (dropEmpty bs).headD [] ≠ [] := headD_dropEmpty hhead ▸ hhead
    constructor
    case has_batch => exact reserveLast_ne_nil (dropEmpty_ne_nil hne)
    case only_last_empty => exact onlyLastEmpty_reserveLast (onlyLastEmpty_dropEmpty bs) hkept
    case nodup => exact hnd
    case key_minted =>
      intro k hk
      cases hk
      exact hlt
    case head_under_test =>
      intro _
      change (reserveLast (dropEmpty bs)).headD [] ≠ [] ∧ 2 ≤ (reserveLast (dropEmpty bs)).length
      rw [headD_reserveLast]
      exact ⟨hkept, two_le_length_reserveLast hkept⟩

/-- A well-formed lane is made again of its own parts. -/
theorem WellFormed.restore_eq {l : Lane C} (h : l.WellFormed) :
    restore l.batches l.outstanding l.nextKey =
      (.ok l : Except (Inconsistency C I) (Lane C)) := by
  have hkey : ∀ key ∈ l.outstanding, l.batches.headD [] ≠ [] ∧ key.number < l.nextKey := by
    intro key hk
    have hne : l.outstanding ≠ none := Option.ne_none_iff_exists'.2 ⟨key, hk⟩
    exact ⟨(h.head_under_test hne).1, h.key_minted key hk⟩
  have hf : (fault l.batches l.outstanding l.nextKey : Option (Inconsistency C I)) = none :=
    fault_eq_none_iff.2 ⟨h.has_batch, hkey, h.nodup⟩
  have hbatches : (if l.outstanding.isSome then reserveLast (dropEmpty l.batches)
      else dropEmpty l.batches) = l.batches := by
    rw [dropEmpty_eq_self h.only_last_empty]
    split
    · rename_i hk
      exact reserveLast_of_two_le (h.head_under_test (Option.isSome_iff_ne_none.1 hk)).2
    · rfl
  unfold restore
  rw [hf]
  simp only [hbatches]

end Restore

theorem wellFormed_act [DecidableEq C] {l : Lane C} (h : l.WellFormed) (a : Action C)
    (mint : a = .dispatch → l.CanMint) : (l.act a).2.WellFormed := by
  cases a with
  | enqueue c => exact wellFormed_enqueue c h
  | dispatch => exact wellFormed_dispatch h (mint rfl)
  | report verdict key => exact wellFormed_report verdict key h
  | withdraw p => exact wellFormed_withdraw p h

theorem Reachable.wellFormed [DecidableEq C] {l : Lane C} (h : Reachable l) : l.WellFormed := by
  induction h with
  | empty => exact wellFormed_empty
  | restored h => exact wellFormed_restore h
  | act _ a can ih => exact wellFormed_act ih a can

/-- Whatever the counter stands at, a lane has its shape. -/
theorem ReachedBy.shaped [DecidableEq C] {mint : Lane C → Prop} {l : Lane C}
    (h : l.ReachedBy mint) : l.Shaped := by
  induction h with
  | empty => exact shaped_empty
  | restored h => exact (wellFormed_restore h).shaped
  | act _ a _ ih => exact shaped_act ih a

end MergeQueue.Lane
