import MergeQueue.Proofs.Queue.History
import MergeQueue.Proofs.Queue.UnderTest

/-!
# What a run remembers of its keys

Every key that was handed out lies below the counter. The outstanding one was handed out with the
batch that is the head, and no other batch went with it. A key that a step dropped is below the
counter too, and so it cannot come back: a later test gets a key of its own.
-/
namespace MergeQueue.Queue

open Lane

variable {C I : Type} {q q' : Queue C I} {steps : List (Step C I)} {s : Step C I}

def HandsOut (s : Step C I) (d : Dispatch C) : Prop := s.answer = .dispatched (some d)

def Drops (s : Step C I) (key : TestKey) : Prop :=
  s.before.lane.outstanding = some key ∧ s.after.lane.outstanding ≠ some key

/-- What the steps so far and the queue they lead to agree on. -/
structure KeyHistory (steps : List (Step C I)) (q : Queue C I) : Prop where
  wellFormed : q.lane.WellFormed
  below : ∀ s ∈ steps, ∀ d, HandsOut s d → d.key.number < q.lane.nextKey
  frozen : ∀ s ∈ steps, ∀ d, HandsOut s d → q.lane.outstanding = some d.key →
    d.changes = q.lane.head
  handed_out : ∀ key, q.lane.outstanding = some key → ∃ s ∈ steps, HandsOut s ⟨key, q.lane.head⟩
  dropped : ∀ s ∈ steps, ∀ key, Drops s key →
    key.number < q.lane.nextKey ∧ q.lane.outstanding ≠ some key

theorem keyHistory_empty : KeyHistory ([] : List (Step C I)) .empty where
  wellFormed := wellFormed_empty
  below := by simp
  frozen := by simp
  handed_out := by
    intro key h
    cases h
  dropped := by simp

/-- A step that keeps the test or drops it, and hands out at most the batch under test. -/
theorem KeyHistory.keep (h : KeyHistory steps s.before)
    (hlane : LaneKept s.before.lane s.after.lane)
    (hsame : ∀ d, HandsOut s d → s.before.lane.outstanding = some d.key ∧
      d.changes = s.before.lane.head) : KeyHistory (steps ++ [s]) s.after := by
  obtain ⟨hwf, hnext, hout⟩ := hlane
  have hminted : ∀ key, s.before.lane.outstanding = some key →
      key.number < s.after.lane.nextKey := by
    intro key hkey
    rw [hnext]
    exact h.wellFormed.key_minted key hkey
  constructor
  case wellFormed => exact hwf
  case below =>
    rw [List.forall_mem_append, List.forall_mem_singleton]
    constructor
    · intro t ht d hd
      rw [hnext]
      exact h.below t ht d hd
    · intro d hd
      exact hminted d.key (hsame d hd).1
  case frozen =>
    rw [List.forall_mem_append, List.forall_mem_singleton]
    constructor
    · intro t ht d hd hkey
      obtain ⟨hbefore, hhead⟩ := hout d.key hkey
      rw [hhead]
      exact h.frozen t ht d hd hbefore
    · intro d hd hkey
      rw [(hout d.key hkey).2]
      exact (hsame d hd).2
  case handed_out =>
    intro key hkey
    obtain ⟨hbefore, hhead⟩ := hout key hkey
    obtain ⟨t, ht, hd⟩ := h.handed_out key hbefore
    rw [hhead]
    exact ⟨t, List.mem_append_left _ ht, hd⟩
  case dropped =>
    rw [List.forall_mem_append, List.forall_mem_singleton]
    constructor
    · intro t ht key hdrop
      obtain ⟨hlt, hne⟩ := h.dropped t ht key hdrop
      rw [hnext]
      exact ⟨hlt, fun hkey => hne (hout key hkey).1⟩
    · intro key hdrop
      exact ⟨hminted key hdrop.1, hdrop.2⟩

/-- A step that puts the head under test under a new key. -/
theorem KeyHistory.mint (h : KeyHistory steps s.before) (hwf : s.after.lane.WellFormed)
    (hmint : MintsKey s.before.lane s.after.lane)
    (hlt : s.before.lane.nextKey < s.before.lane.nextKey + 1)
    (hanswer : HandsOut s ⟨⟨s.before.lane.nextKey⟩, s.before.lane.head⟩) :
    KeyHistory (steps ++ [s]) s.after := by
  -- Whatever was handed out or dropped so far lies below the new key.
  have hnew : ∀ key : TestKey, key.number < s.before.lane.nextKey →
      s.after.lane.outstanding ≠ some key := by
    intro key hkey hout
    rw [hmint.outstanding] at hout
    cases hout
    exact UInt64.lt_irrefl _ hkey
  constructor
  case wellFormed => exact hwf
  case below =>
    rw [List.forall_mem_append, List.forall_mem_singleton, hmint.nextKey]
    constructor
    · intro t ht d hd
      exact UInt64.lt_trans (h.below t ht d hd) hlt
    · intro d hd
      cases hanswer.symm.trans hd
      exact hlt
  case frozen =>
    rw [List.forall_mem_append, List.forall_mem_singleton, hmint.head]
    constructor
    · intro t ht d hd hkey
      exact absurd hkey (hnew d.key (h.below t ht d hd))
    · intro d hd _
      cases hanswer.symm.trans hd
      rfl
  case handed_out =>
    intro key hkey
    rw [hmint.outstanding] at hkey
    cases hkey
    rw [hmint.head]
    exact ⟨s, List.mem_append_right _ List.mem_cons_self, hanswer⟩
  case dropped =>
    rw [List.forall_mem_append, List.forall_mem_singleton, hmint.nextKey]
    constructor
    · intro t ht key hdrop
      have hkey := (h.dropped t ht key hdrop).1
      exact ⟨UInt64.lt_trans hkey hlt, hnew key hkey⟩
    · intro key hdrop
      rw [Drops, hmint.idle] at hdrop
      exact absurd hdrop.1 (Option.some_ne_none key).symm

section Run

variable [DecidableEq C] [DecidableEq I] [Change C I]

theorem handsOut_step {a : Action C} {d : Dispatch C} (h : HandsOut (q.step a) d) :
    a = .dispatch ∧ q.lane.dispatch.1 = some d := by
  cases a with
  | dispatch => exact ⟨rfl, by injection h⟩
  | submit | report | reopen => cases h

theorem KeyHistory.concat (h : KeyHistory steps q) (a : Action C)
    (mint : a = .dispatch → q.lane.CanMint) : KeyHistory (steps ++ [q.step a]) (q.act a).2 := by
  by_cases ha : a = .dispatch
  · subst ha
    have hwf := wellFormed_dispatch h.wellFormed (mint rfl)
    rcases dispatch_cases q.lane with hnone | ⟨key, hkey, hd, hkeep⟩ | ⟨hd, hmint⟩
    · apply h.keep (s := q.step .dispatch)
      · change LaneKept q.lane q.lane.dispatch.2
        rw [hnone]
        exact ⟨h.wellFormed, .refl _⟩
      · intro d hanswer
        have := (handsOut_step hanswer).2
        rw [hnone] at this
        cases this
    · apply h.keep (s := q.step .dispatch) ⟨hwf, hkeep⟩
      intro d hanswer
      cases hd.symm.trans (handsOut_step hanswer).2
      exact ⟨hkey, rfl⟩
    · apply h.mint (s := q.step .dispatch) hwf hmint (nextKey_lt_succ (mint rfl) hmint.idle)
      exact congrArg Answer.dispatched hd
  · apply h.keep (s := q.step a) (laneKept_act h.wellFormed ha)
    intro d hanswer
    exact absurd (handsOut_step hanswer).1 ha

theorem keyHistory_run (as : List (Action C)) (mint : CanMintAll (run (.empty : Queue C I) as)) :
    KeyHistory (run .empty as) (afterRun (.empty : Queue C I) as) := by
  apply run_induction (P := fun steps q => CanMintAll steps → KeyHistory steps q) _ _ as mint
  · intro _
    exact keyHistory_empty
  intro steps q a ih mint
  apply (ih fun s hs => mint s (List.mem_append_left _ hs)).concat a
  exact mint (q.step a) (List.mem_append_right _ List.mem_cons_self)

end Run

end MergeQueue.Queue
