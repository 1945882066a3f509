import MergeQueue.Proofs.Queue.Missing
import MergeQueue.Proofs.Queue.Reopen
import MergeQueue.Proofs.Requirement.Available
import MergeQueue.Snapshot

/-!
# Which parts make a queue, and which queue they make

Parts are checked one after another, and the first check they fail is the one that is reported.
Parts that pass all of them make a queue. It has the changes of the batches, in order, with those of
the waiting changes behind them that have become available; the others wait on, parked as the lane
now stands. Made again of its own parts, this queue stays exactly as it is.
-/
namespace MergeQueue

/-- The member stands earlier in the list, and no member before it does so. -/
def IsFirstRepeat {α : Type} (l : List α) (x : α) : Prop :=
  ∃ front back, l = front ++ x :: back ∧ front.Nodup ∧ x ∈ front

section FirstRepeat

variable {α : Type} [DecidableEq α] {l : List α} {x : α}

theorem firstRepeatAfter_eq_some_iff {seen : List α} :
    firstRepeatAfter seen l = some x ↔
      ∃ front back, l = front ++ x :: back ∧ front.Nodup ∧ (∀ y ∈ front, y ∉ seen) ∧
        (x ∈ seen ∨ x ∈ front) := by
  induction l generalizing seen with
  | nil => simp [firstRepeatAfter]
  | cons y l ih =>
    rw [firstRepeatAfter]
    by_cases hy : y ∈ seen
    · rw [if_pos hy, Option.some.injEq]
      constructor
      · rintro rfl
        exact ⟨[], l, rfl, .nil, by simp, .inl hy⟩
      · rintro ⟨front, back, hl, -, hnew, -⟩
        cases front with
        | nil => exact (List.cons.inj hl).1
        | cons z front =>
          cases (List.cons.inj hl).1
          exact absurd hy (hnew y List.mem_cons_self)
    · rw [if_neg hy, ih]
      constructor
      · rintro ⟨front, back, rfl, hnd, hnew, hx⟩
        refine ⟨y :: front, back, rfl, ?_, ?_, ?_⟩
        · exact List.nodup_cons.2 ⟨fun hmem => hnew y hmem List.mem_cons_self, hnd⟩
        · exact List.forall_mem_cons.2
            ⟨hy, fun z hz h => hnew z hz (List.mem_cons_of_mem y h)⟩
        · rw [List.mem_cons] at hx ⊢
          tauto
      · -- The front is not empty, for `y` was not seen before.
        rintro ⟨front, back, hl, hnd, hnew, hx⟩
        cases front with
        | nil =>
          cases (List.cons.inj hl).1
          exact absurd (hx.resolve_right List.not_mem_nil) hy
        | cons z front =>
          obtain ⟨rfl, rfl⟩ := List.cons.inj hl
          obtain ⟨hz, hnd⟩ := List.nodup_cons.1 hnd
          refine ⟨front, back, rfl, hnd, ?_, ?_⟩
          · intro w hw
            rw [List.mem_cons, not_or]
            exact ⟨fun h => hz (h ▸ hw), hnew w (List.mem_cons_of_mem y hw)⟩
          · rw [List.mem_cons] at hx ⊢
            tauto

theorem firstRepeat_eq_some_iff : firstRepeat l = some x ↔ IsFirstRepeat l x := by
  simp [firstRepeat, firstRepeatAfter_eq_some_iff, IsFirstRepeat]

end FirstRepeat

namespace Queue

open Lane

variable {C I : Type} [Change C I]

section Checks

variable (batches : List (List C)) (outstanding : Option TestKey) (nextKey : UInt64)
  (awaiting : List C)

/-- There is a batch, and an outstanding key was minted for a head that holds a change. -/
def KeyFits : Prop :=
  batches ≠ [] ∧ ∀ key ∈ outstanding, batches.headD [] ≠ [] ∧ key.number < nextKey

/-- The parts fail this check, and pass all checks before it. -/
def FailsFirst : Inconsistency C I → Prop
  | .noBatches => batches = []
  | .keyWithoutBatch key => batches ≠ [] ∧ outstanding = some key ∧ batches.headD [] = []
  | .keyNotMinted key n =>
    n = nextKey ∧ outstanding = some key ∧ batches.headD [] ≠ [] ∧ nextKey ≤ key.number
  | .repeatedChange c => KeyFits batches outstanding nextKey ∧ IsFirstRepeat batches.flatten c
  | .repeatedIdentity i =>
    KeyFits batches outstanding nextKey ∧ batches.flatten.Nodup ∧
      IsFirstRepeat ((batches.flatten ++ awaiting).map ident) i

def Consistent : Prop :=
  KeyFits batches outstanding nextKey ∧ ((batches.flatten ++ awaiting).map ident).Nodup

/-- The queue has the key, the counter and the changes of the parts, those of the batches in order
and behind them what has become available. What still waits is in order and shows what it misses. -/
structure MadeOf (q : Queue C I) : Prop where
  key_kept : q.lane.outstanding = outstanding
  counter_kept : q.lane.nextKey = nextKey
  admits_available : ∃ admitted, q.lane.changes = batches.flatten ++ admitted ∧
    ∀ c, c ∈ admitted ↔
      c ∈ awaiting ∧ Available awaiting (· ∈ batches.flatten.map ident) (ident c)
  all_kept : q.pool.Perm (batches.flatten ++ awaiting)
  waits_in_order : q.awaiting.Sublist awaiting
  shows_missing : ∀ w ∈ q.waiting, ShowsMissing w q.lane

end Checks

variable [DecidableEq C] {batches : List (List C)} {outstanding : Option TestKey}
  {nextKey : UInt64} {awaiting : List C}

theorem fault_eq_some_iff {f : Inconsistency C I} :
    fault batches outstanding nextKey = some f ↔
      FailsFirst batches outstanding nextKey awaiting f ∧ ∀ i, f ≠ .repeatedIdentity i := by
  cases batches with
  | nil => cases f <;> simp [fault, FailsFirst, KeyFits]
  | cons b bs =>
    cases outstanding with
    | none => cases f <;> simp [fault, keyFault, FailsFirst, KeyFits, firstRepeat_eq_some_iff]
    | some key =>
      by_cases hb : b = []
      · cases f <;> simp [fault, keyFault, FailsFirst, KeyFits, hb]
      by_cases hn : nextKey ≤ key.number
      · have hnot : ¬key.number < nextKey := UInt64.not_lt.2 hn
        cases f <;> simp [fault, keyFault, FailsFirst, KeyFits, hb, hn, hnot]
        grind
      · have hlt : key.number < nextKey := UInt64.not_le.1 hn
        cases f <;>
          simp [fault, keyFault, FailsFirst, KeyFits, hb, hn, hlt, firstRepeat_eq_some_iff]
        grind

variable [DecidableEq I]

theorem restore_of_fault {f : Inconsistency C I}
    (h : fault batches outstanding nextKey = some f) :
    restore batches outstanding nextKey awaiting = .error f := by
  unfold restore Lane.restore
  rw [h]

/-- Parts that make a lane make a queue, unless an identity is repeated. -/
theorem restore_of_no_fault (awaiting : List C)
    (h : (fault batches outstanding nextKey : Option (Inconsistency C I)) = none) :
    (∃ i, firstRepeat ((batches.flatten ++ awaiting).map ident) = some i ∧
      restore batches outstanding nextKey awaiting = .error (.repeatedIdentity i)) ∨
    ((batches.flatten ++ awaiting).map ident).Nodup ∧
      ∃ q, restore batches outstanding nextKey awaiting = .ok q := by
  obtain ⟨lane, hlane⟩ := exists_restore_eq_ok h
  rw [restore_of_lane hlane, ← changes_restore hlane]
  cases hrep : firstRepeat ((lane.changes ++ awaiting).map ident) with
  | some i =>
    refine .inl ⟨i, rfl, ?_⟩
    unfold ofLane
    rw [hrep]
  | none =>
    have hnd := firstRepeat_eq_none_iff.1 hrep
    exact .inr ⟨hnd, _, ofLane_of_nodup hnd⟩

theorem FailsFirst.repeats {f : Inconsistency C I}
    (h : FailsFirst batches outstanding nextKey awaiting f)
    (hfault : (fault batches outstanding nextKey : Option (Inconsistency C I)) = none) :
    ∃ i, f = .repeatedIdentity i ∧
      firstRepeat ((batches.flatten ++ awaiting).map ident) = some i := by
  by_cases hf : ∃ i, f = .repeatedIdentity i
  · obtain ⟨i, rfl⟩ := hf
    exact ⟨i, rfl, firstRepeat_eq_some_iff.2 h.2.2⟩
  · rw [fault_eq_some_iff.2 ⟨h, not_exists.1 hf⟩] at hfault
    cases hfault

/-- The first check that the parts fail is the one that is reported. -/
theorem restore_eq_error_iff {f : Inconsistency C I} :
    restore batches outstanding nextKey awaiting = .error f ↔
      FailsFirst batches outstanding nextKey awaiting f := by
  cases hfault : (fault batches outstanding nextKey : Option (Inconsistency C I)) with
  | some g =>
    rw [restore_of_fault hfault, Except.error.injEq]
    constructor
    · rintro rfl
      exact (fault_eq_some_iff.1 hfault).1
    · intro hf
      -- Identities are only compared once the parts make a lane.
      have hother : ∀ i, f ≠ .repeatedIdentity i := by
        rintro i rfl
        obtain ⟨⟨hne, hkey⟩, hnd, -⟩ := hf
        rw [fault_eq_none_iff.2 ⟨hne, hkey, hnd⟩] at hfault
        cases hfault
      rw [fault_eq_some_iff.2 ⟨hf, hother⟩] at hfault
      exact (Option.some.inj hfault).symm
  | none =>
    obtain ⟨hne, hkey, hnd⟩ := fault_eq_none_iff.1 hfault
    rcases restore_of_no_fault awaiting hfault with ⟨i, hrep, herror⟩ | ⟨hdistinct, q, hok⟩
    · rw [herror, Except.error.injEq]
      constructor
      · rintro rfl
        exact ⟨⟨hne, hkey⟩, hnd, firstRepeat_eq_some_iff.1 hrep⟩
      · intro hf
        obtain ⟨j, rfl, hj⟩ := hf.repeats hfault
        rw [hrep] at hj
        rw [Option.some.inj hj]
    · rw [hok]
      constructor
      · intro h
        cases h
      · intro hf
        obtain ⟨j, rfl, hj⟩ := hf.repeats hfault
        rw [firstRepeat_eq_none_iff.2 hdistinct] at hj
        cases hj

/-- Exactly the consistent parts make a queue. -/
theorem exists_restore_iff :
    (∃ q, restore batches outstanding nextKey awaiting = .ok q) ↔
      Consistent batches outstanding nextKey awaiting := by
  constructor
  · rintro ⟨q, h⟩
    obtain ⟨lane, hlane, hnd, -⟩ := restore_eq_ok h
    obtain ⟨⟨hne, hkey, -⟩, -⟩ := Lane.restore_eq_ok hlane
    rw [changes_restore hlane] at hnd
    exact ⟨⟨hne, hkey⟩, hnd⟩
  · rintro ⟨⟨hne, hkey⟩, hnd⟩
    have hbatches : batches.flatten.Nodup := (hnd.of_map ident).of_append_left
    obtain ⟨lane, hlane⟩ := exists_restore_eq_ok (I := I)
      (fault_eq_none_iff.2 ⟨hne, hkey, hbatches⟩)
    rw [← changes_restore hlane] at hnd
    exact ⟨_, (restore_of_lane hlane awaiting).trans (ofLane_of_nodup hnd)⟩

section Made

variable {q : Queue C I} (h : restore batches outstanding nextKey awaiting = .ok q)
include h

theorem parkedAfresh_restore : q.ParkedAfresh := by
  obtain ⟨lane, -, hnd, rfl⟩ := restore_eq_ok h
  intro w hw
  exact (waiting_settle (q := ⟨lane, []⟩) (.of_nodup hnd) hw).resolve_left List.not_mem_nil

theorem madeOf_restore : MadeOf batches outstanding nextKey awaiting q := by
  have hshown := (parkedAfresh_restore h).showsMissing
  obtain ⟨lane, hlane, hnd, rfl⟩ := restore_eq_ok h
  have hchanges : lane.changes = batches.flatten := changes_restore hlane
  have hlaneParts := (Lane.restore_eq_ok hlane).2
  constructor
  case key_kept =>
    refine (outstanding_enqueueAll _ lane).trans ?_
    rw [hlaneParts]
  case counter_kept =>
    refine (keepsTest_enqueueAll _ (wellFormed_restore hlane)).nextKey.trans ?_
    rw [hlaneParts]
  case admits_available =>
    refine ⟨(settle awaiting ⟨lane, []⟩).1, ?_, fun c => ?_⟩
    · rw [changes_settle (.of_nodup hnd), hchanges]
    · rw [mem_settle_iff (.of_nodup hnd), hchanges]
  case all_kept =>
    rw [← hchanges]
    exact perm_pool_ofParts hnd
  case waits_in_order =>
    rw [awaiting_settle]
    exact sublist_leftOver awaiting _
  case shows_missing => exact hshown

/-- A queue made of parts is made of its own parts, too. -/
theorem reopen_restore : q.reopen = .ok q := by
  obtain ⟨q', hq', hsame⟩ := (settled_restore h).reopen
  have hwaiting : q'.waiting = q.waiting := by
    rw [(parkedAfresh_restore hq').waiting_eq, (parkedAfresh_restore h).waiting_eq, hsame.lane,
      hsame.awaiting]
  rcases q with ⟨lane, waiting⟩
  rcases q' with ⟨lane', waiting'⟩
  cases hsame.lane
  cases hwaiting
  exact hq'

end Made

/-- Parts that fail a check are turned away with the first one they fail, and all others make a
queue. It has the key and the counter of the parts and all their changes: in the lane those of the
batches, and behind them exactly those waiting ones that are available; the others wait in the order
they had and show what they miss. Its snapshot makes exactly this queue again. -/
theorem restore_exact (batches : List (List C)) (outstanding : Option TestKey) (nextKey : UInt64)
    (awaiting : List C) :
    (∀ f, restore batches outstanding nextKey awaiting = .error f ↔
        FailsFirst batches outstanding nextKey awaiting f) ∧
      ((∃ q, restore batches outstanding nextKey awaiting = .ok q) ↔
        Consistent batches outstanding nextKey awaiting) ∧
      ∀ q, restore batches outstanding nextKey awaiting = .ok q →
        MadeOf batches outstanding nextKey awaiting q ∧
          ∀ now, (Snapshot.ofQueue now q).toQueue = .ok q :=
  ⟨fun _ => restore_eq_error_iff, exists_restore_iff,
    fun _ h => ⟨madeOf_restore h, fun _ => reopen_restore h⟩⟩

def scatteredBatches : List (List ChangeRecord) :=
  [[⟨⟨"a"⟩, .empty⟩], [], [⟨⟨"b"⟩, .ofList [⟨"a"⟩]⟩], []]

/-- Three changes that waited: for the two others and one that is nowhere, for the third, and for
one that stands in a batch. -/
def scatteredAwaiting : List ChangeRecord :=
  [⟨⟨"d"⟩, .ofList [⟨"c"⟩, ⟨"e"⟩, ⟨"z"⟩]⟩, ⟨⟨"c"⟩, .ofList [⟨"e"⟩]⟩, ⟨⟨"e"⟩, .ofList [⟨"b"⟩]⟩]

/-- The third change and then the second stand in the lane, and the first still waits. -/
def gatheredAgain : Queue ChangeRecord ChangeId where
  lane := ⟨[[⟨⟨"a"⟩, .empty⟩], [⟨⟨"b"⟩, .ofList [⟨"a"⟩]⟩],
    [⟨⟨"e"⟩, .ofList [⟨"b"⟩]⟩, ⟨⟨"c"⟩, .ofList [⟨"e"⟩]⟩]], some ⟨3⟩, 5⟩
  waiting := [⟨⟨⟨"d"⟩, .ofList [⟨"c"⟩, ⟨"e"⟩, ⟨"z"⟩]⟩, [⟨"z"⟩]⟩]

theorem gatheredAgain_exact :
    restore scatteredBatches (some ⟨3⟩) 5 scatteredAwaiting = .ok gatheredAgain ∧
      MadeOf scatteredBatches (some ⟨3⟩) 5 scatteredAwaiting gatheredAgain ∧
      ∀ now, (Snapshot.ofQueue now gatheredAgain).toQueue = .ok gatheredAgain := by
  have hmade : restore scatteredBatches (some ⟨3⟩) 5 scatteredAwaiting = .ok gatheredAgain := by
    decide +kernel
  exact ⟨hmade, (restore_exact scatteredBatches (some ⟨3⟩) 5 scatteredAwaiting).2.2 _ hmade⟩

end Queue

end MergeQueue
