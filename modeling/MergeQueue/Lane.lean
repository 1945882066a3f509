import MergeQueue.Report

/-!
# The lane of batches

Changes stand in batches. The head batch is the one to test, or the one under test; arrivals join
the last batch. A passing head leaves the lane. A failing head is halved, and its first half is
tested next, until a single failing change is left: that one is failed, and all that is left
becomes one batch. A test is reported under the key it was handed out with; any other key changes
nothing.

`Lane.WellFormed` is what every operation keeps: there is a batch, only the last one may be empty,
no change stands twice, and an outstanding key was minted for a head that is neither empty nor
last.
-/
namespace MergeQueue

/-- Batches of changes, head first, and the keys given out for testing them. -/
structure Lane (C : Type) where
  batches : List (List C)
  outstanding : Option TestKey
  nextKey : UInt64
deriving DecidableEq, Repr

namespace Lane

variable {C : Type}

def empty : Lane C := ⟨[[]], none, 0⟩

def head (l : Lane C) : List C := l.batches.headD []

/-- All changes, in the order of their tests. -/
def changes (l : Lane C) : List C := l.batches.flatten

def size (l : Lane C) : Nat := l.changes.length

def isEmpty (l : Lane C) : Bool := l.changes.isEmpty

def contains [DecidableEq C] (c : C) (l : Lane C) : Bool := c ∈ l.changes

def appendLast (c : C) : List (List C) → List (List C)
  | [] => [[c]]
  | [b] => [b ++ [c]]
  | b :: b' :: bs => b :: appendLast c (b' :: bs)

/-- Leaves the empty batches out, but keeps the last one in any case. -/
def dropEmpty : List (List C) → List (List C)
  | [] => []
  | [b] => [b]
  | b :: b' :: bs => if b.isEmpty then dropEmpty (b' :: bs) else b :: dropEmpty (b' :: bs)

/-- Gives a lone batch an empty one behind it, which takes the arrivals during a test. -/
def reserveLast : List (List C) → List (List C)
  | [b] => [b, []]
  | bs => bs

/-- Puts a change into the last batch, unless it stands in the lane. Says whether it did. -/
def enqueue [DecidableEq C] (c : C) (l : Lane C) : Bool × Lane C :=
  if l.contains c then (false, l)
  else (true, { l with batches := appendLast c l.batches })

/-- Hands out the head batch, if it holds a change. While a key is outstanding the answer stays
the same; otherwise a new key is minted. -/
def dispatch (l : Lane C) : Option (Dispatch C) × Lane C :=
  if l.head.isEmpty then (none, l)
  else
    let batches := reserveLast l.batches
    match l.outstanding with
    | some key => (some ⟨key, l.head⟩, { l with batches })
    | none =>
      (some ⟨⟨l.nextKey⟩, l.head⟩,
        { batches, outstanding := some ⟨l.nextKey⟩, nextKey := l.nextKey + 1 })

def passHead (l : Lane C) : Outcome C × Lane C :=
  let rest := l.batches.tail
  (⟨l.head, []⟩, { l with batches := if rest.isEmpty then [[]] else rest, outstanding := none })

/-- The head batch fails: it is halved, or its only change is failed and the rest becomes one
batch. -/
def failHead (l : Lane C) : Outcome C × Lane C :=
  match l.batches with
  | [] => (.none, { l with batches := [[]], outstanding := none })
  | [] :: _ => (.none, { l with outstanding := none })
  | [c] :: rest => (⟨[], [c]⟩, { l with batches := [rest.flatten], outstanding := none })
  | batch :: rest =>
    let half := batch.length / 2
    (.none, { l with batches := batch.take half :: batch.drop half :: rest, outstanding := none })

/-- Takes the result of a test. A key that is not outstanding changes nothing. -/
def report (verdict : Verdict) (key : TestKey) (l : Lane C) : Outcome C × Lane C :=
  if l.outstanding = some key then
    match verdict with
    | .pass => l.passHead
    | .fail => l.failHead
  else (.none, l)

/-- Takes out every change that `p` holds of, in order. Batches that this empties disappear, but
for the last one; if the head loses a change its test is no longer outstanding. -/
def withdraw (p : C → Bool) (l : Lane C) : List C × Lane C :=
  if l.changes.any p then
    (l.changes.filter p,
      { l with
        batches := dropEmpty (l.batches.map (List.filter fun c => !p c))
        outstanding := if l.head.any p then none else l.outstanding })
  else ([], l)

/-- What every operation keeps. -/
structure WellFormed (l : Lane C) : Prop where
  has_batch : l.batches ≠ []
  only_last_empty : ∀ b ∈ l.batches.dropLast, b ≠ []
  nodup : l.changes.Nodup
  key_minted : ∀ key ∈ l.outstanding, key.number < l.nextKey
  head_under_test : l.outstanding ≠ none → l.head ≠ [] ∧ 2 ≤ l.batches.length

@[simp] theorem flatten_appendLast (c : C) (bs : List (List C)) :
    (appendLast c bs).flatten = bs.flatten ++ [c] := by
  fun_induction appendLast c bs <;> simp_all

@[simp] theorem flatten_dropEmpty (bs : List (List C)) : (dropEmpty bs).flatten = bs.flatten := by
  fun_induction dropEmpty bs <;> simp_all

@[simp] theorem flatten_reserveLast (bs : List (List C)) :
    (reserveLast bs).flatten = bs.flatten := by
  fun_cases reserveLast bs <;> simp

@[simp] theorem changes_empty : (empty : Lane C).changes = [] := rfl

end Lane

/-!
## A lane from its parts

Saved batches, key and counter make a lane again if they are consistent. Empty batches in front of
the last one are left out, and a head under test gets a batch behind it.
-/

/-- The first member of `l` that is in `seen` or stands earlier in `l`. -/
def firstRepeatAfter {α : Type} [DecidableEq α] (seen : List α) : List α → Option α
  | [] => none
  | x :: l => if x ∈ seen then some x else firstRepeatAfter (x :: seen) l

def firstRepeat {α : Type} [DecidableEq α] (l : List α) : Option α := firstRepeatAfter [] l

theorem firstRepeatAfter_eq_none_iff {α : Type} [DecidableEq α] {seen l : List α} :
    firstRepeatAfter seen l = none ↔ l.Nodup ∧ ∀ x ∈ l, x ∉ seen := by
  induction l generalizing seen with
  | nil => simp [firstRepeatAfter]
  | cons x l ih =>
    rw [firstRepeatAfter]
    split
    · simp_all
    · rw [ih]
      grind [List.nodup_cons]

theorem firstRepeat_eq_none_iff {α : Type} [DecidableEq α] {l : List α} :
    firstRepeat l = none ↔ l.Nodup := by
  simp [firstRepeat, firstRepeatAfter_eq_none_iff]

namespace Lane

variable {C I : Type} [DecidableEq C]

def keyFault (head : List C) (outstanding : Option TestKey) (nextKey : UInt64) :
    Option (Inconsistency C I) :=
  match outstanding with
  | none => none
  | some key =>
    if head.isEmpty then some (.keyWithoutBatch key)
    else if nextKey ≤ key.number then some (.keyNotMinted key nextKey)
    else none

/-- What is wrong with the parts of a lane, the first fault in the order of the checks. -/
def fault (batches : List (List C)) (outstanding : Option TestKey) (nextKey : UInt64) :
    Option (Inconsistency C I) :=
  match batches with
  | [] => some .noBatches
  | head :: _ =>
    match keyFault head outstanding nextKey with
    | some f => some f
    | none => (firstRepeat batches.flatten).map .repeatedChange

def restore (batches : List (List C)) (outstanding : Option TestKey) (nextKey : UInt64) :
    Except (Inconsistency C I) (Lane C) :=
  match fault batches outstanding nextKey with
  | some f => .error f
  | none =>
    let kept := dropEmpty batches
    .ok ⟨if outstanding.isSome then reserveLast kept else kept, outstanding, nextKey⟩

end Lane

/-!
## Draining

Testing batch after batch, with truthful verdicts: a batch fails if it holds a bad change and
passes otherwise. The log has one entry per test. Draining ends when there is nothing to test or
the limit on the number of tests is reached.
-/

def Verdict.ofBatch {C : Type} (bad : C → Bool) (batch : List C) : Verdict :=
  if batch.any bad then .fail else .pass

structure DrainEntry (C : Type) where
  key : TestKey
  size : Nat
  verdict : Verdict
  outcome : Outcome C
deriving DecidableEq, Repr

/-- Drains anything that hands out batches and takes reports. -/
def drainWith {S C : Type} (dispatch : S → Option (Dispatch C) × S)
    (report : Verdict → TestKey → S → Outcome C × S) (bad : C → Bool) :
    Nat → S → List (DrainEntry C) × S
  | 0, s => ([], s)
  | limit + 1, s =>
    match dispatch s with
    | (none, s) => ([], s)
    | (some d, s) =>
      let verdict := Verdict.ofBatch bad d.changes
      let (outcome, s) := report verdict d.key s
      let (log, s) := drainWith dispatch report bad limit s
      (⟨d.key, d.changes.length, verdict, outcome⟩ :: log, s)

def Lane.drain {C : Type} (bad : C → Bool) (limit : Nat) (l : Lane C) :
    List (DrainEntry C) × Lane C :=
  drainWith Lane.dispatch Lane.report bad limit l

end MergeQueue
