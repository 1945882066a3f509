import MergeQueue.Text.Inspect

/-!
# Test keys and results

What goes between a queue and those who use it: the key under which a batch is tested, the batch
handed out, the verdict that comes back, the changes that a report or a submission classified, and
the reasons why saved parts describe no queue.
-/
namespace MergeQueue

/-- Names one test of one batch. -/
structure TestKey where
  number : UInt64
deriving DecidableEq, Repr

namespace TestKey

/-- The short form in messages. -/
def display (k : TestKey) : String := "t" ++ toString k.number.toNat

instance : Inspect TestKey := ⟨fun k => "TestKey(" ++ toString k.number.toNat ++ ")"⟩

end TestKey

inductive Verdict
  | pass
  | fail
deriving DecidableEq, Repr

/-- A batch handed out for testing, with the key to report under. -/
structure Dispatch (C : Type) where
  key : TestKey
  changes : List C
deriving DecidableEq, Repr

/-- The changes that a report classified. -/
structure Outcome (C : Type) where
  passed : List C
  failed : List C
deriving DecidableEq, Repr

namespace Outcome

variable {C : Type}

def none : Outcome C := ⟨[], []⟩

def isNone (o : Outcome C) : Bool := o.passed.isEmpty && o.failed.isEmpty

theorem isNone_iff {o : Outcome C} : o.isNone = true ↔ o = none := by
  rcases o with ⟨passed, failed⟩
  simp [isNone, none]

end Outcome

/-- What a submission led to: the changes that entered the lane and those that were turned away. -/
structure Admission (C : Type) where
  added : List C
  rejected : List C
deriving DecidableEq, Repr

namespace Admission

variable {C : Type}

def none : Admission C := ⟨[], []⟩

def isNone (a : Admission C) : Bool := a.added.isEmpty && a.rejected.isEmpty

theorem isNone_iff {a : Admission C} : a.isNone = true ↔ a = none := by
  rcases a with ⟨added, rejected⟩
  simp [isNone, none]

end Admission

inductive Inconsistency (C I : Type)
  | noBatches
  | keyWithoutBatch (key : TestKey)
  | keyNotMinted (key : TestKey) (nextKey : UInt64)
  | repeatedChange (change : C)
  | repeatedIdentity (id : I)
deriving DecidableEq, Repr

namespace Inconsistency

variable {C I : Type} [Inspect C] [Inspect I]

def message : Inconsistency C I → String
  | noBatches => "queue state has no batches"
  | keyWithoutBatch key =>
    "test key " ++ key.display ++ " is outstanding but the head batch is empty"
  | keyNotMinted key nextKey =>
    "test key " ++ key.display ++ " was not minted before counter value " ++
      toString nextKey.toNat
  | repeatedChange change => "change " ++ inspect change ++ " appears more than once"
  | repeatedIdentity id => "change " ++ inspect id ++ " appears more than once"

end Inconsistency

end MergeQueue
