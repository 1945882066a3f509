import MergeQueue.Text.Inspect

/-!
# Changes

A change is what the queue tests. It has an identity, by which others refer to it, and it names
the identities that have to be there before it. The simplest change is a value that is its own
identity and requires nothing; the change that the service works on names both.
-/
namespace MergeQueue

/-- Has an identity and requires others. -/
class Change (C : Type) (I : outParam Type) where
  ident : C → I
  requires : C → List I

export Change (ident requires)

/-- A change that is its own identity and requires nothing. -/
structure Plain (α : Type) where
  value : α
deriving DecidableEq, Repr

namespace Plain

variable {α : Type}

instance : Change (Plain α) α := ⟨Plain.value, fun _ => []⟩

instance [Inspect α] : Inspect (Plain α) := ⟨fun c => "Plain(" ++ inspect c.value ++ ")"⟩

@[simp] theorem ident_eq (c : Plain α) : ident c = c.value := rfl

@[simp] theorem requires_eq (c : Plain α) : requires c = [] := rfl

end Plain

/-!
## Identities and sets of them

An identity is a text, compared exactly. A set of identities is kept as its increasing list, so
that two sets with the same members are the same value.
-/

structure ChangeId where
  text : String
deriving DecidableEq, Repr

namespace ChangeId

instance : LT ChangeId := ⟨fun a b => a.text < b.text⟩

instance (a b : ChangeId) : Decidable (a < b) := inferInstanceAs (Decidable (a.text < b.text))

instance : Inspect ChangeId := ⟨fun i => "ChangeId(" ++ inspect i.text ++ ")"⟩

theorem lt_trans {a b c : ChangeId} (hab : a < b) (hbc : b < c) : a < c := String.lt_trans hab hbc

theorem lt_or_eq_or_gt (a b : ChangeId) : a < b ∨ a = b ∨ b < a := by
  rcases a with ⟨a⟩
  rcases b with ⟨b⟩
  by_cases hab : a < b
  · exact .inl hab
  by_cases hba : b < a
  · exact .inr (.inr hba)
  · have h : a = b := String.le_antisymm (String.not_lt.1 hba) (String.not_lt.1 hab)
    exact .inr (.inl (congrArg ChangeId.mk h))

end ChangeId

/-- A finite set of identities. -/
structure IdSet where
  toList : List ChangeId
  increasing : toList.Pairwise (· < ·)
deriving DecidableEq

namespace IdSet

@[ext] theorem ext_toList {s t : IdSet} (h : s.toList = t.toList) : s = t := by
  cases s
  cases t
  simpa using h

def empty : IdSet := ⟨[], .nil⟩

instance : EmptyCollection IdSet := ⟨empty⟩

instance : Membership ChangeId IdSet := ⟨fun s i => i ∈ s.toList⟩

/-- Puts an identity into an increasing list, unless it is there. -/
def insertSorted (i : ChangeId) : List ChangeId → List ChangeId
  | [] => [i]
  | j :: s => if i < j then i :: j :: s else if i = j then j :: s else j :: insertSorted i s

theorem mem_insertSorted {i k : ChangeId} {s : List ChangeId} :
    k ∈ insertSorted i s ↔ k = i ∨ k ∈ s := by
  induction s with
  | nil => simp [insertSorted]
  | cons j s ih =>
    rw [insertSorted]
    split
    · simp
    · split
      · rename_i h
        simp [h]
      · simp only [List.mem_cons, ih]
        grind

theorem pairwise_insertSorted {i : ChangeId} {s : List ChangeId} (h : s.Pairwise (· < ·)) :
    (insertSorted i s).Pairwise (· < ·) := by
  induction s with
  | nil => simp [insertSorted]
  | cons j s ih =>
    rw [insertSorted]
    rw [List.pairwise_cons] at h
    split
    · rename_i hij
      refine List.pairwise_cons.2 ⟨fun k hk => ?_, List.pairwise_cons.2 h⟩
      rcases List.mem_cons.1 hk with rfl | hk
      · exact hij
      · exact ChangeId.lt_trans hij (h.1 k hk)
    · split
      · exact List.pairwise_cons.2 h
      · rename_i hij hne
        refine List.pairwise_cons.2 ⟨fun k hk => ?_, ih h.2⟩
        rcases mem_insertSorted.1 hk with rfl | hk
        · rcases ChangeId.lt_or_eq_or_gt k j with hl | he | hg
          · exact absurd hl hij
          · exact absurd he hne
          · exact hg
        · exact h.1 k hk

def insert (i : ChangeId) (s : IdSet) : IdSet :=
  ⟨insertSorted i s.toList, pairwise_insertSorted s.increasing⟩

def ofList (l : List ChangeId) : IdSet := l.foldr insert empty

@[simp] theorem mem_ofList {i : ChangeId} {l : List ChangeId} : i ∈ (ofList l).toList ↔ i ∈ l := by
  induction l with
  | nil => simp [ofList, empty]
  | cons j l ih =>
    change i ∈ insertSorted j (ofList l).toList ↔ _
    rw [mem_insertSorted, ih, List.mem_cons]

theorem insertSorted_of_lt {i : ChangeId} {s : List ChangeId} (h : ∀ j ∈ s, i < j) :
    insertSorted i s = i :: s := by
  cases s with
  | nil => rfl
  | cons j s => simp [insertSorted, h j (by simp)]

@[simp] theorem ofList_toList (s : IdSet) : ofList s.toList = s := by
  rcases s with ⟨l, hl⟩
  induction l with
  | nil => rfl
  | cons i l ih =>
    rw [List.pairwise_cons] at hl
    refine ext_toList ?_
    change insertSorted i (ofList l).toList = i :: l
    rw [show ofList l = ⟨l, hl.2⟩ from ih hl.2]
    exact insertSorted_of_lt hl.1

instance : Inspect IdSet :=
  ⟨fun s => "\x7b" ++ ", ".intercalate (s.toList.map inspect) ++ "\x7d"⟩

end IdSet

/-!
## Submitted changes

The change that the service works on: an identity and the set of identities it requires.
-/

structure ChangeRecord where
  id : ChangeId
  requires : IdSet
deriving DecidableEq

namespace ChangeRecord

instance : Change ChangeRecord ChangeId := ⟨(·.id), (·.requires.toList)⟩

instance : Inspect ChangeRecord :=
  ⟨fun c => "ChangeRecord \x7b id: " ++ inspect c.id ++ ", requires: " ++ inspect c.requires ++
    " \x7d"⟩

end ChangeRecord

end MergeQueue
