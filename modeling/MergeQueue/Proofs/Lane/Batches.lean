import MergeQueue.Lane.Lemmas
import Mathlib.Tactic

/-!
# The shape of the batches

Only the last batch may be empty, so behind an empty head nothing is stranded. Appending to the
last batch, leaving empty batches out and reserving a last one keep this shape, and none of them
touches a head that has another batch behind it.
-/
namespace MergeQueue.Lane

variable {C : Type}

def OnlyLastEmpty (bs : List (List C)) : Prop := ∀ b ∈ bs.dropLast, b ≠ []

namespace OnlyLastEmpty

theorem singleton (b : List C) : OnlyLastEmpty [b] := by
  intro b' hb'
  simp at hb'

theorem cons_cons {b b' : List C} {bs : List (List C)} :
    OnlyLastEmpty (b :: b' :: bs) ↔ b ≠ [] ∧ OnlyLastEmpty (b' :: bs) := by
  simp [OnlyLastEmpty]

theorem tail {b : List C} {bs : List (List C)} (h : OnlyLastEmpty (b :: bs)) :
    OnlyLastEmpty bs := by
  cases bs with
  | nil => intro b' hb'; simp at hb'
  | cons b' bs => exact (cons_cons.1 h).2

theorem cons {b : List C} {bs : List (List C)} (hb : b ≠ []) (h : OnlyLastEmpty bs) :
    OnlyLastEmpty (b :: bs) := by
  cases bs with
  | nil => exact singleton b
  | cons b' bs => exact cons_cons.2 ⟨hb, h⟩

/-- Behind an empty head nothing is stranded. -/
theorem flatten_eq_nil {bs : List (List C)} (h : OnlyLastEmpty bs) (hd : bs.headD [] = []) :
    bs.flatten = [] := by
  cases bs with
  | nil => rfl
  | cons b bs =>
    simp only [List.headD_cons] at hd
    cases bs with
    | nil => simp [hd]
    | cons b' bs => exact absurd hd (cons_cons.1 h).1

end OnlyLastEmpty

theorem appendLast_ne_nil (c : C) (bs : List (List C)) : appendLast c bs ≠ [] := by
  fun_cases appendLast c bs <;> simp

theorem onlyLastEmpty_appendLast (c : C) {bs : List (List C)} (h : OnlyLastEmpty bs) :
    OnlyLastEmpty (appendLast c bs) := by
  fun_induction appendLast c bs with
  | case1 => exact .singleton _
  | case2 b => exact .singleton _
  | case3 b b' bs ih =>
    obtain ⟨hb, hbs⟩ := OnlyLastEmpty.cons_cons.1 h
    exact .cons hb (ih hbs)

theorem appendLast_concat (c : C) (front : List (List C)) (last : List C) :
    appendLast c (front ++ [last]) = front ++ [last ++ [c]] := by
  induction front with
  | nil => rfl
  | cons b front ih =>
    obtain ⟨b', bs, hbs⟩ := List.exists_cons_of_ne_nil (List.concat_ne_nil last front)
    rw [hbs] at ih
    rw [List.cons_append, hbs, appendLast, ih]
    rfl

theorem dropEmpty_ne_nil {bs : List (List C)} (h : bs ≠ []) : dropEmpty bs ≠ [] := by
  fun_induction dropEmpty bs <;> simp_all

theorem onlyLastEmpty_dropEmpty (bs : List (List C)) : OnlyLastEmpty (dropEmpty bs) := by
  fun_induction dropEmpty bs with
  | case1 => intro b hb; simp at hb
  | case2 b => exact .singleton b
  | case3 b b' bs _ ih => exact ih
  | case4 b b' bs hb ih => exact .cons (by simpa using hb) ih

theorem dropEmpty_eq_self {bs : List (List C)} (h : OnlyLastEmpty bs) : dropEmpty bs = bs := by
  fun_induction dropEmpty bs with
  | case1 => rfl
  | case2 => rfl
  | case3 b b' bs hb =>
    exact absurd (by simpa using hb) (OnlyLastEmpty.cons_cons.1 h).1
  | case4 b b' bs _ ih => rw [ih (OnlyLastEmpty.cons_cons.1 h).2]

/-- In front of the last batch nothing empty is left. -/
theorem dropEmpty_concat (front : List (List C)) (last : List C) :
    dropEmpty (front ++ [last]) = front.filter (· ≠ []) ++ [last] := by
  induction front with
  | nil => rfl
  | cons b front ih =>
    obtain ⟨b', bs, hbs⟩ := List.exists_cons_of_ne_nil (List.concat_ne_nil last front)
    rw [hbs] at ih
    rw [List.cons_append, hbs, dropEmpty, ih]
    by_cases hb : b = [] <;> simp [hb]

theorem headD_dropEmpty {bs : List (List C)} (h : bs.headD [] ≠ []) :
    (dropEmpty bs).headD [] = bs.headD [] := by
  fun_cases dropEmpty bs <;> simp_all

theorem reserveLast_ne_nil {bs : List (List C)} (h : bs ≠ []) : reserveLast bs ≠ [] := by
  fun_cases reserveLast bs <;> simp_all

@[simp] theorem headD_reserveLast (bs : List (List C)) :
    (reserveLast bs).headD [] = bs.headD [] := by
  fun_cases reserveLast bs <;> simp

theorem onlyLastEmpty_reserveLast {bs : List (List C)} (h : OnlyLastEmpty bs)
    (hd : bs.headD [] ≠ []) : OnlyLastEmpty (reserveLast bs) := by
  fun_cases reserveLast bs with
  | case1 b => exact .cons hd (.singleton [])
  | case2 => exact h

theorem halves_ne_nil {b : List C} (h : 2 ≤ b.length) :
    b.take (b.length / 2) ≠ [] ∧ b.drop (b.length / 2) ≠ [] := by
  constructor <;> apply List.ne_nil_of_length_pos
  · rw [List.length_take]
    omega
  · rw [List.length_drop]
    omega

theorem eq_singleton_of_not_two_le {b : List C} (hne : b ≠ []) (h : ¬2 ≤ b.length) :
    ∃ c, b = [c] := by
  apply List.length_eq_one_iff.1
  have hpos := List.length_pos_iff.2 hne
  omega

/-- A head that is reserved a batch has one behind it. -/
theorem two_le_length_reserveLast {bs : List (List C)} (hd : bs.headD [] ≠ []) :
    2 ≤ (reserveLast bs).length := by
  cases bs with
  | nil => simp at hd
  | cons b bs => cases bs <;> simp [reserveLast]

theorem reserveLast_of_two_le {bs : List (List C)} (h : 2 ≤ bs.length) : reserveLast bs = bs := by
  fun_cases reserveLast bs with
  | case1 b => simp at h
  | case2 => rfl

/-- A change joins the head only if there is no other batch. -/
theorem headD_appendLast {bs : List (List C)} (c : C) (h : 2 ≤ bs.length) :
    (appendLast c bs).headD [] = bs.headD [] := by
  fun_cases appendLast c bs <;> simp_all

theorem length_appendLast {bs : List (List C)} (c : C) (h : bs ≠ []) :
    (appendLast c bs).length = bs.length := by
  fun_induction appendLast c bs <;> simp_all

end MergeQueue.Lane
