import MergeQueue.Requirement
import Mathlib.Tactic

/-!
# The closure holds exactly those that require the root

The search goes on from the work until nothing is open. What it finds was reached by steps, and
nothing that a step reaches from there is left out. Read on a pool of changes, the closure of a
root is the set of the identities that transitively require it.
-/
namespace MergeQueue

namespace RequiredBy

variable {C I : Type} [DecidableEq I] {r : RequiredBy I} {work found : List I}

/-- The search only finds what it starts with or reaches by steps. -/
theorem closureFrom_sound {P : I → Prop} (hstep : ∀ i, P i → ∀ d ∈ r.dependants i, P d)
    (hwork : ∀ i ∈ work, P i) (hfound : ∀ i ∈ found, P i) :
    ∀ i ∈ r.closureFrom work found, P i := by
  fun_induction closureFrom r work found with
  | case1 found => exact hfound
  | case2 found i work hi ih =>
    exact ih (fun j hj => hwork j (List.mem_cons_of_mem i hj)) hfound
  | case3 found i work hi ih =>
    have hPi : P i := hwork i List.mem_cons_self
    apply ih
    · intro j hj
      rcases List.mem_append.1 hj with hj | hj
      · exact hstep i hPi j hj
      · exact hwork j (List.mem_cons_of_mem i hj)
    · intro j hj
      rcases List.mem_cons.1 hj with rfl | hj
      · exact hPi
      · exact hfound j hj

theorem mem_closureFrom_of_mem {i : I} (h : i ∈ work ∨ i ∈ found) :
    i ∈ r.closureFrom work found := by
  fun_induction closureFrom r work found with
  | case1 found => simpa using h
  | case2 found j work hj ih =>
    apply ih
    rcases h with h | h
    · rcases List.mem_cons.1 h with rfl | h
      · exact .inr hj
      · exact .inl h
    · exact .inr h
  | case3 found j work hj ih =>
    apply ih
    rcases h with h | h
    · rcases List.mem_cons.1 h with rfl | h
      · exact .inr List.mem_cons_self
      · exact .inl (List.mem_append_right _ h)
    · exact .inr (List.mem_cons_of_mem j h)

/-- A step from what was found leads to what was found, as long as the steps from `found` lead to
`found` or to the work. -/
theorem closureFrom_closed (h : ∀ i ∈ found, ∀ d ∈ r.dependants i, d ∈ work ∨ d ∈ found) :
    ∀ i ∈ r.closureFrom work found, ∀ d ∈ r.dependants i, d ∈ r.closureFrom work found := by
  fun_induction closureFrom r work found with
  | case1 found =>
    intro i hi d hd
    exact (h i hi d hd).resolve_left List.not_mem_nil
  | case2 found j work hj ih =>
    apply ih
    intro i hi d hd
    rcases h i hi d hd with hw | hf
    · rcases List.mem_cons.1 hw with rfl | hw
      · exact .inr hj
      · exact .inl hw
    · exact .inr hf
  | case3 found j work hj ih =>
    apply ih
    intro i hi d hd
    rcases List.mem_cons.1 hi with rfl | hi
    · exact .inl (List.mem_append_left work hd)
    · rcases h i hi d hd with hw | hf
      · rcases List.mem_cons.1 hw with rfl | hw
        · exact .inr List.mem_cons_self
        · exact .inl (List.mem_append_right _ hw)
      · exact .inr (List.mem_cons_of_mem j hf)

/-- The closure of a root is what a chain of one or more steps reaches from it. -/
theorem mem_closure_iff {root i : I} :
    i ∈ r.closure root ↔ Relation.TransGen (fun d j => d ∈ r.dependants j) i root := by
  have hclosed : ∀ i ∈ r.closure root, ∀ d ∈ r.dependants i, d ∈ r.closure root :=
    closureFrom_closed fun i hi => absurd hi List.not_mem_nil
  constructor
  · refine closureFrom_sound
      (P := fun i => Relation.TransGen (fun d j => d ∈ r.dependants j) i root)
      (fun i hi d hd => ?_) (fun i hi => .single hi) (fun i hi => absurd hi List.not_mem_nil) i
    exact .head hd hi
  · intro h
    induction h using Relation.TransGen.head_induction_on with
    | single h => exact mem_closureFrom_of_mem (.inl h)
    | head hstep _ ih => exact hclosed _ ih _ hstep

/-- Over a pool, the closure holds the identities that transitively require the root. -/
theorem mem_closure_ofPool [Change C I] {pool : List C} {root i : I} :
    i ∈ (ofPool pool).closure root ↔ Requires pool i root := by
  rw [mem_closure_iff, Requires]
  have hstep : (fun d j => d ∈ (ofPool pool).dependants j) = RequiresDirectly pool := by
    funext d j
    rw [eq_iff_iff, mem_dependants_ofPool]
    exact exists_congr fun c => and_congr_right fun _ => by rw [and_comm, eq_comm]
  rw [hstep]

end RequiredBy

variable {C I : Type} [Change C I] {pool : List C}

theorem requires_of_mem {c : C} {i : I} (hc : c ∈ pool) (hi : i ∈ requires c) :
    Requires pool (ident c) i := .single ⟨c, hc, rfl, hi⟩

theorem requires_trans_of_mem {c : C} {i j : I} (hc : c ∈ pool) (hi : i ∈ requires c)
    (h : Requires pool i j) : Requires pool (ident c) j := .head ⟨c, hc, rfl, hi⟩ h

theorem RequiredBy.mem_closure_of_requires [DecidableEq I] {c : C} {i root : I} (hc : c ∈ pool)
    (hi : i ∈ requires c) (h : i = root ∨ i ∈ (ofPool pool).closure root) :
    ident c ∈ (ofPool pool).closure root := by
  rw [mem_closure_ofPool] at h ⊢
  rcases h with rfl | h
  · exact requires_of_mem hc hi
  · exact requires_trans_of_mem hc hi h

instance [DecidableEq I] (i j : I) : Decidable (Requires pool i j) :=
  decidable_of_iff (i ∈ (RequiredBy.ofPool pool).closure j) RequiredBy.mem_closure_ofPool

/-- A pool is acyclic if no change of it is in its own closure. -/
instance [DecidableEq I] : Decidable (Acyclic pool) :=
  decidable_of_iff (∀ c ∈ pool, ident c ∉ (RequiredBy.ofPool pool).closure (ident c)) <|
    forall₂_congr fun _ _ => not_congr RequiredBy.mem_closure_ofPool

end MergeQueue
