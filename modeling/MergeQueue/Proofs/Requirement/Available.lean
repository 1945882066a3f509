import MergeQueue.Proofs.Requirement.InOrder

/-!
# The least set that nothing can be added to

Changes in order are available, one after another, if what is met from the start is. If on top of
that every other change of the pool misses something, then there is nothing else to admit, and what
is present or admitted is exactly what is available. The changes that are available are the least
set that has a change exactly if all it requires is present or belongs to a member.
-/
namespace MergeQueue

variable {C I : Type} [Change C I] {pool admitted : List C} {present met : I → Prop}

theorem Available.mono {pool' : List C} {i : I} (h : Available pool present i)
    (hsub : pool ⊆ pool') : Available pool' present i := by
  induction h with
  | present h => exact .present h
  | admitted mem _ ih => exact .admitted (hsub mem) ih

/-- Each change in order finds what it requires available. -/
theorem InOrder.available (h : InOrder met admitted) (hsub : admitted ⊆ pool)
    (hmet : ∀ i, met i → Available pool present i) :
    ∀ c ∈ admitted, Available pool present (ident c) := by
  induction admitted generalizing met with
  | nil => nofun
  | cons c cs ih =>
    obtain ⟨hc, hcs⟩ := List.cons_subset.1 hsub
    have havailable : Available pool present (ident c) := .admitted hc fun i hi => hmet i (h.1 i hi)
    refine List.forall_mem_cons.2 ⟨havailable, ih h.2 hcs ?_⟩
    rintro i (hi | rfl)
    · exact hmet i hi
    · exact havailable

/-- If every change that is not admitted misses something, no more is available. -/
theorem Available.of_saturated {i : I} (h : Available pool present i)
    (hrest : ∀ c ∈ pool, c ∈ admitted ∨
      ∃ j ∈ requires c, ¬present j ∧ j ∉ admitted.map ident) :
    present i ∨ i ∈ admitted.map ident := by
  induction h with
  | present h => exact .inl h
  | admitted mem _ ih =>
    rcases hrest _ mem with hc | ⟨j, hj, hnot, hnew⟩
    · exact .inr (List.mem_map_of_mem hc)
    · exact absurd (ih j hj) (not_or.2 ⟨hnot, hnew⟩)

/-- Of changes with identities of their own, those are admitted that are available. -/
theorem mem_admitted_iff {rest : List C} (hperm : (admitted ++ rest).Perm pool)
    (hnd : (pool.map ident).Nodup) (hnew : ∀ c ∈ pool, ¬present (ident c))
    (hord : InOrder present admitted)
    (hrest : ∀ c ∈ rest, ∃ j ∈ requires c, ¬present j ∧ j ∉ admitted.map ident) {c : C} :
    c ∈ admitted ↔ c ∈ pool ∧ Available pool present (ident c) := by
  have hsub : admitted ⊆ pool := fun d hd => hperm.subset (List.mem_append_left rest hd)
  constructor
  · intro hc
    exact ⟨hsub hc, hord.available hsub (fun _ => .present) c hc⟩
  · rintro ⟨hc, havailable⟩
    have hsaturated : ∀ d ∈ pool, d ∈ admitted ∨
        ∃ j ∈ requires d, ¬present j ∧ j ∉ admitted.map ident := fun d hd =>
      (List.mem_append.1 (hperm.symm.subset hd)).imp_right (hrest d)
    have hident := (havailable.of_saturated hsaturated).resolve_left (hnew c hc)
    obtain ⟨d, hd, heq⟩ := List.mem_map.1 hident
    cases List.inj_on_of_nodup_map hnd (hsub hd) hc heq
    exact hd

section Least

/-- A change of the pool is in the set exactly if each identity that it requires is present or
belongs to a member of the set. -/
def AdmitsExactly (pool : List C) (present : I → Prop) (S : Set C) : Prop :=
  ∀ c, c ∈ S ↔ c ∈ pool ∧ ∀ i ∈ requires c, present i ∨ ∃ d ∈ S, ident d = i

theorem AdmitsExactly.of_available {S : Set C} (hS : AdmitsExactly pool present S) {i : I}
    (h : Available pool present i) : present i ∨ ∃ d ∈ S, ident d = i := by
  induction h with
  | present h => exact .inl h
  | admitted mem _ ih => exact .inr ⟨_, (hS _).2 ⟨mem, ih⟩, rfl⟩

variable (hnd : (pool.map ident).Nodup) (hnew : ∀ c ∈ pool, ¬present (ident c))
include hnd hnew

theorem admitsExactly_available :
    AdmitsExactly pool present {c | c ∈ pool ∧ Available pool present (ident c)} := by
  intro c
  rw [Set.mem_ofPred_eq, and_congr_right_iff]
  intro hc
  constructor
  · intro havailable
    generalize hi : ident c = i at havailable
    cases havailable with
    | present h => exact absurd (hi ▸ h) (hnew c hc)
    | @admitted d hd met =>
      cases List.inj_on_of_nodup_map hnd hc hd hi
      intro j hj
      cases met j hj with
      | present h => exact .inl h
      | admitted mem met => exact .inr ⟨_, ⟨mem, .admitted mem met⟩, rfl⟩
  · intro hmet
    refine .admitted hc fun i hi => ?_
    rcases hmet i hi with h | ⟨d, ⟨-, hd⟩, rfl⟩
    · exact .present h
    · exact hd

/-- Of changes with identities of their own, those that are available are the least such set. -/
theorem isLeast_available :
    IsLeast {S | AdmitsExactly pool present S}
      {c | c ∈ pool ∧ Available pool present (ident c)} := by
  refine ⟨admitsExactly_available hnd hnew, ?_⟩
  rintro S hS c ⟨hc, havailable⟩
  obtain ⟨d, hd, heq⟩ := (AdmitsExactly.of_available hS havailable).resolve_left (hnew c hc)
  cases List.inj_on_of_nodup_map hnd ((hS d).1 hd).1 hc heq
  exact hd

end Least

end MergeQueue
