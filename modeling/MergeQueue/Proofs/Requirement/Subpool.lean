import MergeQueue.Proofs.Requirement.InOrder

/-!
# Chains of requirements in a part of a pool

A chain stays a chain as long as every change on the way to its end stays in the pool; the change
at its end may leave, unless the chain starts there, too. Where changes
are in order, given only what no change of the pool stands for, a chain that starts at one of them
leads to the front or out of the pool. With one change added, every chain that is new leads through
it, and so does every new cycle.
-/
namespace MergeQueue

variable {C I : Type} [Change C I] {pool pool' : List C} {i j root : I}

theorem Requires.mono (h : Requires pool i j) (hsub : pool ⊆ pool') : Requires pool' i j := by
  have hstep : RequiresDirectly pool ≤ RequiresDirectly (I := I) pool' :=
    fun _ _ ⟨c, hc, hi, hj⟩ => ⟨c, hsub hc, hi, hj⟩
  exact Relation.TransGen.mono hstep _ _ h

/-- Only the changes on the way from `i` to `root` need to stay. -/
theorem Requires.restrict (h : Requires pool i root)
    (hkeep : ∀ c ∈ pool, Relation.ReflTransGen (RequiresDirectly pool) i (ident c) →
      Requires pool (ident c) root → c ∈ pool') : Requires pool' i root := by
  induction h using Relation.TransGen.head_induction_on with
  | single hstep =>
    obtain ⟨c, hc, rfl, hroot⟩ := hstep
    exact .single ⟨c, hkeep c hc .refl (requires_of_mem hc hroot), rfl, hroot⟩
  | head hstep hrest ih =>
    obtain ⟨c, hc, rfl, hk⟩ := hstep
    have hc' : c ∈ pool' := hkeep c hc .refl (requires_trans_of_mem hc hk hrest)
    apply Relation.TransGen.head ⟨c, hc', rfl, hk⟩
    exact ih fun d hd hreach => hkeep d hd (.head ⟨c, hc, rfl, hk⟩ hreach)

theorem Requires.of_cons {c : C} (h : Requires (c :: pool) i (ident c)) (hi : i ≠ ident c) :
    Requires pool i (ident c) := by
  have hmem : ∀ d ∈ c :: pool, ident d ≠ ident c → d ∈ pool := fun d hd hne =>
    (List.mem_cons.1 hd).resolve_left fun hdc => hne (hdc ▸ rfl)
  induction h using Relation.TransGen.head_induction_on with
  | single hstep =>
    obtain ⟨d, hd, rfl, hj⟩ := hstep
    exact requires_of_mem (hmem d hd hi) hj
  | @head i k hstep _ ih =>
    obtain ⟨d, hd, rfl, hk⟩ := hstep
    by_cases hkc : k = ident c
    · exact requires_of_mem (hmem d hd hi) (hkc ▸ hk)
    · exact requires_trans_of_mem (hmem d hd hi) hk (ih hkc)

/-- Nothing that a change requires stands behind it. -/
theorem Requires.mem_front {front back : List C} {c : C} (hnd : (pool.map ident).Nodup)
    (hsub : front ++ c :: back ⊆ pool)
    (hord : InOrder (· ∉ pool.map ident) (front ++ c :: back)) (h : Requires pool (ident c) j) :
    j ∉ pool.map ident ∨ j ∈ front.map ident := by
  have hc : c ∈ pool := hsub (List.mem_append_right front List.mem_cons_self)
  induction h with
  | single hstep =>
    obtain ⟨d, hd, hdc, hj⟩ := hstep
    cases List.inj_on_of_nodup_map hnd hd hc hdc
    exact hord.of_requires hj
  | tail _ hstep ih =>
    obtain ⟨d, hd, rfl, hj⟩ := hstep
    have hfront : ident d ∈ front.map ident :=
      ih.resolve_left (not_not_intro (List.mem_map_of_mem hd))
    obtain ⟨e, he, hed⟩ := List.mem_map.1 hfront
    cases List.inj_on_of_nodup_map hnd (hsub (List.mem_append_left _ he)) hd hed
    obtain ⟨front', back', rfl⟩ := List.append_of_mem he
    rw [List.append_assoc] at hord
    rw [List.map_append]
    exact (hord.of_requires hj).imp_right (List.mem_append_left _)

/-- A chain that is new with an added change leads through it. -/
theorem Requires.of_concat {c : C} (h : Requires (pool ++ [c]) i j) :
    Requires pool i j ∨
      Requires (pool ++ [c]) (ident c) j ∧ (i = ident c ∨ Requires (pool ++ [c]) i (ident c)) := by
  induction h using Relation.TransGen.head_induction_on with
  | single hstep =>
    obtain ⟨d, hd, rfl, hj⟩ := hstep
    rcases List.mem_append.1 hd with hpool | hadded
    · exact .inl (requires_of_mem hpool hj)
    · cases List.mem_singleton.1 hadded
      exact .inr ⟨requires_of_mem hd hj, .inl rfl⟩
  | head hstep hrest ih =>
    obtain ⟨d, hd, rfl, hk⟩ := hstep
    rcases List.mem_append.1 hd with hpool | hadded
    · rcases ih with hold | ⟨hnew, rfl | hto⟩
      · exact .inl (requires_trans_of_mem hpool hk hold)
      · exact .inr ⟨hnew, .inr (requires_of_mem hd hk)⟩
      · exact .inr ⟨hnew, .inr (requires_trans_of_mem hd hk hto)⟩
    · cases List.mem_singleton.1 hadded
      exact .inr ⟨requires_trans_of_mem hd hk hrest, .inl rfl⟩

theorem acyclic_nil : Acyclic ([] : List C) := nofun

theorem Acyclic.not_requires (h : Acyclic pool) : ¬Requires pool i i := by
  intro hcycle
  obtain ⟨c, hc, rfl⟩ := hcycle.exists_mem
  exact h c hc hcycle

theorem Acyclic.mono (h : Acyclic pool) (hsub : pool' ⊆ pool) : Acyclic pool' :=
  fun c hc hcycle => h c (hsub hc) (hcycle.mono hsub)

/-- A change that does not require itself closes no cycle. -/
theorem Acyclic.concat {c : C} (h : Acyclic pool)
    (hc : ¬Requires (pool ++ [c]) (ident c) (ident c)) : Acyclic (pool ++ [c]) := by
  intro d _ hcycle
  rcases hcycle.of_concat with hold | ⟨hback, hd | hto⟩
  · exact h.not_requires hold
  · exact hc (hd ▸ hcycle)
  · exact hc (hback.trans hto)

end MergeQueue
