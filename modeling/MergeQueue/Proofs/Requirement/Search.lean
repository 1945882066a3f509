import MergeQueue.Change
import MergeQueue.Proofs.Requirement.Closure

/-!
# Searching for dependants, in any order

A search keeps a list of pending identities, at first the root alone. It looks up the first of them
and finds those of its dependants that it has not found before; these are pending from then on. The
root is pending without being found, so on a cycle it is found later and looked up again. Nothing is
found twice, so the search ends, and in whatever order dependants come it has then found exactly
those that transitively require the root.
-/
namespace MergeQueue

/-- How far a search has come: what is still to be looked up, and what was found. -/
structure Search (I : Type) where
  pending : List I
  found : List I
deriving DecidableEq, Repr

namespace Search

variable {I : Type} [DecidableEq I]

def start (root : I) : Search I := ⟨[root], []⟩

def find (s : Search I) (i : I) : Search I :=
  if i ∈ s.found then s else ⟨s.pending ++ [i], s.found ++ [i]⟩

/-- The first pending identity is looked up, and its dependants are found, in some order. -/
inductive Step (r : RequiredBy I) : Search I → Search I → Prop
  | lookUp {i : I} {pending found ds : List I} (order : ds.Perm (r.dependants i)) :
      Step r ⟨i :: pending, found⟩ (ds.foldl find ⟨pending, found⟩)

inductive Run (r : RequiredBy I) (s : Search I) : ℕ → Search I → Prop
  | refl : Run r s 0 s
  | snoc {n : ℕ} {t u : Search I} (run : Run r s n t) (step : Step r t u) : Run r s (n + 1) u

theorem exists_step {r : RequiredBy I} {s : Search I} (h : s.pending ≠ []) : ∃ t, Step r s t := by
  obtain ⟨i, pending, hp⟩ := List.exists_cons_of_ne_nil h
  rcases s with ⟨_, found⟩
  cases hp
  exact ⟨_, .lookUp (.refl (r.dependants i))⟩

/-- What is new among the identities comes once to the end of what is pending and of what is
found. -/
theorem foldl_find (ds : List I) (s : Search I) :
    ∃ new, ds.foldl find s = ⟨s.pending ++ new, s.found ++ new⟩ ∧ new.Nodup ∧
      ∀ i, i ∈ new ↔ i ∈ ds ∧ i ∉ s.found := by
  induction ds generalizing s with
  | nil => exact ⟨[], by simp, .nil, by simp⟩
  | cons d ds ih =>
    rw [List.foldl_cons, find]
    by_cases hd : d ∈ s.found
    · obtain ⟨new, heq, hnd, hnew⟩ := ih s
      rw [if_pos hd]
      refine ⟨new, heq, hnd, fun i => ?_⟩
      rw [hnew, List.mem_cons, and_congr_left_iff]
      intro hi
      have hid : i ≠ d := fun heq => hi (heq ▸ hd)
      exact (or_iff_right hid).symm
    · obtain ⟨new, heq, hnd, hnew⟩ := ih ⟨s.pending ++ [d], s.found ++ [d]⟩
      rw [if_neg hd]
      refine ⟨d :: new, by simpa using heq, ?_, fun i => ?_⟩
      · rw [List.nodup_cons, hnew]
        exact ⟨fun h => h.2 (by simp), hnd⟩
      · rw [List.mem_cons, hnew, List.mem_cons, List.mem_append, List.mem_singleton, not_or]
        by_cases hid : i = d
        · simp [hid, hd]
        · simp [hid]

/-- What holds of a search from a root after a number of steps. An identity that is the root or was
found is pending, or all its dependants are found. What was found was pending once, and the root
once more, so the steps taken and those still to come are one more than the identities found. -/
structure Consistent (r : RequiredBy I) (root : I) (n : ℕ) (s : Search I) : Prop where
  counted : n + s.pending.length = s.found.length + 1
  nodup : s.found.Nodup
  sound : ∀ i ∈ s.found, Relation.TransGen (fun d j => d ∈ r.dependants j) i root
  known : ∀ i ∈ s.pending, i = root ∨ i ∈ s.found
  closed : ∀ i, i = root ∨ i ∈ s.found → i ∈ s.pending ∨ ∀ d ∈ r.dependants i, d ∈ s.found

variable {r : RequiredBy I} {root : I} {n : ℕ} {s t : Search I}

theorem consistent_start : Consistent r root 0 (start root) where
  counted := rfl
  nodup := .nil
  sound := nofun
  known _ hi := .inl (List.mem_singleton.1 hi)
  closed _ hi := .inl (List.mem_singleton.2 (hi.resolve_right List.not_mem_nil))

theorem Consistent.step (h : Consistent r root n s) (hstep : Step r s t) :
    Consistent r root (n + 1) t := by
  obtain @⟨i, pending, found, ds, order⟩ := hstep
  obtain ⟨new, heq, hnd, hnew⟩ := foldl_find ds ⟨pending, found⟩
  have hmem : ∀ d, d ∈ new ↔ d ∈ r.dependants i ∧ d ∉ found := fun d => by
    rw [hnew, order.mem_iff]
  rw [heq]
  constructor
  case counted =>
    have := h.counted
    simp only [List.length_cons, List.length_append] at this ⊢
    omega
  case nodup => exact h.nodup.append hnd fun d hd hd' => ((hmem d).1 hd').2 hd
  case sound =>
    intro d hd
    rcases List.mem_append.1 hd with hd | hd
    · exact h.sound d hd
    · have hdi := ((hmem d).1 hd).1
      rcases h.known i List.mem_cons_self with rfl | hi
      · exact .single hdi
      · exact .head hdi (h.sound i hi)
  case known =>
    intro d hd
    rcases List.mem_append.1 hd with hd | hd
    · exact (h.known d (List.mem_cons_of_mem i hd)).imp_right (List.mem_append_left new)
    · exact .inr (List.mem_append_right found hd)
  case closed =>
    -- What was looked up now has its dependants found, and what is new is pending.
    have hlooked : ∀ d ∈ r.dependants i, d ∈ found ++ new := by
      intro d hd
      by_cases hf : d ∈ found
      · exact List.mem_append_left new hf
      · exact List.mem_append_right found ((hmem d).2 ⟨hd, hf⟩)
    intro j hj
    by_cases hjnew : j ∈ new
    · exact .inl (List.mem_append_right pending hjnew)
    have hj' : j = root ∨ j ∈ found :=
      hj.imp_right fun hj => (List.mem_append.1 hj).resolve_right hjnew
    rcases h.closed j hj' with hpending | hdone
    · rcases List.mem_cons.1 hpending with rfl | hpending
      · exact .inr hlooked
      · exact .inl (List.mem_append_left new hpending)
    · exact .inr fun d hd => List.mem_append_left new (hdone d hd)

theorem Run.consistent (h : Run r (start root) n s) : Consistent r root n s := by
  induction h with
  | refl => exact consistent_start
  | snoc _ hstep ih => exact ih.step hstep

/-- When nothing is pending any more, all that a chain of steps reaches is found. -/
theorem Consistent.mem_found_iff (h : Consistent r root n s) (hdone : s.pending = []) {i : I} :
    i ∈ s.found ↔ Relation.TransGen (fun d j => d ∈ r.dependants j) i root := by
  have hclosed : ∀ j, j = root ∨ j ∈ s.found → ∀ d ∈ r.dependants j, d ∈ s.found := by
    intro j hj
    refine (h.closed j hj).resolve_left ?_
    rw [hdone]
    exact List.not_mem_nil
  refine ⟨h.sound i, fun hi => ?_⟩
  induction hi using Relation.TransGen.head_induction_on with
  | single hstep => exact hclosed root (.inl rfl) _ hstep
  | head hstep _ ih => exact hclosed _ (.inr ih) _ hstep

end Search

section Pool

open Search

variable {C I : Type} [Change C I] [DecidableEq I]

/-- A search looks up the root once and each identity of the pool once more at most. -/
theorem Search.Run.le_length {pool : List C} {root : I} {n : ℕ} {s : Search I}
    (h : Run (.ofPool pool) (.start root) n s) : n ≤ pool.length + 1 := by
  have hcons := h.consistent
  have hsub : s.found ⊆ pool.map ident := by
    intro i hi
    have hreq := RequiredBy.mem_closure_ofPool.1 (RequiredBy.mem_closure_iff.2 (hcons.sound i hi))
    obtain ⟨c, hc, rfl⟩ := hreq.exists_mem
    exact List.mem_map_of_mem hc
  have hle := (hcons.nodup.subperm hsub).length_le
  have := hcons.counted
  rw [List.length_map] at hle
  omega

/-- The closure of a root holds exactly the identities from which a chain of one or more
requirements leads to the root, and the root itself exactly if it lies on a cycle. Also every search
for it, in whatever order dependants come, takes one step more than there are changes at most, and
can be continued until it has found exactly these identities. -/
theorem closure_transitive (pool : List C) (root : I) :
    (∀ i, i ∈ (RequiredBy.ofPool pool).closure root ↔ Requires pool i root) ∧
      (root ∈ (RequiredBy.ofPool pool).closure root ↔
        ∃ i, RequiresDirectly pool root i ∧
          Relation.ReflTransGen (RequiresDirectly pool) i root) ∧
      ∀ n s, Run (.ofPool pool) (.start root) n s → n ≤ pool.length + 1 ∧
        ((∃ t, Step (.ofPool pool) s t) ∨
          s.pending = [] ∧ ∀ i, i ∈ s.found ↔ Requires pool i root) := by
  refine ⟨fun i => RequiredBy.mem_closure_ofPool, ?_, fun n s hrun => ⟨hrun.le_length, ?_⟩⟩
  · rw [RequiredBy.mem_closure_ofPool]
    exact Relation.TransGen.head'_iff
  · by_cases hdone : s.pending = []
    · refine .inr ⟨hdone, fun i => ?_⟩
      rw [hrun.consistent.mem_found_iff hdone, ← RequiredBy.mem_closure_iff,
        RequiredBy.mem_closure_ofPool]
    · exact .inl (exists_step hdone)

/-- Three changes on a cycle, another with the identity of one of them, and one that requires what
is nowhere. -/
def entangled : List ChangeRecord :=
  [⟨⟨"a"⟩, .ofList [⟨"c"⟩]⟩, ⟨⟨"b"⟩, .ofList [⟨"a"⟩]⟩, ⟨⟨"c"⟩, .ofList [⟨"b"⟩]⟩,
    ⟨⟨"b"⟩, .ofList [⟨"d"⟩]⟩, ⟨⟨"d"⟩, .ofList [⟨"z"⟩]⟩]

/-- The root is looked up, and again when it has been found. -/
theorem entangled_closure_transitive :
    Run (.ofPool entangled) (.start ⟨"a"⟩) 4 ⟨[], [⟨"b"⟩, ⟨"c"⟩, ⟨"a"⟩]⟩ ∧
      (∀ i : ChangeId, i ∈ [⟨"b"⟩, ⟨"c"⟩, ⟨"a"⟩] ↔ Requires entangled i ⟨"a"⟩) ∧
      (⟨"a"⟩ : ChangeId) ∈ (RequiredBy.ofPool entangled).closure ⟨"a"⟩ := by
  have hstep (i : ChangeId) (pending found : List ChangeId) (t : Search ChangeId)
      (h : ((RequiredBy.ofPool entangled).dependants i).foldl find ⟨pending, found⟩ = t) :
      Step (.ofPool entangled) ⟨i :: pending, found⟩ t := h ▸ .lookUp (.refl _)
  have hrun : Run (.ofPool entangled) (.start ⟨"a"⟩) 4 ⟨[], [⟨"b"⟩, ⟨"c"⟩, ⟨"a"⟩]⟩ :=
    (((Run.refl.snoc (hstep ⟨"a"⟩ [] [] ⟨[⟨"b"⟩], [⟨"b"⟩]⟩ (by decide +kernel))).snoc
      (hstep ⟨"b"⟩ [] [⟨"b"⟩] ⟨[⟨"c"⟩], [⟨"b"⟩, ⟨"c"⟩]⟩ (by decide +kernel))).snoc
      (hstep ⟨"c"⟩ [] [⟨"b"⟩, ⟨"c"⟩] ⟨[⟨"a"⟩], [⟨"b"⟩, ⟨"c"⟩, ⟨"a"⟩]⟩ (by decide +kernel))).snoc
      (hstep ⟨"a"⟩ [] [⟨"b"⟩, ⟨"c"⟩, ⟨"a"⟩] ⟨[], [⟨"b"⟩, ⟨"c"⟩, ⟨"a"⟩]⟩ (by decide +kernel))
  obtain ⟨-, -, hsearch⟩ := closure_transitive entangled (⟨"a"⟩ : ChangeId)
  have hfound := ((hsearch 4 _ hrun).2.resolve_left ?_).2
  · exact ⟨hrun, hfound, by decide +kernel⟩
  · rintro ⟨t, hstep⟩
    cases hstep

end Pool

end MergeQueue
