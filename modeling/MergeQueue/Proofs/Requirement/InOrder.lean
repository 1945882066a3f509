import MergeQueue.Proofs.Requirement.Closure

/-!
# Changes in the order of their requirements

A list of changes is in order if each of them requires only identities that are met from the start
or belong to a change in front of it. Such a list may be split anywhere: the identities of the
front part count as met for the back part. Changes may also leave the list, as long as nothing
that stays requires one that leaves.
-/
namespace MergeQueue

variable {C I : Type} [Change C I]

/-- Each change requires only what is met or is the identity of a change in front of it. -/
def InOrder (met : I → Prop) : List C → Prop
  | [] => True
  | c :: cs => (∀ i ∈ requires c, met i) ∧ InOrder (fun i => met i ∨ i = ident c) cs

variable {met met' : I → Prop} {cs ds : List C}

theorem InOrder.imp (h : InOrder met cs) (himp : ∀ c ∈ cs, ∀ i ∈ requires c, met i → met' i) :
    InOrder met' cs := by
  induction cs generalizing met met' with
  | nil => trivial
  | cons c cs ih =>
    constructor
    · intro i hi
      exact himp c List.mem_cons_self i hi (h.1 i hi)
    · apply ih h.2
      intro d hd i hi
      exact Or.imp_left (himp d (List.mem_cons_of_mem c hd) i hi)

theorem InOrder.mono (h : InOrder met cs) (himp : ∀ i, met i → met' i) : InOrder met' cs :=
  h.imp fun _ _ i _ => himp i

theorem inOrder_append :
    InOrder met (cs ++ ds) ↔ InOrder met cs ∧ InOrder (fun i => met i ∨ i ∈ cs.map ident) ds := by
  induction cs generalizing met with
  | nil => simp [InOrder]
  | cons c cs ih =>
    rw [List.cons_append, InOrder, InOrder, ih, and_assoc]
    simp only [List.map_cons, List.mem_cons, or_assoc]

theorem InOrder.of_requires {front back : List C} {c : C} (h : InOrder met (front ++ c :: back))
    {i : I} (hi : i ∈ requires c) : met i ∨ i ∈ front.map ident :=
  (inOrder_append.1 h).2.1 i hi

/-- Changes may leave if nothing that stays requires them. -/
theorem InOrder.filter {p : C → Bool} (h : InOrder met cs)
    (hkeep : ∀ c ∈ cs, p c = true → ∀ d ∈ cs, ident d ∈ requires c → p d = true) :
    InOrder met (cs.filter p) := by
  induction cs generalizing met with
  | nil => trivial
  | cons c cs ih =>
    have hrest := ih h.2 fun d hd hp e he =>
      hkeep d (List.mem_cons_of_mem c hd) hp e (List.mem_cons_of_mem c he)
    cases hc : p c with
    | true =>
      rw [List.filter_cons_of_pos hc]
      exact ⟨h.1, hrest⟩
    | false =>
      rw [List.filter_cons_of_neg (by simp [hc])]
      -- Nothing that stays requires the change that leaves, so it need not be met.
      apply hrest.imp
      intro d hd i hi hmet
      apply hmet.resolve_right
      intro hic
      obtain ⟨hd, hp⟩ := List.mem_filter.1 hd
      have hpc := hkeep d (List.mem_cons_of_mem c hd) hp c List.mem_cons_self (hic ▸ hi)
      rw [hc] at hpc
      exact Bool.false_ne_true hpc

/-- Once all that requires the root has left, the root need not be met. -/
theorem InOrder.filter_requires {pool : List C} {root : I} {p : C → Bool}
    (h : InOrder (fun i => met i ∨ i = root) cs) (hpool : ∀ c ∈ cs, c ∈ pool)
    (hp : ∀ c ∈ cs, p c = true ↔ ¬Requires pool (ident c) root) : InOrder met (cs.filter p) := by
  have hstay : InOrder (fun i => met i ∨ i = root) (cs.filter p) := by
    apply h.filter
    intro c hc hpc d hd hreq
    rw [hp c hc] at hpc
    rw [hp d hd]
    intro hroot
    exact hpc (requires_trans_of_mem (hpool c hc) hreq hroot)
  apply hstay.imp
  intro c hc i hi hmet
  obtain ⟨hc, hpc⟩ := List.mem_filter.1 hc
  apply hmet.resolve_right
  intro hroot
  exact (hp c hc).1 hpc (hroot ▸ requires_of_mem (hpool c hc) hi)

end MergeQueue
