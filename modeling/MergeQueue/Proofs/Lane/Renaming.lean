import MergeQueue.Proofs.Lane.Cases

/-!
# A lane does not look into its changes

Renaming the changes of a lane commutes with every operation, as long as different changes keep
different names: they only matter where an arrival is compared with what stands in the lane.
-/
namespace MergeQueue

variable {C D : Type}

def Dispatch.map (f : C → D) (d : Dispatch C) : Dispatch D := ⟨d.key, d.changes.map f⟩

def Outcome.map (f : C → D) (o : Outcome C) : Outcome D := ⟨o.passed.map f, o.failed.map f⟩

namespace Lane

def map (f : C → D) (l : Lane C) : Lane D :=
  ⟨l.batches.map (List.map f), l.outstanding, l.nextKey⟩

@[simp] theorem changes_map (f : C → D) (l : Lane C) : (l.map f).changes = l.changes.map f :=
  List.map_flatten.symm

@[simp] theorem head_map (f : C → D) (l : Lane C) : (l.map f).head = l.head.map f := by
  unfold head map
  cases l.batches <;> rfl

theorem appendLast_map (f : C → D) (c : C) (bs : List (List C)) :
    appendLast (f c) (bs.map (List.map f)) = (appendLast c bs).map (List.map f) := by
  fun_induction appendLast c bs with
  | case1 => rfl
  | case2 b => simp [appendLast]
  | case3 b b' bs ih =>
    simp only [List.map_cons] at ih ⊢
    rw [appendLast, ih]

theorem reserveLast_map (f : C → D) (bs : List (List C)) :
    reserveLast (bs.map (List.map f)) = (reserveLast bs).map (List.map f) := by
  match bs with
  | [] => rfl
  | [b] => rfl
  | b :: b' :: bs => rfl

/-- The arrival of a renamed change, if no other change has its name. -/
theorem enqueue_map [DecidableEq C] [DecidableEq D] {f : C → D} (hf : f.Injective) (c : C)
    (l : Lane C) : (l.map f).enqueue (f c) = ((l.enqueue c).1, (l.enqueue c).2.map f) := by
  have hmem : f c ∈ (l.map f).changes ↔ c ∈ l.changes := by
    rw [changes_map, List.mem_map_of_injective hf]
  by_cases hc : c ∈ l.changes
  · rw [enqueue_of_mem hc, enqueue_of_mem (hmem.2 hc)]
  · rw [enqueue_of_not_mem hc, enqueue_of_not_mem (mt hmem.1 hc)]
    change (true, (⟨appendLast (f c) (l.batches.map (List.map f)), _, _⟩ : Lane D)) = _
    rw [appendLast_map]
    rfl

theorem dispatch_map (f : C → D) (l : Lane C) :
    (l.map f).dispatch = (l.dispatch.1.map (Dispatch.map f), l.dispatch.2.map f) := by
  by_cases hd : l.head = []
  · have hd' : (l.map f).head = [] := by rw [head_map, hd, List.map_nil]
    rw [dispatch_of_nil hd, dispatch_of_nil hd']
    rfl
  have hd' : (l.map f).head ≠ [] := by rwa [head_map, ne_eq, List.map_eq_nil_iff]
  have hreserve : reserveLast (l.map f).batches = (reserveLast l.batches).map (List.map f) :=
    reserveLast_map f l.batches
  cases hk : l.outstanding with
  | some key =>
    have hk' : (l.map f).outstanding = some key := hk
    rw [dispatch_of_some hd hk, dispatch_of_some hd' hk', hreserve, head_map]
    rfl
  | none =>
    have hk' : (l.map f).outstanding = none := hk
    rw [dispatch_of_none hd hk, dispatch_of_none hd' hk', hreserve, head_map]
    rfl

theorem passHead_map (f : C → D) (l : Lane C) :
    (l.map f).passHead = (l.passHead.1.map f, l.passHead.2.map f) := by
  rcases l with ⟨_ | ⟨b, _ | ⟨b', bs⟩⟩, outstanding, nextKey⟩ <;> rfl

theorem failHead_map (f : C → D) (l : Lane C) :
    (l.map f).failHead = (l.failHead.1.map f, l.failHead.2.map f) := by
  rcases l with ⟨_ | ⟨b, bs⟩, outstanding, nextKey⟩
  · rfl
  by_cases hlen : 2 ≤ b.length
  · have hlen' : 2 ≤ (b.map f).length := by rwa [List.length_map]
    have hb' : (map f ⟨b :: bs, outstanding, nextKey⟩).batches = b.map f :: bs.map (List.map f) :=
      rfl
    rw [failHead_halve rfl hlen, failHead_halve hb' hlen', List.length_map, ← List.map_take,
      ← List.map_drop]
    rfl
  · match b with
    | [] => rfl
    | [c] =>
      have hb' : (map f ⟨[c] :: bs, outstanding, nextKey⟩).batches = [f c] :: bs.map (List.map f) :=
        rfl
      rw [failHead_single hb', ← List.map_flatten]
      rfl
    | c :: d :: cs => exact absurd (by simp) hlen

theorem report_map (f : C → D) (verdict : Verdict) (key : TestKey) (l : Lane C) :
    (l.map f).report verdict key =
      ((l.report verdict key).1.map f, (l.report verdict key).2.map f) := by
  by_cases hk : l.outstanding = some key
  · have hk' : (l.map f).outstanding = some key := hk
    rw [report_of_eq hk, report_of_eq hk']
    cases verdict with
    | pass => exact passHead_map f l
    | fail => exact failHead_map f l
  · have hk' : (l.map f).outstanding ≠ some key := hk
    rw [report_of_ne hk, report_of_ne hk']
    rfl

end Lane

end MergeQueue
