import MergeQueue.Change

/-!
# Requirements

Which identities require which, among the changes of a pool: directly, if a change of the pool
names the other, and transitively, by a chain of one or more such steps. What is available is the
least set that holds what is present and every change of the pool all of whose requirements are in
the set. A pool is acyclic if no change of it requires itself.
-/
namespace MergeQueue

variable {C I : Type} [Change C I]

/-- A change of the pool with identity `i` requires `j`. -/
def RequiresDirectly (pool : List C) (i j : I) : Prop :=
  ∃ c ∈ pool, ident c = i ∧ j ∈ requires c

/-- A chain of direct requirements leads from `i` to `j`. -/
def Requires (pool : List C) : I → I → Prop := Relation.TransGen (RequiresDirectly pool)

/-- No change of the pool requires its own identity. -/
def Acyclic (pool : List C) : Prop := ∀ c ∈ pool, ¬Requires pool (ident c) (ident c)

/-- Present from the start, or brought in by a change of the pool that requires only what is
available. -/
inductive Available (pool : List C) (present : I → Prop) : I → Prop
  | present {i : I} (h : present i) : Available pool present i
  | admitted {c : C} (mem : c ∈ pool) (met : ∀ i ∈ requires c, Available pool present i) :
      Available pool present (ident c)

theorem Requires.exists_mem {pool : List C} {i j : I} (h : Requires pool i j) :
    ∃ c ∈ pool, ident c = i := by
  induction h with
  | single h => exact ⟨h.choose, h.choose_spec.1, h.choose_spec.2.1⟩
  | tail _ _ ih => exact ih

/-!
## Dependants

Who requires whom, read backwards: for every identity that some change of a pool requires, the
identities of the changes that require it. The closure of a root holds all that require it,
directly or through others; the root itself is in it only if it lies on a cycle.
-/

/-- For required identities, the identities of the changes that require them. -/
structure RequiredBy (I : Type) where
  entries : List (I × List I)
deriving DecidableEq, Repr

namespace RequiredBy

variable [DecidableEq I]

def empty : RequiredBy I := ⟨[]⟩

def noteEntry (required dependant : I) : List (I × List I) → List (I × List I)
  | [] => [(required, [dependant])]
  | (i, ds) :: es =>
    if i = required then (i, if dependant ∈ ds then ds else ds ++ [dependant]) :: es
    else (i, ds) :: noteEntry required dependant es

def note (r : RequiredBy I) (required dependant : I) : RequiredBy I :=
  ⟨noteEntry required dependant r.entries⟩

def noteChange (r : RequiredBy I) (c : C) : RequiredBy I :=
  (requires c).foldl (fun r i => r.note i (ident c)) r

def ofPool (pool : List C) : RequiredBy I := pool.foldl noteChange empty

/-- The dependants in the first entry of an identity. -/
def entryOf (i : I) : List (I × List I) → List I
  | [] => []
  | (j, ds) :: es => if j = i then ds else entryOf i es

def dependants (r : RequiredBy I) (i : I) : List I := entryOf i r.entries

theorem mem_entryOf_noteEntry {required dependant i d : I} {es : List (I × List I)} :
    d ∈ entryOf i (noteEntry required dependant es) ↔
      d ∈ entryOf i es ∨ required = i ∧ d = dependant := by
  induction es with
  | nil => by_cases hi : required = i <;> simp [noteEntry, entryOf, hi]
  | cons e es ih =>
    rcases e with ⟨j, ds⟩
    rw [noteEntry]
    by_cases hj : j = required
    · subst hj
      by_cases hi : j = i
      · by_cases hd : dependant ∈ ds
        · simp only [entryOf, hi, hd, if_true, true_and]
          exact ⟨.inl, fun h => h.elim id fun h => h ▸ hd⟩
        · simp [entryOf, hi, hd]
      · simp [entryOf, hi]
    · by_cases hi : j = i
      · subst hi
        simp [entryOf, hj, Ne.symm hj]
      · simpa [entryOf, hj, hi] using ih

theorem mem_dependants_note {r : RequiredBy I} {required dependant i d : I} :
    d ∈ (r.note required dependant).dependants i ↔
      d ∈ r.dependants i ∨ required = i ∧ d = dependant := mem_entryOf_noteEntry

theorem mem_dependants_noteChange {r : RequiredBy I} {c : C} {i d : I} :
    d ∈ (r.noteChange c).dependants i ↔ d ∈ r.dependants i ∨ i ∈ requires c ∧ d = ident c := by
  unfold noteChange
  induction requires c generalizing r with
  | nil => simp
  | cons j js ih =>
    rw [List.foldl_cons, ih, mem_dependants_note, List.mem_cons]
    grind

/-- The dependants of an identity are those of the pool that require it. -/
theorem mem_dependants_ofPool {pool : List C} {i d : I} :
    d ∈ (ofPool pool).dependants i ↔ ∃ c ∈ pool, i ∈ requires c ∧ d = ident c := by
  have h : ∀ r : RequiredBy I, d ∈ (pool.foldl noteChange r).dependants i ↔
      d ∈ r.dependants i ∨ ∃ c ∈ pool, i ∈ requires c ∧ d = ident c := by
    induction pool with
    | nil => simp
    | cons c pool ih =>
      intro r
      rw [List.foldl_cons, ih, mem_dependants_noteChange]
      simp only [List.mem_cons, exists_eq_or_imp, or_assoc]
  rw [ofPool, h]
  exact or_iff_right List.not_mem_nil

/-- How many dependants are still to come when the entries of `found` were looked up. -/
def openEdges (found : List I) : List (I × List I) → Nat
  | [] => 0
  | (i, ds) :: es => (if i ∈ found then 0 else ds.length) + openEdges found es

theorem openEdges_cons_le (i : I) (found : List I) (es : List (I × List I)) :
    openEdges (i :: found) es ≤ openEdges found es := by
  induction es with
  | nil => simp [openEdges]
  | cons e es ih =>
    rw [openEdges, openEdges]
    by_cases h : e.1 ∈ found
    · simp [h, ih]
    · by_cases hi : e.1 = i <;> simp [h, hi] <;> omega

/-- Looking up an identity for the first time leaves its dependants no longer open. -/
theorem openEdges_entryOf {i : I} {found : List I} (h : i ∉ found) (es : List (I × List I)) :
    (entryOf i es).length + openEdges (i :: found) es ≤ openEdges found es := by
  induction es with
  | nil => simp [openEdges, entryOf]
  | cons e es ih =>
    rcases e with ⟨j, ds⟩
    rw [openEdges, openEdges, entryOf]
    by_cases hj : j = i
    · subst hj
      have := openEdges_cons_le j found es
      simp [h]
      omega
    · have hm : j ∈ i :: found ↔ j ∈ found := by simp [hj]
      simp only [hj, if_false, hm]
      omega

/-- Goes on from the identities in `work`, leaving out those in `found`. -/
def closureFrom (r : RequiredBy I) (work found : List I) : List I :=
  match work with
  | [] => found
  | i :: work =>
    if i ∈ found then r.closureFrom work found
    else r.closureFrom (r.dependants i ++ work) (i :: found)
termination_by work.length + openEdges found r.entries
decreasing_by
  · simp
  · have := openEdges_entryOf ‹i ∉ found› r.entries
    simp only [dependants, List.length_append, List.length_cons]
    omega

/-- All that require `root`, directly or through others. -/
def closure (r : RequiredBy I) (root : I) : List I := r.closureFrom (r.dependants root) []

end RequiredBy

end MergeQueue
