import MergeQueue.Proofs.Lane.UnderTest
import MergeQueue.Proofs.Requirement.InOrder
import MergeQueue.Queue

/-!
# What settling does to the candidates

Every candidate is admitted or left over, and none appears twice. The admitted ones come in the
order of their requirements and join the end of the lane; those left over join the end of the
waiting changes. A batch under test is not touched.
-/
namespace MergeQueue.Queue

open Lane

variable {C I : Type} [Change C I] [DecidableEq I]

theorem perm_admitPass (visible : List I) (cs : List C) :
    ((admitPass visible cs).1 ++ (admitPass visible cs).2).Perm cs := by
  induction cs generalizing visible with
  | nil => exact .nil
  | cons c cs ih =>
    rw [admitPass]
    split
    · exact (ih (ident c :: visible)).cons c
    · exact List.perm_middle.trans ((ih visible).cons c)

theorem inOrder_admitPass (visible : List I) (cs : List C) :
    InOrder (· ∈ visible) (admitPass visible cs).1 := by
  induction cs generalizing visible with
  | nil => trivial
  | cons c cs ih =>
    rw [admitPass]
    split
    · rename_i h
      constructor
      · intro i hi
        simpa using List.all_eq_true.1 h i hi
      · exact (ih (ident c :: visible)).mono fun i hi => (List.mem_cons.1 hi).symm
    · exact ih visible

/-- Passes admit a candidate sooner or later, or leave it over. -/
theorem perm_admitAll (visible : List I) (cs : List C) :
    ((admitAll visible cs).1 ++ (admitAll visible cs).2).Perm cs := by
  fun_induction admitAll visible cs with
  | case1 visible cs blocked h =>
    have := perm_admitPass visible cs
    rwa [h] at this
  | case2 visible cs c admitted blocked h later left hrec ih =>
    have hpass := perm_admitPass visible cs
    rw [h] at hpass
    rw [hrec] at ih
    rw [List.append_assoc]
    exact (ih.append_left _).trans hpass

theorem inOrder_admitAll (visible : List I) (cs : List C) :
    InOrder (· ∈ visible) (admitAll visible cs).1 := by
  fun_induction admitAll visible cs with
  | case1 visible cs blocked h => trivial
  | case2 visible cs c admitted blocked h later left hrec ih =>
    have hpass := inOrder_admitPass visible cs
    rw [h] at hpass
    rw [hrec] at ih
    apply inOrder_append.2 ⟨hpass, ih.mono _⟩
    intro i hi
    exact (List.mem_append.1 hi).symm

theorem sublist_admitPass (visible : List I) (cs : List C) :
    (admitPass visible cs).2.Sublist cs := by
  induction cs generalizing visible with
  | nil => exact .slnil
  | cons c cs ih =>
    rw [admitPass]
    split
    · exact (ih _).cons c
    · exact (ih visible).cons_cons c

theorem sublist_admitAll (visible : List I) (cs : List C) :
    (admitAll visible cs).2.Sublist cs := by
  fun_induction admitAll visible cs with
  | case1 visible cs blocked h =>
    have := sublist_admitPass visible cs
    rwa [h] at this
  | case2 visible cs c admitted blocked h later left hrec ih =>
    have hpass := sublist_admitPass visible cs
    rw [h] at hpass
    rw [hrec] at ih
    exact ih.trans hpass

/-- The changes have identities of their own, and none of them stands in the lane. -/
structure NewTo (l : Lane C) (cs : List C) : Prop where
  distinct : (cs.map ident).Nodup
  not_in_lane : ∀ c ∈ cs, ident c ∉ l.changes.map ident

namespace NewTo

omit [DecidableEq I]

variable {l : Lane C} {cs ds : List C}

theorem of_nodup (h : ((l.changes ++ cs).map ident).Nodup) : NewTo l cs := by
  rw [List.map_append] at h
  obtain ⟨-, hcs, hdisj⟩ := List.nodup_append'.1 h
  exact ⟨hcs, fun c hc hlane => hdisj hlane (List.mem_map_of_mem hc)⟩

theorem perm (h : NewTo l cs) (hperm : ds.Perm cs) : NewTo l ds :=
  ⟨(hperm.map ident).nodup_iff.2 h.distinct, fun c hc => h.not_in_lane c (hperm.subset hc)⟩

theorem sublist (h : NewTo l cs) (hsub : ds.Sublist cs) : NewTo l ds :=
  ⟨h.distinct.sublist (hsub.map ident), fun c hc => h.not_in_lane c (hsub.subset hc)⟩

theorem nodup (h : NewTo l cs) : cs.Nodup := h.distinct.of_map ident

theorem not_mem (h : NewTo l cs) : ∀ c ∈ cs, c ∉ l.changes :=
  fun c hc hlane => h.not_in_lane c hc (List.mem_map_of_mem hlane)

end NewTo

def leftOver (cs : List C) (q : Queue C I) : List C :=
  (admitAll (q.lane.changes.map ident) cs).2

theorem sublist_leftOver (cs : List C) (q : Queue C I) : (q.leftOver cs).Sublist cs :=
  sublist_admitAll _ cs

variable [DecidableEq C]

theorem perm_settle (cs : List C) (q : Queue C I) :
    ((q.settle cs).1 ++ q.leftOver cs).Perm cs := perm_admitAll _ cs

theorem inOrder_settle (cs : List C) (q : Queue C I) :
    InOrder (· ∈ q.lane.changes.map ident) (q.settle cs).1 := inOrder_admitAll _ cs

@[simp] theorem awaiting_settle (cs : List C) (q : Queue C I) :
    (q.settle cs).2.awaiting = q.awaiting ++ q.leftOver cs := by
  change (q.waiting ++ List.map (park _) (q.leftOver cs)).map Waiting.change = _
  rw [List.map_append, List.map_map]
  congr 1
  exact List.map_id _

theorem NewTo.admitted {cs : List C} {q : Queue C I} (h : NewTo q.lane cs) :
    NewTo q.lane (q.settle cs).1 :=
  (h.perm (perm_settle cs q)).sublist (List.sublist_append_left _ _)

/-- The admitted candidates join the end of the lane. -/
theorem changes_settle {cs : List C} {q : Queue C I} (h : NewTo q.lane cs) :
    (q.settle cs).2.lane.changes = q.lane.changes ++ (q.settle cs).1 :=
  -- A candidate equal to a change in the lane would be reported as added and not join it.
  changes_enqueueAll h.admitted.nodup h.admitted.not_mem

/-- No candidate is lost or doubled. -/
theorem perm_pool_settle {cs : List C} {q : Queue C I} (h : NewTo q.lane cs) :
    (q.settle cs).2.pool.Perm (q.pool ++ cs) := by
  rw [pool, pool, changes_settle h, awaiting_settle]
  have hcs := ((perm_settle cs q).append_left q.awaiting).append_left q.lane.changes
  simp only [List.append_assoc]
  exact ((List.perm_append_comm_assoc _ _ _).append_left _).trans hcs

theorem perm_pool_ofParts {lane : Lane C} {awaiting : List C}
    (h : ((lane.changes ++ awaiting).map ident).Nodup) :
    (settle awaiting ⟨lane, []⟩).2.pool.Perm (lane.changes ++ awaiting) := by
  have hpool := perm_pool_settle (q := ⟨lane, []⟩) (.of_nodup h)
  rwa [show (⟨lane, []⟩ : Queue C I).pool = lane.changes from List.append_nil _] at hpool

end MergeQueue.Queue
