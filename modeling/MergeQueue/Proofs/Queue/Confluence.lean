import MergeQueue.Proofs.Queue.Cycles
import MergeQueue.Proofs.Queue.Missing
import MergeQueue.Proofs.Requirement.Available

/-!
# The order of submissions does not matter

Changes without a cycle among them are submitted one after another. None of them is turned away,
whatever the order. The lane ends up with the changes that are available, each behind all that it
requires, and what waits misses the same; only the order in the lane and among those that wait
depends on the order of the submissions.
-/
namespace MergeQueue.Queue

open scoped List

variable {C I : Type} [Change C I] [DecidableEq I]

/-- The changes were submitted, and none was turned away. All are live, the lane holds what was
admitted, in order, and what waits is parked as the lane stands. -/
structure Gathered (cs : List C) (steps : List (Step C I)) (q : Queue C I) : Prop extends
    Parked q where
  live : q.pool.Perm cs
  kept : ∀ s ∈ steps, s.rejected = []
  admitted : q.lane.changes = steps.flatMap Step.added
  ordered : InOrder (fun _ => False) q.lane.changes
  shown : q.ParkedAfresh

theorem gathered_empty : Gathered [] [] (.empty : Queue C I) where
  toParked := parked_empty
  live := .nil
  kept := nofun
  admitted := rfl
  ordered := trivial
  shown := nofun

namespace Gathered

variable {cs : List C} {steps : List (Step C I)} {q : Queue C I}

theorem nodup (h : Gathered cs steps q) : (cs.map ident).Nodup :=
  (h.live.map ident).nodup_iff.1 h.distinct

/-- The lane holds the changes that are available. -/
theorem mem_lane_iff (h : Gathered cs steps q) {c : C} :
    c ∈ q.lane.changes ↔ c ∈ cs ∧ Available cs (fun _ => False) (ident c) := by
  apply mem_admitted_iff h.live h.nodup (fun _ _ => not_false) h.ordered
  intro d hd
  obtain ⟨i, hi, hmiss⟩ := h.misses d hd
  exact ⟨i, hi, not_false, hmiss⟩

/-- What the lane holds entered it once. -/
theorem countP_added (h : Gathered cs steps q) [DecidableEq C] :
    ∀ c ∈ q.lane.changes, steps.countP (c ∈ ·.added) = 1 := by
  have hnd : q.lane.changes.Nodup := (h.distinct.of_map ident).of_append_left
  rw [h.admitted] at hnd ⊢
  intro c hc
  clear h
  induction steps with
  | nil => cases hc
  | cons s steps ih =>
    rw [List.flatMap_cons] at hnd hc
    obtain ⟨-, hrest, hdisj⟩ := List.nodup_append'.1 hnd
    rw [List.countP_cons]
    by_cases hs : c ∈ s.added
    · have hnone : steps.countP (c ∈ ·.added) = 0 := by
        rw [List.countP_eq_zero]
        intro t ht hct
        exact hdisj hs (List.mem_flatMap.2 ⟨t, ht, of_decide_eq_true hct⟩)
      rw [hnone, if_pos (decide_eq_true hs)]
    · rw [ih hrest ((List.mem_append.1 hc).resolve_left hs), if_neg (by simpa using hs)]

theorem of_perm {ds : List C} (h : Gathered ds steps q) (hperm : ds.Perm cs) :
    Gathered cs steps q := { h with live := h.live.trans hperm }

section Orders

variable {steps' : List (Step C I)} {q' : Queue C I} (h : Gathered cs steps q)
  (h' : Gathered cs steps' q')
include h h'

theorem perm_lane : q.lane.changes.Perm q'.lane.changes := by
  have hnd : q.lane.changes.Nodup := (h.distinct.of_map ident).of_append_left
  have hnd' : q'.lane.changes.Nodup := (h'.distinct.of_map ident).of_append_left
  rw [List.perm_ext_iff_of_nodup hnd hnd']
  intro c
  rw [h.mem_lane_iff, h'.mem_lane_iff]

theorem perm_waiting : q.waiting.Perm q'.waiting := by
  have hlane := h.perm_lane h'
  have hawaiting : q.awaiting.Perm q'.awaiting := by
    rw [← List.perm_append_left_iff q.lane.changes]
    calc q.lane.changes ++ q.awaiting
        ~ cs := h.live
      _ ~ q'.lane.changes ++ q'.awaiting := h'.live.symm
      _ ~ q.lane.changes ++ q'.awaiting := hlane.symm.append_right _
  have hpark : park (C := C) (q.lane.changes.map ident) = park (q'.lane.changes.map ident) := by
    funext c
    exact park_congr fun i _ => (hlane.map ident).mem_iff
  rw [h.shown.waiting_eq, h'.shown.waiting_eq, hpark]
  exact hawaiting.map _

end Orders

variable [DecidableEq C]

theorem submit_eq (h : Gathered cs steps q) {c : C} (hnew : ident c ∉ cs.map ident)
    (hacyclic : Acyclic (cs ++ [c])) :
    ident c ∉ q.pool.map ident ∧ q.submit c =
      (⟨((q.displace (q.dependsOn c)).2.settle (c :: (q.displace (q.dependsOn c)).1)).1, []⟩,
        ((q.displace (q.dependsOn c)).2.settle (c :: (q.displace (q.dependsOn c)).1)).2) := by
  have hlive : ident c ∉ q.pool.map ident := fun hc => hnew ((h.live.map ident).subset hc)
  have hpool : Acyclic (q.pool ++ [c]) := hacyclic.mono (h.live.append_right [c]).subset
  exact ⟨hlive, submit_of_not_cycle hlive (mt mem_dependantsOf.1 hpool.not_requires)⟩

theorem submit (h : Gathered cs steps q) {c : C} (hnew : ident c ∉ cs.map ident)
    (hacyclic : Acyclic (cs ++ [c])) :
    Gathered (cs ++ [c]) (steps ++ [q.step (.submit c)]) (q.submit c).2 := by
  obtain ⟨hlive, hsub⟩ := h.submit_eq hnew hacyclic
  have hrejected : (q.submit c).1.rejected = [] := by rw [hsub]
  have hadded : (q.submit c).2.lane.changes = q.lane.changes ++ (q.submit c).1.added := by
    rw [hsub]
    exact changes_settle (newTo_candidates h.distinct hlive (q.dependsOn c))
  constructor
  case toParked => exact h.toParked.act (.submit c)
  case live =>
    have hconserves : ((q.submit c).2.pool ++ (q.submit c).1.rejected).Perm
        (q.pool ++ (q.step (.submit c)).accepted) := conserves_submit c h.distinct
    rw [hrejected, List.append_nil, accepted_of_not_holds hlive] at hconserves
    exact hconserves.trans (h.live.append_right [c])
  case kept =>
    intro s hs
    rcases List.mem_append.1 hs with hs | hs
    · exact h.kept s hs
    · rw [List.mem_singleton.1 hs]
      exact hrejected
  case admitted =>
    rw [hadded, List.flatMap_append, List.flatMap_singleton, h.admitted]
    rfl
  case ordered => exact inOrder_submit c h.ordered h.distinct
  case shown =>
    intro w hw
    rcases waiting_submit h.distinct c hw with hparked | ⟨hwaited, hstays⟩
    · exact hparked
    · rw [h.shown w hwaited]
      refine park_congr fun i hi => ?_
      simpa using hstays i hi

end Gathered

variable [DecidableEq C]

def submissions (cs : List C) : List (Step C I) := run .empty (cs.map .submit)

def afterSubmissions (cs : List C) : Queue C I := afterRun .empty (cs.map .submit)

theorem gathered_submissions {cs : List C} (hnd : (cs.map ident).Nodup) (hacyclic : Acyclic cs) :
    Gathered cs (submissions cs) (afterSubmissions cs : Queue C I) := by
  induction cs using List.reverseRecOn with
  | nil => exact gathered_empty
  | append_singleton cs c ih =>
    rw [List.map_append] at hnd
    obtain ⟨hcs, -, hnew⟩ := List.nodup_append'.1 hnd
    have hbefore := ih hcs (hacyclic.mono (List.subset_append_left cs [c]))
    rw [submissions, afterSubmissions, List.map_append, List.map_singleton, run_concat,
      afterRun_concat]
    exact hbefore.submit (List.disjoint_singleton.1 hnew) hacyclic

/-- Changes with identities of their own and without a cycle are submitted in any order. None is
turned away, and in every order the same changes enter the lane, the same changes wait, and they
miss the same. The lane holds the least set of changes that has every change all of whose
requirements it has; each of them was let in by one submission, and stands behind all that it
requires. -/
theorem submissions_confluent {cs ds : List C} (hperm : ds.Perm cs)
    (distinct : (cs.map ident).Nodup) (acyclic : Acyclic cs) :
    (∀ s ∈ (submissions ds : List (Step C I)), s.rejected = []) ∧
      (afterSubmissions ds : Queue C I).pool.Perm cs ∧
      (afterSubmissions ds : Queue C I).lane.changes.Perm (afterSubmissions cs).lane.changes ∧
      (afterSubmissions ds : Queue C I).waiting.Perm (afterSubmissions cs).waiting ∧
      (∀ c, c ∈ (afterSubmissions ds : Queue C I).lane.changes ↔
        c ∈ cs ∧ Available cs (fun _ => False) (ident c)) ∧
      (∀ c ∈ (afterSubmissions ds : Queue C I).lane.changes,
        (submissions ds : List (Step C I)).countP (c ∈ ·.added) = 1) ∧
      ∀ front c back, (afterSubmissions ds : Queue C I).lane.changes = front ++ c :: back →
        ∀ i ∈ requires c, i ∈ front.map ident := by
  have hcs := gathered_submissions distinct acyclic
  have hds : Gathered cs (submissions ds) (afterSubmissions ds : Queue C I) :=
    (gathered_submissions ((hperm.map ident).nodup_iff.2 distinct)
      (acyclic.mono hperm.subset)).of_perm hperm
  refine ⟨hds.kept, hds.live, hds.perm_lane hcs, hds.perm_waiting hcs, fun c => hds.mem_lane_iff,
    hds.countP_added, ?_⟩
  intro front c back hlane i hi
  have hord := hds.ordered
  rw [hlane] at hord
  exact (hord.of_requires hi).resolve_left not_false

/-- Two changes require a first one, a fourth requires both of them, and a fifth and a sixth wait
for one that does not come. -/
def diamond : List ChangeRecord :=
  [⟨⟨"a"⟩, .empty⟩, ⟨⟨"b"⟩, .ofList [⟨"a"⟩]⟩, ⟨⟨"c"⟩, .ofList [⟨"a"⟩]⟩,
    ⟨⟨"d"⟩, .ofList [⟨"b"⟩, ⟨"c"⟩]⟩, ⟨⟨"e"⟩, .ofList [⟨"z"⟩]⟩, ⟨⟨"f"⟩, .ofList [⟨"a"⟩, ⟨"e"⟩]⟩]

/-- The same changes, each submitted before what it requires. -/
def diamondBackwards : List ChangeRecord := diamond.reverse

theorem diamond_confluent :
    diamondBackwards.Perm diamond ∧ (diamond.map ident).Nodup ∧ Acyclic diamond ∧
      (afterSubmissions diamond).lane.changes.map (·.id.text) = ["a", "b", "c", "d"] ∧
      (afterSubmissions diamondBackwards).lane.changes.map (·.id.text) = ["a", "c", "b", "d"] ∧
      (afterSubmissions diamondBackwards).lane.changes.Perm
        (afterSubmissions diamond).lane.changes ∧
      (afterSubmissions diamondBackwards).waiting.Perm (afterSubmissions diamond).waiting := by
  have hperm : diamondBackwards.Perm diamond := List.reverse_perm diamond
  have hnd : (diamond.map ident).Nodup := by decide +kernel
  have hacyclic : Acyclic diamond := by decide +kernel
  obtain ⟨-, -, hlane, hwaiting, -⟩ := submissions_confluent hperm hnd hacyclic
  exact ⟨hperm, hnd, hacyclic, by decide +kernel, by decide +kernel, hlane, hwaiting⟩

end MergeQueue.Queue
