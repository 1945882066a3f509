import MergeQueue.Proofs.Json.Recover
import MergeQueue.Proofs.Timestamp.Text
import MergeQueue.Service.Reply
import MergeQueue.Snapshot

/-!
# Snapshots and replies are read back

The forms of changes, keys, results, snapshots and replies recover all their values; a snapshot only
if the time it was taken at reads back. A stored snapshot of the current version is then loaded as
it was, and each value that is sent is read back from its compact text.
-/
namespace MergeQueue

open Json Text

theorem ChangeId.recovers (i : ChangeId) : ChangeId.form.Recovers i :=
  (Form.recovers_text i.text).ofMap rfl

theorem IdSet.recovers (s : IdSet) : IdSet.form.Recovers s :=
  (Form.recovers_list fun i _ => ChangeId.recovers i).ofMap (IdSet.ofList_toList s)

theorem ChangeRecord.recovers_requiresMember (s : IdSet) :
    (Members.one requiresMember).Recovers s := by
  refine Members.recovers_one (fun _ => IdSet.recovers s) fun h => ?_
  exact congrArg some (IdSet.ext_toList (List.isEmpty_iff.1 h).symm)

theorem ChangeRecord.recovers (c : ChangeRecord) : ChangeRecord.form.Recovers c := by
  refine Form.Recovers.ofMap (Members.Recovers.form ?_) rfl
  refine (Members.recovers_required (ChangeId.recovers c.id)).cons
    (recovers_requiresMember c.requires) ?_
  simp [Members.one, Member.required, requiresMember]

theorem Plain.recovers {α : Type} {f : Form α} (hf : ∀ a, f.Recovers a) (c : Plain α) :
    (Plain.form f).Recovers c := (hf c.value).ofMap rfl

theorem TestKey.recovers (k : TestKey) : TestKey.form.Recovers k :=
  (Form.recovers_word64 k.number).ofMap rfl

theorem TestKey.recovers_member (name : String) (k : Option TestKey) :
    (Members.one (TestKey.member name)).Recovers k :=
  Members.recovers_one (fun _ => Form.recovers_option (fun k _ => TestKey.recovers k) nofun) nofun

theorem Timestamp.recovers_of_read {t : Timestamp} (h : Timestamp.read t.text = some t) :
    Timestamp.form.Recovers t := by
  refine (Form.recovers_text _).ofPartial ?_
  rwa [String.toList_ofList]

theorem Timestamp.recovers {t : Timestamp} (h : t.IsValid) : Timestamp.form.Recovers t :=
  recovers_of_read (Timestamp.read_text h)

namespace Snapshot

variable {C I : Type} {f : Form C}

theorem recovers (hf : ∀ c, f.Recovers c) {s : Snapshot C}
    (ht : Timestamp.form.Recovers s.takenAt) : (form f).Recovers s := by
  refine Form.Recovers.ofMap (Members.Recovers.form ?_) rfl
  refine (Members.recovers_required (Form.recovers_word32 _)).cons ?_ ?_
  refine (Members.recovers_required ht).cons ?_ ?_
  have hlist := Form.recovers_every_list hf
  refine (Members.recovers_required (Form.recovers_every_list hlist _)).cons ?_ ?_
  refine (TestKey.recovers_member _ _).cons ?_ ?_
  refine (Members.recovers_required (Form.recovers_word64 _)).cons ?_ ?_
  refine Members.recovers_one (fun _ => hlist _) nofun
  all_goals simp [Members.one, Members.and, Member.required, TestKey.member, awaitingMember]

/-- A stored snapshot is loaded as it was if it is of the current version, and otherwise refused
for its version. -/
theorem load_text (hf : ∀ c, f.Recovers c) {s : Snapshot C}
    (ht : Timestamp.form.Recovers s.takenAt) :
    (load f (.text (Symbol.ofString (s.text f))) : Except (LoadFault C I) (Option (Snapshot C))) =
      if s.version = currentVersion then .ok (some s) else .error (.otherVersion s.version) := by
  rw [load, ofText, text, (recovers hf ht).parse_wideText]
  dsimp only
  split <;> rfl

def reload (f : Form C) (s : Snapshot C) : Except (LoadFault C I) (Option (Snapshot C)) :=
  load f (.text (Symbol.ofBytes (s.text f).toUTF8))

end Snapshot

section Results

variable {C : Type} {f : Form C}

theorem Dispatch.recovers (hf : ∀ c, f.Recovers c) (d : Dispatch C) :
    (Dispatch.form f).Recovers d := by
  refine Form.Recovers.ofMap (Members.recovers_required_pair ?_ ?_ (by decide)) rfl
  · exact TestKey.recovers d.key
  · exact Form.recovers_every_list hf d.changes

theorem Outcome.recovers (hf : ∀ c, f.Recovers c) (o : Outcome C) :
    (Outcome.form f).Recovers o := by
  refine Form.Recovers.ofMap (Members.recovers_required_pair ?_ ?_ (by decide)) rfl
  · exact Form.recovers_every_list hf o.passed
  · exact Form.recovers_every_list hf o.failed

theorem Admission.recovers (hf : ∀ c, f.Recovers c) (a : Admission C) :
    (Admission.form f).Recovers a := by
  refine Form.Recovers.ofMap (Members.recovers_required_pair ?_ ?_ (by decide)) rfl
  · exact Form.recovers_every_list hf a.added
  · exact Form.recovers_every_list hf a.rejected

end Results

theorem NextTest.recovers (n : NextTest) : NextTest.form.Recovers n := by
  refine Form.Recovers.ofMap (Members.Recovers.form ?_) rfl
  refine (TestKey.recovers_member _ _).cons
    (Members.recovers_required (Form.recovers_every_list ChangeRecord.recovers _)) ?_
  simp [Members.one, Member.required, TestKey.member]

theorem WaitingStatus.recovers (w : WaitingStatus) : WaitingStatus.form.Recovers w := by
  refine Form.Recovers.ofMap (Members.recovers_required_pair ?_ ?_ (by decide)) rfl
  · exact ChangeRecord.recovers w.change
  · exact IdSet.recovers w.missing

theorem QueueStatus.recovers (q : QueueStatus) : QueueStatus.form.Recovers q := by
  refine Form.Recovers.ofMap (Members.Recovers.form ?_) rfl
  refine (TestKey.recovers_member _ _).cons ?_ ?_
  have hlist := Form.recovers_every_list ChangeRecord.recovers
  refine (Members.recovers_required (Form.recovers_every_list hlist _)).cons ?_ ?_
  refine Members.recovers_required (Form.recovers_every_list WaitingStatus.recovers _)
  all_goals simp [Members.one, Members.and, Member.required, TestKey.member]

/-- The forms that the changes of a queue are stored and sent in. -/
inductive ChangeForm : {C : Type} → Form C → Prop
  | record : ChangeForm ChangeRecord.form
  | number : ChangeForm (Plain.form Form.int64)
  | text : ChangeForm (Plain.form Form.text)

theorem ChangeForm.recovers {C : Type} {f : Form C} (hf : ChangeForm f) (c : C) :
    f.Recovers c := by
  cases hf with
  | record => exact ChangeRecord.recovers c
  | number => exact Plain.recovers Form.recovers_int64 c
  | text => exact Plain.recovers Form.recovers_text c

/-- A stored snapshot is loaded as it was, or refused for its version, and everything that is sent
is read back. -/
theorem forms_read_back {C I : Type} {f : Form C} (hf : ChangeForm f) :
    (∀ s : Snapshot C, Timestamp.read s.takenAt.text = some s.takenAt →
      (s.reload f : Except (LoadFault C I) _) =
        if s.version = Snapshot.currentVersion then .ok (some s)
        else .error (.otherVersion s.version)) ∧
      f.ReadsBack ∧ (Dispatch.form f).ReadsBack ∧ (Outcome.form f).ReadsBack ∧
      (Admission.form f).ReadsBack ∧ NextTest.form.ReadsBack ∧ QueueStatus.form.ReadsBack := by
  refine ⟨fun s htime => ?_, ?_⟩
  · rw [Snapshot.reload, Symbol.ofBytes_toUTF8]
    exact Snapshot.load_text hf.recovers (Timestamp.recovers_of_read htime)
  · refine ⟨?_, ?_, ?_, ?_, ?_, ?_⟩ <;> apply Form.readsBack_of_recovers
    · exact hf.recovers
    · exact Dispatch.recovers hf.recovers
    · exact Outcome.recovers hf.recovers
    · exact Admission.recovers hf.recovers
    · exact NextTest.recovers
    · exact QueueStatus.recovers

/-- The highest key and counter, an empty and a nested list, a set of two, characters that are
written in other ways than as themselves, and a leap second. -/
def strange : Snapshot ChangeRecord where
  version := Snapshot.currentVersion
  takenAt := ⟨1483228799, 1500000000⟩
  batches := [[], [⟨⟨"\x00\t\"\\/\x7f"⟩, ∅⟩, ⟨⟨"é😀"⟩, .ofList [⟨"b"⟩, ⟨""⟩, ⟨"b"⟩]⟩]]
  outstanding := some ⟨18446744073709551615⟩
  nextKey := 18446744073709551615
  awaiting := [⟨⟨"\n\r"⟩, .ofList [⟨"z"⟩]⟩]

/-- It is loaded again, but not from another version. -/
theorem strange_reads_back :
    (strange.reload ChangeRecord.form : Except (LoadFault ChangeRecord ChangeId) _) =
        .ok (some strange) ∧
      ({ strange with version := 2 }.reload ChangeRecord.form :
        Except (LoadFault ChangeRecord ChangeId) _) = .error (.otherVersion 2) := by
  have htime : Timestamp.read strange.takenAt.text = some strange.takenAt :=
    Timestamp.read_text ⟨by decide, by decide, by decide⟩
  have h := (forms_read_back (I := ChangeId) .record).1
  exact ⟨h strange htime, h { strange with version := 2 } htime⟩

end MergeQueue
