import MergeQueue.Change
import MergeQueue.Json.Form
import MergeQueue.Report

/-!
# JSON forms of changes, keys and results

An identity is a string, a set of identities a list in increasing order, and a submitted change an
object of both, without its requirements if it has none. A plain change has the form of its value.
Keys are numbers, and results objects of lists.
-/
namespace MergeQueue

open Json

def ChangeId.form : Form ChangeId := .ofMap ChangeId.text ChangeId.mk .text

def IdSet.form : Form IdSet := .ofMap IdSet.toList IdSet.ofList (.list ChangeId.form)

namespace ChangeRecord

/-- The requirements may be left out when there are none. -/
def requiresMember : Member IdSet where
  name := "requires"
  form := IdSet.form
  absent := some ∅
  cutOff := some ∅
  omits s := s.toList.isEmpty

def members : Members (Option ChangeId × Option IdSet) (ChangeId × IdSet) :=
  (Members.one (.required "id" ChangeId.form)).and (.one requiresMember)

def form : Form ChangeRecord :=
  .ofMap (fun c => (c.id, c.requires)) (fun p => ⟨p.1, p.2⟩) members.form

end ChangeRecord

def Plain.form {α : Type} (f : Form α) : Form (Plain α) := .ofMap Plain.value Plain.mk f

variable {C : Type}

def TestKey.form : Form TestKey := .ofMap TestKey.number TestKey.mk .word64

/-- The key of a test, or null. An object may lack it, a list may not. -/
def TestKey.member (name : String) : Member (Option TestKey) where
  name := name
  form := .option TestKey.form
  absent := some none
  cutOff := none
  omits _ := false

def Dispatch.form (f : Form C) : Form (Dispatch C) :=
  .ofMap (fun d => (d.key, d.changes)) (fun p => ⟨p.1, p.2⟩)
    ((Members.one (.required "key" TestKey.form)).and
      (.one (.required "changes" (.list f)))).form

def Outcome.form (f : Form C) : Form (Outcome C) :=
  .ofMap (fun o => (o.passed, o.failed)) (fun p => ⟨p.1, p.2⟩)
    ((Members.one (.required "passed" (.list f))).and
      (.one (.required "failed" (.list f)))).form

def Admission.form (f : Form C) : Form (Admission C) :=
  .ofMap (fun a => (a.added, a.rejected)) (fun p => ⟨p.1, p.2⟩)
    ((Members.one (.required "added" (.list f))).and
      (.one (.required "rejected" (.list f)))).form

end MergeQueue
