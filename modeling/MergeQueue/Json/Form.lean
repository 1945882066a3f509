import MergeQueue.Json.Token
import MergeQueue.Json.Lexer
import MergeQueue.Json.Reader

/-!
# JSON forms

A form of a type says how its values are written and how they are read.
-/
namespace MergeQueue.Json

open Text

/-- How the values of a type are written and read. -/
structure Form (α : Type) where
  write : α → List Token
  read : Reader α

namespace Form

variable {α β : Type}

def text : Form String := ⟨fun s => [.string (some s)], readString⟩

def integer (value : α → Int) (accept : Int → Option α) : Form α :=
  ⟨fun a => [.number (.integer (value a))], readInteger accept⟩

def word64 : Form UInt64 :=
  integer (fun n => n.toNat) fun i =>
    if 0 ≤ i ∧ i < UInt64.size then some (UInt64.ofNat i.toNat) else none

def word32 : Form UInt32 :=
  integer (fun n => n.toNat) fun i =>
    if 0 ≤ i ∧ i < UInt32.size then some (UInt32.ofNat i.toNat) else none

def int64 : Form Int64 :=
  integer Int64.toInt fun i =>
    if Int64.minValue.toInt ≤ i ∧ i ≤ Int64.maxValue.toInt then some (Int64.ofInt i) else none

/-- The values of `α` in the form of `β`; not every value of `β` need have a counterpart. -/
def ofPartial (view : α → β) (back : β → Option α) (f : Form β) : Form α where
  write a := f.write (view a)
  read ts :=
    match f.read ts with
    | .error e => .error e
    | .ok (b, ts) =>
      match back b with
      | some a => .ok (a, ts)
      | none => .error .mismatched

def ofMap (view : α → β) (back : β → α) (f : Form β) : Form α :=
  ofPartial view (fun b => some (back b)) f

def option (f : Form α) : Form (Option α) where
  write
    | none => [.null]
    | some a => f.write a
  read := readOption f.read

def separated : List (List Token) → List Token
  | [] => []
  | [x] => x
  | x :: y :: xs => x ++ .comma :: separated (y :: xs)

def list (f : Form α) : Form (List α) where
  write as := .openList :: separated (as.map f.write) ++ [.closeList]
  read := readList f.read

/-- Reads a whole text. Nothing may follow the value. -/
def parse (f : Form α) (s : List Symbol) : Except Fault α :=
  match f.read (tokens s) with
  | .error e => .error e
  | .ok (a, []) => .ok a
  | .ok (_, _ :: _) => .error .malformed

def compactText (f : Form α) (a : α) : String := String.ofList (compact (f.write a))

def wideText (f : Form α) (a : α) : String := String.ofList (wide (f.write a))

end Form

/-!
## Forms with named members

A value with named members is written as an object, its members in a fixed order. It is read from
an object with its members in any order, or from a list of their values in the fixed order. Names
that are no member's are skipped with their values. A member that stands twice, or is missing and
has no value to stand in for it, is a mismatch; this shows as soon as its name, or the end of the
object or list, is read.
-/

/-- One member: its name, the form of its value, what stands in for it when an object lacks it,
what stands in when a list ends before it, and when it is left out in writing. -/
structure Member (α : Type) where
  name : String
  form : Form α
  absent : Option α
  cutOff : Option α
  omits : α → Bool

namespace Member

variable {α : Type}

def required (name : String) (form : Form α) : Member α := ⟨name, form, none, none, fun _ => false⟩

/-- Reads the member as a place of a list, with the comma in front of it unless it is the first. -/
def readPlace (f : Member α) (first : Bool) : Reader α := fun ts =>
  match ts with
  | .closeList :: _ =>
    match f.cutOff with
    | some a => .ok (a, ts)
    | none => .error .mismatched
  | _ =>
    if first then f.form.read ts
    else
      match ts with
      | .comma :: ts => f.form.read ts
      | _ => .error .malformed

end Member

/-- What a name in an object is to a reader who has read some members: no member's, that of a
member read before, or that of a member to read now. -/
inductive Claim (P : Type)
  | unknown
  | repeated
  | member (read : Reader P)

/-- A row of members. `P` holds the members read so far, `α` all of them. -/
structure Members (P α : Type) where
  start : P
  claim : P → String → Claim P
  finish : P → Except Fault α
  readPlaces : Bool → Reader α
  write : α → List (String × List Token)

namespace Members

variable {P Q α β : Type}

def one (f : Member α) : Members (Option α) α where
  start := none
  claim got name :=
    if name = f.name then
      match got with
      | some _ => .repeated
      | none => .member fun ts =>
        match f.form.read ts with
        | .error e => .error e
        | .ok (a, ts) => .ok (some a, ts)
    else .unknown
  finish got :=
    match got, f.absent with
    | some a, _ => .ok a
    | none, some a => .ok a
    | none, none => .error .mismatched
  readPlaces := f.readPlace
  write a := if f.omits a then [] else [(f.name, f.form.write a)]

def updating (read : Reader P) (put : P → Q) : Reader Q := fun ts =>
  match read ts with
  | .error e => .error e
  | .ok (p, ts) => .ok (put p, ts)

/-- One row of members, and another behind it. -/
def and (f : Members P α) (g : Members Q β) : Members (P × Q) (α × β) where
  start := (f.start, g.start)
  claim got name :=
    match f.claim got.1 name with
    | .repeated => .repeated
    | .member read => .member (updating read fun p => (p, got.2))
    | .unknown =>
      match g.claim got.2 name with
      | .repeated => .repeated
      | .member read => .member (updating read fun q => (got.1, q))
      | .unknown => .unknown
  finish got :=
    match f.finish got.1, g.finish got.2 with
    | .ok a, .ok b => .ok (a, b)
    | .error e, _ => .error e
    | _, .error e => .error e
  readPlaces first ts :=
    match f.readPlaces first ts with
    | .error e => .error e
    | .ok (a, ts) =>
      match g.readPlaces false ts with
      | .error e => .error e
      | .ok (b, ts) => .ok ((a, b), ts)
  write ab := f.write ab.1 ++ g.write ab.2

/-- Reads the members of an object up to its end, the name of the first standing in front. -/
def readObject (f : Members P α) : Nat → P → Reader α
  | 0, _, _ => .error .malformed
  | fuel + 1, got, .string (some name) :: ts =>
    let read : Except Fault (P × List Token) :=
      match f.claim got name, ts with
      | .repeated, _ => .error .mismatched
      | .member read, .colon :: ts => read ts
      | .unknown, .colon :: ts => (skipValue ts).map fun ts => (got, ts)
      | _, _ => .error .malformed
    match read with
    | .error e => .error e
    | .ok (got, .comma :: ts) => f.readObject fuel got ts
    | .ok (got, .closeObject :: ts) => (f.finish got).map fun a => (a, ts)
    | .ok _ => .error .malformed
  | _ + 1, _, _ => .error .malformed

def read (f : Members P α) : Reader α
  | .openObject :: .closeObject :: ts => (f.finish f.start).map fun a => (a, ts)
  | .openObject :: ts => f.readObject ts.length f.start ts
  | .openList :: ts =>
    match f.readPlaces true ts with
    | .error e => .error e
    | .ok (a, .closeList :: ts) => .ok (a, ts)
    | .ok _ => .error .malformed
  | ts => .error (unexpected ts)

def form (f : Members P α) : Form α where
  write a :=
    .openObject ::
      Form.separated ((f.write a).map fun m => .string (some m.1) :: .colon :: m.2) ++
      [.closeObject]
  read := f.read

end Members

end MergeQueue.Json
