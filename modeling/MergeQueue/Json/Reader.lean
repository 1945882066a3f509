import MergeQueue.Json.Token

/-!
# Reading values from tokens

A reader takes a value from the front of a list of tokens and leaves the rest. It fails in one of
two ways: the text is no JSON up to where it was read, or a value is not what belongs there. Of
several faults the first in reading order counts.
-/
namespace MergeQueue.Json

inductive Fault
  | malformed
  | mismatched
deriving DecidableEq, Repr

/-- Takes a value from the front. -/
abbrev Reader (α : Type) := List Token → Except Fault (α × List Token)

/-- The fault of standing in front of these tokens where something else is expected. If they begin
with a value it is the wrong one; otherwise the text is at fault. -/
def unexpected : List Token → Fault
  | .openList :: _ => .mismatched
  | .openObject :: _ => .mismatched
  | .null :: _ => .mismatched
  | .bool _ :: _ => .mismatched
  | .number (.integer _) :: _ => .mismatched
  | .number .fraction :: _ => .mismatched
  | .string (some _) :: _ => .mismatched
  | _ => .malformed

def readString : Reader String
  | .string (some s) :: ts => .ok (s, ts)
  | ts => .error (unexpected ts)

def readInteger {α : Type} (accept : Int → Option α) : Reader α
  | .number (.integer n) :: ts =>
    match accept n with
    | some a => .ok (a, ts)
    | none => .error .mismatched
  | ts => .error (unexpected ts)

def readOption {α : Type} (read : Reader α) : Reader (Option α)
  | .null :: ts => .ok (none, ts)
  | ts =>
    match read ts with
    | .ok (a, ts) => .ok (some a, ts)
    | .error f => .error f

def readItems {α : Type} (read : Reader α) : Nat → Reader (List α)
  | 0, _ => .error .malformed
  | fuel + 1, ts =>
    match read ts with
    | .error f => .error f
    | .ok (a, .comma :: ts) =>
      match readItems read fuel ts with
      | .error f => .error f
      | .ok (as, ts) => .ok (a :: as, ts)
    | .ok (a, .closeList :: ts) => .ok ([a], ts)
    | .ok _ => .error .malformed

def readList {α : Type} (read : Reader α) : Reader (List α)
  | .openList :: .closeList :: ts => .ok ([], ts)
  | .openList :: ts => readItems read ts.length ts
  | ts => .error (unexpected ts)

inductive Expected
  | value
  | valueOrClose
  | key
  | keyOrClose
  | colon
  | next
deriving DecidableEq, Repr

/-- A place in a value that is skipped: the open brackets, innermost first, true for a list, and
what may come next. -/
structure Skip where
  enclosing : List Bool
  expected : Expected
deriving DecidableEq, Repr

namespace Skip

def start : Skip := ⟨[], .value⟩

def isDone (s : Skip) : Bool := s.enclosing.isEmpty && s.expected = .next

def value (enclosing : List Bool) : Token → Option Skip
  | .null => some ⟨enclosing, .next⟩
  | .bool _ => some ⟨enclosing, .next⟩
  | .number _ => some ⟨enclosing, .next⟩
  | .string _ => some ⟨enclosing, .next⟩
  | .openList => some ⟨true :: enclosing, .valueOrClose⟩
  | .openObject => some ⟨false :: enclosing, .keyOrClose⟩
  | _ => none

def step (s : Skip) (t : Token) : Option Skip :=
  match s.expected, s.enclosing, t with
  | .valueOrClose, true :: outer, .closeList => some ⟨outer, .next⟩
  | .valueOrClose, enclosing, t => value enclosing t
  | .value, enclosing, t => value enclosing t
  | .keyOrClose, false :: outer, .closeObject => some ⟨outer, .next⟩
  | .keyOrClose, enclosing, .string _ => some ⟨enclosing, .colon⟩
  | .key, enclosing, .string _ => some ⟨enclosing, .colon⟩
  | .colon, enclosing, .colon => some ⟨enclosing, .value⟩
  | .next, true :: outer, .comma => some ⟨true :: outer, .value⟩
  | .next, true :: outer, .closeList => some ⟨outer, .next⟩
  | .next, false :: outer, .comma => some ⟨false :: outer, .key⟩
  | .next, false :: outer, .closeObject => some ⟨outer, .next⟩
  | _, _, _ => none

def run (s : Skip) : List Token → Except Fault (List Token)
  | [] => if s.isDone then .ok [] else .error .malformed
  | t :: ts =>
    if s.isDone then .ok (t :: ts)
    else
      match s.step t with
      | some s => s.run ts
      | none => .error .malformed

end Skip

/-- Leaves a value out, whatever it is. Only its grammar counts. -/
def skipValue (ts : List Token) : Except Fault (List Token) := Skip.start.run ts

end MergeQueue.Json
