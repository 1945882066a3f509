import MergeQueue.Report
import MergeQueue.Text.Basic

/-!
# Requests

What the service reads of a request besides its body: the route that its path names, and the media
type that its header announces.
-/
namespace MergeQueue

open Text

/-!
## Routes

The paths that the service knows. A path may be written behind a scheme and a host. The key of a
report is one segment of its path, whose bytes may be written as percent escapes.
-/

inductive Route
  | changes
  | nextTest
  | report (verdict : Verdict) (key : List Char)
  | queue
  | health
deriving DecidableEq, Repr

namespace Route

def segments (s : List Char) : List (List Char) := s.splitOn '/'

def isSchemeChar (c : Char) : Bool := c.isAlphanum || c = '+' || c = '-' || c = '.'

def endsPath (c : Char) : Bool := c = '?' || c = '#'

/-- The part of an address from its path on. A scheme and a host in front of it are left out. -/
def behindHost (address : List Char) : List Char :=
  match address.dropWhile isSchemeChar with
  | ':' :: '/' :: '/' :: s => s.dropWhile fun c => c ≠ '/' && !endsPath c
  | _ => address

/-- The route of a path. What follows a question mark or a number sign does not count, nor does a
scheme with a host in front. -/
def ofPath (path : String) : Option Route :=
  match segments ((behindHost path.toList).takeWhile fun c => !endsPath c) with
  | [[], ['h', 'e', 'a', 'l', 't', 'h']] => some .health
  | [] :: ['a', 'p', 'i'] :: ['v', '1'] :: rest =>
    if rest = ["changes".toList] then some .changes
    else if rest = ["queue".toList] then some .queue
    else
      match rest with
      | [tests, last] =>
        if tests = "tests".toList ∧ last = "next".toList then some .nextTest else none
      | [tests, key, last] =>
        if tests = "tests".toList ∧ last = "success".toList then some (.report .pass key)
        else if tests = "tests".toList ∧ last = "failure".toList then some (.report .fail key)
        else none
      | _ => none
  | _ => none

def method : Route → String
  | changes | nextTest | report _ _ => "POST"
  | queue | health => "GET"

def escapedByte (p a b : UInt8) : Option UInt8 :=
  if p = 0x25 then
    match hexValue (Char.ofNat a.toNat), hexValue (Char.ofNat b.toNat) with
    | some a, some b => some (a * 16 + b).toUInt8
    | _, _ => none
  else none

/-- The bytes of a segment. What is no percent escape stands for itself. -/
def percentDecode : List UInt8 → List UInt8
  | [] => []
  | p :: a :: b :: s =>
    match escapedByte p a b with
    | some x => x :: percentDecode s
    | none => p :: percentDecode (a :: b :: s)
  | p :: s => p :: percentDecode s

/-- A number of 64 bits, maybe with a plus sign in front. -/
def readWord (s : List Char) : Option UInt64 :=
  let ds :=
    match s with
    | '+' :: ds => ds
    | ds => ds
  if ds.isEmpty ∨ !ds.all Char.isDigit then none
  else if ofDecimal ds < UInt64.size then some (UInt64.ofNat (ofDecimal ds))
  else none

def readKey (segment : List Char) : Option TestKey :=
  let bytes := percentDecode (String.ofList segment).toUTF8.toList
  match String.fromUTF8? ⟨bytes.toArray⟩ with
  | some s => (readWord s.toList).map TestKey.mk
  | none => none

end Route

/-!
## Media types

A media type is written `kind/subtype`, maybe with a suffix behind the last plus sign of the
subtype, and with parameters behind semicolons. Its letters may be of either case.
-/

structure MediaType where
  kind : List Char
  subtype : List Char
  suffix : Option (List Char)
deriving DecidableEq, Repr

namespace MediaType

def isToken (c : Char) : Bool := c.isAlphanum || "!#$%&'*+-.^_`|~".toList.contains c

def isQuotable (c : Char) : Bool := 0x1f < c.toNat && c.toNat ≠ 0x7f

inductive Place
  | between
  | name
  | valueStart
  | value
  | quoteStart
  | quote
  | quoteEnd
deriving DecidableEq, Repr

namespace Place

/-- The place behind a character. The first one between quotes may be a quote itself. -/
def step : Place → Char → Option Place
  | between, c => if c = ' ' then some between else if isToken c then some name else none
  | name, c => if c = '=' then some valueStart else if isToken c then some name else none
  | valueStart, c => if c = '"' then some quoteStart else if isToken c then some value else none
  | value, c => if c = ';' then some between else if isToken c then some value else none
  | quoteStart, c => if isQuotable c then some quote else none
  | quote, c => if c = '"' then some quoteEnd else if isQuotable c then some quote else none
  | quoteEnd, c => if c = ';' then some between else if c = ' ' then some quoteEnd else none

def isEnd : Place → Bool
  | between | valueStart | value | quoteEnd => true
  | name | quoteStart | quote => false

end Place

/-- Parameters, what stands behind the first semicolon. -/
def areParameters (s : List Char) : Bool :=
  match s.foldlM Place.step .between with
  | some p => p.isEnd
  | none => false

/-- Cuts at the last plus sign, unless it is the first character. -/
def splitSuffix (s : List Char) : List Char × Option (List Char) :=
  let suffix := (s.reverse.takeWhile (· ≠ '+')).reverse
  let front := s.take (s.length - suffix.length - 1)
  if suffix.length < s.length ∧ front ≠ [] then (front, some suffix) else (s, none)

def read (s : List Char) : Option MediaType :=
  let s := s.map Char.toLower
  let kind := s.takeWhile isToken
  match s.drop kind.length with
  | '/' :: s =>
    let subtype := s.takeWhile isToken
    let parameters :=
      match s.drop subtype.length with
      | [] => true
      | ';' :: s => !subtype.isEmpty && areParameters s
      | _ => false
    if kind.isEmpty ∨ !parameters then none
    else some ⟨kind, (splitSuffix subtype).1, (splitSuffix subtype).2⟩
  | _ => none

def isJson (m : MediaType) : Bool :=
  m.kind = "application".toList &&
    (m.subtype = "json".toList || m.suffix = some "json".toList)

def isVisible (s : List Char) : Bool :=
  s.all fun c => (0x20 ≤ c.toNat && c.toNat < 0x7f) || c = '\t'

def announcesJson (s : List Char) : Bool :=
  isVisible s &&
    match read s with
    | some m => m.isJson
    | none => false

end MediaType

end MergeQueue
