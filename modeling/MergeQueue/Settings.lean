import MergeQueue.Text.Basic

/-!
# Settings of the service

The service listens on an address and may keep its state in a directory. Both come from variables;
a value that cannot be used counts as not given.
-/
namespace MergeQueue

open Text

/-!
## Socket addresses

The address of a host in one of the two versions of the internet protocol, and a port. The longer
kind is written in lower-case hexadecimal groups, the first longest run of two or more zero groups
as `::`, and with its last two groups as a short address if it stands for one.
-/

/-- A short address, four bytes. -/
structure ShortAddress where
  a : UInt8
  b : UInt8
  c : UInt8
  d : UInt8
deriving DecidableEq, Repr

/-- A host. The scope of a long address is zero if it has none. -/
inductive Host
  | short (address : ShortAddress)
  | long (groups : Vector UInt16 8) (scope : UInt32)
deriving DecidableEq, Repr

structure SocketAddress where
  host : Host
  port : UInt16
deriving DecidableEq, Repr

namespace ShortAddress

def text (s : ShortAddress) : List Char :=
  decimal s.a.toNat ++ '.' :: decimal s.b.toNat ++ '.' :: decimal s.c.toNat ++
    '.' :: decimal s.d.toNat

/-- The two groups of a long address that hold a short one. -/
def toGroups (s : ShortAddress) : UInt16 × UInt16 :=
  (s.a.toUInt16 * 256 + s.b.toUInt16, s.c.toUInt16 * 256 + s.d.toUInt16)

def ofGroups (high low : UInt16) : ShortAddress :=
  ⟨(high / 256).toUInt8, high.toUInt8, (low / 256).toUInt8, low.toUInt8⟩

end ShortAddress

namespace Host

/-- The short address that a long one stands for. -/
def mapped : List UInt16 → Option ShortAddress
  | [0, 0, 0, 0, 0, 0xffff, high, low] => some (.ofGroups high low)
  | _ => none

/-- Where the first longest run of zero groups begins, and its length. -/
def zeroRun (start : Nat) : List UInt16 → Nat × Nat
  | [] => (start, 0)
  | g :: gs =>
    let here := ((g :: gs).takeWhile (· = 0)).length
    let later := zeroRun (start + 1) gs
    if here < later.2 then later else (start, here)

def groupsText (gs : List UInt16) : List Char :=
  [':'].intercalate (gs.map fun g => Nat.toDigits 16 g.toNat)

def longText (gs : List UInt16) : List Char :=
  match mapped gs with
  | some s => "::ffff:".toList ++ s.text
  | none =>
    let (start, length) := zeroRun 0 gs
    if 1 < length then
      groupsText (gs.take start) ++ ':' :: ':' :: groupsText (gs.drop (start + length))
    else groupsText gs

def text : Host → List Char
  | short s => s.text
  | long gs scope =>
    '[' :: longText gs.toList ++ (if scope = 0 then [] else '%' :: decimal scope.toNat) ++ [']']

end Host

def SocketAddress.text (s : SocketAddress) : List Char :=
  s.host.text ++ ':' :: decimal s.port.toNat

/-!
## Reading socket addresses

A short address is four decimal bytes of at most three digits without leading zeros. A long one
stands in brackets: groups of at most four hexadecimal digits, the last two of which may be written
as a short address, and at most one `::`, which stands for at least one zero group. A scope follows
a percent sign. A port has any number of digits.
-/

def afterMark (mark : Char) : List Char → Option (List Char)
  | c :: s => if c = mark then some s else none
  | [] => none

def readUpTo (most : Nat) (s : List Char) : Option (Nat × List Char) :=
  let ds := s.takeWhile Char.isDigit
  if ds.isEmpty then none
  else if ofDecimal ds ≤ most then some (ofDecimal ds, s.drop ds.length)
  else none

namespace ShortAddress

/-- A byte of at most three digits without leading zeros. -/
def readByte (s : List Char) : Option (UInt8 × List Char) :=
  match s with
  | '0' :: c :: _ => if c.isDigit then none else some (0, s.drop 1)
  | _ =>
    match readUpTo 255 s with
    | some (n, r) => some (n.toUInt8, r)
    | none => none

def read (s : List Char) : Option (ShortAddress × List Char) := do
  let (a, s) ← readByte s
  let (b, s) ← afterMark '.' s >>= readByte
  let (c, s) ← afterMark '.' s >>= readByte
  let (d, s) ← afterMark '.' s >>= readByte
  some (⟨a, b, c, d⟩, s)

end ShortAddress

namespace Host

/-- A group of at most four hexadecimal digits. -/
def readGroup (s : List Char) : Option (UInt16 × List Char) :=
  let ds := s.takeWhile fun c => (hexValue c).isSome
  if ds.isEmpty ∨ 4 < ds.length then none
  else
    let value := ds.foldl (fun n c => n * 16 + (hexValue c).getD 0) 0
    some (value.toUInt16, s.drop ds.length)

/-- Reads at most `limit` groups as far as they go, with a colon in front of each but the first.
The groups, whether they end with a short address, and the rest. -/
def readGroups (first : Bool) (s : List Char) : Nat → List UInt16 × Bool × List Char
  | 0 => ([], false, s)
  | limit + 1 =>
    match if first then some s else afterMark ':' s with
    | none => ([], false, s)
    | some t =>
      match if limit = 0 then none else ShortAddress.read t with
      | some (tail, r) => ([tail.toGroups.1, tail.toGroups.2], true, r)
      | none =>
        match readGroup t with
        | none => ([], false, s)
        | some (g, r) =>
          let (gs, endsShort, r) := readGroups false r limit
          (g :: gs, endsShort, r)

def readLong (s : List Char) : Option (Vector UInt16 8 × List Char) :=
  let (front, endsShort, s) := readGroups true s 8
  if h : front.length = 8 then some (⟨front.toArray, h⟩, s)
  else if endsShort then none
  else
    match s with
    | ':' :: ':' :: s =>
      let (back, _, s) := readGroups true s (7 - front.length)
      let groups := front ++ List.replicate (8 - front.length - back.length) 0 ++ back
      if h : groups.length = 8 then some (⟨groups.toArray, h⟩, s) else none
    | _ => none

def readScope (s : List Char) : Option (UInt32 × List Char) :=
  match s with
  | '%' :: s => (readUpTo (UInt32.size - 1) s).map fun (n, s) => (n.toUInt32, s)
  | s => some (0, s)

def read (s : List Char) : Option (Host × List Char) :=
  match s with
  | '[' :: s => do
    let (groups, s) ← readLong s
    let (scope, s) ← readScope s
    let s ← afterMark ']' s
    some (.long groups scope, s)
  | s => (ShortAddress.read s).map fun (address, s) => (.short address, s)

end Host

def SocketAddress.read (s : List Char) : Option SocketAddress := do
  let (host, s) ← Host.read s
  let s ← afterMark ':' s
  let (port, s) ← readUpTo (UInt16.size - 1) s
  if s.isEmpty then some ⟨host, port.toUInt16⟩ else none

/-! ## Settings -/

structure Settings where
  listenAddress : SocketAddress
  stateDirectory : Option String
deriving DecidableEq, Repr

namespace Settings

def listenVariable : String := "BISECT_QUEUE_LISTEN_ADDR"

def directoryVariable : String := "BISECT_QUEUE_STATE_DIR"

def snapshotName : String := "queue.json"

/-- All interfaces, port 3000, no state kept. -/
def default : Settings := ⟨⟨.short ⟨0, 0, 0, 0⟩, 3000⟩, none⟩

def ofVariables (look : String → Option String) : Settings where
  listenAddress :=
    ((look listenVariable).bind fun s => SocketAddress.read (trim s.toList)).getD
      default.listenAddress
  stateDirectory := (look directoryVariable).filter fun s => !isBlank s.toList

def inDirectory (directory name : String) : String :=
  if directory.endsWith "/" then directory ++ name else directory ++ "/" ++ name

def snapshotPath (s : Settings) : Option String :=
  s.stateDirectory.map fun directory => inDirectory directory snapshotName

end Settings

end MergeQueue
