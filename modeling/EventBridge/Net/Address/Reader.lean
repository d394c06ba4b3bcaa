import EventBridge.Net.Address

/-! # Reading network addresses

Each reader takes its part off the front of the characters and returns what is left; `Ip.parse?`
and `Endpoint.parse?` ask that nothing is.

* An octet has one to three digits and no zero in front of others.
* A group has one to four hexadecimal digits. The last two groups may be given as an IPv4 address.
* `::` stands for one or more zero groups, and occurs at most once.
* A port is any run of digits below 65536; a scope, behind `%`, any run below 2^32.
-/

namespace EventBridge.Net

open Text (digit10? digit16? spanDigits ofDigits)

/-- A reader: what it found at the front, and the rest. -/
abbrev Reader (α : Type) := List Char → Option (α × List Char)

/-! ### Numbers -/

/-- A number of an IPv4 address: up to three digits, below 256, no zero in front. -/
def octet : Reader UInt8 := fun cs =>
  let (ds, rest) := spanDigits digit10? cs
  let n := ofDigits 10 ds
  if ds = [] ∨ 3 < ds.length ∨ (ds.head? = some 0 ∧ 1 < ds.length) ∨ 256 ≤ n then none
  else some (UInt8.ofNat n, rest)

/-- A group of an IPv6 address: up to four hexadecimal digits. -/
def group : Reader UInt16 := fun cs =>
  let (ds, rest) := spanDigits digit16? cs
  if ds = [] ∨ 4 < ds.length then none else some (UInt16.ofNat (ofDigits 16 ds), rest)

/-- A run of digits below a bound; zeros in front are allowed. -/
def number (bound : Nat) : Reader Nat := fun cs =>
  let (ds, rest) := spanDigits digit10? cs
  let n := ofDigits 10 ds
  if ds = [] ∨ bound ≤ n then none else some (n, rest)

/-- One given character. -/
def given (c : Char) : Reader Unit
  | [] => none
  | d :: rest => if d = c then some ((), rest) else none

/-! ### Addresses -/

/-- An IPv4 address: four octets with points between them. -/
def Ip4.read : Reader Ip4 := fun cs => do
  let (a, cs) ← octet cs
  let ((), cs) ← given '.' cs
  let (b, cs) ← octet cs
  let ((), cs) ← given '.' cs
  let (c, cs) ← octet cs
  let ((), cs) ← given '.' cs
  let (d, cs) ← octet cs
  return (⟨a, b, c, d⟩, cs)

/-- A part of an address behind a colon, which the first part goes without. -/
def separated {α : Type} (first : Bool) (part : Reader α) : Reader α := fun cs =>
  if first then part cs
  else match given ':' cs with
    | some ((), cs) => part cs
    | none => none

/-- Up to `room` groups, the first of them without a colon in front; whether they end with an IPv4
address, which takes the place of two groups. -/
def groupsUpTo : Nat → Bool → List Char → List UInt16 × Bool × List Char
  | 0, _, cs => ([], false, cs)
  | room + 1, first, cs =>
    -- The dotted form takes the room of two groups.
    let dotted := if room = 0 then none else separated first Ip4.read cs
    match dotted with
    | some (inner, cs) => ([inner.groups.1, inner.groups.2], true, cs)
    | none =>
      match separated first group cs with
      | some (g, cs) =>
        let (gs, dotted, cs) := groupsUpTo room false cs
        (g :: gs, dotted, cs)
      | none => ([], false, cs)

/-- Eight groups of what stands before and behind a `::`. -/
def Ip6.ofParts (head tail : List UInt16) : Ip6 :=
  let groups := head ++ List.replicate (8 - head.length - tail.length) 0 ++ tail
  ⟨Vector.ofFn fun i => groups.getD i.val 0⟩

/-- An IPv6 address. -/
def Ip6.read : Reader Ip6 := fun cs =>
  let (head, dotted, cs) := groupsUpTo 8 true cs
  if head.length = 8 then some (Ip6.ofParts head [], cs)
  else if dotted then none
  else do
    let ((), cs) ← given ':' cs
    let ((), cs) ← given ':' cs
    -- At least one group is left to the two colons.
    let (tail, _, cs) := groupsUpTo (7 - head.length) true cs
    return (Ip6.ofParts head tail, cs)

/-- A port behind a colon. -/
def portNumber : Reader UInt16 := fun cs => do
  let ((), cs) ← given ':' cs
  let (n, cs) ← number UInt16.size cs
  return (UInt16.ofNat n, cs)

/-- A scope behind a percent sign; without one the scope is `0`. -/
def scopeNumber : Reader UInt32 := fun cs =>
  match given '%' cs >>= fun ((), cs) => number UInt32.size cs with
  | some (n, cs) => some (UInt32.ofNat n, cs)
  | none => some (0, cs)

/-- What a reader finds, if it takes all of the characters. -/
def complete {α : Type} (reader : Reader α) (cs : List Char) : Option α :=
  match reader cs with
  | some (x, []) => some x
  | _ => none

/-- An address of either family. -/
def Ip.read : Reader Ip := fun cs =>
  match Ip4.read cs with
  | some (x, cs) => some (.v4 x, cs)
  | none => (Ip6.read cs).map fun (x, cs) => (.v6 x, cs)

/-- An IPv4 address with a port. -/
def Endpoint.read4 : Reader Endpoint := fun cs => do
  let (address, cs) ← Ip4.read cs
  let (p, cs) ← portNumber cs
  return (.v4 address p, cs)

/-- An IPv6 address in brackets, with a port. -/
def Endpoint.read6 : Reader Endpoint := fun cs => do
  let ((), cs) ← given '[' cs
  let (address, cs) ← Ip6.read cs
  let (s, cs) ← scopeNumber cs
  let ((), cs) ← given ']' cs
  let (p, cs) ← portNumber cs
  return (.v6 address s p, cs)

/-- An address of either family with a port. -/
def Endpoint.read : Reader Endpoint := fun cs =>
  match Endpoint.read4 cs with
  | some found => some found
  | none => Endpoint.read6 cs

/-- The address that a text is. -/
def Ip.parse? (text : String) : Option Ip := complete Ip.read text.toList

/-- The endpoint that a text is. -/
def Endpoint.parse? (text : String) : Option Endpoint := complete Endpoint.read text.toList

end EventBridge.Net
