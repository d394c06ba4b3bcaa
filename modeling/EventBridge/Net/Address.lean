import EventBridge.Text.Digits

/-! # Network addresses

IPv4 and IPv6 addresses, the same with a port, and their texts.

* `Ip.text` writes an IPv6 address with the first longest run of two or more zero groups as `::`,
  and an address that stands for an IPv4 one as `::ffff:` before the dotted form.
* `Endpoint.text` writes the address and the port; an IPv6 address stands in brackets, with its
  scope if that is not zero.

Reading is in `Net.Address.Reader`.
-/

namespace EventBridge.Net

open Text (decimal hexadecimal)

/-- An IPv4 address, by its octets. -/
structure Ip4 where
  a : UInt8
  b : UInt8
  c : UInt8
  d : UInt8
  deriving DecidableEq, Repr, Inhabited

/-- An IPv6 address, by its eight groups. -/
structure Ip6 where
  groups : Vector UInt16 8
  deriving DecidableEq, Repr

/-- An address of either family. -/
inductive Ip where
  | v4 (address : Ip4)
  | v6 (address : Ip6)
  deriving DecidableEq, Repr

/-- An address with a port. -/
inductive Endpoint where
  | v4 (address : Ip4) (port : UInt16)
  /-- An IPv6 address belongs to a scope, `0` where none is named. -/
  | v6 (address : Ip6) (scope : UInt32) (port : UInt16)
  deriving DecidableEq, Repr

/-- The address without the port. -/
def Endpoint.ip : Endpoint → Ip
  | .v4 address _ => .v4 address
  | .v6 address _ _ => .v6 address

/-- The port without the address. -/
def Endpoint.port : Endpoint → UInt16
  | .v4 _ port => port
  | .v6 _ _ port => port

/-- The name of an address family. -/
def Ip.family : Ip → String
  | .v4 _ => "ipv4"
  | .v6 _ => "ipv6"

/-! ### IPv4 -/

/-- The four octets in base 10, with points between them. -/
def Ip4.chars (x : Ip4) : List Char :=
  decimal x.a.toNat ++ '.' :: decimal x.b.toNat ++ '.' :: decimal x.c.toNat ++
    '.' :: decimal x.d.toNat

/-! ### IPv6 -/

/-- The two groups that hold an IPv4 address. -/
def Ip4.groups (x : Ip4) : UInt16 × UInt16 :=
  (UInt16.ofNat (x.a.toNat * 256 + x.b.toNat), UInt16.ofNat (x.c.toNat * 256 + x.d.toNat))

/-- The IPv4 address that an IPv6 address stands for: five zero groups, `ffff`, and the octets. -/
def Ip6.mapped? (x : Ip6) : Option Ip4 :=
  match x.groups.toList with
  | [0, 0, 0, 0, 0, 0xFFFF, g, h] =>
    some ⟨UInt8.ofNat (g.toNat / 256), UInt8.ofNat g.toNat, UInt8.ofNat (h.toNat / 256),
      UInt8.ofNat h.toNat⟩
  | _ => none

/-- How many groups at the front are zero. -/
def zeroRun (groups : List UInt16) : Nat := (groups.takeWhile (· == 0)).length

/-- Where the first longest run of zero groups starts, and its length; `(0, 0)` if none is zero. -/
def longestZeroRun : Nat → List UInt16 → Nat × Nat
  | _, [] => (0, 0)
  | index, g :: rest =>
    let here := zeroRun (g :: rest)
    let later := longestZeroRun (index + 1) rest
    if 0 < here ∧ later.2 ≤ here then (index, here) else later

/-- Groups with colons between them. -/
def groupChars : List UInt16 → List Char
  | [] => []
  | [g] => hexadecimal g.toNat
  | g :: rest => hexadecimal g.toNat ++ ':' :: groupChars rest

/-- The groups in base 16, shortened where there are zeros, or the IPv4 address that is meant. -/
def Ip6.chars (x : Ip6) : List Char :=
  match x.mapped? with
  | some inner => "::ffff:".toList ++ inner.chars
  | none =>
    let groups := x.groups.toList
    let (start, length) := longestZeroRun 0 groups
    if 2 ≤ length then
      groupChars (groups.take start) ++ ':' :: ':' :: groupChars (groups.drop (start + length))
    else groupChars groups

/-! ### Texts -/

/-- The characters of an address. -/
def Ip.chars : Ip → List Char
  | .v4 address => address.chars
  | .v6 address => address.chars

/-- The text of an address. -/
def Ip.text (x : Ip) : String := String.ofList x.chars

/-- The characters of an address with its port. -/
def Endpoint.chars : Endpoint → List Char
  | .v4 address port => address.chars ++ ':' :: decimal port.toNat
  | .v6 address scope port =>
    let scope := if scope = 0 then [] else '%' :: decimal scope.toNat
    '[' :: address.chars ++ scope ++ ']' :: ':' :: decimal port.toNat

/-- The text of an address with its port. -/
def Endpoint.text (x : Endpoint) : String := String.ofList x.chars

instance : ToString Ip := ⟨Ip.text⟩

instance : ToString Endpoint := ⟨Endpoint.text⟩

end EventBridge.Net
