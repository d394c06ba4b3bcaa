/-! # Base64

Bytes as letters, six bits to a letter, with `=` up to a multiple of four. Reading takes the one
text that writing gives, and says for any other what is wrong where.

The last stretch of up to eight letters is looked at last, after all the letters before it.
-/

namespace EventBridge.Text.Base64

/-- Why a text is no base64. Offsets count bytes. -/
inductive Invalid where
  | byte (value : UInt8) (offset : Nat)
  /-- One letter alone stands for no byte. -/
  | length
  | padding
  /-- Bits that no byte takes up are set. -/
  | lastSymbol (value : UInt8) (offset : Nat)
  deriving DecidableEq, Repr

/-- The wording of a diagnostic. -/
def Invalid.message : Invalid → String
  | .byte value offset =>
    "Invalid byte " ++ toString value.toNat ++ ", offset " ++ toString offset ++ "."
  | .length => "Encoded text cannot have a 6-bit remainder."
  | .padding => "Invalid padding"
  | .lastSymbol value offset =>
    "Invalid last symbol " ++ toString value.toNat ++ ", offset " ++ toString offset ++ "."

/-! ### Letters -/

/-- The six bits of a letter. -/
def sextet? (byte : UInt8) : Option Nat :=
  let n := byte.toNat
  if 65 ≤ n ∧ n ≤ 90 then some (n - 65)
  else if 97 ≤ n ∧ n ≤ 122 then some (n - 71)
  else if 48 ≤ n ∧ n ≤ 57 then some (n + 4)
  else if n = 43 then some 62
  else if n = 47 then some 63
  else none

/-- The letter of six bits. -/
def letter (n : Nat) : UInt8 :=
  if n < 26 then UInt8.ofNat (n + 65)
  else if n < 52 then UInt8.ofNat (n + 71)
  else if n < 62 then UInt8.ofNat (n - 4)
  else if n = 62 then 43
  else 47

/-- Fills up to a multiple of four. -/
def pad : UInt8 := 61

/-! ### Writing -/

/-- The text of bytes. -/
def encode : List UInt8 → List UInt8
  | [] => []
  | [a] =>
    let n := a.toNat
    [letter (n / 4), letter (n % 4 * 16), pad, pad]
  | [a, b] =>
    let n := a.toNat * 256 + b.toNat
    [letter (n / 1024), letter (n / 16 % 64), letter (n % 16 * 4), pad]
  | a :: b :: c :: rest =>
    let n := (a.toNat * 256 + b.toNat) * 256 + c.toNat
    letter (n / 262144) :: letter (n / 4096 % 64) :: letter (n / 64 % 64) :: letter (n % 64)
      :: encode rest

/-! ### Reading -/

/-- The bytes of six-bit groups; bits that fill no byte are left out. -/
def join : List Nat → List UInt8
  | a :: b :: c :: d :: rest =>
    let n := ((a * 64 + b) * 64 + c) * 64 + d
    UInt8.ofNat (n / 65536) :: UInt8.ofNat (n / 256) :: UInt8.ofNat n :: join rest
  | [a, b, c] =>
    let n := (a * 64 + b) * 64 + c
    [UInt8.ofNat (n / 1024), UInt8.ofNat (n / 4)]
  | [a, b] => [UInt8.ofNat ((a * 64 + b) / 16)]
  | _ => []

/-- The bits of the last group that fill no byte. -/
def spare : List Nat → Nat
  | _ :: _ :: _ :: _ :: rest => spare rest
  | [_, _, c] => c % 4
  | [_, b] => b % 16
  | _ => 0

/-- Letters only, from an offset on. -/
def symbols : Nat → List UInt8 → Except Invalid (List Nat)
  | _, [] => .ok []
  | offset, byte :: rest =>
    match sextet? byte with
    | none => .error (.byte byte offset)
    | some n => (symbols (offset + 1) rest).map (n :: ·)

/-- The last stretch, from its index `i` on: the letters, and how many pads follow them. `start` is
the offset of the stretch, `first` the index of the first pad. -/
def ending (start : Nat) : Nat → Option Nat → List UInt8 → Except Invalid (List Nat × Nat)
  | _, _, [] => .ok ([], 0)
  | i, first, byte :: rest =>
    if byte = pad then
      if i % 4 < 2 then .error (.byte pad (start + first.getD i))
      else (ending start (i + 1) (some (first.getD i)) rest).map fun (ns, pads) => (ns, pads + 1)
    else match first with
      | some index => .error (.byte pad (start + index))
      | none =>
        match sextet? byte with
        | none => .error (.byte byte (start + i))
        | some n => (ending start (i + 1) none rest).map fun (ns, pads) => (n :: ns, pads)

/-- The bytes of a text. -/
def decode (text : List UInt8) : Except Invalid (List UInt8) := do
  let size := text.length
  if size % 4 = 1 then
    match text.getLast? with
    | some byte =>
      if byte ≠ pad ∧ sextet? byte = none then .error (.byte byte (size - 1)) else .error .length
    | none => .error .length
  else
    -- The last stretch is a full one where the length is a multiple of eight.
    let start := size - (if size % 8 = 0 then 8 else size % 8)
    let before ← symbols 0 (text.take start)
    let (after, pads) ← ending start 0 none (text.drop start)
    if (after.length + pads) % 4 ≠ 0 then .error .padding
    else
      let all := before ++ after
      if spare all ≠ 0 then .error (.lastSymbol (letter (all.getLastD 0)) (all.length - 1))
      else .ok (join all)

end EventBridge.Text.Base64
