/-! # Source positions in messages

A message can start with the place where it arose: a chunk name in brackets or a script file, and a
line number. `withoutPosition` takes one such place away. Messages are bytes, as scripts have them.
-/

namespace EventBridge.Script

/-- What follows a line number, the colon and the blank behind it. -/
def afterLine? (bytes : List UInt8) : Option (List UInt8) :=
  let digits := bytes.takeWhile fun b => 48 ≤ b && b ≤ 57
  match digits, bytes.drop digits.length with
  | _ :: _, 58 :: 32 :: rest => some rest
  | _, _ => none

/-- What follows the first place where a word has a line number behind it. The search ends at a byte
of `stop`. -/
def afterWord? (word stop : List UInt8) : List UInt8 → Option (List UInt8)
  | [] => none
  | byte :: rest =>
    let here :=
      if word.isPrefixOf (byte :: rest) then afterLine? ((byte :: rest).drop word.length) else none
    match here with
    | some after => some after
    | none => if byte ∈ stop then none else afterWord? word stop rest

/-- What a chunk name starts with. -/
def chunkStart : List UInt8 := "[string \"".toUTF8.data.toList

/-- What a chunk name ends with. -/
def chunkEnd : List UInt8 := "\"]:".toUTF8.data.toList

/-- What the name of a script file ends with. -/
def fileEnd : List UInt8 := ".lua:".toUTF8.data.toList

/-- A message without a source position in front. A chunk name ends with its line, and the name of a
script file holds no colon. -/
def withoutPosition (bytes : List UInt8) : List UInt8 :=
  let found :=
    if chunkStart.isPrefixOf bytes then afterWord? chunkEnd [10] bytes
    else afterWord? fileEnd [10, 58] bytes
  found.getD bytes

end EventBridge.Script
