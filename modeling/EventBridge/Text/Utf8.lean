/-! # Reading UTF-8

Bytes reach the bridge from files, traces and scripts, and not all of them are text.

* `decode?` reads bytes that are text from end to end, and refuses all others.
* `decodeLossy` reads any bytes: each longest run that starts like a character and is cut short
  becomes one replacement character, and so does each byte that can start none. Diagnostics show
  script strings this way.
-/

namespace EventBridge.Text.Utf8

/-- The text of bytes that are valid UTF-8 throughout. -/
def decode? (bytes : List UInt8) : Option String :=
  String.fromUTF8? ⟨bytes.toArray⟩

/-- The bytes of a text. -/
def encode (text : String) : List UInt8 :=
  text.toUTF8.data.toList

/-! ### Lossy reading -/

/-- Stands for bytes that are no character. -/
def replacement : Char := Char.ofNat 0xFFFD

/-- Where a lossy reading stands between two bytes. -/
inductive Pending where
  /-- No character is open. -/
  | idle
  /-- A character is open: `left` more bytes are due, the next one between `low` and `high`, and
  `value` collects the code point. -/
  | inside (left : Nat) (low high : UInt8) (value : Nat)
  deriving Repr, DecidableEq

/-- What a byte does where no character is open. -/
def start (byte : UInt8) : List Char × Pending :=
  let value := byte.toNat
  if byte < 0x80 then ([Char.ofNat value], .idle)
  else if byte < 0xC2 then ([replacement], .idle)
  else if byte < 0xE0 then ([], .inside 1 0x80 0xBF (value % 0x20))
  else if byte = 0xE0 then ([], .inside 2 0xA0 0xBF (value % 0x10))
  else if byte = 0xED then ([], .inside 2 0x80 0x9F (value % 0x10))
  else if byte < 0xF0 then ([], .inside 2 0x80 0xBF (value % 0x10))
  else if byte = 0xF0 then ([], .inside 3 0x90 0xBF (value % 0x08))
  else if byte < 0xF4 then ([], .inside 3 0x80 0xBF (value % 0x08))
  else if byte = 0xF4 then ([], .inside 3 0x80 0x8F (value % 0x08))
  else ([replacement], .idle)

/-- One byte of a lossy reading: the characters it completes and what is open after it. A byte
that does not continue the open character replaces that character and starts afresh. -/
def step : Pending → UInt8 → List Char × Pending
  | .idle, byte => start byte
  | .inside left low high value, byte =>
    if low ≤ byte ∧ byte ≤ high then
      let value := value * 0x40 + byte.toNat % 0x40
      if left ≤ 1 then ([Char.ofNat value], .idle) else ([], .inside (left - 1) 0x80 0xBF value)
    else
      let (chars, next) := start byte
      (replacement :: chars, next)

/-- The characters of the bytes that follow a reading at `pending`. -/
def lossyFrom : Pending → List UInt8 → List Char
  | .idle, [] => []
  | .inside _ _ _ _, [] => [replacement]
  | pending, byte :: rest =>
    let (chars, next) := step pending byte
    chars ++ lossyFrom next rest

/-- The text of any bytes, with a replacement character for what is no text. -/
def decodeLossy (bytes : List UInt8) : String :=
  String.ofList (lossyFrom .idle bytes)

/-! ### Small facts -/

/-- No bytes are no characters. -/
theorem lossyFrom_nil : lossyFrom .idle [] = [] := rfl

/-- A lossy reading goes byte by byte. -/
theorem lossyFrom_cons (pending : Pending) (byte : UInt8) (rest : List UInt8) :
    lossyFrom pending (byte :: rest) =
      (step pending byte).1 ++ lossyFrom (step pending byte).2 rest := by
  cases pending <;> rfl

/-- Reading lossily takes an ASCII byte as the character it is. -/
theorem lossyFrom_ascii (byte : UInt8) (rest : List UInt8) (h : byte < 0x80) :
    lossyFrom .idle (byte :: rest) = Char.ofNat byte.toNat :: lossyFrom .idle rest := by
  simp [lossyFrom, step, start, h]

end EventBridge.Text.Utf8
