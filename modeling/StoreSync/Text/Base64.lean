/-!
# Base64 text

Byte sequences as text over sixty-four symbols, three bytes in four symbols, the last group
padded with `=`.  Decoding accepts the canonical form only and names what is wrong by symbol and
offset.  All groups but the last must be four symbols of the alphabet; the last group decides on
padding, length and left-over bits.
-/

namespace StoreSync.Text

/-- Why a text is not the Base64 form of a byte sequence. -/
inductive Base64Error where
  | invalidSymbol (symbol : UInt8) (offset : Nat)
  | invalidLastSymbol (symbol : UInt8) (offset : Nat)
  | invalidLength (length : Nat)
  | invalidPadding
deriving DecidableEq, Repr

def Base64Error.message : Base64Error → String
  | .invalidSymbol b n => s!"Invalid symbol {b}, offset {n}."
  | .invalidLastSymbol b n => s!"Invalid last symbol {b}, offset {n}."
  | .invalidLength n => s!"Invalid input length: {n}"
  | .invalidPadding => "Invalid padding"

namespace Base64

/-! ## Alphabet -/

/-- The symbol of a six-bit value. -/
def symbol (n : Nat) : Char :=
  if n < 26 then Char.ofNat (65 + n)
  else if n < 52 then Char.ofNat (97 + (n - 26))
  else if n < 62 then Char.ofNat (48 + (n - 52))
  else if n = 62 then '+'
  else '/'

/-- The six-bit value of a symbol. -/
def value? (b : UInt8) : Option Nat :=
  let n := b.toNat
  if 65 ≤ n ∧ n ≤ 90 then some (n - 65)
  else if 97 ≤ n ∧ n ≤ 122 then some (n - 97 + 26)
  else if 48 ≤ n ∧ n ≤ 57 then some (n - 48 + 52)
  else if n = 43 then some 62
  else if n = 47 then some 63
  else none

/-! ## Encoding -/

/-- The symbols of a byte sequence. -/
def encodeBytes : List UInt8 → List Char
  | [] => []
  | [a] =>
    [symbol (a.toNat / 4), symbol (a.toNat % 4 * 16), '=', '=']
  | [a, b] =>
    [symbol (a.toNat / 4), symbol (a.toNat % 4 * 16 + b.toNat / 16),
      symbol (b.toNat % 16 * 4), '=']
  | a :: b :: c :: rest =>
    symbol (a.toNat / 4) :: symbol (a.toNat % 4 * 16 + b.toNat / 16) ::
      symbol (b.toNat % 16 * 4 + c.toNat / 64) :: symbol (c.toNat % 64) :: encodeBytes rest

/-- The Base64 text of a byte sequence. -/
def encode (bytes : List UInt8) : String := String.ofList (encodeBytes bytes)

/-! ## Decoding -/

/-- The value of a symbol, or an error at its offset. -/
def valueAt (offset : Nat) (b : UInt8) : Except Base64Error Nat :=
  match value? b with
  | some n => .ok n
  | none => .error (.invalidSymbol b offset)

/-- The three bytes of four six-bit values. -/
def groupBytes (a b c d : Nat) : List UInt8 :=
  [UInt8.ofNat (a * 4 + b / 16), UInt8.ofNat (b % 16 * 16 + c / 4), UInt8.ofNat (c % 4 * 64 + d)]

def pad : UInt8 := 61

/-- The symbols of the last group before its padding, and how many pads follow.  A pad in the
first two places, or a symbol after a pad, is out of place. -/
def splitPadding (offset : Nat) : Nat → Nat → List UInt8 → Except Base64Error (List Nat × Nat)
  | _, pads, [] => .ok ([], pads)
  | place, pads, b :: rest =>
    if b = pad then
      if place < 2 then .error (.invalidSymbol b (offset + place))
      else splitPadding offset (place + 1) (pads + 1) rest
    else if 0 < pads then .error (.invalidSymbol pad (offset + place - pads))
    else do
      let n ← valueAt (offset + place) b
      let (values, pads) ← splitPadding offset (place + 1) pads rest
      return (n :: values, pads)

/-- The last group of at most four symbols, at an offset. -/
def decodeLast (offset : Nat) (group : List UInt8) : Except Base64Error (List UInt8) := do
  let (values, pads) ← splitPadding offset 0 0 group
  match values with
  | [] => if group.isEmpty then .ok [] else .error (.invalidLength offset)
  | [_] => .error (.invalidLength (offset + 1))
  | [a, b] =>
    if pads ≠ 2 then .error .invalidPadding
    else if b % 16 ≠ 0 then .error (.invalidLastSymbol (group.getD 1 0) (offset + 1))
    else .ok [UInt8.ofNat (a * 4 + b / 16)]
  | [a, b, c] =>
    if pads ≠ 1 then .error .invalidPadding
    else if c % 4 ≠ 0 then .error (.invalidLastSymbol (group.getD 2 0) (offset + 2))
    else .ok [UInt8.ofNat (a * 4 + b / 16), UInt8.ofNat (b % 16 * 16 + c / 4)]
  | a :: b :: c :: d :: _ => .ok (groupBytes a b c d)

/-- Groups of four symbols from an offset on, the last one by `decodeLast`. -/
def decodeFrom (offset : Nat) : List UInt8 → Except Base64Error (List UInt8)
  | a :: b :: c :: d :: e :: rest => do
    let a ← valueAt offset a
    let b ← valueAt (offset + 1) b
    let c ← valueAt (offset + 2) c
    let d ← valueAt (offset + 3) d
    let bytes ← decodeFrom (offset + 4) (e :: rest)
    return groupBytes a b c d ++ bytes
  | group => decodeLast offset group

/-- The bytes of a symbol sequence.  A foreign last symbol that stands alone in its group is
reported before all else. -/
def decodeBytes (symbols : List UInt8) : Except Base64Error (List UInt8) :=
  match symbols.getLast? with
  | some last =>
    if symbols.length % 4 = 1 ∧ last ≠ pad ∧ (value? last).isNone then
      .error (.invalidSymbol last (symbols.length - 1))
    else decodeFrom 0 symbols
  | none => .ok []

/-- The bytes that a Base64 text stands for. -/
def decode (s : String) : Except Base64Error (List UInt8) := decodeBytes s.toUTF8.toList

end Base64

end StoreSync.Text
