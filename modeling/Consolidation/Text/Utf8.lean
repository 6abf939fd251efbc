/-
# `Text.Utf8` — texts as bytes

`encode` writes a text as bytes, `decode?` reads bytes that are well formed, and `decodeLossy`
reads any bytes: what is no character, up to where a well-formed sequence could still have
continued, becomes one replacement character.
-/
namespace Consolidation.Text.Utf8

/-- The bytes of one character. -/
def encodeChar (c : Char) : List UInt8 :=
  let n := c.toNat
  if n < 0x80 then [n.toUInt8]
  else if n < 0x800 then [(0xC0 + n / 0x40).toUInt8, (0x80 + n % 0x40).toUInt8]
  else if n < 0x10000 then
    [(0xE0 + n / 0x1000).toUInt8, (0x80 + n / 0x40 % 0x40).toUInt8, (0x80 + n % 0x40).toUInt8]
  else
    [(0xF0 + n / 0x40000).toUInt8, (0x80 + n / 0x1000 % 0x40).toUInt8,
      (0x80 + n / 0x40 % 0x40).toUInt8, (0x80 + n % 0x40).toUInt8]

/-- The bytes of a text. -/
def encode (s : List Char) : List UInt8 := s.flatMap encodeChar

/-- The bytes that may follow the first byte `b` of a sequence of several bytes: the range of the
second, and how many more follow it. -/
def continuation? (b : Nat) : Option (Nat × Nat × Nat) :=
  if 0xC2 ≤ b && b ≤ 0xDF then some (0x80, 0xBF, 0)
  else if b == 0xE0 then some (0xA0, 0xBF, 1)
  else if b == 0xED then some (0x80, 0x9F, 1)
  else if 0xE1 ≤ b && b ≤ 0xEF then some (0x80, 0xBF, 1)
  else if b == 0xF0 then some (0x90, 0xBF, 2)
  else if 0xF1 ≤ b && b ≤ 0xF3 then some (0x80, 0xBF, 2)
  else if b == 0xF4 then some (0x80, 0x8F, 2)
  else none

/-- How many of the next `count` bytes continue a sequence, and their bits after those of `acc`. -/
def tailBytes (acc : Nat) : Nat → List UInt8 → Nat × Nat
  | 0, _ => (0, acc)
  | _ + 1, [] => (0, acc)
  | count + 1, b :: rest =>
    if 0x80 ≤ b.toNat && b.toNat ≤ 0xBF then
      let (k, value) := tailBytes (acc * 0x40 + b.toNat % 0x40) count rest
      (k + 1, value)
    else (0, acc)

/-- What stands at the start of the bytes `b :: rest`: a character and the number of bytes of
`rest` that it takes, or the number of bytes of `rest` that a broken sequence takes. -/
def decodeOne (b : UInt8) (rest : List UInt8) : Option Char × Nat :=
  let first := b.toNat
  if first < 0x80 then (some (Char.ofNat first), 0)
  else match continuation? first, rest with
    | some (lo, hi, more), second :: rest' =>
      if lo ≤ second.toNat && second.toNat ≤ hi then
        let lead := if more == 0 then first % 0x20 else if more == 1 then first % 0x10 else first % 8
        let (k, value) := tailBytes (lead * 0x40 + second.toNat % 0x40) more rest'
        if k == more then (some (Char.ofNat value), k + 1) else (none, k + 1)
      else (none, 0)
    | _, _ => (none, 0)

/-- The characters at the start of the bytes, `none` for a broken sequence. `skip` bytes belong to
the character before. -/
def decodeFrom : Nat → List UInt8 → List (Option Char)
  | _, [] => []
  | skip + 1, _ :: rest => decodeFrom skip rest
  | 0, b :: rest =>
    let (c, taken) := decodeOne b rest
    c :: decodeFrom taken rest

/-- The text of well-formed bytes. -/
def decode? (bytes : List UInt8) : Option (List Char) :=
  (decodeFrom 0 bytes).mapM id

/-- The text of any bytes, with a replacement character for each broken sequence. -/
def decodeLossy (bytes : List UInt8) : List Char :=
  (decodeFrom 0 bytes).map (·.getD '\ufffd')

end Consolidation.Text.Utf8
