/-!
# Characters as bytes

Text reaches the machine and leaves it as UTF-8. Writing takes the code point of a character, which
is never a surrogate, and spells it in as few bytes as it needs. Reading is lenient: any lead byte
with the right number of continuation bytes is a code point, also where the same code point has a
shorter form, is a surrogate or lies past the last character. A decoder error is the offset of the
byte at fault: the lead byte if it is none or if the text ends inside its sequence, else the first
byte that does not continue the sequence.
-/

namespace TwoBus.Text

/-! ## Writing -/

/-- Every value up to the last character stands for one, except the surrogates. -/
def IsCharacter (v : Int) : Prop :=
  0 ≤ v ∧ v ≤ 0x10FFFF ∧ ¬(0xD800 ≤ v ∧ v ≤ 0xDFFF)

instance : DecidablePred IsCharacter := fun v =>
  inferInstanceAs (Decidable (0 ≤ v ∧ v ≤ 0x10FFFF ∧ ¬(0xD800 ≤ v ∧ v ≤ 0xDFFF)))

/-- A byte of a sequence: bits that tell its place in the sequence, and others of the code point. -/
def marked (mark payload : UInt32) : UInt8 := (mark ||| payload).toUInt8

/-- The bytes of a code point. A lead byte tells how many there are after it, and each of those
carries six bits. -/
def encodePoint (code : UInt32) : List UInt8 :=
  if code < 0x80 then [code.toUInt8]
  else if code < 0x800 then
    [marked 0xC0 (code >>> 6), marked 0x80 (code &&& 0x3F)]
  else if code < 0x10000 then
    [marked 0xE0 (code >>> 12), marked 0x80 ((code >>> 6) &&& 0x3F), marked 0x80 (code &&& 0x3F)]
  else
    [marked 0xF0 (code >>> 18), marked 0x80 ((code >>> 12) &&& 0x3F),
      marked 0x80 ((code >>> 6) &&& 0x3F), marked 0x80 (code &&& 0x3F)]

/-! ## Reading -/

/-- The payload of a lead byte, and the number of bytes that continue its sequence. -/
def lead? (b : UInt8) : Option (Nat × Nat) :=
  if b < 0x80 then some (b.toNat, 0)
  else if b &&& 0xE0 = 0xC0 then some ((b &&& 0x1F).toNat, 1)
  else if b &&& 0xF0 = 0xE0 then some ((b &&& 0x0F).toNat, 2)
  else if b &&& 0xF8 = 0xF0 then some ((b &&& 0x07).toNat, 3)
  else none

def isContinuation (b : UInt8) : Bool :=
  b &&& 0xC0 = 0x80

/-- Add the payloads of continuation bytes, which start at `offset`, to a code point. -/
def continued (offset : Nat) (payload : Nat) : List UInt8 → Except Nat Nat
  | [] => .ok payload
  | b :: bytes =>
    if isContinuation b then continued (offset + 1) (payload * 64 + (b &&& 0x3F).toNat) bytes
    else .error offset

/-- The code points of a text that starts at `offset`, or the offset of the byte at fault. -/
def decodeFrom (offset : Nat) : List UInt8 → Except Nat (List Nat)
  | [] => .ok []
  | lead :: rest =>
    match lead? lead, rest with
    | some (payload, 0), rest => return payload :: (← decodeFrom (offset + 1) rest)
    | some (payload, 1), b :: rest => do
      let c ← continued (offset + 1) payload [b]
      return c :: (← decodeFrom (offset + 2) rest)
    | some (payload, 2), b :: b' :: rest => do
      let c ← continued (offset + 1) payload [b, b']
      return c :: (← decodeFrom (offset + 3) rest)
    | some (payload, 3), b :: b' :: b'' :: rest => do
      let c ← continued (offset + 1) payload [b, b', b'']
      return c :: (← decodeFrom (offset + 4) rest)
    | _, _ => .error offset

/-- The code points of a text, or the offset of the byte at fault. -/
def decode (bytes : List UInt8) : Except Nat (List Nat) :=
  decodeFrom 0 bytes

end TwoBus.Text
