/-!
# Bytes as text

UTF-8 writes a character as one to four bytes. `Utf8.decode` reads bytes from left to right;
where they are not well formed, it gives `none` for the longest start of a character that the
bytes could have been, or for a single byte that starts none, and goes on after it. Bytes are a
text exactly if there is no such place, and otherwise can be shown with a replacement character
at each.
-/

namespace RandomSentences

namespace Utf8

/-- The bytes that may come second, after a first byte of a character of several bytes, and
how many bytes come after the second. -/
def second? (first : UInt8) : Option (UInt8 × UInt8 × Nat) :=
  if 0xC2 ≤ first && first ≤ 0xDF then some (0x80, 0xBF, 0)
  else if first == 0xE0 then some (0xA0, 0xBF, 1)
  else if first == 0xED then some (0x80, 0x9F, 1)
  else if 0xE1 ≤ first && first ≤ 0xEF then some (0x80, 0xBF, 1)
  else if first == 0xF0 then some (0x90, 0xBF, 2)
  else if 0xF1 ≤ first && first ≤ 0xF3 then some (0x80, 0xBF, 2)
  else if first == 0xF4 then some (0x80, 0x8F, 2)
  else none

/-- The bits that a first byte of a character of several bytes gives. -/
def firstBits (first : UInt8) : Nat :=
  if first < 0xE0 then first.toNat % 0x20
  else if first < 0xF0 then first.toNat % 0x10
  else first.toNat % 0x08

/-- Within a character: the least and greatest byte that may come next, how many come after
that, and the bits read so far. -/
structure Pending where
  least : UInt8
  greatest : UInt8
  later : Nat
  bits : Nat

/-- What a byte at the start of a character gives: a character, a place that is not well
formed, or a character begun. -/
def start (b : UInt8) : Option Char ⊕ Pending :=
  if b < 0x80 then .inl (some (Char.ofNat b.toNat))
  else
    match second? b with
    | none => .inl none
    | some (least, greatest, later) => .inr ⟨least, greatest, later, firstBits b⟩

/-- Reads bytes within a character begun, if one is. -/
def decodeFrom : Option Pending → List UInt8 → List (Option Char)
  | none, [] => []
  | some _, [] => [none]
  | none, b :: bs =>
    match start b with
    | .inl c => c :: decodeFrom none bs
    | .inr pending => decodeFrom (some pending) bs
  | some pending, b :: bs =>
    if pending.least ≤ b && b ≤ pending.greatest then
      let bits := pending.bits * 0x40 + b.toNat % 0x40
      match pending.later with
      | 0 => some (Char.ofNat bits) :: decodeFrom none bs
      | later + 1 => decodeFrom (some ⟨0x80, 0xBF, later, bits⟩) bs
    else
      match start b with
      | .inl c => none :: c :: decodeFrom none bs
      | .inr pending => none :: decodeFrom (some pending) bs

/-- The characters of some bytes, with `none` where they are not well formed. -/
def decode (bs : List UInt8) : List (Option Char) :=
  decodeFrom none bs

/-- The text of some bytes, if they are well formed. -/
def text? (bs : List UInt8) : Option String :=
  ((decode bs).mapM id).map String.ofList

/-- The text of some bytes, with a replacement character where they are not well formed. -/
def display (bs : List UInt8) : String :=
  String.ofList ((decode bs).map (·.getD '\uFFFD'))

/-- The bytes of a text. -/
def encode (text : String) : List UInt8 :=
  text.toUTF8.toList

end Utf8

end RandomSentences
