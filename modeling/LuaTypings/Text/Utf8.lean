import LuaTypings.Text.Quoted

/-!
# Texts as bytes

A file holds bytes, which stand for a text in the encoding UTF-8. Decoding is strict: it stops at the first byte
that does not belong to a shortest encoding of a character, and says where and why.
-/

namespace LuaTypings.Text

/-- The content of a file. -/
abbrev Bytes := List UInt8

/-- The bytes of a text. -/
def encode (t : Text) : Bytes := t.flatMap String.utf8EncodeChar

/-- Why bytes stand for no text. -/
inductive DecodeCause where
  /-- No character starts with this byte. -/
  | badStart
  /-- A character goes on with a byte that cannot continue it. -/
  | badContinuation
  /-- The bytes end within a character. -/
  | endOfData
  deriving DecidableEq, Repr

/-- Where and why bytes stand for no text: the first byte of the faulty ones, its position and their number. -/
structure DecodeError where
  byte : UInt8
  position : Nat
  length : Nat
  cause : DecodeCause
  deriving DecidableEq, Repr

/-- The words for a cause. -/
def DecodeCause.message : DecodeCause → Text
  | badStart => "invalid start byte"
  | badContinuation => "invalid continuation byte"
  | endOfData => "unexpected end of data"

/-- The words for a decoding error. -/
def DecodeError.message (e : DecodeError) : Text :=
  let place : Text :=
    if e.length = 1 then "byte 0x" ++ hex 2 e.byte.toNat ++ " in position " ++ ofNat e.position
    else "bytes in position " ++ ofNat e.position ++ "-" ++ ofNat (e.position + e.length - 1)
  "'utf-8' codec can't decode " ++ place ++ ": " ++ e.cause.message

/-- How many bytes follow a first byte, the range of the one right behind it, and the bits that the first byte
gives. The ranges leave out longer encodings than needed, surrogates and what is beyond the last character. -/
def leadByte? (b : UInt8) : Option (Nat × (UInt8 × UInt8) × Nat) :=
  if b < 0x80 then some (0, (0x80, 0xbf), b.toNat)
  else if b < 0xc2 then none
  else if b < 0xe0 then some (1, (0x80, 0xbf), b.toNat - 0xc0)
  else if b < 0xf0 then
    some (2, (if b == 0xe0 then 0xa0 else 0x80, if b == 0xed then 0x9f else 0xbf), b.toNat - 0xe0)
  else if b < 0xf5 then
    some (3, (if b == 0xf0 then 0x90 else 0x80, if b == 0xf4 then 0x8f else 0xbf), b.toNat - 0xf0)
  else none

/-- The code point whose first bytes are read. Its `count` further bytes are the first of `bytes`, the next of
them in a range. On failure gives the cause and how many of them are as they should be. -/
def continueCode : (count : Nat) → (range : UInt8 × UInt8) → (code read : Nat) → Bytes →
    Except (DecodeCause × Nat) Nat
  | 0, _, code, _, _ => .ok code
  | _ + 1, _, _, read, [] => .error (.endOfData, read)
  | count + 1, (first, last), code, read, b :: bytes =>
    if first ≤ b && b ≤ last then
      continueCode count (0x80, 0xbf) (64 * code + (b.toNat - 0x80)) (read + 1) bytes
    else .error (.badContinuation, read)

/-- Decodes bytes from a position on, the next `skip` of which belong to the character before. -/
def decodeFrom : (position skip : Nat) → Bytes → Except DecodeError Text
  | _, _, [] => .ok []
  | position, skip + 1, _ :: bytes => decodeFrom (position + 1) skip bytes
  | position, 0, b :: bytes =>
    match leadByte? b with
    | none => .error ⟨b, position, 1, .badStart⟩
    | some (count, range, bits) =>
      match continueCode count range bits 0 bytes with
      | .error (cause, read) => .error ⟨b, position, read + 1, cause⟩
      | .ok code => (decodeFrom (position + 1) count bytes).map (Char.ofNat code :: ·)

/-- The text that bytes stand for. -/
def decode (bytes : Bytes) : Except DecodeError Text := decodeFrom 0 0 bytes

end LuaTypings.Text
