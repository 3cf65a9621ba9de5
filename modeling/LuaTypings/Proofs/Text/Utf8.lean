import Mathlib.Algebra.Group.Nat.Defs
import Mathlib.Data.List.Basic
import Mathlib.Tactic.SplitIfs
import LuaTypings.Text.Utf8

/-!
# Bytes and the texts they stand for

Decoding undoes encoding, and nothing else is decoded (`decode_eq_ok_iff`). A character is encoded by its digits to the
base 64, of which the first byte holds the leading one and each further byte one more (`utf8EncodeChar_eq`). The range that
reading allows for the second byte leaves out what is no character and what has a shorter encoding, so the first byte and
those behind it are read exactly when they are the encoding of a character (`readsCode_iff`).
-/

namespace LuaTypings.Text

/-! ## The encoding of a character -/

/-- The bytes behind the first one of a character: its last digits to the base 64, each with the mark of such bytes. -/
def tailBytes : (count code : Nat) → Bytes
  | 0, _ => []
  | count + 1, code => UInt8.ofNat (code / 64 ^ count % 64 + 0x80) :: tailBytes count code

/-- How many bytes stand behind the first one of a character. -/
def tailLength (code : Nat) : Nat :=
  if code ≤ 0x7f then 0 else if code ≤ 0x7ff then 1 else if code ≤ 0xffff then 2 else 3

/-- The mark of a first byte with a number of bytes behind it. -/
def leadMark : (count : Nat) → Nat
  | 0 => 0
  | 1 => 0xc0
  | 2 => 0xe0
  | _ => 0xf0

/-- The first byte of a character. -/
def leadByte (code : Nat) : UInt8 := UInt8.ofNat (code / 64 ^ tailLength code + leadMark (tailLength code))

/-- The code points of characters: all up to the last one but the surrogates. -/
theorem isValidChar_iff {code : Nat} : code.isValidChar ↔ code < 0x110000 ∧ ¬ (0xd800 ≤ code ∧ code ≤ 0xdfff) := by
  rw [Nat.isValidChar]
  omega

/-- A character is encoded by its first byte and those behind it. -/
theorem utf8EncodeChar_eq (c : Char) :
    String.utf8EncodeChar c = leadByte c.toNat :: tailBytes (tailLength c.toNat) c.toNat := by
  have hlast : c.toNat < 0x110000 := (isValidChar_iff.mp c.valid).1
  have hcode : c.val.toNat = c.toNat := rfl
  rw [String.utf8EncodeChar, leadByte, tailLength, hcode]
  split
  · simp [tailBytes, leadMark]
  · split
    · have hlead : c.toNat / 64 % 32 = c.toNat / 64 := Nat.mod_eq_of_lt (by omega)
      simp [tailBytes, leadMark, hlead]
    · split
      · have hlead : c.toNat / 4096 % 16 = c.toNat / 4096 := Nat.mod_eq_of_lt (by omega)
        simp [tailBytes, leadMark, hlead]
      · have hlead : c.toNat / 262144 % 8 = c.toNat / 262144 := Nat.mod_eq_of_lt (by omega)
        simp [tailBytes, leadMark, hlead]

/-! ## The bytes behind the first one -/

variable {b : UInt8} {range : UInt8 × UInt8} {bytes : Bytes} {count bits read code : Nat}

/-- One more byte is read when it is in the range, and the others behind it. -/
theorem continueCode_cons_eq_ok_iff :
    continueCode (count + 1) range bits read (b :: bytes) = .ok code ↔
      (range.1 ≤ b ∧ b ≤ range.2) ∧
        continueCode count (0x80, 0xbf) (64 * bits + (b.toNat - 0x80)) (read + 1) bytes = .ok code := by
  rw [continueCode]
  simp only [Bool.and_eq_true, decide_eq_true_eq]
  split
  · rename_i h
    simp [h]
  · rename_i h
    simp [h]

/-- A byte behind the first one adds its digit. -/
theorem tailByte_iff {rest : Nat} :
    (0x80 ≤ b ∧ b ≤ 0xbf) ∧ rest = 64 * bits + (b.toNat - 0x80) ↔ rest / 64 = bits ∧ UInt8.ofNat (rest % 64 + 0x80) = b := by
  have hlow : (0x80 : UInt8).toNat = 0x80 := rfl
  have hhigh : (0xbf : UInt8).toNat = 0xbf := rfl
  rw [UInt8.le_iff_toNat_le, UInt8.le_iff_toNat_le, ← UInt8.toNat_inj, UInt8.toNat_ofNat', hlow, hhigh]
  omega

/-- Bytes go on with the bits of a code point when they start with its further digits. -/
theorem continueCode_eq_ok_iff :
    continueCode count (0x80, 0xbf) bits read bytes = .ok code ↔
      code / 64 ^ count = bits ∧ tailBytes count code <+: bytes := by
  induction count generalizing bits read bytes with
  | zero => simp [continueCode, tailBytes, eq_comm]
  | succ count ih =>
    cases bytes with
    | nil => simp [continueCode, tailBytes]
    | cons b bytes =>
      have hdigits : code / 64 ^ (count + 1) = code / 64 ^ count / 64 := by rw [Nat.pow_succ, Nat.div_div_eq_div_mul]
      rw [continueCode_cons_eq_ok_iff, ih, ← and_assoc, tailByte_iff, hdigits, tailBytes, List.cons_prefix_cons, and_assoc]

/-! ## First bytes -/

/-- The range of the byte behind the first one, which keeps the code point from being one that is encoded by fewer bytes, a
surrogate, or beyond the last one. -/
def secondRange : (count bits : Nat) → UInt8 × UInt8
  | 2, bits => (if bits = 0 then 0xa0 else 0x80, if bits = 0xd then 0x9f else 0xbf)
  | 3, bits => (if bits = 0 then 0x90 else 0x80, if bits = 4 then 0x8f else 0xbf)
  | _, _ => (0x80, 0xbf)

/-- The range of a second byte is within that of all the bytes behind a first one. -/
theorem secondRange_within (count bits : Nat) :
    0x80 ≤ (secondRange count bits).1 ∧ (secondRange count bits).2 ≤ 0xbf := by
  unfold secondRange
  split
  · split <;> split <;> decide
  · split <;> split <;> decide
  · decide

/-- Whether the first byte of a character can have these bits. -/
def IsLead (count bits : Nat) : Prop :=
  (count = 0 ∧ bits < 0x80) ∨ (count = 1 ∧ 2 ≤ bits ∧ bits < 0x20) ∨ (count = 2 ∧ bits < 0x10) ∨ (count = 3 ∧ bits < 5)

/-- Whether a byte can stand behind such a first byte. -/
def AllowsSecond (count bits : Nat) (b : UInt8) : Prop := (secondRange count bits).1 ≤ b ∧ b ≤ (secondRange count bits).2

/-- What a first byte says, by its number. -/
theorem leadByte?_eq (b : UInt8) :
    leadByte? b =
      if b.toNat < 0x80 then some (0, secondRange 0 b.toNat, b.toNat)
      else if b.toNat < 0xc2 then none
      else if b.toNat < 0xe0 then some (1, secondRange 1 (b.toNat - 0xc0), b.toNat - 0xc0)
      else if b.toNat < 0xf0 then some (2, secondRange 2 (b.toNat - 0xe0), b.toNat - 0xe0)
      else if b.toNat < 0xf5 then some (3, secondRange 3 (b.toNat - 0xf0), b.toNat - 0xf0)
      else none := by
  rw [leadByte?]
  simp only [UInt8.lt_iff_toNat_lt, beq_iff_eq, ← UInt8.toNat_inj, UInt8.reduceToNat, secondRange]
  grind

/-- A first byte by its bits. -/
theorem leadByte?_eq_some_iff :
    leadByte? b = some (count, range, bits) ↔
      b.toNat = bits + leadMark count ∧ range = secondRange count bits ∧ IsLead count bits := by
  have hmark : leadMark 1 = 0xc0 ∧ leadMark 2 = 0xe0 ∧ leadMark 3 = 0xf0 := ⟨rfl, rfl, rfl⟩
  rw [leadByte?_eq, IsLead]
  constructor
  · intro h
    split_ifs at h with hzero hnone hone htwo hthree
    · cases h
      exact ⟨rfl, rfl, .inl ⟨rfl, hzero⟩⟩
    · cases h
      exact ⟨by omega, rfl, .inr (.inl ⟨rfl, by omega, by omega⟩)⟩
    · simp only [Option.some.injEq, Prod.mk.injEq] at h
      obtain ⟨rfl, rfl, rfl⟩ := h
      exact ⟨by omega, rfl, .inr (.inr (.inl ⟨rfl, by omega⟩))⟩
    · simp only [Option.some.injEq, Prod.mk.injEq] at h
      obtain ⟨rfl, rfl, rfl⟩ := h
      exact ⟨by omega, rfl, .inr (.inr (.inr ⟨rfl, by omega⟩))⟩
  · rintro ⟨hb, rfl, ⟨rfl, hbits⟩ | ⟨rfl, hlow, hhigh⟩ | ⟨rfl, hbits⟩ | ⟨rfl, hbits⟩⟩
    · have hb : b.toNat = bits := hb
      rw [hb, if_pos hbits]
    · have hb : b.toNat = bits + 0xc0 := hb
      rw [hb, if_neg (by omega), if_neg (by omega), if_pos (by omega), Nat.add_sub_cancel]
    · have hb : b.toNat = bits + 0xe0 := hb
      rw [hb, if_neg (by omega), if_neg (by omega), if_neg (by omega), if_pos (by omega), Nat.add_sub_cancel]
    · have hb : b.toNat = bits + 0xf0 := hb
      rw [hb, if_neg (by omega), if_neg (by omega), if_neg (by omega), if_neg (by omega), if_pos (by omega),
        Nat.add_sub_cancel]

/-- The first byte of a character is a number of its own. -/
theorem IsLead.add_leadMark_lt (h : IsLead count bits) : bits + leadMark count < 256 := by
  obtain ⟨rfl, h⟩ | ⟨rfl, -, h⟩ | ⟨rfl, h⟩ | ⟨rfl, h⟩ := h <;> simp only [leadMark] <;> omega

/-- How many bytes stand behind the first one, by the code point. -/
theorem tailLength_eq_iff :
    (tailLength code = 0 ↔ code ≤ 0x7f) ∧ (tailLength code = 1 ↔ 0x7f < code ∧ code ≤ 0x7ff) ∧
      (tailLength code = 2 ↔ 0x7ff < code ∧ code ≤ 0xffff) ∧ (tailLength code = 3 ↔ 0xffff < code) := by
  rw [tailLength]
  grind

/-- The code points of characters with a number of bytes behind the first one, by the bits of the first byte and the byte
behind it. -/
theorem isValidChar_and_tailLength_iff :
    code.isValidChar ∧ tailLength code = count ↔
      IsLead count (code / 64 ^ count) ∧
        AllowsSecond count (code / 64 ^ count) (.ofNat (code / 64 ^ (count - 1) % 64 + 0x80)) := by
  obtain ⟨hzero, hone, htwo, hthree⟩ := @tailLength_eq_iff code
  rw [isValidChar_iff, AllowsSecond, UInt8.le_iff_toNat_le, UInt8.le_iff_toNat_le, UInt8.toNat_ofNat']
  -- The second byte has a range of its own only when two or three bytes stand behind the first one.
  match count with
  | 0 =>
    simp [hzero, IsLead, secondRange]
    omega
  | 1 =>
    simp [hone, IsLead, secondRange]
    omega
  | 2 =>
    simp [htwo, IsLead, secondRange, apply_ite UInt8.toNat]
    split_ifs <;> omega
  | 3 =>
    simp [hthree, IsLead, secondRange, apply_ite UInt8.toNat]
    split_ifs <;> omega
  | count + 4 =>
    have hmost : tailLength code ≤ 3 := by
      unfold tailLength
      split_ifs <;> omega
    simp [IsLead]
    omega

/-! ## Reading a character -/

/-- Bytes go on with the bits of a first byte when they start with the further digits and the second byte is allowed. -/
theorem continueCode_secondRange_eq_ok_iff :
    continueCode count (secondRange count bits) bits read bytes = .ok code ↔
      code / 64 ^ count = bits ∧ tailBytes count code <+: bytes ∧
        AllowsSecond count bits (.ofNat (code / 64 ^ (count - 1) % 64 + 0x80)) := by
  cases count with
  | zero =>
    have hcode : continueCode 0 (secondRange 0 bits) bits read bytes = .ok code ↔ code / 64 ^ 0 = bits := by
      simp [continueCode, eq_comm]
    have hallowed : AllowsSecond 0 bits (.ofNat (code / 64 ^ (0 - 1) % 64 + 0x80)) := (tailByte_iff.mpr ⟨rfl, rfl⟩).1
    rw [hcode, tailBytes]
    exact ⟨fun h => ⟨h, List.nil_prefix, hallowed⟩, And.left⟩
  | succ count =>
    cases bytes with
    | nil => simp [continueCode, tailBytes]
    | cons b bytes =>
      have hdigits : code / 64 ^ (count + 1) = code / 64 ^ count / 64 := by rw [Nat.pow_succ, Nat.div_div_eq_div_mul]
      obtain ⟨hlow, hhigh⟩ := secondRange_within (count + 1) bits
      rw [continueCode_cons_eq_ok_iff, continueCode_eq_ok_iff, tailBytes, List.cons_prefix_cons, hdigits, Nat.add_sub_cancel]
      constructor
      · rintro ⟨⟨hfirst, hlast⟩, hdigit, htail⟩
        obtain ⟨hbits, rfl⟩ := tailByte_iff.mp ⟨⟨UInt8.le_trans hlow hfirst, UInt8.le_trans hlast hhigh⟩, hdigit⟩
        exact ⟨hbits, ⟨rfl, htail⟩, hfirst, hlast⟩
      · rintro ⟨hbits, ⟨rfl, htail⟩, hallowed⟩
        exact ⟨hallowed, (tailByte_iff.mpr ⟨hbits, rfl⟩).2, htail⟩

/-- The first byte and those behind it are read exactly when they are the encoding of a character. -/
theorem readsCode_iff :
    (∃ range bits, leadByte? b = some (count, range, bits) ∧ continueCode count range bits read bytes = .ok code) ↔
      code.isValidChar ∧ tailLength code = count ∧ leadByte code = b ∧ tailBytes count code <+: bytes := by
  constructor
  · rintro ⟨range, bits, hlead, hcode⟩
    obtain ⟨hb, rfl, hbits⟩ := leadByte?_eq_some_iff.mp hlead
    obtain ⟨rfl, htail, hsecond⟩ := continueCode_secondRange_eq_ok_iff.mp hcode
    obtain ⟨hvalid, rfl⟩ := isValidChar_and_tailLength_iff.mpr ⟨hbits, hsecond⟩
    refine ⟨hvalid, rfl, ?_, htail⟩
    rw [leadByte, ← hb, UInt8.ofNat_toNat]
  · rintro ⟨hvalid, rfl, rfl, htail⟩
    obtain ⟨hbits, hsecond⟩ := isValidChar_and_tailLength_iff.mp ⟨hvalid, rfl⟩
    refine ⟨_, _, leadByte?_eq_some_iff.mpr ⟨?_, rfl, hbits⟩, continueCode_secondRange_eq_ok_iff.mpr ⟨rfl, htail, hsecond⟩⟩
    rw [leadByte, UInt8.toNat_ofNat', Nat.mod_eq_of_lt hbits.add_leadMark_lt]

/-! ## Texts -/

/-- Bytes that belong to the character before are passed over. -/
theorem decodeFrom_append {skip : Nat} {front : Bytes} (h : front.length = skip) (position : Nat) (rest : Bytes) :
    decodeFrom position skip (front ++ rest) = decodeFrom (position + skip) 0 rest := by
  induction front generalizing position skip with
  | nil =>
    obtain rfl : 0 = skip := h
    rfl
  | cons b front ih =>
    obtain rfl : front.length + 1 = skip := h
    rw [List.cons_append, decodeFrom, ih rfl, Nat.add_assoc, Nat.add_comm 1]

/-- The bytes behind a first one are as many as their number says. -/
theorem length_tailBytes (count code : Nat) : (tailBytes count code).length = count := by
  induction count with
  | zero => rfl
  | succ count ih => rw [tailBytes, List.length_cons, ih]

/-- A character is decoded from its encoding. -/
theorem decodeFrom_utf8EncodeChar (position : Nat) (c : Char) (rest : Bytes) :
    decodeFrom position 0 (String.utf8EncodeChar c ++ rest) =
      (decodeFrom (position + 1 + tailLength c.toNat) 0 rest).map (c :: ·) := by
  have hvalid : c.toNat.isValidChar := c.valid
  obtain ⟨range, bits, hlead, hcode⟩ : ∃ range bits,
      leadByte? (leadByte c.toNat) = some (tailLength c.toNat, range, bits) ∧
        continueCode (tailLength c.toNat) range bits 0 (tailBytes (tailLength c.toNat) c.toNat ++ rest) = .ok c.toNat :=
    readsCode_iff.mpr ⟨hvalid, rfl, rfl, List.prefix_append _ _⟩
  rw [utf8EncodeChar_eq, List.cons_append, decodeFrom, hlead]
  dsimp only
  rw [hcode]
  dsimp only
  rw [decodeFrom_append (length_tailBytes _ _), Char.ofNat_toNat]

/-- What is decoded starts with a character whose encoding the bytes start with. -/
theorem exists_char_of_decodeFrom {position : Nat} {t : Text} (h : decodeFrom position 0 (b :: bytes) = .ok t) :
    ∃ c rest u, b :: bytes = String.utf8EncodeChar c ++ rest ∧ t = c :: u ∧
      decodeFrom (position + 1 + tailLength c.toNat) 0 rest = .ok u := by
  rw [decodeFrom] at h
  cases hlead : leadByte? b with
  | none => simp [hlead] at h
  | some lead =>
    obtain ⟨count, range, bits⟩ := lead
    cases hcode : continueCode count range bits 0 bytes with
    | error fault => simp [hlead, hcode] at h
    | ok code =>
      obtain ⟨hvalid, rfl, rfl, rest, rfl⟩ := readsCode_iff.mp ⟨range, bits, hlead, hcode⟩
      have hchar : (Char.ofNat code).toNat = code := by
        rw [Char.ofNat, dif_pos hvalid]
        rfl
      simp only [hlead, hcode, decodeFrom_append (length_tailBytes _ _)] at h
      refine ⟨Char.ofNat code, rest, ?_⟩
      rw [utf8EncodeChar_eq, hchar]
      cases hrest : decodeFrom (position + 1 + tailLength code) 0 rest with
      | error e => simp [hrest, Except.map] at h
      | ok u =>
        rw [hrest] at h
        exact ⟨u, rfl, (Except.ok.inj h).symm, rfl⟩

/-- Decoding undoes encoding. -/
theorem decodeFrom_encode (position : Nat) (t : Text) : decodeFrom position 0 (encode t) = .ok t := by
  induction t generalizing position with
  | nil => rfl
  | cons c t ih =>
    rw [encode, List.flatMap_cons, decodeFrom_utf8EncodeChar, ← encode, ih]
    rfl

/-- Only what is encoded is decoded. -/
theorem eq_encode_of_decodeFrom {position : Nat} {t : Text} (h : decodeFrom position 0 bytes = .ok t) :
    bytes = encode t := by
  induction t generalizing position bytes with
  | nil =>
    cases bytes with
    | nil => rfl
    | cons b bytes =>
      obtain ⟨c, rest, u, -, ht, -⟩ := exists_char_of_decodeFrom h
      cases ht
  | cons c t ih =>
    cases bytes with
    | nil => cases h
    | cons b bytes =>
      obtain ⟨c, rest, u, hbytes, ht, hrest⟩ := exists_char_of_decodeFrom h
      obtain ⟨rfl, rfl⟩ := List.cons.inj ht
      rw [hbytes, ih hrest, encode, encode, List.flatMap_cons]

/-- **Bytes and texts.** Bytes stand for a text exactly when they are its encoding. -/
theorem decode_eq_ok_iff {t : Text} : decode bytes = .ok t ↔ bytes = encode t :=
  ⟨eq_encode_of_decodeFrom, fun h => h ▸ decodeFrom_encode 0 t⟩

end LuaTypings.Text
