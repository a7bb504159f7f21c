/-! # UTF-8

A byte sequence is read from left to right. At each point the bytes either spell a character or
are cut off where the first byte that fits no character stands; what was cut off counts as one
malformed piece. Strict and lenient decoding differ only in what they do with such a piece.
-/

namespace ConnectionBroker.Text.Utf8

/-! ## Encoding -/

/-- The bytes of one character: one to four of them, by its code point. -/
def encodeChar (c : Char) : List UInt8 :=
  let n := c.toNat
  if n < 0x80 then
    [UInt8.ofNat n]
  else if n < 0x800 then
    [UInt8.ofNat (0xC0 + n / 0x40), UInt8.ofNat (0x80 + n % 0x40)]
  else if n < 0x10000 then
    [UInt8.ofNat (0xE0 + n / 0x1000), UInt8.ofNat (0x80 + n / 0x40 % 0x40),
      UInt8.ofNat (0x80 + n % 0x40)]
  else
    [UInt8.ofNat (0xF0 + n / 0x40000), UInt8.ofNat (0x80 + n / 0x1000 % 0x40),
      UInt8.ofNat (0x80 + n / 0x40 % 0x40), UInt8.ofNat (0x80 + n % 0x40)]

def encode (text : List Char) : List UInt8 :=
  text.flatMap encodeChar

@[simp] theorem encode_nil : encode [] = [] := rfl

@[simp] theorem encode_cons (c : Char) (text : List Char) :
    encode (c :: text) = encodeChar c ++ encode text := rfl

theorem encode_append (first second : List Char) :
    encode (first ++ second) = encode first ++ encode second := by
  simp [encode]

/-! ## Decoding -/

/-- What the first byte of a longer character announces. -/
structure Lead where
  following : Nat
  /-- The least value the next byte may have. -/
  low : Nat
  /-- The greatest value the next byte may have. -/
  high : Nat
  /-- The bits of the code point that the first byte itself holds. -/
  bits : Nat

/-- The ranges of the second byte keep out overlong forms, surrogates and what lies past the last
code point. -/
def Lead.ofByte? (b : Nat) : Option Lead :=
  if 0xC2 ≤ b ∧ b ≤ 0xDF then some ⟨1, 0x80, 0xBF, b - 0xC0⟩
  else if b = 0xE0 then some ⟨2, 0xA0, 0xBF, 0⟩
  else if b = 0xED then some ⟨2, 0x80, 0x9F, 0xD⟩
  else if 0xE1 ≤ b ∧ b ≤ 0xEF then some ⟨2, 0x80, 0xBF, b - 0xE0⟩
  else if b = 0xF0 then some ⟨3, 0x90, 0xBF, 0⟩
  else if 0xF1 ≤ b ∧ b ≤ 0xF3 then some ⟨3, 0x80, 0xBF, b - 0xF0⟩
  else if b = 0xF4 then some ⟨3, 0x80, 0x8F, 4⟩
  else none

/-- Reads the bytes that a lead announced, the first of them between `low` and `high`. The code
point is `none` when a byte is missing or does not fit; the bytes up to there are used up. -/
def continuation : (following low high value : Nat) → List UInt8 → Option Nat × List UInt8
  | 0, _, _, value, bytes => (some value, bytes)
  | _ + 1, _, _, _, [] => (none, [])
  | n + 1, low, high, value, b :: bytes =>
      if low ≤ b.toNat ∧ b.toNat ≤ high then
        continuation n 0x80 0xBF (value * 0x40 + (b.toNat - 0x80)) bytes
      else
        (none, b :: bytes)

theorem length_continuation_le (n low high value : Nat) (bytes : List UInt8) :
    (continuation n low high value bytes).2.length ≤ bytes.length := by
  fun_induction continuation n low high value bytes with
  | case1 => simp
  | case2 => simp
  | case3 n low high value b bytes _ ih => simp only [List.length_cons]; omega
  | case4 => simp

/-- The characters that the bytes spell, `none` standing for each malformed piece. -/
def pieces : List UInt8 → List (Option Char)
  | [] => []
  | b :: bytes =>
      if b.toNat < 0x80 then
        some (Char.ofNat b.toNat) :: pieces bytes
      else
        match Lead.ofByte? b.toNat with
        | none => none :: pieces bytes
        | some lead =>
            let read := continuation lead.following lead.low lead.high lead.bits bytes
            read.1.map Char.ofNat :: pieces read.2
  termination_by bytes => bytes.length
  decreasing_by
    · simp
    · simp
    · have := length_continuation_le lead.following lead.low lead.high lead.bits bytes
      simp only [List.length_cons]
      omega

/-- The text that the bytes spell, if no piece is malformed. -/
def decode? (bytes : List UInt8) : Option (List Char) :=
  (pieces bytes).mapM id

/-- The text that the bytes spell, with the replacement character for each malformed piece. -/
def decodeLenient (bytes : List UInt8) : List Char :=
  (pieces bytes).map (·.getD '\uFFFD')

end ConnectionBroker.Text.Utf8
