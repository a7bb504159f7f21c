import ConnectionBroker.Text.Utf8

/-! # Decoding what was encoded

The bytes of a text are read back as its characters, whatever bytes follow.
-/

namespace ConnectionBroker.Text.Utf8

/-! ## Leads -/

/-- A code point is below 0xD800, or above the surrogates and below 0x110000. -/
theorem toNat_ranges (c : Char) :
    c.toNat < 0xD800 ∨ 0xE000 ≤ c.toNat ∧ c.toNat < 0x110000 := by
  have hvalid := c.valid
  simp only [UInt32.isValidChar, Nat.isValidChar] at hvalid
  have htoNat : c.toNat = c.val.toNat := rfl
  omega

theorem ofByte?_two {n : Nat} (hlow : 0x80 ≤ n) (hhigh : n < 0x800) :
    Lead.ofByte? (0xC0 + n / 0x40) = some ⟨1, 0x80, 0xBF, n / 0x40⟩ := by
  rw [Lead.ofByte?, if_pos (by omega), Nat.add_sub_cancel_left]

/-- The first of three bytes lets the second be what it is: no overlong form and no surrogate. -/
theorem ofByte?_three {n : Nat} (hlow : 0x800 ≤ n) (hhigh : n < 0x10000)
    (hsurrogate : n < 0xD800 ∨ 0xE000 ≤ n) :
    ∃ low high, Lead.ofByte? (0xE0 + n / 0x1000) = some ⟨2, low, high, n / 0x1000⟩ ∧
      low ≤ 0x80 + n / 0x40 % 0x40 ∧ 0x80 + n / 0x40 % 0x40 ≤ high := by
  unfold Lead.ofByte?
  rw [if_neg (by omega)]
  by_cases hfirst : n < 0x1000
  · have hzero : n / 0x1000 = 0 := by omega
    rw [hzero, if_pos rfl]
    exact ⟨_, _, rfl, by omega, by omega⟩
  · rw [if_neg (by omega)]
    by_cases hlast : 0xD000 ≤ n ∧ n < 0xE000
    · have hthirteen : n / 0x1000 = 0xD := by omega
      rw [hthirteen, if_pos rfl]
      exact ⟨_, _, rfl, by omega, by omega⟩
    · rw [if_neg (by omega), if_pos (by omega), Nat.add_sub_cancel_left]
      exact ⟨_, _, rfl, by omega, by omega⟩

/-- The first of four bytes lets the second be what it is: no overlong form, nothing past the last
code point. -/
theorem ofByte?_four {n : Nat} (hlow : 0x10000 ≤ n) (hhigh : n < 0x110000) :
    ∃ low high, Lead.ofByte? (0xF0 + n / 0x40000) = some ⟨3, low, high, n / 0x40000⟩ ∧
      low ≤ 0x80 + n / 0x1000 % 0x40 ∧ 0x80 + n / 0x1000 % 0x40 ≤ high := by
  unfold Lead.ofByte?
  rw [if_neg (by omega), if_neg (by omega), if_neg (by omega), if_neg (by omega)]
  by_cases hfirst : n < 0x40000
  · have hzero : n / 0x40000 = 0 := by omega
    rw [hzero, if_pos rfl]
    exact ⟨_, _, rfl, by omega, by omega⟩
  · rw [if_neg (by omega)]
    by_cases hlast : 0x100000 ≤ n
    · have hfour : n / 0x40000 = 4 := by omega
      rw [hfour, if_neg (by omega), if_pos rfl]
      exact ⟨_, _, rfl, by omega, by omega⟩
    · rw [if_pos (by omega), Nat.add_sub_cancel_left]
      exact ⟨_, _, rfl, by omega, by omega⟩

/-! ## Characters -/

theorem toNat_ofNat {n : Nat} (h : n < 0x100) : (UInt8.ofNat n).toNat = n := by
  rw [UInt8.toNat_ofNat']
  omega

/-- A byte within its range adds its bits to the code point. -/
theorem continuation_cons {low high n : Nat} (following value : Nat) (bytes : List UInt8)
    (hn : n < 0x40) (hlow : low ≤ 0x80 + n) (hhigh : 0x80 + n ≤ high) :
    continuation (following + 1) low high value (UInt8.ofNat (0x80 + n) :: bytes) =
      continuation following 0x80 0xBF (value * 0x40 + n) bytes := by
  rw [continuation, toNat_ofNat (by omega), if_pos ⟨hlow, hhigh⟩, Nat.add_sub_cancel_left]

/-- A lead and the bytes that it announces are read as one character. -/
theorem pieces_of_lead {b : Nat} {lead : Lead} (hlow : 0x80 ≤ b) (hhigh : b < 0x100)
    (hlead : Lead.ofByte? b = some lead) {bytes rest : List UInt8} {c : Char}
    (hread : continuation lead.following lead.low lead.high lead.bits bytes =
      (some c.toNat, rest)) :
    pieces (UInt8.ofNat b :: bytes) = some c :: pieces rest := by
  rw [pieces, toNat_ofNat hhigh, if_neg (by omega)]
  simp only [hlead, hread, Option.map_some, Char.ofNat_toNat]

/-- The bytes of a character are read as that character. -/
theorem pieces_encodeChar_append (c : Char) (bytes : List UInt8) :
    pieces (encodeChar c ++ bytes) = some c :: pieces bytes := by
  have hranges := toNat_ranges c
  -- One case for each number of bytes; the surrogates are needed only where there are three.
  by_cases hone : c.toNat < 0x80
  · have hbytes : encodeChar c = [UInt8.ofNat c.toNat] := if_pos hone
    rw [hbytes, List.singleton_append, pieces, toNat_ofNat (by omega), if_pos hone,
      Char.ofNat_toNat]
  by_cases htwo : c.toNat < 0x800
  · have hbytes : encodeChar c = [_, _] := (if_neg hone).trans (if_pos htwo)
    rw [hbytes]
    refine pieces_of_lead (by omega) (by omega) (ofByte?_two (by omega) htwo) ?_
    change continuation 1 0x80 0xBF (c.toNat / 0x40) (_ :: bytes) = _
    rw [continuation_cons 0 _ _ (by omega) (by omega) (by omega), continuation]
    congr 2
    omega
  by_cases hthree : c.toNat < 0x10000
  · have hbytes : encodeChar c = [_, _, _] :=
      (if_neg hone).trans ((if_neg htwo).trans (if_pos hthree))
    obtain ⟨low, high, hlead, hlow, hhigh⟩ :=
      ofByte?_three (Nat.le_of_not_lt htwo) hthree (by omega)
    rw [hbytes]
    refine pieces_of_lead (by omega) (by omega) hlead ?_
    change continuation 2 low high (c.toNat / 0x1000) (_ :: _ :: bytes) = _
    rw [continuation_cons 1 _ _ (by omega) hlow hhigh,
      continuation_cons 0 _ _ (by omega) (by omega) (by omega), continuation]
    congr 2
    omega
  · have hbytes : encodeChar c = [_, _, _, _] :=
      (if_neg hone).trans ((if_neg htwo).trans (if_neg hthree))
    obtain ⟨low, high, hlead, hlow, hhigh⟩ :=
      ofByte?_four (Nat.le_of_not_lt hthree) (by omega)
    rw [hbytes]
    refine pieces_of_lead (by omega) (by omega) hlead ?_
    change continuation 3 low high (c.toNat / 0x40000) (_ :: _ :: _ :: bytes) = _
    rw [continuation_cons 2 _ _ (by omega) hlow hhigh,
      continuation_cons 1 _ _ (by omega) (by omega) (by omega),
      continuation_cons 0 _ _ (by omega) (by omega) (by omega), continuation]
    congr 2
    omega

theorem encodeChar_ne_nil (c : Char) : encodeChar c ≠ [] := by
  intro hnil
  have hread := pieces_encodeChar_append c []
  simp [hnil, pieces] at hread

/-! ## Texts -/

theorem pieces_encode (text : List Char) : pieces (encode text) = text.map some := by
  induction text with
  | nil => rw [encode_nil, pieces, List.map_nil]
  | cons c rest ih => rw [encode_cons, pieces_encodeChar_append, ih, List.map_cons]

theorem decode?_encode (text : List Char) : decode? (encode text) = some text := by
  rw [decode?, pieces_encode]
  induction text with
  | nil => rfl
  | cons c rest ih => simp_all

theorem decodeLenient_encode (text : List Char) : decodeLenient (encode text) = text := by
  rw [decodeLenient, pieces_encode, List.map_map]
  exact List.map_id text

/-! ## Bytes of other characters than ASCII -/

/-- A character past ASCII has no ASCII byte. -/
theorem le_toNat_of_mem_encodeChar {c : Char} (hc : 0x80 ≤ c.toNat) {b : UInt8}
    (hb : b ∈ encodeChar c) : 0x80 ≤ b.toNat := by
  have hranges := toNat_ranges c
  have hbig {n : Nat} (hlow : 0x80 ≤ n) (hhigh : n < 0x100) : 0x80 ≤ (UInt8.ofNat n).toNat := by
    rwa [toNat_ofNat hhigh]
  simp only [encodeChar, if_neg (Nat.not_lt.mpr hc)] at hb
  split at hb
  · simp only [List.mem_cons, List.not_mem_nil, or_false] at hb
    obtain rfl | rfl := hb <;> exact hbig (by omega) (by omega)
  · split at hb
    · simp only [List.mem_cons, List.not_mem_nil, or_false] at hb
      obtain rfl | rfl | rfl := hb <;> exact hbig (by omega) (by omega)
    · simp only [List.mem_cons, List.not_mem_nil, or_false] at hb
      obtain rfl | rfl | rfl | rfl := hb <;> exact hbig (by omega) (by omega)

end ConnectionBroker.Text.Utf8
