import ConnectionBroker.Text.Percent
import ConnectionBroker.Proofs.Text.Utf8

/-! # Percent-encoding and back

A text that was percent-encoded decodes to itself, and its spelling holds no delimiter.
-/

namespace ConnectionBroker.Text.Percent

/-! ## Decoding what was encoded -/

theorem decode_encodeByte_append (b : UInt8) (rest : List Char) :
    decode (encodeByte b ++ rest) = b :: decode rest := by
  have hbyte : b.toNat < 256 := b.toNat_lt
  have hdigits : b.toNat / 16 * 16 + b.toNat % 16 = b.toNat := by omega
  change decode ('%' :: upperHexDigit (b.toNat / 16) :: upperHexDigit (b.toNat % 16) :: rest) = _
  rw [decode, hexDigitValue?_upperHexDigit _ (by omega), hexDigitValue?_upperHexDigit _ (by omega)]
  simp only [hdigits, UInt8.ofNat_toNat]

theorem decode_encodeBytes_append (bytes : List UInt8) (rest : List Char) :
    decode (bytes.flatMap encodeByte ++ rest) = bytes ++ decode rest := by
  induction bytes with
  | nil => rfl
  | cons b bytes ih =>
      rw [List.flatMap_cons, List.append_assoc, decode_encodeByte_append, ih, List.cons_append]

/-- Every character but the percent sign stands for its own bytes. -/
theorem decode_cons_of_ne {c : Char} (hc : c ≠ '%') (rest : List Char) :
    decode (c :: rest) = Utf8.encodeChar c ++ decode rest := by
  rw [decode]
  rintro a b tail rfl
  exact absurd rfl hc

section Keep

variable {keep : Char → Bool}

theorem decode_encodeChar_append (hkeep : keep '%' = false) (c : Char) (rest : List Char) :
    decode (encodeChar keep c ++ rest) = Utf8.encodeChar c ++ decode rest := by
  unfold encodeChar
  split
  · have hc : c ≠ '%' := by
      rintro rfl
      simp_all
    exact decode_cons_of_ne hc rest
  · exact decode_encodeBytes_append _ _

theorem decode_encode_append (hkeep : keep '%' = false) (text rest : List Char) :
    decode (encode keep text ++ rest) = Utf8.encode text ++ decode rest := by
  induction text with
  | nil => rfl
  | cons c text ih =>
      rw [encode_cons, List.append_assoc, decode_encodeChar_append hkeep, ih, Utf8.encode_cons,
        List.append_assoc]

theorem decode_encode (hkeep : keep '%' = false) (text : List Char) :
    decode (encode keep text) = Utf8.encode text := by
  simpa [decode] using decode_encode_append hkeep text []

/-- A text whose percent signs were encoded is read back. -/
theorem decodeText?_encode (hkeep : keep '%' = false) (text : String) :
    decodeText? (encode keep text.toList) = some text := by
  rw [decodeText?, decode_encode hkeep, Utf8.decode?_encode, Option.map_some, String.ofList_toList]

theorem decodeTextLenient_encode (hkeep : keep '%' = false) (text : String) :
    decodeTextLenient (encode keep text.toList) = text := by
  rw [decodeTextLenient, decode_encode hkeep, Utf8.decodeLenient_encode, String.ofList_toList]

/-! ## The spelling -/

theorem encodeChar_ne_nil (c : Char) : encodeChar keep c ≠ [] := by
  obtain ⟨b, bytes, hbytes⟩ := List.exists_cons_of_ne_nil (Utf8.encodeChar_ne_nil c)
  unfold encodeChar
  split
  · exact List.cons_ne_nil _ _
  · rw [hbytes]
    exact List.cons_ne_nil _ _

theorem encode_eq_nil_iff {text : List Char} : encode keep text = [] ↔ text = [] := by
  cases text with
  | nil => simp
  | cons c text => simp [encodeChar_ne_nil]

/-- An encoded text is made of what is kept, percent signs and hexadecimal digits. -/
theorem mem_encode {text : List Char} {c : Char} (hc : c ∈ encode keep text) :
    keep c = true ∨ c = '%' ∨ ∃ n < 16, c = upperHexDigit n := by
  obtain ⟨original, -, hc⟩ := List.mem_flatMap.mp hc
  unfold encodeChar at hc
  split at hc
  · obtain rfl := List.mem_singleton.mp hc
    exact .inl ‹_›
  · obtain ⟨b, -, hc⟩ := List.mem_flatMap.mp hc
    have hbyte : b.toNat < 256 := b.toNat_lt
    simp only [encodeByte, List.mem_cons, List.not_mem_nil, or_false] at hc
    obtain rfl | rfl | rfl := hc
    · exact .inr (.inl rfl)
    · exact .inr (.inr ⟨_, by omega, rfl⟩)
    · exact .inr (.inr ⟨_, by omega, rfl⟩)

theorem encode_append (first second : List Char) :
    encode keep (first ++ second) = encode keep first ++ encode keep second :=
  List.flatMap_append

/-- What is kept besides makes no difference to a text that does not hold it. -/
theorem encode_congr {keep' : Char → Bool} {text : List Char} (h : ∀ c ∈ text, keep c = keep' c) :
    encode keep text = encode keep' text := by
  rw [encode, encode, List.flatMap_def, List.flatMap_def]
  refine congrArg List.flatten (List.map_congr_left fun c hc => ?_)
  rw [encodeChar, encodeChar, h c hc]

/-- Different texts have different spellings. -/
theorem encode_inj (hkeep : keep '%' = false) {first second : List Char}
    (h : encode keep first = encode keep second) : first = second := by
  have hbytes : Utf8.encode first = Utf8.encode second := by
    rw [← decode_encode hkeep, ← decode_encode hkeep, h]
  have htexts : Utf8.decode? (Utf8.encode first) = Utf8.decode? (Utf8.encode second) := by
    rw [hbytes]
  rw [Utf8.decode?_encode, Utf8.decode?_encode] at htexts
  exact Option.some.inj htexts

end Keep

/-! ## Plain texts -/

/-- Whether a character is a percent sign or has no meaning of its own in a URI. -/
def isPlain (c : Char) : Bool :=
  isUnreserved c || c == '%'

theorem isUnreserved_percent : isUnreserved '%' = false := by
  decide

theorem isUnreserved_upperHexDigit : ∀ n < 16, isUnreserved (upperHexDigit n) = true := by
  decide

/-- With everything but the unreserved characters encoded, a text is plain. -/
theorem isPlain_of_mem_encode {text : List Char} {c : Char}
    (hc : c ∈ encode isUnreserved text) : isPlain c = true := by
  rw [isPlain, Bool.or_eq_true, beq_iff_eq]
  obtain hkept | hpercent | ⟨n, hn, rfl⟩ := mem_encode hc
  · exact .inl hkept
  · exact .inr hpercent
  · exact .inl (isUnreserved_upperHexDigit n hn)

theorem toNat_lt_of_isAlphanum {c : Char} (hc : c.isAlphanum = true) : c.toNat < 0x80 := by
  have hascii {last : Char} (hle : c.val ≤ last.val) (hlast : last.toNat < 0x80) :
      c.toNat < 0x80 := Nat.lt_of_le_of_lt (UInt32.le_iff_toNat_le.mp hle) hlast
  obtain hletter | hdigit := Bool.or_eq_true_iff.mp hc
  · obtain hupper | hlower := Bool.or_eq_true_iff.mp hletter
    · have hrange : c.val ≥ 'A'.val ∧ c.val ≤ 'Z'.val := of_decide_eq_true hupper
      exact hascii hrange.2 (by decide)
    · have hle : c.val ≤ 'z'.val := of_decide_eq_true (Bool.and_eq_true_iff.mp hlower).2
      exact hascii hle (by decide)
  · have hle : c.val ≤ '9'.val := of_decide_eq_true (Bool.and_eq_true_iff.mp hdigit).2
    exact hascii hle (by decide)

theorem toNat_lt_of_isPlain {c : Char} (hc : isPlain c = true) : c.toNat < 0x80 := by
  simp only [isPlain, isUnreserved, Bool.or_eq_true, beq_iff_eq] at hc
  obtain ((((halphanum | rfl) | rfl) | rfl) | rfl) | rfl := hc
  · exact toNat_lt_of_isAlphanum halphanum
  all_goals decide

/-- What holds of each plain character of ASCII holds of every plain character. -/
theorem forall_isPlain {p : Char → Prop}
    (h : ∀ n < 0x80, isPlain (Char.ofNat n) = true → p (Char.ofNat n)) {c : Char}
    (hc : isPlain c = true) : p c := by
  have hcode := h c.toNat (toNat_lt_of_isPlain hc)
  rw [Char.ofNat_toNat] at hcode
  exact hcode hc

/-- A delimiter does not occur in a plain text. -/
theorem not_mem_of_isPlain {text : List Char} (h : ∀ c ∈ text, isPlain c = true) {delimiter : Char}
    (hdelimiter : isPlain delimiter = false) : delimiter ∉ text := by
  intro hmem
  rw [h delimiter hmem] at hdelimiter
  exact absurd hdelimiter (by decide)

end ConnectionBroker.Text.Percent
