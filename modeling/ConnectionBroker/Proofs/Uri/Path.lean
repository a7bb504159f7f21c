import ConnectionBroker.Uri.Path
import ConnectionBroker.Proofs.Text.Percent

/-! # Paths without dot segments

Where no segment is a dot segment, a generic path is kept as it is written. Encoding makes no dot
segment of a text that is none.
-/

namespace ConnectionBroker.Uri.Path

open Text.Percent

/-! ## Encoded dots -/

theorem decodeDots_cons_of_ne {c : Char} (hc : c ≠ '%') (rest : List Char) :
    decodeDots (c :: rest) = c :: decodeDots rest := by
  rw [decodeDots] <;> rintro tail rfl <;> exact absurd rfl hc

theorem decodeDots_append_of_not_mem {text : List Char} (h : '%' ∉ text) (rest : List Char) :
    decodeDots (text ++ rest) = text ++ decodeDots rest := by
  induction text with
  | nil => rfl
  | cons c text ih =>
      obtain ⟨hc, htext⟩ := not_or.mp (mt List.mem_cons.mpr h)
      rw [List.cons_append, decodeDots_cons_of_ne (Ne.symm hc), ih htext, List.cons_append]

/-- A digit spells no value but the one it was written for. -/
theorem eq_of_upperHexDigit_eq {n value : Nat} (hn : n < 16) {c : Char}
    (hc : Text.upperHexDigit n = c) (hvalue : Text.hexDigitValue? c = some value) : n = value := by
  rw [← hc, Text.hexDigitValue?_upperHexDigit n hn] at hvalue
  exact Option.some.inj hvalue

/-- The encoding of a byte other than that of a dot is left alone. -/
theorem decodeDots_encodeByte_append {b : UInt8} (hb : b.toNat ≠ 0x2E) (rest : List Char) :
    decodeDots (encodeByte b ++ rest) = encodeByte b ++ decodeDots rest := by
  have hbyte : b.toNat < 256 := b.toNat_lt
  have hhigh : b.toNat / 16 < 16 := by omega
  have hlow : b.toNat % 16 < 16 := by omega
  have hdigits : '%' ∉ [Text.upperHexDigit (b.toNat / 16), Text.upperHexDigit (b.toNat % 16)] := by
    intro hmem
    simp only [List.mem_cons, List.not_mem_nil, or_false] at hmem
    obtain hdigit | hdigit := hmem
    · exact absurd (hdigit ▸ isUnreserved_upperHexDigit _ hhigh) (by decide)
    · exact absurd (hdigit ▸ isUnreserved_upperHexDigit _ hlow) (by decide)
  change decodeDots ('%' :: ([_, _] ++ rest)) = '%' :: ([_, _] ++ decodeDots rest)
  rw [decodeDots, decodeDots_append_of_not_mem hdigits]
  -- The two digits could only start an encoded dot if the byte were 0x2E.
  all_goals
    rintro tail - hdot
    simp only [List.cons_append, List.cons.injEq] at hdot
    have htwo : b.toNat / 16 = 2 := eq_of_upperHexDigit_eq hhigh hdot.1 (by decide)
    have hlast : b.toNat % 16 = 0xE := eq_of_upperHexDigit_eq hlow hdot.2.1 (by decide)
    omega

/-- Only a dot has the byte of a dot. -/
theorem toNat_ne_of_mem_encodeChar {c : Char} (hc : c ≠ '.') {b : UInt8}
    (hb : b ∈ Text.Utf8.encodeChar c) : b.toNat ≠ 0x2E := by
  by_cases hascii : c.toNat < 0x80
  · have hbytes : Text.Utf8.encodeChar c = [UInt8.ofNat c.toNat] := if_pos hascii
    rw [hbytes, List.mem_singleton] at hb
    rw [hb, Text.Utf8.toNat_ofNat (by omega)]
    intro hcode
    exact hc (Char.toNat_inj.mp hcode)
  · have := Text.Utf8.le_toNat_of_mem_encodeChar (Nat.le_of_not_lt hascii) hb
    omega

theorem decodeDots_encodeBytes_append {bytes : List UInt8} (h : ∀ b ∈ bytes, b.toNat ≠ 0x2E)
    (rest : List Char) :
    decodeDots (bytes.flatMap encodeByte ++ rest) =
      bytes.flatMap encodeByte ++ decodeDots rest := by
  induction bytes with
  | nil => rfl
  | cons b bytes ih =>
      obtain ⟨hb, hbytes⟩ := List.forall_mem_cons.mp h
      rw [List.flatMap_cons, List.append_assoc, decodeDots_encodeByte_append hb, ih hbytes,
        List.append_assoc]

/-- An encoded text holds no encoded dot. -/
theorem decodeDots_encode (text : List Char) :
    decodeDots (encode isUnreserved text) = encode isUnreserved text := by
  induction text with
  | nil => rfl
  | cons c text ih =>
      rw [encode_cons, encodeChar]
      split
      · have hc : c ≠ '%' := by
          rintro rfl
          simp [isUnreserved_percent] at *
        rw [List.singleton_append, decodeDots_cons_of_ne hc, ih]
      · have hc : c ≠ '.' := by
          rintro rfl
          exact absurd (by decide : isUnreserved '.' = true) ‹_›
        rw [decodeDots_encodeBytes_append fun b hb => toNat_ne_of_mem_encodeChar hc hb, ih]

/-! ## Dot segments -/

/-- Whether a raw segment is one of those that are resolved. -/
def isDots (segment : List Char) : Bool :=
  isDoubleDot segment || isSingleDot segment

theorem isDots_encode_eq_false {text : List Char} (hsingle : text ≠ ['.'])
    (hdouble : text ≠ ['.', '.']) : isDots (encode isUnreserved text) = false := by
  have hsingle' : encode isUnreserved text ≠ encode isUnreserved ['.'] :=
    mt (encode_inj isUnreserved_percent) hsingle
  have hdouble' : encode isUnreserved text ≠ encode isUnreserved ['.', '.'] :=
    mt (encode_inj isUnreserved_percent) hdouble
  rw [isDots, isDoubleDot, isSingleDot, decodeDots_encode]
  exact Bool.or_eq_false_iff.mpr ⟨beq_false_of_ne hdouble', beq_false_of_ne hsingle'⟩

/-! ## Resolving nothing -/

theorem push_generic (stack : List (List Char)) (text : List Char) :
    push .generic stack { text } = text :: stack := by
  cases stack <;> rfl

theorem step_of_not_dots {text : List Char} (h : isDots text = false) (stack : List (List Char)) :
    step .generic stack { text } = text :: stack := by
  obtain ⟨hdouble, hsingle⟩ := Bool.or_eq_false_iff.mp h
  simp only [step, hdouble, hsingle, push_generic, Bool.false_eq_true, if_false]

theorem lastStep_of_not_dots {text : List Char} (h : isDots text = false)
    (stack : List (List Char)) : lastStep .generic stack { text } = text :: stack := by
  rw [isDots] at h
  simp only [lastStep, h, push_generic, Bool.false_eq_true, if_false]

theorem resolve_of_not_dots {texts : List (List Char)} (h : ∀ text ∈ texts, isDots text = false)
    (stack : List (List Char)) :
    resolve .generic stack (texts.map fun text => { text }) = stack.reverse ++ texts := by
  induction texts generalizing stack with
  | nil => simp [resolve]
  | cons text rest ih =>
      obtain ⟨htext, hrest⟩ := List.forall_mem_cons.mp h
      cases rest with
      | nil => simp [resolve, lastStep_of_not_dots htext]
      | cons next rest =>
          have hstack := ih hrest (text :: stack)
          simp only [List.map_cons] at hstack ⊢
          rw [resolve, step_of_not_dots htext, hstack]
          simp

theorem segments_generic (text : List Char) : segments .generic text = Text.splitOn '/' text := by
  have hid : (fun c => if Family.generic.isSlash c then '/' else c) = id := by
    funext c
    simp only [Family.isSlash, Family.isSpecial, Bool.false_and, Bool.or_false, beq_iff_eq]
    split
    · exact Eq.symm ‹_›
    · rfl
  rw [segments, hid, List.map_id]

/-! ## Rooted paths -/

/-- The path of raw segments, each with a slash before it; no segments make no path. -/
def rooted (segments : List (List Char)) : List Char :=
  segments.flatMap ('/' :: ·)

theorem rooted_cons (first : List Char) (rest : List (List Char)) :
    rooted (first :: rest) = '/' :: Text.joinWith '/' (first :: rest) := by
  induction rest generalizing first with
  | nil => simp [rooted, Text.joinWith]
  | cons next rest ih =>
      rw [Text.joinWith, ← ih next]
      simp [rooted]

/-- After a first segment, a path joins it with the others. -/
theorem append_rooted (first : List Char) (rest : List (List Char)) :
    first ++ rooted rest = Text.joinWith '/' (first :: rest) := by
  cases rest with
  | nil => exact List.append_nil first
  | cons next rest => rw [rooted_cons, Text.joinWith]

/-- A path of raw segments is kept if none of them is a dot segment. -/
theorem afterAuthority_rooted {segments : List (List Char)}
    (h : ∀ segment ∈ segments, '/' ∉ segment ∧ isDots segment = false) :
    afterAuthority .generic (rooted segments) = rooted segments := by
  cases segments with
  | nil => rfl
  | cons first rest =>
      have hslashes : ∀ segment ∈ first :: rest, '/' ∉ segment := fun segment hs => (h segment hs).1
      have hdots : ∀ segment ∈ first :: rest, isDots segment = false :=
        fun segment hs => (h segment hs).2
      rw [rooted_cons]
      change read .generic (Text.joinWith '/' (first :: rest)) = _
      rw [read, segments_generic, Text.splitOn_joinWith (List.cons_ne_nil _ _) hslashes,
        resolve_of_not_dots hdots]
      rfl

end ConnectionBroker.Uri.Path
