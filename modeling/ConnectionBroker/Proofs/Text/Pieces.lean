import ConnectionBroker.Proofs.Text.Percent
import ConnectionBroker.Text.Split
import Mathlib.Data.List.Forall2

/-! # Decoding piece by piece

An ASCII character ends whatever stands before it, an escape as well as a character of several
bytes. So a text can be cut at such a character before or after it is decoded.
-/

namespace ConnectionBroker.Text

namespace Utf8

/-! ## Bytes -/

theorem low_of_ofByte? {b : Nat} {lead : Lead} (h : Lead.ofByte? b = some lead) :
    0x80 ≤ lead.low := by
  unfold Lead.ofByte? at h
  split_ifs at h
  all_goals
    obtain rfl := Option.some.inj h
    simp

section Ascii

variable {b : UInt8} (hb : b.toNat < 0x80) (rest : List UInt8)

include hb

/-- No character goes on past an ASCII byte. -/
theorem continuation_append_cons {low : Nat} (hlow : 0x80 ≤ low) (n high value : Nat)
    (first : List UInt8) :
    continuation n low high value (first ++ b :: rest) =
      ((continuation n low high value first).1,
        (continuation n low high value first).2 ++ b :: rest) := by
  induction first generalizing n low high value with
  | nil =>
      cases n with
      | zero => rfl
      | succ n =>
          have hout : ¬ (low ≤ b.toNat ∧ b.toNat ≤ high) := by omega
          simp [continuation, hout]
  | cons c first ih =>
      cases n with
      | zero => rfl
      | succ n =>
          rw [List.cons_append, continuation, continuation]
          split
          · exact ih (Nat.le_refl _) n 0xBF _
          · rfl

theorem pieces_append_cons (first : List UInt8) :
    pieces (first ++ b :: rest) = pieces first ++ some (Char.ofNat b.toNat) :: pieces rest := by
  fun_induction pieces first with
  | case1 => rw [List.nil_append, pieces, if_pos hb, List.nil_append]
  | case2 c first hc ih => rw [List.cons_append, pieces, if_pos hc, ih, List.cons_append]
  | case3 c first hc hlead ih =>
      rw [List.cons_append, pieces, if_neg hc]
      simp only [hlead, ih, List.cons_append]
  | case4 c first hc lead hlead read ih =>
      rw [List.cons_append, pieces, if_neg hc]
      simp only [hlead, continuation_append_cons hb rest (low_of_ofByte? hlead), List.cons_append]
      rw [ih]

/-- Bytes around an ASCII byte are decoded apart. -/
theorem decode?_append_cons (first : List UInt8) :
    decode? (first ++ b :: rest) =
      (decode? first).bind fun before =>
        (decode? rest).map fun after => before ++ Char.ofNat b.toNat :: after := by
  rw [decode?, pieces_append_cons hb, List.mapM_append, List.mapM_cons]
  cases hfirst : (pieces first).mapM id with
  | none => simp [decode?, hfirst]
  | some before =>
      cases hrest : (pieces rest).mapM id with
      | none => simp [decode?, hfirst, hrest]
      | some after => simp [decode?, hfirst, hrest]

end Ascii

theorem decode?_eq_some_nil_iff {bytes : List UInt8} : decode? bytes = some [] ↔ bytes = [] := by
  constructor
  · intro h
    have hnone : pieces bytes = [] := by
      unfold decode? at h
      cases hpieces : pieces bytes with
      | nil => rfl
      | cons piece rest =>
          rw [hpieces, List.mapM_cons] at h
          cases piece with
          | none => cases h
          | some c => cases hrest : rest.mapM id <;> simp [hrest] at h
    cases bytes with
    | nil => rfl
    | cons b bytes =>
        rw [pieces] at hnone
        split at hnone
        · cases hnone
        · split at hnone <;> cases hnone
  · rintro rfl
    rw [decode?, pieces]
    rfl

end Utf8

namespace Percent

/-! ## Escapes -/

/-- A percent sign that two digits do not follow stands for itself. -/
theorem decode_percent {rest : List Char}
    (h : ∀ a b tail, rest = a :: b :: tail → hexDigitValue? a = none ∨ hexDigitValue? b = none) :
    decode ('%' :: rest) = 0x25 :: decode rest := by
  cases rest with
  | nil => rfl
  | cons a rest =>
      cases rest with
      | nil => rfl
      | cons b tail =>
          rw [decode]
          split
          · next high low hhigh hlow => simp [hhigh, hlow] at h
          · rfl

/-- No escape goes on past a slash. -/
theorem decode_append_slash (first rest : List Char) :
    decode (first ++ '/' :: rest) = decode first ++ 0x2F :: decode rest := by
  have hslash : hexDigitValue? '/' = none := by decide
  fun_induction decode first with
  | case1 =>
      rw [List.nil_append, decode_cons_of_ne (by decide)]
      rfl
  | case2 a b first high low hhigh hlow ih =>
      simp only [List.cons_append, decode, hhigh, hlow, ih]
  | case3 a b first hnot ih =>
      rw [List.cons_append, decode_percent, ih, List.cons_append]
      rintro _ _ _ ⟨⟩
      cases hhigh : hexDigitValue? a with
      | none => exact .inl rfl
      | some high =>
          cases hlow : hexDigitValue? b with
          | none => exact .inr rfl
          | some low => exact absurd hlow (hnot high low hhigh)
  | case4 c first hc ih =>
      rw [List.cons_append]
      by_cases hpercent : c = '%'
      · subst hpercent
        rw [decode_percent, ih]
        · rfl
        · -- The slash is one of the two characters after the sign.
          intro a b tail htail
          cases first with
          | nil =>
              rcases List.cons.inj htail with ⟨rfl, -⟩
              exact .inl hslash
          | cons a' first =>
              cases first with
              | nil =>
                  rcases List.cons.inj (List.cons.inj htail).2 with ⟨rfl, -⟩
                  exact .inr hslash
              | cons b' first => exact absurd rfl (hc a' b' first rfl)
      · rw [decode_cons_of_ne hpercent, ih, List.append_assoc]

theorem decode_eq_nil_iff {raw : List Char} : decode raw = [] ↔ raw = [] := by
  constructor
  · intro h
    fun_cases decode raw with
    | case1 => rfl
    | case2 => simp [decode, *] at h
    | case3 => simp [decode, *] at h
    | case4 => simp [decode, Utf8.encodeChar_ne_nil, *] at h
  · rintro rfl
    rfl

/-! ## Texts -/

/-- Texts around a slash are decoded apart. -/
theorem decodeText?_append_slash (first rest : List Char) :
    decodeText? (first ++ '/' :: rest) =
      (decodeText? first).bind fun before =>
        (decodeText? rest).map fun after => before ++ "/" ++ after := by
  rw [decodeText?, decode_append_slash, Utf8.decode?_append_cons (by decide)]
  cases hfirst : Utf8.decode? (decode first) with
  | none => simp [decodeText?, hfirst]
  | some before =>
      cases hrest : Utf8.decode? (decode rest) with
      | none => simp [decodeText?, hfirst, hrest]
      | some after =>
          simp only [decodeText?, hfirst, hrest, Option.bind_some, Option.map_some]
          apply congrArg some
          apply String.toList_inj.mp
          simp

/-- Whether a raw text is decoded to a text. -/
def Decodes (raw : List Char) (text : String) : Prop :=
  decodeText? raw = some text

/-- Pieces with slashes between them are decoded to what the pieces are decoded to, with slashes
between them again. -/
theorem Decodes.joinWith {pieces : List (List Char)} {texts : List String}
    (h : List.Forall₂ Decodes pieces texts) (hne : pieces ≠ []) :
    Decodes (joinWith '/' pieces) ("/".intercalate texts) := by
  induction h with
  | nil => exact absurd rfl hne
  | cons hpiece hrest ih =>
      cases hrest with
      | nil => simpa [Text.joinWith] using hpiece
      | cons hnext hrest =>
          have hjoined := ih (List.cons_ne_nil _ _)
          rw [Decodes, Text.joinWith, decodeText?_append_slash, hpiece, hjoined,
            String.intercalate_cons_of_ne_nil (List.cons_ne_nil _ _)]
          rfl

/-- A text of pieces is not decoded just if one of them is not. -/
theorem decodeText?_joinWith_eq_none_iff {pieces : List (List Char)} (hne : pieces ≠ []) :
    decodeText? (joinWith '/' pieces) = none ↔ ∃ piece ∈ pieces, decodeText? piece = none := by
  fun_induction joinWith '/' pieces with
  | case1 => exact absurd rfl hne
  | case2 piece => simp
  | case3 piece next pieces ih =>
      rw [decodeText?_append_slash, List.exists_mem_cons_iff, ← ih (List.cons_ne_nil _ _)]
      cases decodeText? piece <;> simp

/-- Where every piece can be decoded, there are the texts that they are decoded to. -/
theorem exists_decodes {pieces : List (List Char)}
    (h : ∀ piece ∈ pieces, decodeText? piece ≠ none) :
    ∃ texts, List.Forall₂ Decodes pieces texts := by
  induction pieces with
  | nil => exact ⟨[], .nil⟩
  | cons piece pieces ih =>
      obtain ⟨hpiece, hpieces⟩ := List.forall_mem_cons.mp h
      obtain ⟨text, htext⟩ := Option.ne_none_iff_exists'.mp hpiece
      obtain ⟨texts, htexts⟩ := ih hpieces
      exact ⟨text :: texts, .cons htext htexts⟩

/-- Every text stems from one of the pieces. -/
theorem exists_mem_of_decodes {pieces : List (List Char)} {texts : List String}
    (h : List.Forall₂ Decodes pieces texts) {text : String} (htext : text ∈ texts) :
    ∃ piece ∈ pieces, Decodes piece text := by
  induction h with
  | nil => exact absurd htext List.not_mem_nil
  | cons hpiece _ ih =>
      rcases List.mem_cons.mp htext with rfl | hrest
      · exact ⟨_, List.mem_cons_self, hpiece⟩
      · rcases ih hrest with ⟨piece, hmem, hdecodes⟩
        exact ⟨piece, List.mem_cons_of_mem _ hmem, hdecodes⟩

/-- A text is decoded to nothing just if it is empty. -/
theorem Decodes.eq_empty_iff {raw : List Char} {text : String} (h : Decodes raw text) :
    text = "" ↔ raw = [] := by
  obtain ⟨chars, hchars, rfl⟩ := Option.map_eq_some_iff.mp h
  rw [String.ofList_eq_empty_iff]
  constructor
  · rintro rfl
    exact decode_eq_nil_iff.mp (Utf8.decode?_eq_some_nil_iff.mp hchars)
  · rintro rfl
    rw [decode, Utf8.decode?_eq_some_nil_iff.mpr rfl] at hchars
    exact (Option.some.inj hchars).symm

end Percent

end ConnectionBroker.Text
