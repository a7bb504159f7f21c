import ConnectionBroker.Json.Reader
import ConnectionBroker.Json.Writer
import ConnectionBroker.Proofs.Number.Rounding

/-! # JSON text tells values apart

A value can be split off the front of any text that goes on with something that no number contains.
So different values have different texts.
-/

namespace ConnectionBroker.Json

/-! ## Strings -/

/-- The character at the front of a text inside a string, and the text after it. -/
def readChar : List Char → Option (Char × List Char)
  | '\\' :: rest => Reader.escape? rest
  | c :: rest => some (c, rest)
  | [] => none

/-- The four digits of a control are read back as the control. -/
theorem escape?_control {c : Char} (hc : c.toNat < 0x20) (rest : List Char) :
    Reader.escape? ('u' :: '0' :: '0' :: Text.lowerHexDigit (c.toNat / 16) ::
      Text.lowerHexDigit (c.toNat % 16) :: rest) = some (c, rest) := by
  have hzero : Text.hexDigitValue? '0' = some 0 := by decide
  have hhigh := Text.hexDigitValue?_lowerHexDigit (c.toNat / 16) (by omega)
  have hlow := Text.hexDigitValue?_lowerHexDigit (c.toNat % 16) (by omega)
  have hunit : Reader.codeUnit? ('0' :: '0' :: Text.lowerHexDigit (c.toNat / 16) ::
      Text.lowerHexDigit (c.toNat % 16) :: rest) = some (c.toNat, rest) := by
    have hvalue : c.toNat / 16 * 16 + c.toNat % 16 = c.toNat := by omega
    simp [Reader.codeUnit?, hzero, hhigh, hlow, hvalue]
  have hhighest : ¬ (0xD800 ≤ c.toNat ∧ c.toNat ≤ 0xDBFF) := by omega
  have hlowest : ¬ (0xDC00 ≤ c.toNat ∧ c.toNat ≤ 0xDFFF) := by omega
  simp [Reader.escape?, hunit, hhighest, hlowest]

theorem readChar_escapeChar (c : Char) (rest : List Char) :
    readChar (escapeChar c ++ rest) = some (c, rest) := by
  unfold escapeChar
  split
  · next heq => simp [heq, readChar, Reader.escape?]
  split
  · next heq => simp [heq, readChar, Reader.escape?]
  split
  · next heq => simp [heq, readChar, Reader.escape?]
  split
  · next heq => simp [heq, readChar, Reader.escape?]
  split
  · next heq => simp [heq, readChar, Reader.escape?]
  split
  · next heq => simp [heq, readChar, Reader.escape?]
  split
  · next heq => simp [heq, readChar, Reader.escape?]
  split
  · next hcontrol => exact escape?_control hcontrol rest
  · simp [readChar]

theorem escapeChar_append_inj {c d : Char} {r r' : List Char}
    (h : escapeChar c ++ r = escapeChar d ++ r') : c = d ∧ r = r' := by
  have hread := readChar_escapeChar c r
  rw [h, readChar_escapeChar] at hread
  simpa [eq_comm] using hread

theorem escapeChar_head (c : Char) : ∃ first rest, escapeChar c = first :: rest ∧ first ≠ '"' := by
  unfold escapeChar
  repeat' split
  all_goals first | exact ⟨_, _, rfl, by decide⟩ | exact ⟨_, _, rfl, ‹_›⟩

theorem escapes_append_inj {s t r r' : List Char}
    (h : s.flatMap escapeChar ++ '"' :: r = t.flatMap escapeChar ++ '"' :: r') :
    s = t ∧ r = r' := by
  induction s generalizing t with
  | nil =>
      cases t with
      | nil => simpa using h
      | cons d t =>
          obtain ⟨first, rest, hd, hne⟩ := escapeChar_head d
          simp [hd] at h
          exact absurd h.1.symm hne
  | cons c s ih =>
      cases t with
      | nil =>
          obtain ⟨first, rest, hc, hne⟩ := escapeChar_head c
          simp [hc] at h
          exact absurd h.1 hne
      | cons d t =>
          simp only [List.flatMap_cons, List.append_assoc] at h
          obtain ⟨rfl, hrest⟩ := escapeChar_append_inj h
          obtain ⟨rfl, rfl⟩ := ih hrest
          exact ⟨rfl, rfl⟩

theorem writeString_append_inj {s t : String} {r r' : List Char}
    (h : writeString s ++ r = writeString t ++ r') : s = t ∧ r = r' := by
  simp only [writeString, List.cons_append, List.append_assoc, List.cons.injEq, true_and,
    List.nil_append] at h
  obtain ⟨hchars, hrest⟩ := escapes_append_inj h
  exact ⟨String.toList_inj.mp hchars, hrest⟩

/-! ## Numbers -/

/-- The characters of which numbers are made. -/
def isNumeric (c : Char) : Bool :=
  c.isDigit || c == '-' || c == '+' || c == '.' || c == 'e'

/-- A text that cannot go on with a number. -/
def Stops (text : List Char) : Prop :=
  ∀ c ∈ text.head?, isNumeric c = false

theorem isNumeric_of_isDigit {c : Char} (h : c.isDigit = true) : isNumeric c = true := by
  simp [isNumeric, h]

theorem isNumeric_integerText (n : Int) : ∀ c ∈ Text.integerText n, isNumeric c = true := by
  intro c hc
  cases n with
  | ofNat n => exact isNumeric_of_isDigit (Text.isDigit_decimalText n c hc)
  | negSucc n =>
      rcases List.mem_cons.mp hc with rfl | hc
      · rfl
      · exact isNumeric_of_isDigit (Text.isDigit_decimalText (n + 1) c hc)

theorem isNumeric_exponentText (e : Int) :
    ∀ c ∈ Binary64.exponentText e, isNumeric c = true := by
  intro c hc
  cases e with
  | ofNat n =>
      rcases List.mem_cons.mp hc with rfl | hc
      · rfl
      · exact isNumeric_of_isDigit (Text.isDigit_decimalText n c hc)
  | negSucc n =>
      rcases List.mem_cons.mp hc with rfl | hc
      · rfl
      · exact isNumeric_of_isDigit (Text.isDigit_decimalText (n + 1) c hc)

theorem isNumeric_of_spells {digits : List Char} {value : ℚ}
    (h : Binary64.Spells digits value) : ∀ c ∈ digits, isNumeric c = true := by
  obtain ⟨whole, fraction, exponent, rfl, _, _, hdigits, _⟩ := h
  intro c hc
  simp only [Binary64.spell, List.mem_append] at hc
  rcases hc with (hc | hc) | hc
  · exact isNumeric_of_isDigit (hdigits c (List.mem_append_left _ hc))
  · split at hc
    · cases hc
    · rcases List.mem_cons.mp hc with rfl | hc
      · rfl
      · exact isNumeric_of_isDigit (hdigits c (List.mem_append_right _ hc))
  · cases exponent with
    | none => cases hc
    | some e =>
        rcases List.mem_cons.mp hc with rfl | hc
        · rfl
        · exact isNumeric_exponentText e c hc

theorem isNumeric_text (x : Binary64) : ∀ c ∈ x.text, isNumeric c = true := by
  obtain ⟨digits, value, hspells, htext, _⟩ := x.exists_spells
  intro c hc
  rw [htext] at hc
  split at hc
  · rcases List.mem_cons.mp hc with rfl | hc
    · rfl
    · exact isNumeric_of_spells hspells c hc
  · exact isNumeric_of_spells hspells c hc

/-- Only the text of a floating-point number has a point or an exponent. -/
theorem integerText_ne_text (n : Int) (x : Binary64) : Text.integerText n ≠ x.text := by
  obtain ⟨digits, value, ⟨whole, fraction, exponent, rfl, _, hmark, _⟩, htext, _⟩ :=
    x.exists_spells
  have hmarked : '.' ∈ x.text ∨ 'e' ∈ x.text := by
    have hmem : ∀ c ∈ Binary64.spell whole fraction exponent, c ∈ x.text := by
      intro c hc
      rw [htext]
      split
      · exact List.mem_cons_of_mem _ hc
      · exact hc
    rcases hmark with hfraction | hexponent
    · exact .inl (hmem _ (by simp [Binary64.spell, hfraction]))
    · obtain ⟨e, rfl⟩ := Option.ne_none_iff_exists'.mp hexponent
      exact .inr (hmem _ (by simp [Binary64.spell]))
  have hplain : ∀ c ∈ Text.integerText n, c ≠ '.' ∧ c ≠ 'e' := by
    intro c hc
    cases n with
    | ofNat n =>
        have hdigit := Text.isDigit_decimalText n c hc
        exact ⟨Binary64.ne_point_of_isDigit hdigit, Binary64.ne_e_of_isDigit hdigit⟩
    | negSucc n =>
        rcases List.mem_cons.mp hc with rfl | hc
        · exact ⟨by decide, by decide⟩
        · have hdigit := Text.isDigit_decimalText (n + 1) c hc
          exact ⟨Binary64.ne_point_of_isDigit hdigit, Binary64.ne_e_of_isDigit hdigit⟩
  intro heq
  rw [← heq] at hmarked
  rcases hmarked with hpoint | he
  · exact (hplain _ hpoint).1 rfl
  · exact (hplain _ he).2 rfl

theorem decimalText_injective : Function.Injective Text.decimalText := by
  intro m n h
  have hvalue := congrArg (fun digits => Nat.ofDigitChars 10 digits 0) h
  simpa [Text.decimalText] using hvalue

theorem integerText_injective : Function.Injective Text.integerText := by
  have hminus : ∀ m n, Text.decimalText m ≠ '-' :: Text.decimalText n := by
    intro m n h
    have hdigit := Text.isDigit_decimalText m '-' (by rw [h]; exact List.mem_cons_self)
    simp at hdigit
  intro m n h
  cases m with
  | ofNat m =>
      cases n with
      | ofNat n => rw [decimalText_injective h]
      | negSucc n => exact absurd h (hminus _ _)
  | negSucc m =>
      cases n with
      | ofNat n => exact absurd h.symm (hminus _ _)
      | negSucc n =>
          have hsucc := decimalText_injective (List.cons.inj h).2
          rw [Nat.succ.inj hsucc]

/-- A number ends where the text goes on with something else. -/
theorem numeric_append_inj {s t r r' : List Char} (hs : ∀ c ∈ s, isNumeric c = true)
    (ht : ∀ c ∈ t, isNumeric c = true) (hr : Stops r) (hr' : Stops r')
    (h : s ++ r = t ++ r') : s = t ∧ r = r' := by
  have hstop : ∀ {r : List Char}, Stops r → r.takeWhile isNumeric = [] := by
    intro r hr
    cases r with
    | nil => rfl
    | cons c r => simp [hr c (by simp)]
  have htake := congrArg (List.takeWhile isNumeric) h
  rw [List.takeWhile_append_of_pos hs, List.takeWhile_append_of_pos ht, hstop hr, hstop hr',
    List.append_nil, List.append_nil] at htake
  subst htake
  exact ⟨rfl, List.append_cancel_left h⟩

/-! ## The first character of a value -/

/-- What the first character of a value's text is. -/
inductive Lead where
  | null
  | bool
  | number
  | string
  | array
  | object

/-- What kind of value a character begins. -/
def leadOf? (c : Char) : Option Lead :=
  if isNumeric c then some .number
  else if c = 'n' then some .null
  else if c = 't' ∨ c = 'f' then some .bool
  else if c = '"' then some .string
  else if c = '[' then some .array
  else if c = '\x7b' then some .object
  else none

def lead : Json → Lead
  | null => .null
  | bool _ => .bool
  | integer _ => .number
  | float _ => .number
  | string _ => .string
  | array _ => .array
  | object _ => .object

theorem exists_lead (value : Json) :
    ∃ c rest, value.write = c :: rest ∧ leadOf? c = some value.lead := by
  have hnumeric : ∀ {digits : List Char}, digits ≠ [] → (∀ c ∈ digits, isNumeric c = true) →
      ∃ c rest, digits = c :: rest ∧ leadOf? c = some Lead.number := by
    intro digits hne hdigits
    obtain ⟨c, rest, rfl⟩ := List.exists_cons_of_ne_nil hne
    exact ⟨c, rest, rfl, by simp [leadOf?, hdigits c]⟩
  cases value with
  | null => exact ⟨_, _, rfl, rfl⟩
  | bool value => cases value <;> exact ⟨_, _, rfl, rfl⟩
  | integer n =>
      refine hnumeric ?_ (isNumeric_integerText n)
      cases n with
      | ofNat n => exact Nat.toDigits_ne_nil
      | negSucc n => exact List.cons_ne_nil _ _
  | float x =>
      refine hnumeric ?_ (isNumeric_text x)
      obtain ⟨digits, value, hspells, htext, _⟩ := x.exists_spells
      obtain ⟨first, rest, rfl, _⟩ := hspells.head_isDigit
      rw [write, htext]
      split <;> exact List.cons_ne_nil _ _
  | string value => exact ⟨_, _, rfl, rfl⟩
  | array items => exact ⟨_, _, rfl, rfl⟩
  | object entries => exact ⟨_, _, rfl, rfl⟩

theorem lead_eq_of_append {v w : Json} {r r' : List Char} (h : v.write ++ r = w.write ++ r') :
    v.lead = w.lead := by
  obtain ⟨c, rest, hv, hc⟩ := v.exists_lead
  obtain ⟨d, rest', hw, hd⟩ := w.exists_lead
  rw [hv, hw] at h
  have hsame : c = d := (List.cons.inj h).1
  rw [hsame, hd] at hc
  exact (Option.some.inj hc).symm

/-- No value begins with a character that begins none. -/
theorem write_append_ne {v : Json} {c : Char} (hc : leadOf? c = none) (r r' : List Char) :
    v.write ++ r ≠ c :: r' := by
  obtain ⟨d, rest, hv, hd⟩ := v.exists_lead
  rw [hv]
  intro h
  rw [(List.cons.inj h).1, hc] at hd
  cases hd

/-! ## Values -/

theorem stops_moreItems (items : List Json) (r : List Char) :
    Stops (writeMoreItems items ++ ']' :: r) := by
  cases items <;> simp [Stops, writeMoreItems, isNumeric]

theorem stops_moreEntries (entries : List (String × Json)) (r : List Char) :
    Stops (writeMoreEntries entries ++ '\x7d' :: r) := by
  cases entries <;> simp [Stops, writeMoreEntries, isNumeric]

mutual

/-- A value can be split off the front of a text. -/
theorem write_append_inj : (v w : Json) → {r r' : List Char} → Stops r → Stops r' →
    v.write ++ r = w.write ++ r' → v = w ∧ r = r'
  | .null, w, r, r', _, _, h => by
      have hlead := lead_eq_of_append h
      cases w with
      | null => simpa [write] using h
      | _ => simp [lead] at hlead
  | .bool value, w, r, r', _, _, h => by
      have hlead := lead_eq_of_append h
      cases w with
      | bool value' => cases value <;> cases value' <;> simp [write] at h ⊢ <;> exact h
      | _ => simp [lead] at hlead
  | .integer n, w, r, r', hr, hr', h => by
      have hlead := lead_eq_of_append h
      cases w with
      | integer n' =>
          obtain ⟨htext, hrest⟩ := numeric_append_inj (isNumeric_integerText n)
            (isNumeric_integerText n') hr hr' h
          exact ⟨congrArg integer (integerText_injective htext), hrest⟩
      | float x' =>
          obtain ⟨htext, _⟩ := numeric_append_inj (isNumeric_integerText n) (isNumeric_text x')
            hr hr' h
          exact absurd htext (integerText_ne_text n x')
      | _ => simp [lead] at hlead
  | .float x, w, r, r', hr, hr', h => by
      have hlead := lead_eq_of_append h
      cases w with
      | integer n' =>
          obtain ⟨htext, _⟩ := numeric_append_inj (isNumeric_text x) (isNumeric_integerText n')
            hr hr' h
          exact absurd htext.symm (integerText_ne_text n' x)
      | float x' =>
          obtain ⟨htext, hrest⟩ := numeric_append_inj (isNumeric_text x) (isNumeric_text x')
            hr hr' h
          exact ⟨congrArg float (Binary64.text_injective htext), hrest⟩
      | _ => simp [lead] at hlead
  | .string value, w, r, r', _, _, h => by
      have hlead := lead_eq_of_append h
      cases w with
      | string value' =>
          obtain ⟨rfl, hrest⟩ := writeString_append_inj h
          exact ⟨rfl, hrest⟩
      | _ => simp [lead] at hlead
  | .array items, w, r, r', _, _, h => by
      have hlead := lead_eq_of_append h
      cases w with
      | array items' =>
          simp only [write, List.cons_append, List.append_assoc, List.cons.injEq, true_and,
            List.nil_append] at h
          obtain ⟨rfl, hrest⟩ := writeItems_append_inj items items' h
          exact ⟨rfl, hrest⟩
      | _ => simp [lead] at hlead
  | .object entries, w, r, r', _, _, h => by
      have hlead := lead_eq_of_append h
      cases w with
      | object entries' =>
          simp only [write, List.cons_append, List.append_assoc, List.cons.injEq, true_and,
            List.nil_append] at h
          obtain ⟨rfl, hrest⟩ := writeEntries_append_inj entries entries' h
          exact ⟨rfl, hrest⟩
      | _ => simp [lead] at hlead

/-- The items of an array end at its bracket. -/
theorem writeItems_append_inj : (items items' : List Json) → {r r' : List Char} →
    writeItems items ++ ']' :: r = writeItems items' ++ ']' :: r' → items = items' ∧ r = r'
  | [], items', r, r', h => by
      cases items' with
      | nil => simpa [writeItems] using h
      | cons item' items' =>
          simp only [writeItems, List.append_assoc, List.nil_append] at h
          exact absurd h.symm (write_append_ne (by decide) _ _)
  | item :: items, items', r, r', h => by
      cases items' with
      | nil =>
          simp only [writeItems, List.append_assoc, List.nil_append] at h
          exact absurd h (write_append_ne (by decide) _ _)
      | cons item' items' =>
          simp only [writeItems, List.append_assoc] at h
          obtain ⟨rfl, hmore⟩ := write_append_inj item item' (stops_moreItems items r)
            (stops_moreItems items' r') h
          obtain ⟨rfl, hrest⟩ := writeMoreItems_append_inj items items' hmore
          exact ⟨rfl, hrest⟩

theorem writeMoreItems_append_inj : (items items' : List Json) → {r r' : List Char} →
    writeMoreItems items ++ ']' :: r = writeMoreItems items' ++ ']' :: r' →
      items = items' ∧ r = r'
  | [], items', r, r', h => by
      cases items' with
      | nil => simpa [writeMoreItems] using h
      | cons item' items' => simp [writeMoreItems] at h
  | item :: items, items', r, r', h => by
      cases items' with
      | nil => simp [writeMoreItems] at h
      | cons item' items' =>
          simp only [writeMoreItems, List.cons_append, List.append_assoc, List.cons.injEq,
            true_and] at h
          obtain ⟨rfl, hmore⟩ := write_append_inj item item' (stops_moreItems items r)
            (stops_moreItems items' r') h
          obtain ⟨rfl, hrest⟩ := writeMoreItems_append_inj items items' hmore
          exact ⟨rfl, hrest⟩

/-- The entries of an object end at its brace. -/
theorem writeEntries_append_inj : (entries entries' : List (String × Json)) →
    {r r' : List Char} →
    writeEntries entries ++ '\x7d' :: r = writeEntries entries' ++ '\x7d' :: r' →
      entries = entries' ∧ r = r'
  | [], entries', r, r', h => by
      cases entries' with
      | nil => simpa [writeEntries] using h
      | cons entry' entries' => simp [writeEntries, writeString] at h
  | (name, value) :: entries, entries', r, r', h => by
      cases entries' with
      | nil => simp [writeEntries, writeString] at h
      | cons entry' entries' =>
          simp only [writeEntries, List.append_assoc, List.cons_append] at h
          obtain ⟨rfl, hvalue⟩ := writeString_append_inj h
          simp only [List.cons.injEq, true_and] at hvalue
          obtain ⟨rfl, hmore⟩ := write_append_inj value entry'.2 (stops_moreEntries entries r)
            (stops_moreEntries entries' r') hvalue
          obtain ⟨rfl, hrest⟩ := writeMoreEntries_append_inj entries entries' hmore
          exact ⟨rfl, hrest⟩

theorem writeMoreEntries_append_inj : (entries entries' : List (String × Json)) →
    {r r' : List Char} →
    writeMoreEntries entries ++ '\x7d' :: r = writeMoreEntries entries' ++ '\x7d' :: r' →
      entries = entries' ∧ r = r'
  | [], entries', r, r', h => by
      cases entries' with
      | nil => simpa [writeMoreEntries] using h
      | cons entry' entries' => simp [writeMoreEntries] at h
  | (name, value) :: entries, entries', r, r', h => by
      cases entries' with
      | nil => simp [writeMoreEntries] at h
      | cons entry' entries' =>
          simp only [writeMoreEntries, List.append_assoc, List.cons_append, List.cons.injEq,
            true_and] at h
          obtain ⟨rfl, hvalue⟩ := writeString_append_inj h
          simp only [List.cons.injEq, true_and] at hvalue
          obtain ⟨rfl, hmore⟩ := write_append_inj value entry'.2 (stops_moreEntries entries r)
            (stops_moreEntries entries' r') hvalue
          obtain ⟨rfl, hrest⟩ := writeMoreEntries_append_inj entries entries' hmore
          exact ⟨rfl, hrest⟩

end

/-- Different values have different texts. -/
theorem text_injective : Function.Injective text := by
  intro v w h
  have hwrite : v.write ++ [] = w.write ++ [] := by
    simpa [text, String.ofList_inj] using h
  have hstops : Stops [] := by simp [Stops]
  exact (write_append_inj v w hstops hstops hwrite).1

end ConnectionBroker.Json
