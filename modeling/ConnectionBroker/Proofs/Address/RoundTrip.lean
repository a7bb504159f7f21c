import ConnectionBroker.Address
import ConnectionBroker.Proofs.Uri.Query
import ConnectionBroker.Proofs.Uri.Writing

/-! # Writing an address and reading it back

The parts of an address are written as a URI in which everything but the unreserved characters is
encoded, so a part may hold any text at all. Reading the text gives every part back.
-/

namespace ConnectionBroker.Address

open Text.Percent

/-! ## Parts -/

/-- The schemes with rules of their own. -/
def specialSchemes : List String :=
  ["http", "https", "ws", "wss", "ftp", "file"]

/-- Whether a text is a scheme in lower case without rules of its own. -/
def isGenericScheme (scheme : String) : Bool :=
  match scheme.toList with
  | [] => false
  | first :: rest =>
      first.isLower
        && rest.all (fun c => c.isLower || c.isDigit || c == '-' || c == '.' || c == '+')
        && !specialSchemes.contains scheme

/-- What an address is made of. -/
structure Parts where
  scheme : String
  user : Option String := none
  password : Option String := none
  host : String
  port : Option Nat := none
  segments : List String := []
  /-- The pairs of the query; a name may be repeated. -/
  pairs : List (String × String) := []
  scheme_generic : isGenericScheme scheme = true
  user_ne : user ≠ some ""
  password_ne : password ≠ some ""
  host_ne : host ≠ ""
  port_le : ∀ p ∈ port, p ≤ 65535
  segments_ne : ∀ segment ∈ segments, segment ≠ "." ∧ segment ≠ ".."

/-! ## Writing -/

/-- A text with everything encoded but the unreserved characters. -/
def encode (text : String) : List Char :=
  Text.Percent.encode isUnreserved text.toList

namespace Parts

/-- User and password with an at sign, if there are any. -/
def userinfoText (parts : Parts) : List Char :=
  if parts.user = none ∧ parts.password = none then []
  else (parts.user.map encode).getD [] ++ (parts.password.map (':' :: encode ·)).getD [] ++ ['@']

def portText (parts : Parts) : List Char :=
  (parts.port.map (':' :: Text.decimalText ·)).getD []

def pathText (parts : Parts) : List Char :=
  parts.segments.flatMap ('/' :: encode ·)

/-- The pairs after a question mark, with ampersands between them. -/
def queryText (parts : Parts) : List Char :=
  if parts.pairs = [] then []
  else '?' :: Text.joinWith '&'
    (parts.pairs.map fun pair => encode pair.1 ++ '=' :: encode pair.2)

/-- The parts as a URI. -/
def text (parts : Parts) : String :=
  String.ofList (parts.scheme.toList ++ "://".toList ++ parts.userinfoText ++ encode parts.host ++
    parts.portText ++ parts.pathText ++ parts.queryText)

/-- The address that the parts make: a path with a slash before each segment, the segments that are
not empty, and each name of the query with its last value. -/
def address (parts : Parts) : Address where
  schemes := (parts.scheme.toList.splitOn '+').map String.ofList
  host := some parts.host
  port := parts.port
  user := parts.user
  password := parts.password
  path := String.ofList (parts.segments.flatMap ('/' :: ·.toList))
  paths := parts.segments.filter (· ≠ "")
  query := Uri.Query.lastValues parts.pairs

/-- The URI whose text the parts make. -/
def uri (parts : Parts) : Uri where
  scheme := parts.scheme.toList
  user := encode (parts.user.getD "")
  password := parts.password.map encode
  host := some (.name (encode parts.host))
  port := parts.port
  path := Uri.Path.rooted (parts.segments.map encode)
  query := if parts.pairs = [] then none else some (Uri.Query.text parts.pairs)

end Parts

/-! ## Encoded texts -/

theorem isPlain_of_mem_encode {text : String} {c : Char} (hc : c ∈ encode text) :
    isPlain c = true :=
  Text.Percent.isPlain_of_mem_encode hc

theorem encode_eq_nil_iff {text : String} : encode text = [] ↔ text = "" := by
  rw [encode, Text.Percent.encode_eq_nil_iff, String.toList_eq_nil_iff]

theorem decode_encode (component : Component) (text : String) :
    decode component (encode text) = .ok text := by
  rw [decode, encode, decodeText?_encode isUnreserved_percent]

theorem ne_of_eq_some {part : Option String} (h : part ≠ some "") {text : String}
    (hpart : part = some text) : text ≠ "" := by
  rintro rfl
  exact h hpart

theorem isDots_encode {segment : String} (h : segment ≠ "." ∧ segment ≠ "..") :
    Uri.Path.isDots (encode segment) = false := by
  refine Uri.Path.isDots_encode_eq_false ?_ ?_
  · exact mt (fun htext => String.toList_inj.mp htext) h.1
  · exact mt (fun htext => String.toList_inj.mp htext) h.2

theorem plain_of_mem_map_encode {segments : List String}
    (h : ∀ segment ∈ segments, segment ≠ "." ∧ segment ≠ "..") :
    ∀ raw ∈ segments.map encode,
      (∀ c ∈ raw, isPlain c = true) ∧ Uri.Path.isDots raw = false := by
  intro raw hraw
  obtain ⟨segment, hsegment, rfl⟩ := List.mem_map.mp hraw
  exact ⟨fun c hc => isPlain_of_mem_encode hc, isDots_encode (h segment hsegment)⟩

/-- A written query holds no blank and no number sign. -/
theorem visible_of_mem_text {pairs : List (String × String)} {c : Char}
    (hc : c ∈ Uri.Query.text pairs) : 0x20 < c.toNat ∧ c ≠ '#' := by
  obtain hplain | rfl | rfl := Uri.Query.isPlain_of_mem_text hc
  · exact ⟨Uri.lt_toNat_of_isPlain hplain, forall_isPlain (p := (· ≠ '#')) (by decide) hplain⟩
  · decide
  · decide

/-! ## Schemes -/

theorem exists_of_isGenericScheme {scheme : String} (h : isGenericScheme scheme = true) :
    ∃ first rest, scheme.toList = first :: rest ∧ first.isLower = true ∧
      (∀ c ∈ rest, c.isLower = true ∨ c.isDigit = true ∨ c = '-' ∨ c = '.' ∨ c = '+') ∧
      scheme ∉ specialSchemes := by
  cases hscheme : scheme.toList with
  | nil => simp [isGenericScheme, hscheme] at h
  | cons first rest =>
      simp only [isGenericScheme, hscheme, Bool.and_eq_true, List.all_eq_true, Bool.or_eq_true,
        beq_iff_eq, or_assoc, Bool.not_eq_true', List.contains_eq_mem, decide_eq_false_iff_not] at h
      exact ⟨first, rest, rfl, h.1.1, h.1.2, h.2⟩

theorem isAlpha_of_isLower {c : Char} (h : c.isLower = true) : c.isAlpha = true :=
  Bool.or_eq_true_iff.mpr (.inr h)

theorem isScheme_of_isGenericScheme {scheme : String} (h : isGenericScheme scheme = true) :
    Uri.isScheme scheme.toList = true := by
  obtain ⟨first, rest, hscheme, hfirst, hrest, -⟩ := exists_of_isGenericScheme h
  rw [Uri.isScheme, hscheme, Bool.and_eq_true, List.all_eq_true]
  refine ⟨isAlpha_of_isLower hfirst, ?_⟩
  intro c hc
  obtain rfl | hc := List.mem_cons.mp hc
  · simp [Uri.isSchemeCharacter, Char.isAlphanum, isAlpha_of_isLower hfirst]
  · obtain hlower | hdigit | rfl | rfl | rfl := hrest c hc
    · simp [Uri.isSchemeCharacter, Char.isAlphanum, isAlpha_of_isLower hlower]
    · simp [Uri.isSchemeCharacter, Char.isAlphanum, hdigit]
    · rfl
    · rfl
    · rfl

/-- Only a letter between the capitals has another lower-case form. -/
theorem toLower_eq_self {c : Char} (h : c.isLower = true ∨ c.isDigit = true) :
    c.toLower = c := by
  refine dif_neg ?_
  rintro ⟨hlow, hhigh⟩
  obtain hlower | hdigit := h
  · have hc : c.val ≥ 'a'.val := of_decide_eq_true (Bool.and_eq_true_iff.mp hlower).1
    exact absurd (UInt32.le_trans hc hhigh) (by decide)
  · have hc : c.val ≤ '9'.val := of_decide_eq_true (Bool.and_eq_true_iff.mp hdigit).2
    exact absurd (UInt32.le_trans hlow hc) (by decide)

theorem map_toLower_of_isGenericScheme {scheme : String} (h : isGenericScheme scheme = true) :
    scheme.toList.map Char.toLower = scheme.toList := by
  obtain ⟨first, rest, hscheme, hfirst, hrest, -⟩ := exists_of_isGenericScheme h
  rw [hscheme]
  refine (List.map_congr_left fun c hc => ?_).trans (List.map_id' _)
  obtain rfl | hc := List.mem_cons.mp hc
  · exact toLower_eq_self (.inl hfirst)
  · obtain hlower | hdigit | rfl | rfl | rfl := hrest c hc
    · exact toLower_eq_self (.inl hlower)
    · exact toLower_eq_self (.inr hdigit)
    · rfl
    · rfl
    · rfl

theorem ofScheme_of_isGenericScheme {scheme : String} (h : isGenericScheme scheme = true) :
    Uri.Family.ofScheme scheme.toList = .generic := by
  obtain ⟨-, -, -, -, -, hspecial⟩ := exists_of_isGenericScheme h
  simp only [specialSchemes, List.mem_cons, List.not_mem_nil, or_false, not_or] at hspecial
  simp only [Uri.Family.ofScheme, String.toList_inj, hspecial, decide_false, Bool.or_self,
    Bool.false_eq_true, if_false]

theorem splitOn_eq_splitOn {α : Type} [DecidableEq α] (separator : α) (text : List α) :
    Text.splitOn separator text = text.splitOn separator := by
  induction text with
  | nil => rfl
  | cons c rest ih =>
      rw [Text.splitOn, ih]
      simp only [List.splitOn, List.splitOnP_cons_eq_if_modifyHead, beq_iff_eq]
      by_cases hc : c = separator
      · rw [if_pos hc, if_pos hc]
      · rw [if_neg hc, if_neg hc]
        cases hpieces : rest.splitOnP (· == separator) with
        | nil => exact absurd hpieces (List.splitOnP_ne_nil _ _)
        | cons piece pieces => rfl

/-! ## The written URI -/

namespace Parts

theorem plain_uri (parts : Parts) : parts.uri.Plain where
  scheme := isScheme_of_isGenericScheme parts.scheme_generic
  lower := map_toLower_of_isGenericScheme parts.scheme_generic
  generic := ofScheme_of_isGenericScheme parts.scheme_generic
  user := fun c hc => isPlain_of_mem_encode hc
  password := by
    intro raw hraw
    obtain ⟨password, hpassword, rfl⟩ := Option.map_eq_some_iff.mp hraw
    exact ⟨mt encode_eq_nil_iff.mp (ne_of_eq_some parts.password_ne hpassword),
      fun c hc => isPlain_of_mem_encode hc⟩
  host := by
    rintro _ ⟨⟩
    exact ⟨_, rfl, mt encode_eq_nil_iff.mp parts.host_ne, fun c hc => isPlain_of_mem_encode hc⟩
  hostless := by
    rintro ⟨⟩
  port := parts.port_le
  path := ⟨parts.segments.map encode, rfl, plain_of_mem_map_encode parts.segments_ne⟩
  query := by
    intro query hquery c hc
    by_cases hpairs : parts.pairs = []
    · simp [uri, hpairs] at hquery
    · simp only [uri, if_neg hpairs, Option.mem_some_iff] at hquery
      subst hquery
      exact visible_of_mem_text hc

theorem userinfoText_uri (parts : Parts) :
    Uri.userinfoText (Uri.userinfo parts.uri.user parts.uri.password) = parts.userinfoText := by
  have hempty : encode "" = [] := encode_eq_nil_iff.mpr rfl
  rw [Uri.userinfoText, userinfoText, uri]
  cases huser : parts.user with
  | none => cases parts.password <;> simp [Uri.userinfo, hempty]
  | some user =>
      have hencoded : encode user ≠ [] :=
        mt encode_eq_nil_iff.mp (ne_of_eq_some parts.user_ne huser)
      cases parts.password <;> simp [Uri.userinfo, hencoded]

theorem portText_uri (parts : Parts) : Uri.portText parts.uri.port = parts.portText := by
  rw [portText, uri]
  cases parts.port <;> rfl

theorem queryText_uri (parts : Parts) : Uri.queryText parts.uri.query = parts.queryText := by
  rw [queryText, uri]
  split <;> rfl

theorem pathText_uri (parts : Parts) : parts.uri.path = parts.pathText :=
  List.flatMap_map ..

theorem write_uri (parts : Parts) : String.ofList parts.uri.write = parts.text := by
  rw [Uri.write, Uri.authorityText, userinfoText_uri, portText_uri, queryText_uri, pathText_uri]
  simp [text, uri, Uri.hostText, Uri.Host.text]

end Parts

/-! ## Decoding -/

/-- The bytes of a written path are those of the path with nothing encoded. -/
theorem decode_rooted (segments : List String) :
    Text.Percent.decode (Uri.Path.rooted (segments.map encode)) =
      Text.Utf8.encode (segments.flatMap ('/' :: ·.toList)) := by
  induction segments with
  | nil => rfl
  | cons segment rest ih =>
      change Text.Percent.decode ('/' :: (encode segment ++ Uri.Path.rooted (rest.map encode))) =
        Text.Utf8.encode ('/' :: segment.toList ++ rest.flatMap ('/' :: ·.toList))
      rw [decode_cons_of_ne (by decide), encode, decode_encode_append isUnreserved_percent, ih,
        List.cons_append, Text.Utf8.encode_cons, Text.Utf8.encode_append]

theorem decode_path (segments : List String) :
    decode .path (Uri.Path.rooted (segments.map encode)) =
      .ok (String.ofList (segments.flatMap ('/' :: ·.toList))) := by
  rw [decode, decodeText?, decode_rooted, Text.Utf8.decode?_encode]
  rfl

theorem mapM_decode (component : Component) (texts : List String) :
    (texts.map encode).mapM (decode component) = .ok texts := by
  induction texts with
  | nil => rfl
  | cons text rest ih =>
      rw [List.map_cons, List.mapM_cons, decode_encode, ih]
      rfl

/-- A segment is empty in the text just if it is empty. -/
theorem filter_encode (segments : List String) :
    (segments.map encode).filter (!·.isEmpty) = (segments.filter (· ≠ "")).map encode := by
  rw [List.filter_map]
  congr 2
  funext segment
  rw [Function.comp_apply, Bool.eq_iff_iff]
  simp [encode_eq_nil_iff]

/-- The segments of a written path are those that are not empty. -/
theorem decodeSegments_path (segments : List String) :
    decodeSegments (Uri.Path.rooted (segments.map encode))
        (String.ofList (segments.flatMap ('/' :: ·.toList))) =
      .ok (segments.filter (· ≠ "")) := by
  cases segments with
  | nil => rfl
  | cons first rest =>
      have hslash : ∀ raw ∈ (first :: rest).map encode, '/' ∉ raw := by
        intro raw hraw
        obtain ⟨segment, -, rfl⟩ := List.mem_map.mp hraw
        exact not_mem_of_isPlain (fun c hc => isPlain_of_mem_encode hc) rfl
      rw [List.map_cons, Uri.Path.rooted_cons, ← List.map_cons, decodeSegments, rawSegments?]
      simp only [Text.splitOn_joinWith (by simp) hslash, filter_encode, mapM_decode]

theorem decodeQuery_text (pairs : List (String × String)) :
    decodeQuery (some (Uri.Query.text pairs)) = Uri.Query.lastValues pairs := by
  rw [decodeQuery, Option.getD_some, Uri.Query.pairs_text, Uri.Query.merge_eq_lastValues]

theorem decodePresent_encode (component : Component) (text : String) :
    decodePresent component (some (encode text)) = .ok (nonempty text) := by
  rw [decodePresent, decode_encode]
  rfl

theorem nonempty_of_ne {text : String} (h : text ≠ "") : nonempty text = some text := by
  simp [nonempty, h]

theorem nonempty_getD {part : Option String} (h : part ≠ some "") :
    nonempty (part.getD "") = part := by
  cases part with
  | none => rfl
  | some text => exact nonempty_of_ne (ne_of_eq_some h rfl)

/-! ## The address read -/

namespace Parts

theorem decodeQuery_uri (parts : Parts) :
    decodeQuery parts.uri.query = parts.address.query := by
  rw [uri, address]
  split
  · next hpairs =>
      rw [hpairs]
      rfl
  · exact decodeQuery_text parts.pairs

theorem decodePresent_password (parts : Parts) :
    decodePresent .password parts.uri.password = .ok parts.password := by
  rw [uri]
  cases hpassword : parts.password with
  | none => rfl
  | some password =>
      have hne : password ≠ "" := ne_of_eq_some parts.password_ne hpassword
      exact (decodePresent_encode .password password).trans (by rw [nonempty_of_ne hne])

theorem ofUri_uri (parts : Parts) : ofUri parts.uri = .ok parts.address := by
  have hhost : decodePresent .host (parts.uri.host.map Uri.Host.text) = .ok (some parts.host) :=
    (decodePresent_encode .host parts.host).trans (by rw [nonempty_of_ne parts.host_ne])
  have huser : decodePresent .user (some parts.uri.user) = .ok parts.user :=
    (decodePresent_encode .user _).trans (by rw [nonempty_getD parts.user_ne])
  have hpath : decode .path parts.uri.path = .ok parts.address.path := decode_path parts.segments
  have hpaths : decodeSegments parts.uri.path parts.address.path = .ok parts.address.paths :=
    decodeSegments_path parts.segments
  rw [ofUri, hhost, huser, decodePresent_password]
  simp only [hpath, hpaths, decodeQuery_uri, bind, Except.bind, pure, Except.pure,
    splitOn_eq_splitOn]
  rfl

end Parts

/-- Whatever the parts hold, the address read from their text is the address that they make. -/
theorem parse_text (parts : Parts) : parse parts.text = .ok parts.address := by
  rw [parse, ← parts.write_uri, Uri.parse_write parts.plain_uri]
  exact parts.ofUri_uri

/-- A part of every kind, with a delimiter in each. -/
theorem parse_text_delimiters :
    parse "a+b-1://u%3A:p%40%3A@h%2F%3A%5B:0//a%2Fb/.%20.?k=1&%26=%3D%2B%20&k=%C3%A9&=" = .ok {
      schemes := ["a", "b-1"]
      host := some "h/:["
      port := some 0
      user := some "u:"
      password := some "p@:"
      path := "//a/b/. ."
      paths := ["a/b", ". ."]
      query := [("k", "é"), ("&", "=+ "), ("", "")] } := by
  have hread := parse_text {
    scheme := "a+b-1"
    user := some "u:"
    password := some "p@:"
    host := "h/:["
    port := some 0
    segments := ["", "a/b", ". ."]
    pairs := [("k", "1"), ("&", "=+ "), ("k", "é"), ("", "")]
    scheme_generic := by decide +kernel
    user_ne := by decide
    password_ne := by decide
    host_ne := by decide
    port_le := by simp
    segments_ne := by decide }
  exact hread

end ConnectionBroker.Address
