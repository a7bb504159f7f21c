import ConnectionBroker.Uri.Parse
import ConnectionBroker.Proofs.Uri.Path

/-! # Writing a URI and reading it back

A URI of a generic scheme with an authority is written part by part. Where every part is plain, each
is told from the next by its delimiter, and the text is read as the URI that was written.
-/

namespace ConnectionBroker.Uri

open Text.Percent

/-! ## Writing -/

def userinfo (user : List Char) : Option (List Char) → List Char
  | none => user
  | some password => user ++ ':' :: password

/-- The user information with the at sign that ends it, if there is any. -/
def userinfoText (userinfo : List Char) : List Char :=
  if userinfo.isEmpty then [] else userinfo ++ ['@']

def hostText (host : Option Host) : List Char :=
  (host.map Host.text).getD []

def portText : Option Nat → List Char
  | none => []
  | some port => ':' :: Text.decimalText port

def queryText : Option (List Char) → List Char
  | none => []
  | some query => '?' :: query

def authorityText (uri : Uri) : List Char :=
  userinfoText (userinfo uri.user uri.password) ++ (hostText uri.host ++ portText uri.port)

/-- The text of a URI with an authority. -/
def write (uri : Uri) : List Char :=
  uri.scheme ++ ':' :: '/' :: '/' ::
    (uri.authorityText ++ (uri.path ++ queryText uri.query))

/-! ## What can be read back -/

/-- The URI has an authority and none of its parts holds a delimiter. Only a host makes room for a
user, a password or a port, and what is present is not empty. -/
structure Plain (uri : Uri) : Prop where
  scheme : isScheme uri.scheme = true
  lower : uri.scheme.map Char.toLower = uri.scheme
  generic : Family.ofScheme uri.scheme = .generic
  user : ∀ c ∈ uri.user, isPlain c = true
  password : ∀ password ∈ uri.password, password ≠ [] ∧ ∀ c ∈ password, isPlain c = true
  host : ∀ host ∈ uri.host, ∃ name, host = .name name ∧ name ≠ [] ∧ ∀ c ∈ name, isPlain c = true
  hostless : uri.host = none → uri.user = [] ∧ uri.password = none ∧ uri.port = none
  port : ∀ port ∈ uri.port, port ≤ 65535
  path : ∃ segments, uri.path = Path.rooted segments ∧
    ∀ segment ∈ segments, (∀ c ∈ segment, isPlain c = true) ∧ Path.isDots segment = false
  query : ∀ query ∈ uri.query, ∀ c ∈ query, 0x20 < c.toNat ∧ c ≠ '#'

/-- A text that may follow an authority: a path, a query or nothing. -/
def EndsAuthority (rest : List Char) : Prop :=
  rest = [] ∨ ∃ tail, rest = '/' :: tail ∨ rest = '?' :: tail

section Ends

variable {text rest : List Char} {p : Char → Bool}

/-- A run of characters before what follows an authority ends where that begins. -/
theorem EndsAuthority.takeWhile_append (hrest : EndsAuthority rest) (htext : ∀ c ∈ text, p c = true)
    (hslash : p '/' = false) (hquery : p '?' = false) : (text ++ rest).takeWhile p = text := by
  rw [List.takeWhile_append_of_pos htext]
  obtain rfl | ⟨tail, rfl | rfl⟩ := hrest
  · simp
  · simp [hslash]
  · simp [hquery]

theorem EndsAuthority.dropWhile_append (hrest : EndsAuthority rest) (htext : ∀ c ∈ text, p c = true)
    (hslash : p '/' = false) (hquery : p '?' = false) : (text ++ rest).dropWhile p = rest := by
  rw [List.dropWhile_append_of_pos htext]
  obtain rfl | ⟨tail, rfl | rfl⟩ := hrest
  · simp
  · simp [hslash]
  · simp [hquery]

end Ends

/-! ## Host and port -/

theorem readPort_append {port : Nat} (hport : port ≤ 65535) {rest : List Char}
    (hrest : EndsAuthority rest) :
    Authority.readPort .generic (Text.decimalText port ++ rest) = .ok (some port, rest) := by
  have hdigits := Text.isDigit_decimalText port
  have hnonempty : (Text.decimalText port).isEmpty = false := by
    simp [Text.decimalText, Nat.toDigits_ne_nil]
  rw [Authority.readPort, hrest.takeWhile_append hdigits rfl rfl,
    hrest.dropWhile_append hdigits rfl rfl, Text.decimalValue_decimalText, hnonempty]
  have hsmall : ¬ 65535 < port := Nat.not_lt.mpr hport
  obtain rfl | ⟨tail, rfl | rfl⟩ := hrest <;> simp [hsmall, Family.defaultPort?]

/-- A colon outside brackets is not part of a host. -/
theorem cutHost_append {text : List Char} (hcolon : ':' ∉ text) (hbracket : '[' ∉ text)
    (after : List Char) :
    Authority.cutHost false (text ++ after) =
      (text ++ (Authority.cutHost false after).1, (Authority.cutHost false after).2) := by
  induction text with
  | nil => rfl
  | cons c text ih =>
      obtain ⟨hc, hcolon⟩ := not_or.mp (mt List.mem_cons.mpr hcolon)
      obtain ⟨hc', hbracket⟩ := not_or.mp (mt List.mem_cons.mpr hbracket)
      have hopen : (c == '[') = false := beq_false_of_ne (Ne.symm hc')
      simp [Authority.cutHost, Ne.symm hc, hopen, ih hcolon hbracket]

theorem cutHost_portText {text : List Char} (htext : ∀ c ∈ text, isPlain c = true)
    (port : Option Nat) :
    Authority.cutHost false (text ++ portText port) = (text, portText port) := by
  rw [cutHost_append (not_mem_of_isPlain htext rfl) (not_mem_of_isPlain htext rfl)]
  cases port <;> simp [portText, Authority.cutHost]

theorem isForbidden_of_isPlain {c : Char} (hc : isPlain c = true) : Host.isForbidden c = false :=
  forall_isPlain (p := fun c => Host.isForbidden c = false) (by decide) hc

theorem parseGeneric_of_isPlain {text : List Char} (htext : ∀ c ∈ text, isPlain c = true) :
    Host.parseGeneric text = .ok (.name text) := by
  have hallowed : text.any Host.isForbidden = false :=
    List.any_eq_false.mpr fun c hc => by simp [isForbidden_of_isPlain (htext c hc)]
  have hbracket : '[' ∉ text := not_mem_of_isPlain htext rfl
  rw [Host.parseGeneric, Host.bracketedOr]
  · simp [hallowed]
  · rintro rest rfl
    exact hbracket List.mem_cons_self

/-- Host and port are read as they were written. -/
theorem readHostPort_text {uri : Uri} (h : Plain uri) {rest : List Char}
    (hrest : EndsAuthority rest) :
    Authority.readHostPort .generic (hostText uri.host ++ portText uri.port) rest =
      .ok (uri.host, uri.port, rest) := by
  cases hhost : uri.host with
  | none =>
      obtain ⟨-, -, hport⟩ := h.hostless hhost
      rw [hport]
      rfl
  | some host =>
      obtain ⟨name, rfl, hnonempty, hplain⟩ := h.host host hhost
      have hread : Authority.readHost .generic name = .ok (some (.name name)) := by
        simp [Authority.readHost, Family.isSpecial, parseGeneric_of_isPlain hplain, Except.map,
          hnonempty]
      change Authority.readHostPort .generic (name ++ portText uri.port) rest = _
      rw [Authority.readHostPort, cutHost_portText hplain]
      cases hport : uri.port with
      | none => simp [portText, hread, bind, Except.bind, pure, Except.pure]
      | some port =>
          have hread' := readPort_append (h.port port hport) hrest
          simp [portText, hread, hread', bind, Except.bind, pure, Except.pure]

/-! ## User information -/

theorem userinfo_eq_nil_iff {user : List Char} {password : Option (List Char)} :
    userinfo user password = [] ↔ user = [] ∧ password = none := by
  cases password <;> simp [userinfo]

theorem splitUserinfo_userinfo {uri : Uri} (h : Plain uri) :
    Authority.splitUserinfo (userinfo uri.user uri.password) = (uri.user, uri.password) := by
  have hcolon : ':' ∉ uri.user := not_mem_of_isPlain h.user rfl
  cases hpassword : uri.password with
  | none => rw [userinfo, Authority.splitUserinfo, Text.cutAt_of_not_mem hcolon]
  | some password =>
      rw [userinfo, Authority.splitUserinfo, Text.cutAt_append hcolon]
      cases password with
      | nil => exact absurd rfl (h.password [] hpassword).1
      | cons c password => rfl

/-! ## Authority -/

/-- What stands in an authority: plain characters and the marks between its parts. -/
theorem isPlain_of_mem_userinfo {uri : Uri} (h : Plain uri) {c : Char}
    (hc : c ∈ userinfo uri.user uri.password) : isPlain c = true ∨ c = ':' := by
  cases hpassword : uri.password with
  | none =>
      rw [hpassword] at hc
      exact .inl (h.user c hc)
  | some password =>
      rw [hpassword, userinfo, List.mem_append, List.mem_cons] at hc
      obtain hc | hc | hc := hc
      · exact .inl (h.user c hc)
      · exact .inr hc
      · exact .inl ((h.password password hpassword).2 c hc)

theorem isPlain_of_mem_hostPort {uri : Uri} (h : Plain uri) {c : Char}
    (hc : c ∈ hostText uri.host ++ portText uri.port) : isPlain c = true ∨ c = ':' := by
  obtain hc | hc := List.mem_append.mp hc
  · cases hhost : uri.host with
    | none => simp [hhost, hostText] at hc
    | some host =>
        obtain ⟨name, rfl, -, hplain⟩ := h.host host hhost
        rw [hhost] at hc
        exact .inl (hplain c hc)
  · cases hport : uri.port with
    | none => simp [hport, portText] at hc
    | some port =>
        rw [hport, portText, List.mem_cons] at hc
        obtain hc | hc := hc
        · exact .inr hc
        · have hdigit := Text.isDigit_decimalText port c hc
          exact .inl (by simp [isPlain, isUnreserved, Char.isAlphanum, hdigit])

theorem isPlain_of_mem_authorityText {uri : Uri} (h : Plain uri) {c : Char}
    (hc : c ∈ authorityText uri) : isPlain c = true ∨ c = ':' ∨ c = '@' := by
  obtain hc | hc := List.mem_append.mp hc
  · rw [userinfoText] at hc
    split at hc
    · simp at hc
    · obtain hc | hc := List.mem_append.mp hc
      · exact (isPlain_of_mem_userinfo h hc).imp_right .inl
      · exact .inr (.inr (List.mem_singleton.mp hc))
  · exact (isPlain_of_mem_hostPort h hc).imp_right .inl

theorem endsAuthority_of_isPlain {c : Char} (hc : isPlain c = true) :
    Family.generic.endsAuthority c = false :=
  forall_isPlain (p := fun c => Family.generic.endsAuthority c = false) (by decide) hc

theorem not_endsAuthority_of_mem {uri : Uri} (h : Plain uri) :
    ∀ c ∈ authorityText uri, (!Family.generic.endsAuthority c) = true := by
  intro c hc
  obtain hplain | rfl | rfl := isPlain_of_mem_authorityText h hc
  · rw [endsAuthority_of_isPlain hplain, Bool.not_false]
  · rfl
  · rfl

/-- The authority is read as it was written, up to what ends it. -/
theorem read_authorityText {uri : Uri} (h : Plain uri) {rest : List Char}
    (hrest : EndsAuthority rest) :
    Authority.read .generic (authorityText uri ++ rest) =
      .ok ({ user := uri.user, password := uri.password, host := uri.host, port := uri.port },
        rest) := by
  have hchars := not_endsAuthority_of_mem h
  have hat : '@' ∉ hostText uri.host ++ portText uri.port := by
    intro hmem
    exact absurd (isPlain_of_mem_hostPort h hmem) (by decide)
  rw [Authority.read, hrest.takeWhile_append hchars rfl rfl, hrest.dropWhile_append hchars rfl rfl,
    authorityText, userinfoText]
  by_cases hnone : userinfo uri.user uri.password = []
  · obtain ⟨huser, hpassword⟩ := userinfo_eq_nil_iff.mp hnone
    rw [hnone, List.isEmpty_nil, if_pos rfl, List.nil_append, Text.cutAtLast_of_not_mem hat]
    simp only [readHostPort_text h hrest, huser, hpassword, bind, Except.bind, pure, Except.pure]
  · have hisEmpty : (userinfo uri.user uri.password).isEmpty = false := by simpa using hnone
    have hhost : uri.host.isNone = false := by
      cases hhost : uri.host with
      | none =>
          obtain ⟨huser, hpassword, -⟩ := h.hostless hhost
          exact absurd (userinfo_eq_nil_iff.mpr ⟨huser, hpassword⟩) hnone
      | some host => rfl
    rw [hisEmpty, if_neg Bool.false_ne_true, List.append_assoc, List.singleton_append,
      Text.cutAtLast_append _ hat]
    simp only [hisEmpty, splitUserinfo_userinfo h, readHostPort_text h hrest, hhost, bind,
      Except.bind, pure, Except.pure, Bool.false_and, Bool.false_eq_true, if_false]

/-- A user before an at sign must be followed by a host. -/
theorem read_of_hostless {user : List Char} (hne : user ≠ []) (huser : ∀ c ∈ user, isPlain c = true)
    (rest : List Char) :
    Authority.read .generic (user ++ '@' :: '/' :: rest) = .error .emptyHost := by
  have hends : EndsAuthority ('/' :: rest) := .inr ⟨rest, .inl rfl⟩
  have hchars : ∀ c ∈ user ++ ['@'], (!Family.generic.endsAuthority c) = true := by
    intro c hc
    obtain hc | hc := List.mem_append.mp hc
    · rw [endsAuthority_of_isPlain (huser c hc), Bool.not_false]
    · obtain rfl := List.mem_singleton.mp hc
      rfl
  have hcolon : ':' ∉ user := not_mem_of_isPlain huser rfl
  have hsplit : Authority.splitUserinfo user = (user, none) := by
    rw [Authority.splitUserinfo, Text.cutAt_of_not_mem hcolon]
  have hhost : Authority.readHostPort .generic [] ('/' :: rest) =
      .ok (none, none, '/' :: rest) := rfl
  rw [List.append_cons, Authority.read, hends.takeWhile_append hchars rfl rfl,
    hends.dropWhile_append hchars rfl rfl, Text.cutAtLast_append user (List.not_mem_nil)]
  simp [hne, hsplit, hhost, bind, Except.bind]

/-! ## Path and query -/

theorem endsAuthority_path {uri : Uri} (h : Plain uri) :
    EndsAuthority (uri.path ++ queryText uri.query) := by
  obtain ⟨segments, hpath, -⟩ := h.path
  rw [hpath]
  cases segments with
  | nil =>
      cases uri.query with
      | none => exact .inl rfl
      | some query => exact .inr ⟨query, .inr rfl⟩
  | cons first rest => exact .inr ⟨_, .inl rfl⟩

theorem isPlain_of_mem_path {uri : Uri} (h : Plain uri) {c : Char} (hc : c ∈ uri.path) :
    isPlain c = true ∨ c = '/' := by
  obtain ⟨segments, hpath, hsegments⟩ := h.path
  rw [hpath] at hc
  obtain ⟨segment, hsegment, hc⟩ := List.mem_flatMap.mp hc
  obtain hc | hc := List.mem_cons.mp hc
  · exact .inr hc
  · exact .inl ((hsegments segment hsegment).1 c hc)

theorem not_endsPath_of_mem {uri : Uri} (h : Plain uri) :
    ∀ c ∈ uri.path, (!endsPath c) = true := by
  intro c hc
  obtain hplain | rfl := isPlain_of_mem_path h hc
  · exact forall_isPlain (p := fun c => (!endsPath c) = true) (by decide) hplain
  · rfl

theorem beforeQuery_path {uri : Uri} (h : Plain uri) :
    beforeQuery (uri.path ++ queryText uri.query) = uri.path := by
  rw [beforeQuery, List.takeWhile_append_of_pos (not_endsPath_of_mem h)]
  cases uri.query <;> simp [queryText, endsPath]

theorem queryOf_path {uri : Uri} (h : Plain uri) :
    queryOf (uri.path ++ queryText uri.query) = uri.query := by
  rw [queryOf, List.dropWhile_append_of_pos (not_endsPath_of_mem h)]
  cases hquery : uri.query with
  | none => rfl
  | some query =>
      have hfragment : ∀ c ∈ query, (c != '#') = true := fun c hc =>
        bne_iff_ne.mpr (h.query query hquery c hc).2
      have htake : query.takeWhile (· != '#') = query := by
        simpa using @List.takeWhile_append_of_pos _ _ query [] hfragment
      simp [queryText, endsPath, htake]

/-! ## Visible texts -/

section Visible

variable {text : List Char}

theorem dropWhile_blank (h : ∀ c ∈ text, 0x20 < c.toNat) :
    text.dropWhile (fun c => decide (c.toNat ≤ 0x20)) = text := by
  cases text with
  | nil => rfl
  | cons c text =>
      have hc : 0x20 < c.toNat := h c List.mem_cons_self
      exact List.dropWhile_cons_of_neg (by simpa using hc)

theorem trim_of_visible (h : ∀ c ∈ text, 0x20 < c.toNat) : trim text = text := by
  have hreverse : ∀ c ∈ text.reverse, 0x20 < c.toNat := fun c hc => h c (List.mem_reverse.mp hc)
  rw [trim, dropWhile_blank h, dropWhile_blank hreverse, List.reverse_reverse]

theorem clean_of_visible (h : ∀ c ∈ text, 0x20 < c.toNat) : clean text = text := by
  refine List.filter_eq_self.mpr fun c hc => ?_
  have hvisible := h c hc
  have hne : ∀ d : Char, d.toNat ≤ 0x20 → (c == d) = false := by
    intro d hd
    refine beq_false_of_ne ?_
    rintro rfl
    omega
  simp [isIgnored, hne '\t' (by decide), hne '\n' (by decide), hne '\r' (by decide)]

end Visible

/-! ## Whole URIs -/

theorem isPlain_of_mem_scheme {scheme : List Char} (h : isScheme scheme = true) {c : Char}
    (hc : c ∈ scheme) : isPlain c = true ∨ c = '+' := by
  have hall : scheme.all isSchemeCharacter = true := (Bool.and_eq_true_iff.mp h).2
  have hchar := List.all_eq_true.mp hall c hc
  simp only [isSchemeCharacter, Bool.or_eq_true, beq_iff_eq] at hchar
  obtain ((halphanum | hplus) | rfl) | rfl := hchar
  · exact .inl (by simp [isPlain, isUnreserved, halphanum])
  · exact .inr hplus
  · exact .inl (by decide)
  · exact .inl (by decide)

theorem lt_toNat_of_isPlain {c : Char} (hc : isPlain c = true) : 0x20 < c.toNat :=
  forall_isPlain (p := fun c => 0x20 < c.toNat) (by decide) hc

theorem lt_toNat_of_mem_scheme {scheme : List Char} (h : isScheme scheme = true) {c : Char}
    (hc : c ∈ scheme) : 0x20 < c.toNat := by
  obtain hplain | rfl := isPlain_of_mem_scheme h hc
  · exact lt_toNat_of_isPlain hplain
  · decide

/-- A blank or control stands in no part. -/
theorem lt_toNat_of_mem_write {uri : Uri} (h : Plain uri) : ∀ c ∈ write uri, 0x20 < c.toNat := by
  intro c hc
  simp only [write, List.mem_append, List.mem_cons] at hc
  obtain hc | rfl | rfl | rfl | hc | hc | hc := hc
  · exact lt_toNat_of_mem_scheme h.scheme hc
  · decide
  · decide
  · decide
  · obtain hplain | rfl | rfl := isPlain_of_mem_authorityText h hc
    · exact lt_toNat_of_isPlain hplain
    · decide
    · decide
  · obtain hplain | rfl := isPlain_of_mem_path h hc
    · exact lt_toNat_of_isPlain hplain
    · decide
  · cases hquery : uri.query with
    | none => simp [hquery, queryText] at hc
    | some query =>
        rw [hquery, queryText, List.mem_cons] at hc
        obtain rfl | hc := hc
        · decide
        · exact (h.query query hquery c hc).1

theorem cutScheme?_append {scheme : List Char} (h : isScheme scheme = true)
    (hlower : scheme.map Char.toLower = scheme) (rest : List Char) :
    cutScheme? (scheme ++ ':' :: rest) = some (scheme, rest) := by
  have hcolon : ':' ∉ scheme := by
    intro hmem
    exact absurd (isPlain_of_mem_scheme h hmem) (by decide)
  have hclean : clean scheme = scheme :=
    clean_of_visible fun c hc => lt_toNat_of_mem_scheme h hc
  rw [cutScheme?, Text.cutAt_append hcolon]
  simp only [hclean, h, hlower, if_true]

/-- Of a visible text with a generic scheme, what follows the two slashes is read with the
authority at its start. -/
theorem parse_of_visible {scheme : List Char} (h : isScheme scheme = true)
    (hlower : scheme.map Char.toLower = scheme) (hgeneric : Family.ofScheme scheme = .generic)
    {rest : List Char} (hvisible : ∀ c ∈ rest, 0x20 < c.toNat) :
    parse (String.ofList (scheme ++ ':' :: '/' :: '/' :: rest)) =
      withAuthority .generic scheme rest := by
  have hafter : ∀ c ∈ '/' :: '/' :: rest, 0x20 < c.toNat := by
    intro c hc
    simp only [List.mem_cons] at hc
    obtain rfl | rfl | hc := hc
    · decide
    · decide
    · exact hvisible c hc
  have hall : ∀ c ∈ scheme ++ ':' :: '/' :: '/' :: rest, 0x20 < c.toNat := by
    intro c hc
    obtain hc | hc := List.mem_append.mp hc
    · exact lt_toNat_of_mem_scheme h hc
    · obtain rfl | hc := List.mem_cons.mp hc
      · decide
      · exact hafter c hc
  rw [parse, String.toList_ofList, trim_of_visible hall, cutScheme?_append h hlower]
  simp only [hgeneric, clean_of_visible hafter, ofParts, Family.isSpecial, Bool.false_eq_true,
    if_false]

theorem afterAuthority_path {uri : Uri} (h : Plain uri) :
    Path.afterAuthority .generic uri.path = uri.path := by
  obtain ⟨segments, hpath, hsegments⟩ := h.path
  rw [hpath]
  exact Path.afterAuthority_rooted fun segment hsegment =>
    ⟨not_mem_of_isPlain (hsegments segment hsegment).1 rfl, (hsegments segment hsegment).2⟩

/-- A plain URI is read back from its text. -/
theorem parse_write {uri : Uri} (h : Plain uri) : parse (String.ofList (write uri)) = .ok uri := by
  have hvisible : ∀ c ∈ authorityText uri ++ (uri.path ++ queryText uri.query),
      0x20 < c.toNat := fun c hc => lt_toNat_of_mem_write h c <| by simp_all [write]
  rw [write, parse_of_visible h.scheme h.lower h.generic hvisible]
  simp only [withAuthority, read_authorityText h (endsAuthority_path h), beforeQuery_path h,
    queryOf_path h, afterAuthority_path h, bind, Except.bind, pure, Except.pure]

/-- No path can follow a user directly. -/
theorem parse_of_hostless {scheme : List Char} (h : isScheme scheme = true)
    (hlower : scheme.map Char.toLower = scheme) (hgeneric : Family.ofScheme scheme = .generic)
    {user : List Char} (hne : user ≠ []) (huser : ∀ c ∈ user, isPlain c = true)
    {rest : List Char} (hrest : ∀ c ∈ rest, 0x20 < c.toNat) :
    parse (String.ofList (scheme ++ ':' :: '/' :: '/' :: (user ++ '@' :: '/' :: rest))) =
      .error .emptyHost := by
  have hvisible : ∀ c ∈ user ++ '@' :: '/' :: rest, 0x20 < c.toNat := by
    intro c hc
    simp only [List.mem_append, List.mem_cons] at hc
    obtain hc | rfl | rfl | hc := hc
    · exact lt_toNat_of_isPlain (huser c hc)
    · decide
    · decide
    · exact hrest c hc
  rw [parse_of_visible h hlower hgeneric hvisible, withAuthority, read_of_hostless hne huser]
  rfl

end ConnectionBroker.Uri
