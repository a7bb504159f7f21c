import ConnectionBroker.Proofs.Address.RoundTrip

/-! # File paths in an address

A file path is written with its slashes as they are and everything between them encoded. What stands
before the first slash is read as a host and the rest as a path; the location of the address is the
file path again.
-/

namespace ConnectionBroker.Address

open Text.Percent

/-! ## Segments -/

/-- What stands between the slashes of a file path. -/
def segmentsOf (path : String) : List String :=
  (Text.splitOn '/' path.toList).map String.ofList

/-- Whether a file path starts at the root. -/
def IsAbsolute (path : String) : Prop :=
  path.toList.head? = some '/'

/-- No segment after the first is a dot segment. -/
def HasNoDots (path : String) : Prop :=
  ∀ segment ∈ (segmentsOf path).tail, segment ≠ "." ∧ segment ≠ ".."

instance (path : String) : Decidable (IsAbsolute path) :=
  inferInstanceAs (Decidable (_ = _))

instance (path : String) : Decidable (HasNoDots path) :=
  inferInstanceAs (Decidable (∀ segment ∈ (segmentsOf path).tail, _))

variable {path : String}

theorem exists_segmentsOf (path : String) : ∃ first rest, segmentsOf path = first :: rest := by
  obtain ⟨piece, pieces, hpieces⟩ :=
    List.exists_cons_of_ne_nil (Text.splitOn_ne_nil '/' path.toList)
  exact ⟨String.ofList piece, pieces.map String.ofList, by rw [segmentsOf, hpieces, List.map_cons]⟩

theorem slash_not_mem {segment : String} (h : segment ∈ segmentsOf path) :
    '/' ∉ segment.toList := by
  obtain ⟨piece, hpiece, rfl⟩ := List.mem_map.mp h
  rw [String.toList_ofList]
  exact Text.not_mem_of_mem_splitOn hpiece

theorem joinWith_segmentsOf (path : String) :
    Text.joinWith '/' ((segmentsOf path).map String.toList) = path.toList := by
  have hpieces : (segmentsOf path).map String.toList = Text.splitOn '/' path.toList := by
    rw [segmentsOf, List.map_map]
    exact (List.map_congr_left fun _ _ => String.toList_ofList).trans (List.map_id' _)
  rw [hpieces, Text.joinWith_splitOn]

/-- The first segment and the others, each after a slash, make the file path. -/
theorem append_segments {first : String} {rest : List String}
    (h : segmentsOf path = first :: rest) :
    first ++ String.ofList (rest.flatMap ('/' :: ·.toList)) = path := by
  have hpath := joinWith_segmentsOf path
  rw [h, List.map_cons, ← Uri.Path.append_rooted, Uri.Path.rooted, List.flatMap_map] at hpath
  rw [← String.toList_inj, String.toList_append, String.toList_ofList, hpath]

/-- The first segment is empty if nothing stands before the first slash. -/
theorem eq_empty_iff_isAbsolute {first : String} {rest : List String}
    (h : segmentsOf path = first :: rest) (hpath : path ≠ "") : first = "" ↔ IsAbsolute path := by
  have hjoined := append_segments h
  constructor
  · rintro rfl
    cases rest with
    | nil => exact absurd hjoined.symm hpath
    | cons next rest =>
        rw [IsAbsolute, ← hjoined]
        simp
  · intro habsolute
    by_contra hne
    -- a first segment with a character would begin with the slash of the path
    obtain ⟨c, text, htext⟩ := List.exists_cons_of_ne_nil (mt String.toList_eq_nil_iff.mp hne)
    have hslash : '/' ∉ first.toList := slash_not_mem (h ▸ List.mem_cons_self)
    rw [IsAbsolute, ← hjoined, String.toList_append, htext, List.cons_append, List.head?_cons,
      Option.some_inj] at habsolute
    exact hslash (by simp [htext, habsolute])

/-! ## Writing -/

def isKeptInPath (c : Char) : Bool :=
  isUnreserved c || c == '/'

/-- A file path with everything encoded but the unreserved characters and the slashes. -/
def encodePath (path : String) : List Char :=
  Text.Percent.encode isKeptInPath path.toList

theorem encode_isKeptInPath {segment : String} (h : '/' ∉ segment.toList) :
    Text.Percent.encode isKeptInPath segment.toList = encode segment := by
  refine encode_congr fun c hc => ?_
  have hne : (c == '/') = false := by
    refine beq_false_of_ne ?_
    rintro rfl
    exact h hc
  rw [isKeptInPath, hne, Bool.or_false]

theorem encode_slashes {segments : List String} (h : ∀ segment ∈ segments, '/' ∉ segment.toList) :
    Text.Percent.encode isKeptInPath (segments.flatMap ('/' :: ·.toList)) =
      Uri.Path.rooted (segments.map encode) := by
  have hslash : encodeChar isKeptInPath '/' = ['/'] := rfl
  induction segments with
  | nil => rfl
  | cons segment rest ih =>
      obtain ⟨hsegment, hrest⟩ := List.forall_mem_cons.mp h
      rw [List.flatMap_cons, List.cons_append, encode_cons, encode_append,
        encode_isKeptInPath hsegment, ih hrest, hslash]
      rfl

/-- A file path is written as its first segment and a path of the others. -/
theorem encodePath_eq {first : String} {rest : List String}
    (h : segmentsOf path = first :: rest) :
    encodePath path = encode first ++ Uri.Path.rooted (rest.map encode) := by
  have hslash : ∀ segment ∈ first :: rest, '/' ∉ segment.toList :=
    fun segment hsegment => slash_not_mem (h ▸ hsegment)
  obtain ⟨hfirst, hrest⟩ := List.forall_mem_cons.mp hslash
  rw [encodePath]
  nth_rewrite 1 [← append_segments h]
  rw [String.toList_append, String.toList_ofList, encode_append, encode_isKeptInPath hfirst,
    encode_slashes hrest]

/-- Blanks and controls are encoded. -/
theorem lt_toNat_of_mem_encodePath {c : Char} (hc : c ∈ encodePath path) : 0x20 < c.toNat := by
  obtain hkept | rfl | ⟨n, hn, rfl⟩ := mem_encode hc
  · obtain hunreserved | hslash := Bool.or_eq_true_iff.mp hkept
    · exact Uri.lt_toNat_of_isPlain (by simp [isPlain, hunreserved])
    · rw [eq_of_beq hslash]
      decide
  · decide
  · exact Uri.lt_toNat_of_isPlain (by simp [isPlain, isUnreserved_upperHexDigit n hn])

/-! ## Addresses of files -/

/-- What the address of a file is made of. -/
structure FileParts where
  scheme : String
  user : Option String := none
  path : String
  /-- The pairs of the query, if there is a question mark. -/
  pairs : Option (List (String × String)) := none
  scheme_generic : isGenericScheme scheme = true
  user_ne : user ≠ some ""
  path_ne : path ≠ ""
  path_noDots : HasNoDots path
  /-- An absolute path leaves no host for a user to stand before. -/
  user_hosted : IsAbsolute path → user = none

namespace FileParts

/-- The segment that is read as a host. -/
def host (file : FileParts) : String :=
  (segmentsOf file.path).headD ""

/-- The segments that are read as a path. -/
def below (file : FileParts) : List String :=
  (segmentsOf file.path).tail

def userText (file : FileParts) : List Char :=
  (file.user.map (encode · ++ ['@'])).getD []

/-- The parts as a URI. -/
def text (file : FileParts) : String :=
  String.ofList (file.scheme.toList ++ "://".toList ++ file.userText ++ encodePath file.path ++
    Uri.queryText (file.pairs.map Uri.Query.text))

def address (file : FileParts) : Address where
  schemes := (file.scheme.toList.splitOn '+').map String.ofList
  host := nonempty file.host
  user := file.user
  path := String.ofList (file.below.flatMap ('/' :: ·.toList))
  paths := file.below.filter (· ≠ "")
  query := Uri.Query.lastValues (file.pairs.getD [])

/-- The URI whose text the parts make. -/
def uri (file : FileParts) : Uri where
  scheme := file.scheme.toList
  user := encode (file.user.getD "")
  password := none
  host := (nonempty file.host).map fun host => .name (encode host)
  port := none
  path := Uri.Path.rooted (file.below.map encode)
  query := file.pairs.map Uri.Query.text

theorem segmentsOf_path (file : FileParts) : segmentsOf file.path = file.host :: file.below := by
  obtain ⟨first, rest, hsegments⟩ := exists_segmentsOf file.path
  rw [host, below, hsegments]
  rfl

theorem host_eq_empty_iff (file : FileParts) : file.host = "" ↔ IsAbsolute file.path :=
  eq_empty_iff_isAbsolute file.segmentsOf_path file.path_ne

/-- The location of a file is its path. -/
theorem location_address (file : FileParts) : file.address.location = some file.path := by
  have hhost : (nonempty file.host).getD "" = file.host := by
    by_cases hempty : file.host = ""
    · rw [hempty]
      rfl
    · rw [nonempty_of_ne hempty, Option.getD_some]
  rw [location, address]
  simp only [hhost, append_segments file.segmentsOf_path]
  exact nonempty_of_ne file.path_ne

theorem plain_uri (file : FileParts) : file.uri.Plain where
  scheme := isScheme_of_isGenericScheme file.scheme_generic
  lower := map_toLower_of_isGenericScheme file.scheme_generic
  generic := ofScheme_of_isGenericScheme file.scheme_generic
  user := fun c hc => isPlain_of_mem_encode hc
  password := by
    rintro _ ⟨⟩
  host := by
    intro host hhost
    obtain ⟨name, hname, rfl⟩ := Option.map_eq_some_iff.mp hhost
    refine ⟨_, rfl, mt encode_eq_nil_iff.mp ?_, fun c hc => isPlain_of_mem_encode hc⟩
    rintro rfl
    simp [nonempty] at hname
  hostless := by
    intro hhost
    have hempty : file.host = "" := by
      by_contra hne
      simp [uri, nonempty_of_ne hne] at hhost
    refine ⟨?_, rfl, rfl⟩
    rw [uri, file.user_hosted (file.host_eq_empty_iff.mp hempty)]
    exact encode_eq_nil_iff.mpr rfl
  port := by
    rintro _ ⟨⟩
  path := ⟨file.below.map encode, rfl, plain_of_mem_map_encode file.path_noDots⟩
  query := by
    intro query hquery c hc
    obtain ⟨pairs, -, rfl⟩ := Option.map_eq_some_iff.mp hquery
    exact visible_of_mem_text hc

theorem userinfoText_uri (file : FileParts) :
    Uri.userinfoText (Uri.userinfo file.uri.user file.uri.password) = file.userText := by
  have hnone : encode "" = [] := encode_eq_nil_iff.mpr rfl
  rw [Uri.userinfoText, userText, uri]
  cases huser : file.user with
  | none => simp [Uri.userinfo, hnone]
  | some user =>
      have hencoded : encode user ≠ [] :=
        mt encode_eq_nil_iff.mp (ne_of_eq_some file.user_ne huser)
      simp [Uri.userinfo, hencoded]

theorem hostText_uri (file : FileParts) : Uri.hostText file.uri.host = encode file.host := by
  rw [Uri.hostText, uri]
  by_cases hempty : file.host = ""
  · rw [hempty]
    exact (encode_eq_nil_iff.mpr rfl).symm
  · rw [nonempty_of_ne hempty]
    rfl

theorem write_uri (file : FileParts) : String.ofList file.uri.write = file.text := by
  have hpath : encode file.host ++ file.uri.path = encodePath file.path :=
    (encodePath_eq file.segmentsOf_path).symm
  have hport : Uri.portText file.uri.port = [] := rfl
  rw [Uri.write, Uri.authorityText, userinfoText_uri, hostText_uri, hport, text, ← hpath]
  simp [uri]

theorem ofUri_uri (file : FileParts) : ofUri file.uri = .ok file.address := by
  have hhost : decodePresent .host (file.uri.host.map Uri.Host.text) =
      .ok (nonempty file.host) := by
    by_cases hempty : file.host = ""
    · rw [uri, hempty]
      rfl
    · rw [uri, nonempty_of_ne hempty]
      exact (decodePresent_encode .host file.host).trans (by rw [nonempty_of_ne hempty])
  have huser : decodePresent .user (some file.uri.user) = .ok file.user :=
    (decodePresent_encode .user _).trans (by rw [nonempty_getD file.user_ne])
  have hpath : decode .path file.uri.path = .ok file.address.path := decode_path file.below
  have hpaths : decodeSegments file.uri.path file.address.path = .ok file.address.paths :=
    decodeSegments_path file.below
  have hquery : decodeQuery file.uri.query = file.address.query := by
    rw [uri, address]
    cases file.pairs with
    | none => rfl
    | some pairs => exact decodeQuery_text pairs
  rw [ofUri, hhost, huser]
  simp only [hpath, hpaths, hquery, bind, Except.bind, pure, Except.pure, splitOn_eq_splitOn]
  rfl

end FileParts

/-- The address of a file is read from its text. -/
theorem parse_fileText (file : FileParts) : parse file.text = .ok file.address := by
  rw [parse, ← file.write_uri, Uri.parse_write file.plain_uri]
  exact file.ofUri_uri

/-- An absolute path cannot stand after a user. -/
theorem parse_of_isAbsolute {scheme user path : String} (hscheme : isGenericScheme scheme = true)
    (huser : user ≠ "") (habsolute : IsAbsolute path) :
    parse (String.ofList (scheme.toList ++ "://".toList ++ (encode user ++ ['@']) ++
      encodePath path)) = .error (.invalidUri .emptyHost) := by
  obtain ⟨rest, hpath⟩ := List.head?_eq_some_iff.mp habsolute
  have hencoded : encodePath path = '/' :: Text.Percent.encode isKeptInPath rest := by
    rw [encodePath, hpath]
    rfl
  have hvisible : ∀ c ∈ Text.Percent.encode isKeptInPath rest, 0x20 < c.toNat := by
    intro c hc
    have hmem : c ∈ encodePath path := by
      rw [hencoded]
      exact List.mem_cons_of_mem _ hc
    exact lt_toNat_of_mem_encodePath hmem
  have hread := Uri.parse_of_hostless (isScheme_of_isGenericScheme hscheme)
    (map_toLower_of_isGenericScheme hscheme) (ofScheme_of_isGenericScheme hscheme)
    (mt encode_eq_nil_iff.mp huser) (fun c hc => isPlain_of_mem_encode hc) hvisible
  have hmark : "://".toList = [':', '/', '/'] := rfl
  rw [parse, hencoded, hmark]
  simp only [List.append_assoc, List.cons_append, List.nil_append]
  rw [hread]
  rfl

end ConnectionBroker.Address
