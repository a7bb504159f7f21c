import ConnectionBroker.Address
import ConnectionBroker.Proofs.Address.RoundTrip
import ConnectionBroker.Proofs.Text.Pieces
import ConnectionBroker.Proofs.Uri.Hosts
import ConnectionBroker.Proofs.Uri.Query

/-! # The normal form of an address

An address that was read has no empty parts, and its path and its segments come from one raw path:
the path is decoded as a whole and the segments one by one. The two never disagree, so an address
whose other parts can be decoded is read just if every raw segment can be decoded.
-/

namespace ConnectionBroker.Address

open Text.Percent (Decodes decodeText?)

/-! ## Paths -/

/-- How a path and its segments come from a raw path. -/
inductive PathForm : List Char → String → List String → Prop where
  /-- The path is what all the pieces between the slashes are decoded to, with slashes between them
  again. The segments are what the pieces are decoded to that are not empty. -/
  | rooted {raw : List Char} {texts segments : List String} (hroot : raw.head? = some '/')
      (hpath : List.Forall₂ Decodes (raw.splitOn '/') texts)
      (hsegments : List.Forall₂ Decodes ((raw.splitOn '/').filter (· ≠ [])) segments) :
      PathForm raw ("/".intercalate texts) segments
  | rootless {raw : List Char} {path : String} (hne : raw ≠ []) (hroot : raw.head? ≠ some '/')
      (hpath : Decodes raw path) : PathForm raw path [path]
  | empty : PathForm [] "" []

/-- The raw segments of a rooted path, and any other path as a whole. -/
def rawSegments (raw : List Char) : List (List Char) :=
  if raw.head? = some '/' then raw.splitOn '/' else [raw]

variable {component : Component} {raw : List Char} {text path : String} {segments : List String}

theorem decode_eq_ok_iff : decode component raw = .ok text ↔ Decodes raw text := by
  unfold decode Decodes
  cases decodeText? raw <;> simp

theorem decode_eq_error_iff {fault : Fault} :
    decode component raw = .error fault ↔
      fault = .invalidEncoding component ∧ decodeText? raw = none := by
  unfold decode
  cases decodeText? raw <;> simp [eq_comm]

theorem mapM_decode_of_decodes {pieces : List (List Char)} {texts : List String}
    (h : List.Forall₂ Decodes pieces texts) : pieces.mapM (decode component) = .ok texts := by
  induction h with
  | nil => rfl
  | cons hpiece _ ih =>
      rw [List.mapM_cons, decode_eq_ok_iff.mpr hpiece, ih]
      rfl

theorem joinWith_splitOn (raw : List Char) : Text.joinWith '/' (raw.splitOn '/') = raw := by
  rw [← splitOn_eq_splitOn, Text.joinWith_splitOn]

/-- A path cannot be decoded just if one of its raw pieces cannot. -/
theorem decodeText?_eq_none_iff_splitOn (raw : List Char) :
    decodeText? raw = none ↔ ∃ piece ∈ raw.splitOn '/', decodeText? piece = none := by
  have hne : raw.splitOn '/' ≠ [] := List.splitOn_ne_nil '/' raw
  rw [← Text.Percent.decodeText?_joinWith_eq_none_iff hne, joinWith_splitOn]

theorem decodeText?_eq_none_iff_rawSegments (raw : List Char) :
    decodeText? raw = none ↔ ∃ piece ∈ rawSegments raw, decodeText? piece = none := by
  unfold rawSegments
  split
  · exact decodeText?_eq_none_iff_splitOn raw
  · simp

namespace PathForm

/-- The segments are what is read from a path in that form. -/
theorem decodeSegments_eq (h : PathForm raw path segments) :
    decodeSegments raw path = .ok segments := by
  cases h with
  | rooted hroot hpath hsegments =>
      obtain ⟨rest, rfl⟩ := List.head?_eq_some_iff.mp hroot
      have hpieces : ((Text.splitOn '/' rest).filter (!·.isEmpty)) =
          (('/' :: rest).splitOn '/').filter (· ≠ []) := by
        rw [← splitOn_eq_splitOn, Text.splitOn, if_pos rfl, List.filter_cons_of_neg (by simp)]
        exact List.filter_congr fun piece _ => by cases piece <;> rfl
      rw [decodeSegments, rawSegments?]
      simp only [hpieces]
      exact mapM_decode_of_decodes hsegments
  | rootless hne hroot hpath =>
      cases raw with
      | nil => exact absurd rfl hne
      | cons c rest =>
          have hc : c ≠ '/' := fun hc => hroot (congrArg some hc)
          have hpathne : path ≠ "" := fun hempty => hne (hpath.eq_empty_iff.mp hempty)
          simp [decodeSegments, rawSegments?, hc, hpathne]
  | empty => rfl

/-- Every path that can be decoded has segments: cutting it at its slashes leaves pieces that can be
decoded. -/
theorem exists_of_decodes (h : Decodes raw path) : ∃ segments, PathForm raw path segments := by
  by_cases hroot : raw.head? = some '/'
  · have hpieces : ∀ piece ∈ raw.splitOn '/', decodeText? piece ≠ none := by
      intro piece hpiece hnone
      have hraw := (decodeText?_eq_none_iff_splitOn raw).mpr ⟨piece, hpiece, hnone⟩
      rw [h] at hraw
      cases hraw
    have hnonempty : ∀ piece ∈ (raw.splitOn '/').filter (· ≠ []), decodeText? piece ≠ none :=
      fun piece hpiece => hpieces piece (List.mem_of_mem_filter hpiece)
    obtain ⟨texts, htexts⟩ := Text.Percent.exists_decodes hpieces
    obtain ⟨segments, hsegments⟩ := Text.Percent.exists_decodes hnonempty
    have hjoined := Decodes.joinWith htexts (List.splitOn_ne_nil '/' raw)
    rw [joinWith_splitOn] at hjoined
    obtain rfl := Option.some.inj (h.symm.trans hjoined)
    exact ⟨segments, .rooted hroot htexts hsegments⟩
  · by_cases hne : raw = []
    · subst hne
      obtain rfl := h.eq_empty_iff.mpr rfl
      exact ⟨[], .empty⟩
    · exact ⟨[path], .rootless hne hroot h⟩

theorem ne_empty (h : PathForm raw path segments) : "" ∉ segments := by
  cases h with
  | rooted hroot hpath hsegments =>
      intro hempty
      obtain ⟨piece, hpiece, hdecodes⟩ := Text.Percent.exists_mem_of_decodes hsegments hempty
      have hnil := hdecodes.eq_empty_iff.mp rfl
      simp [hnil] at hpiece
  | rootless hne hroot hpath =>
      intro hempty
      exact hne (hpath.eq_empty_iff.mp (List.mem_singleton.mp hempty).symm)
  | empty => exact List.not_mem_nil

end PathForm

theorem decodeSegments_eq_ok_iff (h : Decodes raw path) :
    decodeSegments raw path = .ok segments ↔ PathForm raw path segments := by
  refine ⟨fun hread => ?_, PathForm.decodeSegments_eq⟩
  obtain ⟨others, hothers⟩ := PathForm.exists_of_decodes h
  obtain rfl := Except.ok.inj (hread.symm.trans hothers.decodeSegments_eq)
  exact hothers

/-! ## Parts that may be absent -/

variable {part : Option (List Char)} {shown : Option String}

theorem nonempty_ne_empty (text : String) : nonempty text ≠ some "" := by
  unfold nonempty
  split
  · nofun
  · next hne =>
      intro hsome
      obtain rfl := Option.some.inj hsome
      exact hne rfl

theorem ne_empty_of_decodePresent (h : decodePresent component part = .ok shown) :
    shown ≠ some "" := by
  cases part with
  | none =>
      obtain rfl := Except.ok.inj h
      nofun
  | some raw =>
      obtain ⟨text, -, rfl⟩ := exists_of_map_eq_ok h
      exact nonempty_ne_empty text

/-- A part is present just if it is written and not empty. -/
theorem isSome_of_decodePresent (h : decodePresent component part = .ok shown) :
    shown.isSome = true ↔ ∃ raw ∈ part, raw ≠ [] := by
  cases part with
  | none =>
      obtain rfl := Except.ok.inj h
      simp
  | some raw =>
      obtain ⟨text, hread, rfl⟩ := exists_of_map_eq_ok h
      have hempty := (decode_eq_ok_iff.mp hread).eq_empty_iff
      by_cases hraw : raw = []
      · simp [nonempty, hempty.mpr hraw, hraw]
      · simp [nonempty, mt hempty.mp hraw, hraw]

theorem exists_of_decodePresent (component : Component)
    (h : ∀ raw ∈ part, decodeText? raw ≠ none) :
    ∃ shown, decodePresent component part = .ok shown := by
  cases part with
  | none => exact ⟨none, rfl⟩
  | some raw =>
      obtain ⟨text, htext⟩ := Option.ne_none_iff_exists'.mp (h raw rfl)
      exact ⟨nonempty text, by rw [decodePresent, decode_eq_ok_iff.mpr htext]; rfl⟩

/-! ## Reading a URI -/

/-- How an address comes from the parts of a URI. -/
structure ReadsAs (uri : Uri) (address : Address) : Prop where
  schemes : address.schemes = (Text.splitOn '+' uri.scheme).map String.ofList
  host : decodePresent .host (uri.host.map Uri.Host.text) = .ok address.host
  port : address.port = uri.port
  user : decodePresent .user (some uri.user) = .ok address.user
  password : decodePresent .password uri.password = .ok address.password
  path : Decodes uri.path address.path
  paths : PathForm uri.path address.path address.paths
  query : address.query = decodeQuery uri.query

/-- Whether host, user and password of a URI can be decoded. -/
structure IsReadable (uri : Uri) : Prop where
  host : ∀ host ∈ uri.host, decodeText? host.text ≠ none
  user : decodeText? uri.user ≠ none
  password : ∀ password ∈ uri.password, decodeText? password ≠ none

variable {uri : Uri} {address : Address}

theorem readsAs_of_ofUri (h : ofUri uri = .ok address) : ReadsAs uri address := by
  obtain ⟨host, hhost, h⟩ := exists_of_bind_eq_ok h
  obtain ⟨user, huser, h⟩ := exists_of_bind_eq_ok h
  obtain ⟨password, hpassword, h⟩ := exists_of_bind_eq_ok h
  obtain ⟨path, hpath, h⟩ := exists_of_bind_eq_ok h
  obtain ⟨paths, hpaths, h⟩ := exists_of_bind_eq_ok h
  obtain rfl := Except.ok.inj h
  have hdecodes := decode_eq_ok_iff.mp hpath
  exact {
    schemes := rfl
    host := hhost
    port := rfl
    user := huser
    password := hpassword
    path := hdecodes
    paths := (decodeSegments_eq_ok_iff hdecodes).mp hpaths
    query := rfl }

theorem ReadsAs.nodup_query (h : ReadsAs uri address) : (address.query.map Prod.fst).Nodup := by
  rw [h.query]
  exact Uri.Query.nodup_map_fst_merge _

/-- Once the other parts can be decoded, only the path decides. -/
theorem ofUri_of_isReadable (h : IsReadable uri) {fault : Fault} :
    ofUri uri = .error fault ↔ fault = .invalidEncoding .path ∧ decodeText? uri.path = none := by
  have hostReadable : ∀ raw ∈ uri.host.map Uri.Host.text, decodeText? raw ≠ none := by
    simpa using h.host
  have userReadable : ∀ raw ∈ some uri.user, decodeText? raw ≠ none := by
    simpa using h.user
  obtain ⟨host, hhost⟩ := exists_of_decodePresent .host hostReadable
  obtain ⟨user, huser⟩ := exists_of_decodePresent .user userReadable
  obtain ⟨password, hpassword⟩ := exists_of_decodePresent .password h.password
  rw [ofUri, hhost, huser, hpassword]
  simp only [bind, Except.bind]
  cases hdecoded : decodeText? uri.path with
  | none =>
      rw [decode_eq_error_iff.mpr ⟨rfl, hdecoded⟩]
      simp [eq_comm]
  | some path =>
      -- A path that is decoded as a whole is decoded in its segments.
      obtain ⟨segments, hsegments⟩ := PathForm.exists_of_decodes hdecoded
      rw [decode_eq_ok_iff.mpr hdecoded]
      simp only [hsegments.decodeSegments_eq]
      simp [pure, Except.pure]

/-! ## Normal forms -/

/-- An address in normal form, read from a URI. -/
structure IsNormal (uri : Uri) (address : Address) : Prop where
  schemes_ne : address.schemes ≠ []
  scheme_eq : "+".intercalate address.schemes = String.ofList uri.scheme
  host_ne : address.host ≠ some ""
  user_ne : address.user ≠ some ""
  password_ne : address.password ≠ some ""
  user_hosted : address.user.isSome = true → address.host.isSome = true
  password_hosted : address.password.isSome = true → address.host.isSome = true
  port_hosted : address.port.isSome = true → address.host.isSome = true
  segments_ne : "" ∉ address.paths
  path_form : PathForm uri.path address.path address.paths
  query_nodup : (address.query.map Prod.fst).Nodup
  location_eq_none_iff : address.location = none ↔ address.host = none ∧ address.path = ""

theorem intercalate_map_ofList (pieces : List (List Char)) :
    "+".intercalate (pieces.map String.ofList) = String.ofList (Text.joinWith '+' pieces) := by
  fun_induction Text.joinWith '+' pieces with
  | case1 => rfl
  | case2 piece => simp
  | case3 piece next pieces ih =>
      rw [List.map_cons, String.intercalate_cons_of_ne_nil (by simp), ih]
      apply String.toList_inj.mp
      simp

theorem location_eq_none_iff (h : address.host ≠ some "") :
    address.location = none ↔ address.host = none ∧ address.path = "" := by
  unfold location nonempty
  cases hhost : address.host with
  | none => simp
  | some host =>
      have hne : host ≠ "" := fun hempty => h (by rw [hhost, hempty])
      simp [hne]

/-- Where a URI has a host, the address read from it has one. -/
theorem ReadsAs.host_isSome (h : ReadsAs uri address) (hhosted : uri.IsHosted)
    (hhost : uri.host.isSome = true) : address.host.isSome = true := by
  obtain ⟨host, hsome⟩ := Option.isSome_iff_exists.mp hhost
  apply (isSome_of_decodePresent h.host).mpr
  exact ⟨host.text, by simp [hsome], hhosted.host_ne host hsome⟩

theorem ReadsAs.isNormal (h : ReadsAs uri address) (hhosted : uri.IsHosted) :
    IsNormal uri address where
  schemes_ne := by simp [h.schemes, Text.splitOn_ne_nil]
  scheme_eq := by rw [h.schemes, intercalate_map_ofList, Text.joinWith_splitOn]
  host_ne := ne_empty_of_decodePresent h.host
  user_ne := ne_empty_of_decodePresent h.user
  password_ne := ne_empty_of_decodePresent h.password
  user_hosted := by
    intro huser
    obtain ⟨raw, hraw, hne⟩ := (isSome_of_decodePresent h.user).mp huser
    obtain rfl := Option.some.inj hraw
    exact h.host_isSome hhosted (hhosted.user_hosted hne)
  password_hosted := by
    intro hpassword
    obtain ⟨raw, hraw, -⟩ := (isSome_of_decodePresent h.password).mp hpassword
    exact h.host_isSome hhosted (hhosted.password_hosted (Option.isSome_of_mem hraw))
  port_hosted := by
    intro hport
    rw [h.port] at hport
    exact h.host_isSome hhosted (hhosted.port_hosted hport)
  segments_ne := h.paths.ne_empty
  path_form := h.paths
  query_nodup := h.nodup_query
  location_eq_none_iff := location_eq_none_iff (ne_empty_of_decodePresent h.host)

theorem parse_eq_ofUri {text : String} (h : Uri.parse text = .ok uri) : parse text = ofUri uri := by
  rw [parse, h]
  rfl

/-- Every address that is read is in normal form. A segment can be decoded wherever the whole path
can, so a URI whose host, user and password can be decoded is read as an address unless one of its
raw segments cannot be decoded. -/
theorem parse_isNormal (text : String) :
    (∀ address, parse text = .ok address →
      ∃ uri, Uri.parse text = .ok uri ∧ IsNormal uri address) ∧
    ∀ uri, Uri.parse text = .ok uri →
      (decodeText? uri.path ≠ none → ∀ raw ∈ uri.path.splitOn '/', decodeText? raw ≠ none) ∧
      (IsReadable uri → ∀ fault, parse text = .error fault ↔
        fault = .invalidEncoding .path ∧ ∃ raw ∈ rawSegments uri.path, decodeText? raw = none) := by
  refine ⟨fun address haddress => ?_, fun uri huri => ⟨fun hpath raw hraw hnone => ?_, ?_⟩⟩
  · obtain ⟨uri, huri, hread⟩ := exists_of_bind_eq_ok haddress
    have hparse : Uri.parse text = .ok uri := eq_ok_of_mapError huri
    exact ⟨uri, hparse, (readsAs_of_ofUri hread).isNormal (Uri.isHosted_of_parse hparse)⟩
  · exact hpath ((decodeText?_eq_none_iff_splitOn uri.path).mpr ⟨raw, hraw, hnone⟩)
  · intro hreadable fault
    rw [parse_eq_ofUri huri, ofUri_of_isReadable hreadable, decodeText?_eq_none_iff_rawSegments]

/-- Escapes of a slash and of a character of two bytes; a slash between the two bytes spoils it. -/
theorem parse_isNormal_escapes :
    let address : Address := {
      schemes := ["a", "b"]
      host := some "h"
      user := some "u"
      path := "/x/y//é"
      paths := ["x/y", "é"]
      query := [("k", "2")] }
    let spoilt : Uri := {
      scheme := "a".toList
      host := some (.name "h".toList)
      path := "/%C3/%A9".toList }
    (parse "a+b://u:@h/x%2Fy//%C3%A9?k=1&k=2" = .ok address ∧
      ∃ uri, Uri.parse "a+b://u:@h/x%2Fy//%C3%A9?k=1&k=2" = .ok uri ∧ IsNormal uri address) ∧
    Uri.parse "a://h/%C3/%A9" = .ok spoilt ∧ IsReadable spoilt ∧
      rawSegments spoilt.path = [[], "%C3".toList, "%A9".toList] ∧
      parse "a://h/%C3/%A9" = .error (.invalidEncoding .path) := by
  intro address spoilt
  have hread : parse "a+b://u:@h/x%2Fy//%C3%A9?k=1&k=2" = .ok address := by decide +kernel
  have hspoilt : Uri.parse "a://h/%C3/%A9" = .ok spoilt := by decide +kernel
  have hreadable : IsReadable spoilt := ⟨by decide +kernel, by decide +kernel, by decide⟩
  have hraw : rawSegments spoilt.path = [[], "%C3".toList, "%A9".toList] := by decide +kernel
  refine ⟨⟨hread, (parse_isNormal _).1 address hread⟩, hspoilt, hreadable, hraw, ?_⟩
  apply (((parse_isNormal _).2 spoilt hspoilt).2 hreadable _).mpr
  refine ⟨rfl, "%C3".toList, ?_, by decide +kernel⟩
  rw [hraw]
  exact List.mem_cons_of_mem _ List.mem_cons_self

end ConnectionBroker.Address
