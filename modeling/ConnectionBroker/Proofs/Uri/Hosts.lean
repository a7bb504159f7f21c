import ConnectionBroker.Proofs.Mapping.Params
import ConnectionBroker.Uri.Parse

/-! # Which URIs have a host

A host is never empty. Whatever else of an authority there is, a user, a password or a port, stands
beside a host.
-/

namespace ConnectionBroker.Uri

/-! ## Hosts -/

namespace Host

theorem text_ne_nil {host : Host} (h : host ≠ .name []) : host.text ≠ [] := by
  cases host with
  | name text =>
      intro htext
      exact h (congrArg Host.name htext)
  | ipv4 address => simp [Host.text, Ipv4.text, Text.joinWith]
  | ipv6 groups => simp [Host.text, Ipv6.text]

theorem bracketedOr_ne {read : List Char → Except Fault Host} {text : List Char} {host : Host}
    (hread : read text = .ok host → host ≠ .name []) (h : bracketedOr read text = .ok host) :
    host ≠ .name [] := by
  unfold bracketedOr at h
  split at h
  · split at h
    · obtain ⟨groups, -, rfl⟩ := exists_of_map_eq_ok h
      exact Host.noConfusion
    · cases h
  · exact hread h

theorem parseDomain_ne {text : List Char} {host : Host} (h : parseDomain text = .ok host) :
    host ≠ .name [] := by
  refine bracketedOr_ne (fun hread => ?_) h
  split at hread
  · cases hread
  next decoded _ =>
    simp only at hread
    split at hread
    · cases hread
    split at hread
    · cases hread
    next hne =>
      split at hread
      · obtain ⟨address, -, rfl⟩ := exists_of_map_eq_ok hread
        exact Host.noConfusion
      · obtain rfl := Except.ok.inj hread
        intro hempty
        exact hne (List.isEmpty_iff.mpr (Host.name.inj hempty))

end Host

/-! ## Authorities -/

/-- What stands beside a host: a user, a password or a port. -/
structure Hosted (user : List Char) (password : Option (List Char)) (host : Option Host)
    (port : Option Nat) : Prop where
  host_ne : ∀ name ∈ host, name.text ≠ []
  user_hosted : user ≠ [] → host.isSome = true
  password_hosted : password.isSome = true → host.isSome = true
  port_hosted : port.isSome = true → host.isSome = true

theorem hosted_of_host {host : Option Host} (h : ∀ name ∈ host, name.text ≠ []) :
    Hosted [] none host none where
  host_ne := h
  user_hosted := by simp
  password_hosted := by simp
  port_hosted := by simp

namespace Authority

variable {family : Family} {text rest after : List Char} {host : Option Host} {port : Option Nat}

theorem readHost_ne (h : readHost family text = .ok host) : ∀ name ∈ host, name.text ≠ [] := by
  intro name hname
  obtain rfl := Option.mem_def.mp hname
  apply Host.text_ne_nil
  unfold readHost at h
  split at h
  · split at h
    · cases h
    · obtain ⟨parsed, hparse, hsome⟩ := exists_of_map_eq_ok h
      obtain rfl := Option.some.inj hsome
      exact Host.parseDomain_ne hparse
  · obtain ⟨parsed, -, hsome⟩ := exists_of_map_eq_ok h
    split at hsome
    · cases hsome
    · next hne =>
        obtain rfl := Option.some.inj hsome
        exact hne

theorem hosted_of_readHostPort (h : readHostPort family text rest = .ok (host, port, after)) :
    Hosted [] none host port := by
  unfold readHostPort at h
  obtain ⟨read, hread, h⟩ := exists_of_bind_eq_ok h
  split at h
  · obtain ⟨⟩ := Except.ok.inj h
    exact hosted_of_host (readHost_ne hread)
  · split at h
    · cases h
    · next hsome =>
        obtain ⟨⟨_, _⟩, -, h⟩ := exists_of_bind_eq_ok h
        obtain ⟨⟩ := Except.ok.inj h
        refine ⟨readHost_ne hread, by simp, by simp, fun _ => ?_⟩
        simpa [Option.isSome_iff_ne_none] using hsome

theorem hosted_of_read {authority : Authority} (h : read family text = .ok (authority, after)) :
    Hosted authority.user authority.password authority.host authority.port := by
  unfold read at h
  simp only at h
  split at h
  · obtain ⟨⟨host, port, _⟩, hread, h⟩ := exists_of_bind_eq_ok h
    obtain ⟨⟩ := Except.ok.inj h
    exact hosted_of_readHostPort hread
  next userinfo address _ =>
    split at h
    · cases h
    obtain ⟨⟨host, port, _⟩, hread, h⟩ := exists_of_bind_eq_ok h
    split at h
    · cases h
    next hbeside =>
      obtain ⟨⟩ := Except.ok.inj h
      have hhosted := hosted_of_readHostPort hread
      have hsome : host.isSome = true ∨
          (splitUserinfo userinfo).1 = [] ∧ (splitUserinfo userinfo).2 = none := by
        cases host with
        | none => exact .inr (by simpa using hbeside)
        | some host => exact .inl rfl
      refine ⟨hhosted.host_ne, ?_, ?_, hhosted.port_hosted⟩
      · intro huser
        exact hsome.resolve_right fun hnone => huser hnone.1
      · intro hpassword
        refine hsome.resolve_right fun hnone => ?_
        simp [hnone.2] at hpassword

end Authority

/-! ## URIs -/

/-- A URI whose user, password and port stand beside a host, which is not empty. -/
def IsHosted (uri : Uri) : Prop :=
  Hosted uri.user uri.password uri.host uri.port

variable {uri : Uri} {scheme rest : List Char}

theorem isHosted_of_withAuthority {family : Family}
    (h : withAuthority family scheme rest = .ok uri) : uri.IsHosted := by
  obtain ⟨⟨authority, after⟩, hread, h⟩ := exists_of_bind_eq_ok h
  obtain rfl := Except.ok.inj h
  exact Authority.hosted_of_read hread

theorem isHosted_of_ofParts {family : Family} (h : ofParts family scheme rest = .ok uri) :
    uri.IsHosted := by
  unfold ofParts at h
  split at h
  · exact isHosted_of_withAuthority h
  · split at h
    · exact isHosted_of_withAuthority h
    · obtain rfl := Except.ok.inj h
      exact hosted_of_host (by simp)
    · obtain rfl := Except.ok.inj h
      exact hosted_of_host (by simp)

theorem host_ne_of_fileHost {host : Option Host} {text : List Char}
    (h : fileHost text = .ok (host, rest)) : ∀ name ∈ host, name.text ≠ [] := by
  unfold fileHost at h
  simp only at h
  split at h
  · obtain ⟨⟩ := Except.ok.inj h
    simp
  split at h
  · obtain ⟨⟩ := Except.ok.inj h
    simp
  · obtain ⟨read, hread, h⟩ := exists_of_bind_eq_ok h
    split at h
    · obtain ⟨⟩ := Except.ok.inj h
      simp
    · obtain ⟨⟩ := Except.ok.inj h
      rintro name ⟨⟩
      exact Host.text_ne_nil (Host.parseDomain_ne hread)

theorem host_filePath (host : Option Host) (text : List Char) :
    (filePath host text).1 = none ∨ (filePath host text).1 = host := by
  obtain ⟨hasDrive, h⟩ :
      ∃ hasDrive : Bool, (filePath host text).1 = if hasDrive then none else host := ⟨_, rfl⟩
  cases hasDrive with
  | true => exact .inl h
  | false => exact .inr h

theorem isHosted_of_ofFile (h : ofFile scheme rest = .ok uri) : uri.IsHosted := by
  unfold ofFile at h
  simp only at h
  split at h
  · obtain rfl := Except.ok.inj h
    exact hosted_of_host (by simp)
  split at h
  · obtain rfl := Except.ok.inj h
    exact hosted_of_host (by simp)
  · obtain ⟨⟨host, after⟩, hhost, h⟩ := exists_of_bind_eq_ok h
    obtain rfl := Except.ok.inj h
    refine hosted_of_host ?_
    intro name hname
    apply host_ne_of_fileHost hhost name
    rcases host_filePath host (beforeQuery after) with hnone | hsame
    · simp [hnone] at hname
    · rwa [hsame] at hname

/-- In every URI that is read, user, password and port stand beside a host, which is not empty. -/
theorem isHosted_of_parse {text : String} (h : parse text = .ok uri) : uri.IsHosted := by
  unfold parse at h
  split at h
  · cases h
  · split at h
    · exact isHosted_of_ofFile h
    · exact isHosted_of_ofParts h

end ConnectionBroker.Uri
