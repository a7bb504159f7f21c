import ConnectionBroker.Mapper
import ConnectionBroker.Proofs.Mapping.Matching

/-! # What a mapping sees of an address

A mapping asks which parts an address has, how many segments and which names its query holds. It
never asks what stands there. Two addresses that agree in all this are therefore refused with one
fault, which shows nothing of either, or get parameters that differ in their values alone.
-/

namespace ConnectionBroker

/-! ## Two runs side by side -/

/-- Of two values that may be absent, both are there or neither is. -/
theorem both_of_isSome_eq {α : Type} {part part' : Option α} (h : part.isSome = part'.isSome) :
    (part = none ∧ part' = none) ∨ ∃ a b, part = some a ∧ part' = some b := by
  cases part with
  | none =>
      cases part' with
      | none => exact .inl ⟨rfl, rfl⟩
      | some b => cases h
  | some a =>
      cases part' with
      | none => cases h
      | some b => exact .inr ⟨a, b, rfl, rfl⟩

/-- Two runs end alike: both with one fault, or both with results that are related. -/
inductive EndAlike {α β : Type} (related : α → β → Prop) :
    Except Fault α → Except Fault β → Prop where
  | fault (cause : Fault) : EndAlike related (.error cause) (.error cause)
  | result {first : α} {second : β} (h : related first second) :
      EndAlike related (.ok first) (.ok second)

namespace EndAlike

variable {α β : Type} {related : α → β → Prop}

theorem bind {α' β' : Type} {related' : α' → β' → Prop} {first : Except Fault α}
    {second : Except Fault β} (h : EndAlike related first second)
    {next : α → Except Fault α'} {next' : β → Except Fault β'}
    (hnext : ∀ a b, related a b → EndAlike related' (next a) (next' b)) :
    EndAlike related' (first >>= next) (second >>= next') := by
  cases h with
  | fault cause => exact .fault cause
  | result h => exact hnext _ _ h

/-- Folds over items that look alike end alike if each step does. -/
theorem foldlM {ι ν : Type} {view : ι → ν} {step : α → ι → Except Fault α}
    {step' : β → ι → Except Fault β}
    (hstep : ∀ a b i j, related a b → view i = view j → EndAlike related (step a i) (step' b j))
    {items items' : List ι} (hitems : items.map view = items'.map view) {a : α} {b : β}
    (h : related a b) : EndAlike related (items.foldlM step a) (items'.foldlM step' b) := by
  induction items generalizing items' a b with
  | nil =>
      cases items' with
      | nil => exact .result h
      | cons _ _ => cases hitems
  | cons i items ih =>
      cases items' with
      | nil => cases hitems
      | cons j items' =>
          obtain ⟨hitem, hrest⟩ := List.cons.inj hitems
          exact (hstep a b i j h hitem).bind fun _ _ h => ih hrest h

end EndAlike

/-! ## Shapes and outlines -/

/-- The same parts are there, with as many segments and the same names in the query. -/
structure Address.SameShape (first second : Address) : Prop where
  host : first.host.isSome = second.host.isSome
  port : first.port.isSome = second.port.isSome
  user : first.user.isSome = second.user.isSome
  password : first.password.isSome = second.password.isSome
  location : first.location.isSome = second.location.isSome
  path : first.path.isEmpty = second.path.isEmpty
  paths : first.paths.length = second.paths.length
  query : first.query.map Prod.fst = second.query.map Prod.fst

namespace Params

/-- What is left of an entry without its value: the name, and whether the value is `null`. -/
def label (entry : String × Json) : String × Bool :=
  (entry.1, entry.2.isNull)

/-- The names of the parameters in their order, each with whether its value is `null`. -/
def outline (params : Params) : List (String × Bool) :=
  params.entries.map label

/-- The parameters differ in their values alone. -/
def SameOutline (first second : Params) : Prop :=
  first.outline = second.outline

/-! ## Adding parameters -/

theorem contains_eq_any_outline (params : Params) (name : String) :
    params.contains name = params.outline.any (·.1 == name) := by
  rw [outline, List.any_map]
  rfl

namespace SameOutline

variable {first second : Params} (h : SameOutline first second) (usage : String)

include h

theorem contains_eq (name : String) : first.contains name = second.contains name := by
  rw [contains_eq_any_outline, contains_eq_any_outline, h]

theorem insert (name : String) {value value' : Json} (hvalue : value.isNull = value'.isNull) :
    EndAlike SameOutline (first.insert usage name value) (second.insert usage name value') := by
  rw [Params.insert, Params.insert, h.contains_eq name]
  split
  · exact .fault _
  · refine .result ?_
    have hentries : first.entries.map label = second.entries.map label := h
    have hlabel : label (name, value) = label (name, value') := congrArg (name, ·) hvalue
    rw [SameOutline, outline, outline, List.map_append, List.map_append, hentries,
      List.map_singleton, List.map_singleton, hlabel]

theorem insert_string (name value value' : String) :
    EndAlike SameOutline (first.insert usage name (.string value))
      (second.insert usage name (.string value')) :=
  h.insert usage name rfl

theorem insertPresent (name : String) {value value' : Option Json}
    (hvalue : value.map Json.isNull = value'.map Json.isNull) :
    EndAlike SameOutline (first.insertPresent usage name value)
      (second.insertPresent usage name value') := by
  cases value with
  | none =>
      cases value' with
      | none => exact .result h
      | some _ => cases hvalue
  | some _ =>
      cases value' with
      | none => cases hvalue
      | some _ => exact h.insert usage name (Option.some.inj hvalue)

theorem insertAll {entries entries' : List (String × Json)}
    (hentries : entries.map label = entries'.map label) :
    EndAlike SameOutline (first.insertAll usage entries) (second.insertAll usage entries') := by
  refine EndAlike.foldlM ?_ hentries h
  rintro params params' ⟨name, value⟩ ⟨name', value'⟩ hparams hentry
  obtain ⟨rfl, hvalue⟩ := Prod.mk.inj hentry
  exact hparams.insert usage name hvalue

end SameOutline

end Params

/-! ## Matching -/

/-- Both queries hold the same names in the same order. -/
def Query.SameNames (first second : Query) : Prop :=
  first.map Prod.fst = second.map Prod.fst

namespace Query.SameNames

variable {first second : Query} (h : SameNames first second)

include h

theorem isSome_lookup (name : String) :
    (first.lookup name).isSome = (second.lookup name).isSome := by
  have hmem (query : Query) : (query.lookup name).isSome ↔ name ∈ query.map Prod.fst := by
    simp
  rw [Bool.eq_iff_iff, hmem, hmem, h]

theorem filter (name : String) :
    SameNames (first.filter (·.1 != name)) (second.filter (·.1 != name)) := by
  have hnames (query : Query) : (query.filter (·.1 != name)).map Prod.fst =
      (query.map Prod.fst).filter (· != name) := by
    rw [List.filter_map]
    rfl
  rw [SameNames, hnames, hnames, h]

/-- What stands under a name is taken from both queries or from neither. -/
theorem take? (name : String) :
    (first.take? name = none ∧ second.take? name = none) ∨
      ∃ value value' rest rest', first.take? name = some (value, rest) ∧
        second.take? name = some (value', rest') ∧ SameNames rest rest' := by
  obtain ⟨hfirst, hsecond⟩ | ⟨value, value', hfirst, hsecond⟩ :=
    both_of_isSome_eq (h.isSome_lookup name)
  · exact .inl ⟨by rw [Query.take?, hfirst]; rfl, by rw [Query.take?, hsecond]; rfl⟩
  · exact .inr ⟨value, value', _, _, by rw [Query.take?, hfirst]; rfl,
      by rw [Query.take?, hsecond]; rfl, h.filter name⟩

theorem map_label_entries : first.entries.map Params.label = second.entries.map Params.label := by
  have hlabels (query : Query) : query.entries.map Params.label =
      (query.map Prod.fst).map (·, false) := by
    simp [Query.entries, Params.label, Json.isNull, Function.comp_def]
  rw [hlabels, hlabels, h]

end Query.SameNames

namespace Schema

/-- Parameters filled so far and a query asked so far, of the same outline and names. -/
def FilledAlike (first second : Params × Query) : Prop :=
  first.1.SameOutline second.1 ∧ Query.SameNames first.2 second.2

theorem fillPositional_alike (usage : String) (positional : List Positional)
    {params params' : Params} (hparams : params.SameOutline params')
    {query query' : Query} (hquery : query.SameNames query') {segments segments' : List String}
    (hsegments : segments.length = segments'.length) :
    EndAlike FilledAlike (fillPositional usage params query positional segments)
      (fillPositional usage params' query' positional segments') := by
  induction positional generalizing params params' query query' segments segments' with
  | nil => exact .result ⟨hparams, hquery⟩
  | cons parameter rest ih =>
      cases segments with
      | cons segment segments =>
          cases segments' with
          | nil => cases hsegments
          | cons segment' segments' =>
              have hrest : segments.length = segments'.length := Nat.succ.inj hsegments
              exact (hparams.insert_string usage parameter.name segment segment').bind
                fun _ _ hnext => ih hnext hquery hrest
      | nil =>
          obtain rfl : segments' = [] := List.length_eq_zero_iff.mp hsegments.symm
          obtain ⟨hfirst, hsecond⟩ | ⟨value, value', left, left', hfirst, hsecond, hleft⟩ :=
            hquery.take? parameter.name
          · rw [fillPositional, fillPositional, hfirst, hsecond]
            cases parameter.optional with
            | true =>
                exact (hparams.insert usage parameter.name rfl).bind fun _ _ hnext =>
                  ih hnext hquery rfl
            | false => exact .fault _
          · rw [fillPositional, fillPositional, hfirst, hsecond]
            exact (hparams.insert_string usage parameter.name value value').bind
              fun _ _ hnext => ih hnext hleft rfl

theorem fillKeyword_alike (usage : String) (keyword : List String)
    {params params' : Params} (hparams : params.SameOutline params')
    {query query' : Query} (hquery : query.SameNames query') :
    EndAlike FilledAlike (fillKeyword usage params query keyword)
      (fillKeyword usage params' query' keyword) := by
  rw [fillKeyword_eq, fillKeyword_eq]
  exact fillPositional_alike usage _ hparams hquery rfl

theorem matchAddress_alike (schema : Schema) {first second : Address}
    (h : first.SameShape second) :
    EndAlike Params.SameOutline (schema.matchAddress first) (schema.matchAddress second) := by
  rw [matchAddress, matchAddress, h.paths]
  split
  · exact .fault _
  · refine (fillPositional_alike schema.usage schema.positional rfl h.query h.paths).bind ?_
    rintro ⟨params, query⟩ ⟨params', query'⟩ ⟨hparams, hquery⟩
    refine (fillKeyword_alike schema.usage schema.keyword hparams hquery).bind ?_
    rintro ⟨params, query⟩ ⟨params', query'⟩ ⟨hparams, hquery⟩
    exact hparams.insertAll schema.usage hquery.map_label_entries

end Schema

/-! ## Mapping -/

namespace Mapper

theorem rejected?_eq (mapper : Mapper) {first second : Address} (h : first.SameShape second) :
    mapper.rejected? first = mapper.rejected? second := by
  have hcomponent {α : Type} {part part' : Option α} (hpart : part.isSome = part'.isSome)
      (component : Component) :
      part.map (fun _ => component) = part'.map fun _ => component := by
    obtain ⟨rfl, rfl⟩ | ⟨a, b, rfl, rfl⟩ := both_of_isSome_eq hpart
    · rfl
    · rfl
  cases mapper with
  | account => exact hcomponent h.port .port
  | token => exact hcomponent h.user .user
  | path => exact hcomponent h.user .user
  | network => rfl
  | project => rfl
  | file => rfl

/-- What is derived from a part, and whether it is `null`. -/
def derivedLabel (entry : String × Option Json) : String × Option Bool :=
  (entry.1, entry.2.map Json.isNull)

theorem derivedLabel_eq (name : String) {α : Type} {part part' : Option α}
    (hpart : part.isSome = part'.isSome) (value : α → Json)
    (hvalue : ∀ a, (value a).isNull = false) :
    derivedLabel (name, part.map value) = derivedLabel (name, part'.map value) := by
  obtain ⟨rfl, rfl⟩ | ⟨a, b, rfl, rfl⟩ := both_of_isSome_eq hpart
  · rfl
  · simp [derivedLabel, hvalue]

theorem map_derivedLabel (mapper : Mapper) {first second : Address} (h : first.SameShape second) :
    (mapper.derived first).map derivedLabel = (mapper.derived second).map derivedLabel := by
  have hstring (name : String) {part part' : Option String} (hpart : part.isSome = part'.isSome) :
      derivedLabel (name, part.map .string) = derivedLabel (name, part'.map .string) :=
    derivedLabel_eq name hpart .string fun _ => rfl
  have hpath : (Address.nonempty first.path).isSome = (Address.nonempty second.path).isSome := by
    have hsome (text : String) : (Address.nonempty text).isSome = !text.isEmpty := by
      rw [Address.nonempty]
      cases text.isEmpty <;> rfl
    rw [hsome, hsome, h.path]
  cases mapper with
  | network =>
      have hnumber : (first.port : Option Int).isSome = (second.port : Option Int).isSome := by
        obtain ⟨hfirst, hsecond⟩ | ⟨a, b, hfirst, hsecond⟩ := both_of_isSome_eq h.port
        · rw [hfirst, hsecond]
        · rw [hfirst, hsecond]
          rfl
      have hport := derivedLabel_eq "port" hnumber .integer fun _ => rfl
      simp only [derived, List.map_cons, List.map_nil, hstring _ h.host, hport, hstring _ h.user,
        hstring _ h.password]
  | account =>
      simp only [derived, List.map_cons, List.map_nil, hstring _ h.host, hstring _ h.user,
        hstring _ h.password]
  | project => simp only [derived, List.map_cons, List.map_nil, hstring _ h.host]
  | token =>
      simp only [derived, List.map_cons, List.map_nil, hstring _ h.host, hstring _ hpath,
        hstring _ h.password]
  | file =>
      simp only [derived, List.map_cons, List.map_nil, hstring _ h.location, hstring _ h.user]
  | path => simp only [derived, List.map_cons, List.map_nil, hstring _ h.location]

theorem insertDerived_alike (usage : String) {params params' : Params}
    (hparams : params.SameOutline params') {derived derived' : List (String × Option Json)}
    (hderived : derived.map derivedLabel = derived'.map derivedLabel) :
    EndAlike Params.SameOutline (insertDerived usage params derived)
      (insertDerived usage params' derived') := by
  refine EndAlike.foldlM ?_ hderived hparams
  rintro params params' ⟨name, value⟩ ⟨name', value'⟩ hparams hentry
  obtain ⟨rfl, hvalue⟩ := Prod.mk.inj hentry
  exact hparams.insertPresent usage name hvalue

/-- Addresses of one shape are mapped alike, whatever stands in their parts: both are refused with
the same fault, or both get the same names in the same order, with `null` in the same places. -/
theorem map_of_sameShape (mapper : Mapper) (schema : Schema) {first second : Address}
    (h : first.SameShape second) :
    EndAlike Params.SameOutline (mapper.map schema first) (mapper.map schema second) := by
  have hderived := mapper.map_derivedLabel h
  have hquery : Query.SameNames first.query second.query := h.query
  rw [map, map, mapper.rejected?_eq h]
  cases mapper.rejected? second with
  | some component => exact .fault _
  | none =>
      simp only
      split
      · exact (schema.matchAddress_alike h).bind fun _ _ hparams =>
          insertDerived_alike schema.usage hparams hderived
      · refine (insertDerived_alike schema.usage rfl hderived).bind fun _ _ hparams => ?_
        refine (hparams.insertAll schema.usage hquery.map_label_entries).bind
          fun params params' hparams => ?_
        rw [hparams.contains_eq]
        split
        · exact .fault _
        · exact .result hparams

/-- Two tenants of one shape: a host, a password and a query, no database and no user. -/
theorem map_of_sameShape_tenants :
    let schema : Schema :=
      { positional := [{ name := "database", optional := true }], usage := "pg://" }
    let acme : Address :=
      { schemes := ["pg"], host := some "acme", password := some "s3", query := [("pool", "4")] }
    let zoo : Address :=
      { schemes := ["pg"], host := some "zoo", password := some "hunter2", query := [("pool", "")] }
    acme.SameShape zoo ∧
      EndAlike Params.SameOutline (Mapper.network.map schema acme)
        (Mapper.network.map schema zoo) ∧
      (Mapper.network.map schema acme).map Params.outline =
        .ok [("database", true), ("pool", false), ("host", false), ("password", false)] := by
  intro schema acme zoo
  have hshape : acme.SameShape zoo := ⟨rfl, rfl, rfl, rfl, by decide, by decide, rfl, rfl⟩
  exact ⟨hshape, Mapper.network.map_of_sameShape schema hshape, rfl⟩

end Mapper

end ConnectionBroker
