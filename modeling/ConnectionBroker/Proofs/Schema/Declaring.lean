import ConnectionBroker.Schema
import Mathlib.Data.List.Forall2
import Mathlib.Data.List.Nodup

/-! # Declaring a schema

A declaration is accepted just if all its names are valid and distinct, and is otherwise refused for
the first name that is not valid or stands before. A declared schema is written down as the
declaration that it came from.
-/

namespace ConnectionBroker

/-! ## Marks -/

/-- A text with a question mark at its end. -/
def IsMarked (text : String) : Prop :=
  ∃ stem, text = stem ++ "?"

theorem isMarked_iff {text : String} : IsMarked text ↔ text.toList.getLast? = some '?' := by
  constructor
  · rintro ⟨stem, rfl⟩
    simp
  · intro h
    obtain ⟨stem, hstem⟩ := List.getLast?_eq_some_iff.mp h
    refine ⟨String.ofList stem, ?_⟩
    apply String.toList_inj.mp
    simp [hstem]

instance (text : String) : Decidable (IsMarked text) :=
  decidable_of_iff _ isMarked_iff.symm

namespace Positional

/-- The parameter that a text declares: a question mark at the end makes it optional and is no part
of its name. -/
inductive Declares : String → Positional → Prop where
  | required {name : String} (h : ¬ IsMarked name) : Declares name { name }
  | optional (name : String) : Declares (name ++ "?") { name, optional := true }

theorem declares_ofDeclaration (text : String) : Declares text (ofDeclaration text) := by
  by_cases h : IsMarked text
  · obtain ⟨stem, rfl⟩ := h
    have hparameter : ofDeclaration (stem ++ "?") = { name := stem, optional := true } := by
      simp [ofDeclaration]
    rw [hparameter]
    exact .optional stem
  · have hparameter : ofDeclaration text = { name := text } := if_neg (mt isMarked_iff.mpr h)
    rw [hparameter]
    exact .required h

theorem Declares.declaration_eq {text : String} {parameter : Positional}
    (h : Declares text parameter) : parameter.declaration = text := by
  cases h with
  | required => rfl
  | optional => rfl

theorem Declares.optional_eq {text : String} {parameter : Positional}
    (h : Declares text parameter) : parameter.optional = decide (IsMarked text) := by
  cases h with
  | required h => simp [h]
  | optional name => exact (decide_eq_true ⟨name, rfl⟩).symm

theorem Declares.name_eq {text : String} {parameter : Positional} (h : Declares text parameter)
    (hmark : ¬ IsMarked text) : parameter.name = text := by
  cases h with
  | required => rfl
  | optional name => exact absurd ⟨name, rfl⟩ hmark

/-- What was declared is written as it was. -/
theorem declaration_ofDeclaration (text : String) : (ofDeclaration text).declaration = text :=
  (declares_ofDeclaration text).declaration_eq

theorem ofDeclaration_injective : Function.Injective ofDeclaration :=
  Function.LeftInverse.injective declaration_ofDeclaration

end Positional

namespace Schema

/-! ## Names -/

/-- A name that a parameter may have. -/
structure IsName (name : String) : Prop where
  ne_empty : name ≠ ""
  not_marked : ¬ IsMarked name

theorem isValidName_iff {name : String} : isValidName name = true ↔ IsName name := by
  rw [isValidName, Bool.and_eq_true, bne_iff_ne, ne_eq, ← isMarked_iff]
  simp only [Bool.not_eq_true', String.isEmpty_eq_false_iff]
  exact ⟨fun h => ⟨h.1, h.2⟩, fun h => ⟨h.1, h.2⟩⟩

/-- What is wrong with a name, where others stand before it: that it is no name, or else that it is
one of the others. -/
inductive Objection (before : List String) (name : String) : SchemaFault → Prop where
  | invalid (h : ¬ IsName name) : Objection before name (.invalidName name)
  | repeated (h : IsName name) (hbefore : name ∈ before) :
      Objection before name (.repeatedName name)

theorem Objection.mono {before others : List String} {name : String} {cause : SchemaFault}
    (h : Objection before name cause) (hsub : before ⊆ others) : Objection others name cause := by
  cases h with
  | invalid h => exact .invalid h
  | repeated h hbefore => exact .repeated h (hsub hbefore)

section Fault

variable {seen : List String} {name : String} {cause : SchemaFault}

theorem objection_of_not_new (h : ¬ (IsName name ∧ name ∉ seen)) :
    ∃ cause, Objection seen name cause := by
  by_cases hname : IsName name
  · have hseen : name ∈ seen := by simpa [hname] using h
    exact ⟨_, .repeated hname hseen⟩
  · exact ⟨_, .invalid hname⟩

theorem nameFault?_cons_of_objection (h : Objection seen name cause) (names : List String) :
    nameFault? seen (name :: names) = some cause := by
  cases h with
  | invalid h => simp [nameFault?, mt isValidName_iff.mp h]
  | repeated h hbefore => simp [nameFault?, isValidName_iff.mpr h, hbefore]

theorem nameFault?_cons_of_new (h : IsName name ∧ name ∉ seen) (names : List String) :
    nameFault? seen (name :: names) = nameFault? (name :: seen) names := by
  simp [nameFault?, isValidName_iff.mpr h.1, h.2]

/-- There is no fault just where all names are valid and new. -/
theorem nameFault?_eq_none_iff {names : List String} :
    nameFault? seen names = none ↔
      (∀ name ∈ names, IsName name ∧ name ∉ seen) ∧ names.Nodup := by
  induction names generalizing seen with
  | nil => simp [nameFault?]
  | cons name names ih =>
      by_cases h : IsName name ∧ name ∉ seen
      · rw [nameFault?_cons_of_new h, ih, List.nodup_cons, List.forall_mem_cons]
        simp only [List.mem_cons, not_or]
        constructor
        · rintro ⟨hnames, hnodup⟩
          exact ⟨⟨h, fun other hother => ⟨(hnames other hother).1, (hnames other hother).2.2⟩⟩,
            fun hmem => (hnames name hmem).2.1 rfl, hnodup⟩
        · rintro ⟨⟨-, hnames⟩, hfirst, hnodup⟩
          refine ⟨fun other hother => ⟨(hnames other hother).1, ?_, (hnames other hother).2⟩,
            hnodup⟩
          rintro rfl
          exact hfirst hother
      · obtain ⟨cause, hcause⟩ := objection_of_not_new h
        simp only [nameFault?_cons_of_objection hcause, reduceCtorEq, false_iff]
        intro hnames
        exact h (hnames.1 name List.mem_cons_self)

/-- Names without a fault are passed over. -/
theorem nameFault?_append {before : List String} (h : nameFault? seen before = none)
    (names : List String) :
    nameFault? seen (before ++ names) = nameFault? (before.reverse ++ seen) names := by
  induction before generalizing seen with
  | nil => rfl
  | cons name before ih =>
      have hnew := (nameFault?_eq_none_iff.mp h).1 name List.mem_cons_self
      rw [nameFault?_cons_of_new hnew] at h
      rw [List.cons_append, nameFault?_cons_of_new hnew, ih h]
      simp

/-- The fault is that of the first name to which there is an objection. -/
theorem nameFault?_eq_some_iff {names : List String} :
    nameFault? seen names = some cause ↔
      ∃ before name after, names = before ++ name :: after ∧ nameFault? seen before = none ∧
        Objection (before ++ seen) name cause := by
  constructor
  · intro h
    induction names generalizing seen with
    | nil => cases h
    | cons name names ih =>
        by_cases hname : IsName name ∧ name ∉ seen
        · rw [nameFault?_cons_of_new hname] at h
          obtain ⟨before, later, after, rfl, hbefore, hlater⟩ := ih h
          refine ⟨name :: before, later, after, rfl, ?_, hlater.mono (by simp)⟩
          rw [nameFault?_cons_of_new hname, hbefore]
        · obtain ⟨other, hother⟩ := objection_of_not_new hname
          rw [nameFault?_cons_of_objection hother] at h
          obtain rfl := Option.some.inj h
          exact ⟨[], name, names, rfl, rfl, hother⟩
  · rintro ⟨before, name, after, rfl, hbefore, hname⟩
    rw [nameFault?_append hbefore]
    exact nameFault?_cons_of_objection (hname.mono (by simp)) after

end Fault

/-! ## Declarations -/

/-- Names that may be declared together: each is a name and none stands twice. -/
structure AreNames (names : List String) : Prop where
  all : ∀ name ∈ names, IsName name
  nodup : names.Nodup

theorem nameFault?_nil_eq_none_iff {names : List String} :
    nameFault? [] names = none ↔ AreNames names := by
  rw [nameFault?_eq_none_iff]
  simp only [List.not_mem_nil, not_false_iff, and_true]
  exact ⟨fun h => ⟨h.1, h.2⟩, fun h => ⟨h.all, h.nodup⟩⟩

/-- The first name of a list to which there is an objection, and what it is. -/
def FirstObjection (names : List String) (cause : SchemaFault) : Prop :=
  ∃ before name after, names = before ++ name :: after ∧ AreNames before ∧
    Objection before name cause

theorem nameFault?_nil_eq_some_iff {names : List String} {cause : SchemaFault} :
    nameFault? [] names = some cause ↔ FirstObjection names cause := by
  simp only [nameFault?_eq_some_iff, nameFault?_nil_eq_none_iff, List.append_nil, FirstObjection]

section Declare

variable {usage : String} {positional keyword : List String} {schema : Schema}

/-- The schema that a declaration spells, whether or not its names are valid. -/
def spelled (usage : String) (positional keyword : List String) : Schema :=
  { positional := positional.map .ofDeclaration, keyword, usage }

theorem declare_eq (usage : String) (positional keyword : List String) :
    declare usage positional keyword =
      (nameFault? [] (spelled usage positional keyword).names).elim
        (.ok (spelled usage positional keyword)) fun cause => .error (.invalidSchema cause) := by
  unfold declare
  simp only
  split
  · next hfault =>
      rw [spelled, hfault]
      rfl
  · next hfault =>
      rw [spelled, hfault]
      rfl

theorem declare_eq_ok_iff :
    declare usage positional keyword = .ok schema ↔
      AreNames (spelled usage positional keyword).names ∧
        schema = spelled usage positional keyword := by
  rw [declare_eq, ← nameFault?_nil_eq_none_iff]
  cases nameFault? [] (spelled usage positional keyword).names with
  | some cause => simp
  | none => simp [eq_comm]

theorem declare_eq_error_iff {fault : Fault} :
    declare usage positional keyword = .error fault ↔
      ∃ cause, FirstObjection (spelled usage positional keyword).names cause ∧
        fault = .invalidSchema cause := by
  simp only [← nameFault?_nil_eq_some_iff]
  rw [declare_eq]
  cases nameFault? [] (spelled usage positional keyword).names with
  | some cause => simp [eq_comm]
  | none => simp

theorem declarations_spelled (usage : String) (positional keyword : List String) :
    (spelled usage positional keyword).declarations = positional := by
  induction positional with
  | nil => rfl
  | cons text positional ih =>
      exact congrArg₂ List.cons (Positional.declaration_ofDeclaration text) ih

theorem spelled_inj {usage' : String} {positional' keyword' : List String} :
    spelled usage positional keyword = spelled usage' positional' keyword' ↔
      usage = usage' ∧ positional = positional' ∧ keyword = keyword' := by
  simp only [spelled, Schema.mk.injEq, Positional.ofDeclaration_injective.list_map.eq_iff]
  tauto

/-- What must be supplied is what was declared without a mark, and the keywords. -/
theorem required_spelled (usage : String) (positional keyword : List String) :
    (spelled usage positional keyword).required =
      positional.filter (fun text => ¬ IsMarked text) ++ keyword := by
  induction positional with
  | nil => rfl
  | cons text positional ih =>
      have hparameter := Positional.declares_ofDeclaration text
      simp only [required, spelled, List.map_cons, List.append_cancel_right_eq] at ih ⊢
      rw [List.filter_cons, List.filter_cons, hparameter.optional_eq]
      by_cases hmark : IsMarked text
      · simpa [hmark] using ih
      · simpa [hmark, hparameter.name_eq hmark] using ih

end Declare

/-- A declaration gives a schema just if all its names, those of the positional parameters without
their mark before the keywords, are valid and distinct. Otherwise the first name that is not valid
or stands before is the reason to refuse. A declared schema is written as it was declared, and
declared again from what is written it is the same; two are the same just if their declarations
are. It requires the positional parameters without a mark and then the keywords. -/
theorem declare_iff (usage : String) (positional keyword : List String) :
    ∃ parameters, List.Forall₂ Positional.Declares positional parameters ∧
      let names := parameters.map Positional.name ++ keyword
      (∀ schema, declare usage positional keyword = .ok schema ↔
        AreNames names ∧ schema = { positional := parameters, keyword, usage }) ∧
      (∀ fault, declare usage positional keyword = .error fault ↔
        ∃ cause, FirstObjection names cause ∧ fault = .invalidSchema cause) ∧
      ∀ schema, declare usage positional keyword = .ok schema →
        schema.declarations = positional ∧
        declare schema.usage schema.declarations schema.keyword = .ok schema ∧
        schema.required = positional.filter (fun text => ¬ IsMarked text) ++ keyword ∧
        ∀ usage' positional' keyword' schema',
          declare usage' positional' keyword' = .ok schema' →
            (schema = schema' ↔
              usage = usage' ∧ positional = positional' ∧ keyword = keyword') := by
  refine ⟨positional.map .ofDeclaration, ?_, fun schema => declare_eq_ok_iff,
    fun fault => declare_eq_error_iff, ?_⟩
  · induction positional with
    | nil => exact .nil
    | cons text positional ih => exact .cons (Positional.declares_ofDeclaration text) ih
  · intro schema h
    obtain ⟨-, rfl⟩ := declare_eq_ok_iff.mp h
    have hwritten := declarations_spelled usage positional keyword
    refine ⟨hwritten, ?_, required_spelled usage positional keyword, ?_⟩
    · rw [hwritten]
      exact h
    · intro usage' positional' keyword' schema' h'
      obtain ⟨-, rfl⟩ := declare_eq_ok_iff.mp h'
      exact spelled_inj

/-- A declaration with an optional parameter and a keyword. -/
theorem declare_iff_marked :
    ∃ schema, declare "u" ["catalog", "schema?"] ["warehouse"] = .ok schema ∧
      schema.declarations = ["catalog", "schema?"] ∧ schema.required = ["catalog", "warehouse"] ∧
      declare schema.usage schema.declarations schema.keyword = .ok schema := by
  obtain ⟨-, -, -, -, hdeclared⟩ := declare_iff "u" ["catalog", "schema?"] ["warehouse"]
  obtain ⟨hwritten, hagain, hrequired, -⟩ := hdeclared _ rfl
  exact ⟨_, rfl, hwritten, hrequired, hagain⟩

/-- Two names are at fault; the first is the reason. -/
example : declare "u" ["a", "b?", "a?"] ["?"] = .error (.invalidSchema (.repeatedName "a")) := rfl

end Schema

end ConnectionBroker
