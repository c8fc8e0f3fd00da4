/-
# UriRouting.Proofs.Settings.Json — settings are read back from their JSON

Every group of settings is written in one way: the fields that have a value, each under its own name
(`group`).  An object keeps the last member of a name, and the names of a group differ, so reading the
fields of a group gives their values, and none for those that were left out (`fields?_group`).  From
this one fact each kind of settings is read back: routes, variables, and whole settings
(`ofJson?_toJson`).

A field that is left out is read as it was: an empty description and an empty list of variables are
what a missing one stands for, and a field of a variable that is not set stays so, while an empty list
of options is written and so remains a list.  Hence the JSON of settings is a normal form for all the
values that hold them (`normalForm?`).
-/
import UriRouting.Settings.OfJson
import UriRouting.Proofs.KeyedList

namespace UriRouting

namespace Json

variable {n : Text} {members : List (Text × Json)}

/-- A member that was put is found, and no other is changed. -/
theorem lookup_putMember (name : Text) (value : Json) :
    (putMember name value members).lookup n =
      if name = n then some value else members.lookup n := by
  fun_induction putMember name value members with
  | case1 => exact lookup_cons_eq_ite n name value []
  | case2 old rest =>
    rw [lookup_cons_eq_ite, lookup_cons_eq_ite]
    split <;> rfl
  | case3 m old rest _ _ => exact lookup_cons_eq_ite n name value _
  | case4 m old rest hm _ ih =>
    rw [lookup_cons_eq_ite, lookup_cons_eq_ite, ih]
    by_cases hn : name = n
    · rw [if_pos hn, if_pos hn, if_neg (hn ▸ hm)]
    · rw [if_neg hn, if_neg hn]

/-- Of the members with a name the last one is found. -/
theorem lookup_foldl_putMember (ms members : List (Text × Json)) :
    (ms.foldl (fun acc (n, v) => putMember n v acc) members).lookup n =
      (ms.reverse.lookup n).or (members.lookup n) := by
  induction ms generalizing members with
  | nil => rfl
  | cons m ms ih =>
    rw [List.foldl_cons, ih, lookup_putMember, List.reverse_cons, List.lookup_append,
      Option.or_assoc, lookup_cons_eq_ite]
    by_cases hn : m.1 = n <;> simp [hn]

end Json

namespace Settings

/-! ## The fields of a group -/

variable {n : Text} {fields : List (Text × Option Json)}

/-- **`group fields`** — a group of settings as JSON: the fields that have a value, under their
names. -/
def group (fields : List (Text × Option Json)) : Json :=
  Json.ofMembers (fields.flatMap fun f => optionalMember f.1 f.2)

theorem lookup_optionalMember (name : Text) (value : Option Json) :
    (optionalMember name value).lookup n = if name = n then value else none := by
  cases value with
  | none => exact (ite_self none).symm
  | some v => exact lookup_cons_eq_ite n name v []

theorem lookup_flatMap_of_not_mem (h : n ∉ fields.map Prod.fst) :
    (fields.flatMap fun f => optionalMember f.1 f.2).lookup n = none := by
  induction fields with
  | nil => rfl
  | cons f fields ih =>
    rw [List.map_cons, List.mem_cons, not_or] at h
    rw [List.flatMap_cons, List.lookup_append, lookup_optionalMember, if_neg (Ne.symm h.1), ih h.2]
    rfl

/-- With different names, every field is found with its value, or not found without one. -/
theorem lookup_flatMap_of_mem (h : (fields.map Prod.fst).Nodup) {f : Text × Option Json}
    (hf : f ∈ fields) : (fields.flatMap fun f => optionalMember f.1 f.2).lookup f.1 = f.2 := by
  induction fields with
  | nil => cases hf
  | cons g fields ih =>
    obtain ⟨hg, hrest⟩ := List.nodup_cons.mp h
    rw [List.flatMap_cons, List.lookup_append, lookup_optionalMember]
    rcases List.mem_cons.mp hf with rfl | hf
    · rw [if_pos rfl, lookup_flatMap_of_not_mem hg, Option.or_none]
    · have hne : g.1 ≠ f.1 := fun heq => hg (heq ▸ List.mem_map_of_mem hf)
      rw [if_neg hne, ih hrest hf]
      rfl

/-- **The fields of a group are read back.** -/
theorem fields?_group (h : (fields.map Prod.fst).Nodup) :
    fields? (fields.map Prod.fst) (group fields) = some ⟨true, fields.map Prod.snd⟩ := by
  have hreverse : (fields.flatMap fun f => optionalMember f.1 f.2).reverse =
      fields.reverse.flatMap fun f => optionalMember f.1 f.2 := by
    rw [List.reverse_flatMap]
    refine congrArg (List.flatMap · fields.reverse) (funext fun f => ?_)
    cases hvalue : f.2 <;> simp [optionalMember, hvalue]
  have hlookup : ∀ f ∈ fields, ((fields.flatMap fun f => optionalMember f.1 f.2).foldl
      (fun acc (n, v) => Json.putMember n v acc) []).lookup f.1 = f.2 := by
    intro f hf
    have hnodup : (fields.reverse.map Prod.fst).Nodup := by
      rwa [List.map_reverse, List.nodup_reverse]
    rw [Json.lookup_foldl_putMember, hreverse,
      lookup_flatMap_of_mem hnodup (List.mem_reverse.mpr hf)]
    exact Option.or_none
  show some (Fields.mk true _) = _
  rw [List.map_map]
  exact congrArg (fun values => some (Fields.mk true values)) (List.map_congr_left hlookup)

/-! ## One field -/

variable {α : Type} {f : Fields} {i : Nat} {v : Json} {read : Json → Option α} {write : α → Json}

theorem Fields.required_of_at? {x : α} (h : f.at? i = some v) (hread : read v = some x) :
    f.required i read = some x := by
  rw [required, h]
  exact hread

theorem Fields.defaulted_of_at? {x default : α} (h : f.at? i = some v) (hread : read v = some x) :
    f.defaulted i default read = some x := by
  rw [defaulted, h]
  exact hread

/-- A field that is left out where it has its default is read back. -/
theorem Fields.defaulted_of_skipped {x default : α} [Decidable (x = default)]
    (h : f.at? i = if x = default then none else some v) (hread : read v = some x) :
    f.defaulted i default read = some x := by
  split at h
  · next hdefault => rw [defaulted, h, hdefault]
  · rw [defaulted, h]
    exact hread

/-- A field that is left out where it has no value is read back, if no value is written as null. -/
theorem Fields.optional_of_skipped {x : Option α} (hnamed : f.named = true)
    (h : f.at? i = x.map write) (hread : ∀ a, read (write a) = some a)
    (hnull : ∀ a, write a ≠ .null) : f.optional i read = some x := by
  unfold optional
  rw [h]
  cases x with
  | none =>
    show (if f.named = true then some none else none) = some none
    rw [if_pos hnamed]
  | some a =>
    rw [Option.map_some]
    split
    · next heq => cases heq
    · next heq => exact absurd (Option.some.inj heq) (hnull a)
    · next value _ heq =>
      obtain rfl := Option.some.inj heq
      rw [hread, Option.map_some]

/-- A list is read back if its items are. -/
theorem listOfJson?_array (as : List α) (h : ∀ a, read (write a) = some a) :
    listOfJson? read (.array (as.map write)) = some as := by
  show (as.map write).mapM read = some as
  induction as with
  | nil => rfl
  | cons a as ih =>
    rw [List.map_cons, List.mapM_cons, h, ih]
    rfl

/-! ## Routes, variables and whole settings -/

theorem routeToJson_eq_group (r : RouteSettings) :
    routeToJson r = group
      [(patternField, some (.string r.pattern)), (serviceField, some (.string r.service)),
        (descriptionField, if r.description = [] then none else some (.string r.description))] := by
  unfold routeToJson
  split <;> rfl

theorem routeOfJson?_routeToJson (r : RouteSettings) : routeOfJson? (routeToJson r) = some r := by
  have hfields : fields? [patternField, serviceField, descriptionField] (routeToJson r) =
      some ⟨true, [some (.string r.pattern), some (.string r.service),
        if r.description = [] then none else some (.string r.description)]⟩ := by
    have hnames : [patternField, serviceField, descriptionField].Nodup := by decide
    rw [routeToJson_eq_group]
    exact fields?_group hnames
  unfold routeOfJson?
  refine Option.bind_eq_some_iff.mpr ⟨_, hfields, ?_⟩
  refine Option.bind_eq_some_iff.mpr ⟨r.pattern, Fields.required_of_at? rfl rfl, ?_⟩
  refine Option.bind_eq_some_iff.mpr ⟨r.service, Fields.required_of_at? rfl rfl, ?_⟩
  exact Option.bind_eq_some_iff.mpr
    ⟨r.description, Fields.defaulted_of_skipped rfl rfl, rfl⟩

theorem variableToJson_eq_group (v : VariableSettings) :
    variableToJson v = group
      [(nameField, v.name.map .string), (typeField, v.type.map .string),
        (resolverField, v.resolver.map fun b => .string b.word),
        (optionsField, v.options.map fun ts => .array (ts.map .string)),
        (regexField, v.regex.map .string)] := by
  simp [variableToJson, group]

theorem wordOfJson?_word (b : BuiltinResolver) :
    wordOfJson? BuiltinResolver.ofWord? (.string b.word) = some b := by
  cases b <;> decide

theorem variableOfJson?_variableToJson (v : VariableSettings) :
    variableOfJson? (variableToJson v) = some v := by
  have hfields : fields? [nameField, typeField, resolverField, optionsField, regexField]
      (variableToJson v) = some ⟨true, [v.name.map .string, v.type.map .string,
        v.resolver.map fun b => .string b.word, v.options.map fun ts => .array (ts.map .string),
        v.regex.map .string]⟩ := by
    have hnames : [nameField, typeField, resolverField, optionsField, regexField].Nodup := by decide
    rw [variableToJson_eq_group]
    exact fields?_group hnames
  have htext : ∀ t : Text, textOfJson? (.string t) = some t := fun _ => rfl
  have hlist : ∀ ts : List Text, listOfJson? textOfJson? (.array (ts.map .string)) = some ts :=
    fun ts => listOfJson?_array ts htext
  unfold variableOfJson?
  refine Option.bind_eq_some_iff.mpr ⟨_, hfields, ?_⟩
  refine Option.bind_eq_some_iff.mpr
    ⟨v.name, Fields.optional_of_skipped rfl rfl htext nofun, ?_⟩
  refine Option.bind_eq_some_iff.mpr
    ⟨v.type, Fields.optional_of_skipped rfl rfl htext nofun, ?_⟩
  refine Option.bind_eq_some_iff.mpr
    ⟨v.resolver, Fields.optional_of_skipped rfl rfl wordOfJson?_word nofun, ?_⟩
  refine Option.bind_eq_some_iff.mpr
    ⟨v.options, Fields.optional_of_skipped rfl rfl hlist nofun, ?_⟩
  exact Option.bind_eq_some_iff.mpr
    ⟨v.regex, Fields.optional_of_skipped rfl rfl htext nofun, rfl⟩

theorem toJson_eq_group (s : Settings) :
    toJson s = group
      [(matchRuleField, some (.string s.matchRule.word)),
        (routesField, some (.array (s.routes.map routeToJson))),
        (variablesField,
          if s.bindings = [] then none else some (.array (s.bindings.map variableToJson)))] := by
  unfold toJson
  split <;> rfl

theorem matchRuleOfJson?_word (rule : MatchRule) :
    matchRuleOfJson? (.string rule.word) = some rule := by
  cases rule <;> decide

/-- **Settings are read back from their JSON.** -/
theorem ofJson?_toJson (s : Settings) : ofJson? (toJson s) = some s := by
  have hfields : fields? [matchRuleField, routesField, variablesField] (toJson s) =
      some ⟨true, [some (.string s.matchRule.word), some (.array (s.routes.map routeToJson)),
        if s.bindings = [] then none else some (.array (s.bindings.map variableToJson))]⟩ := by
    have hnames : [matchRuleField, routesField, variablesField].Nodup := by decide
    rw [toJson_eq_group]
    exact fields?_group hnames
  have hroutes := listOfJson?_array s.routes routeOfJson?_routeToJson
  have hbindings := listOfJson?_array s.bindings variableOfJson?_variableToJson
  unfold ofJson?
  refine Option.bind_eq_some_iff.mpr ⟨_, hfields, ?_⟩
  refine Option.bind_eq_some_iff.mpr
    ⟨s.matchRule, Fields.defaulted_of_at? rfl (matchRuleOfJson?_word s.matchRule), ?_⟩
  refine Option.bind_eq_some_iff.mpr ⟨s.routes, Fields.required_of_at? rfl hroutes, ?_⟩
  exact Option.bind_eq_some_iff.mpr
    ⟨s.bindings, Fields.defaulted_of_skipped rfl hbindings, rfl⟩

/-! ## The normal form -/

/-- **`normalForm? v`** — the JSON of the settings that a value holds, if it holds any. -/
def normalForm? (v : Json) : Option Json := (ofJson? v).map toJson

theorem normalForm?_of_ofJson? {v : Json} {s : Settings} (h : ofJson? v = some s) :
    normalForm? v = some (toJson s) := by
  rw [normalForm?, h]
  rfl

/-- **Settings survive being written as JSON.**  They are read back from their JSON, so different
settings have different JSON.  Any value that holds settings, in whatever form, has a normal form,
which holds the same settings and is its own normal form. -/
theorem json_keeps_settings :
    (∀ s : Settings, ofJson? (toJson s) = some s) ∧
    (∀ s t : Settings, toJson s = toJson t → s = t) ∧
    ∀ v s, ofJson? v = some s →
      ∃ w, normalForm? v = some w ∧ w = toJson s ∧ ofJson? w = some s ∧ normalForm? w = some w := by
  refine ⟨ofJson?_toJson, fun s t hjson => ?_, fun v s hread => ?_⟩
  · have hs := ofJson?_toJson s
    rw [hjson, ofJson?_toJson] at hs
    exact (Option.some.inj hs).symm
  · exact ⟨toJson s, normalForm?_of_ofJson? hread, rfl, ofJson?_toJson s,
      normalForm?_of_ofJson? (ofJson?_toJson s)⟩

/-- An empty list of variables and a missing one are the same, those of options are not; unknown
members and fields that come in order are settled too. -/
example :
    normalForm? (.object [(Text.ofString "comment", .null), (variablesField, .array []),
        (routesField, .array [.array [.string ['/'], .string ['s']]])]) =
      some (.object [(matchRuleField, .string (Text.ofString "first")),
        (routesField, .array [.object [(patternField, .string ['/']),
          (serviceField, .string ['s'])]])]) ∧
    variableOfJson? (.object [(optionsField, .array [])]) ≠ variableOfJson? (.object []) :=
  ⟨rfl, by decide⟩

end Settings

end UriRouting
