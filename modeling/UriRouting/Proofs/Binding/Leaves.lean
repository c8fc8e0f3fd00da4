/-
# UriRouting.Proofs.Binding.Leaves — a list that is expanded comes back as its segments

An array of texts, nulls and further arrays is written as the texts in it (`Json.leaves`), from left
to right, with slashes between them.  A segments wildcard puts one slash in front, and on the way
back cuts what it captured at every slash and drops the empty pieces (`Text.segments`).  Dropping
them is what makes this exact: cutting a joined text then gives the segments of its parts
(`segments_joinWith`), one after another, and neither the slash in front nor the empty text of an
array without texts leaves a trace.

So the wildcard binds the segments of the leaves, each decoded.  Leaves that are segments themselves,
without slashes and escapes, come back as they were.
-/
import UriRouting.Proofs.Binding.Captures
import UriRouting.Proofs.Pattern.Expansion
import UriRouting.Proofs.Text.Pieces

namespace UriRouting

/-! ## The segments of a text -/

namespace Text

/-- **`segments t`** — the parts of the text between slashes that are not empty. -/
def segments (t : Text) : List Text := (pieces '/' t).filter (· ≠ [])

@[simp] theorem segments_nil : segments [] = [] := rfl

theorem segments_append_cons (a b : Text) : segments (a ++ '/' :: b) = segments a ++ segments b := by
  rw [segments, pieces_append_cons, List.filter_append]
  rfl

@[simp] theorem segments_slash_cons (t : Text) : segments ('/' :: t) = segments t :=
  segments_append_cons [] t

/-- Slashes in front do not count. -/
theorem segments_dropWhile_slash (t : Text) : segments (t.dropWhile (· == '/')) = segments t := by
  induction t with
  | nil => rfl
  | cons c t ih =>
    by_cases hc : c = '/'
    · subst hc
      rw [List.dropWhile_cons_of_pos (by simp), ih, segments_slash_cons]
    · rw [List.dropWhile_cons_of_neg (by simpa using hc)]

/-- **Texts joined by slashes have the segments of the texts.** -/
theorem segments_joinWith (parts : List Text) :
    segments (joinWith ['/'] parts) = parts.flatMap segments := by
  fun_induction joinWith ['/'] parts with
  | case1 => rfl
  | case2 p => simp
  | case3 p q ps ih =>
    rw [List.append_assoc, List.singleton_append, segments_append_cons, ih]
    rfl

/-- A text that is a segment is its only one. -/
theorem segments_eq_singleton {t : Text} (hne : t ≠ []) (hslash : '/' ∉ t) : segments t = [t] := by
  have hparts : ∀ p ∈ [t], '/' ∉ p := by simpa using hslash
  have hpieces : pieces '/' t = [t] := pieces_joinWith hparts (List.cons_ne_nil t [])
  rw [segments, hpieces]
  simp [hne]

end Text

/-! ## The texts in an array -/

namespace Json

/-- **`Nested v`** — the value is made of texts and nulls, and of arrays of such values. -/
inductive Nested : Json → Prop
  | null : Nested .null
  | string (t : Text) : Nested (.string t)
  | array {items : List Json} (h : ∀ v ∈ items, Nested v) : Nested (.array items)

attribute [simp] Nested.null Nested.string

@[simp] theorem nested_array_iff {items : List Json} :
    (Json.array items).Nested ↔ ∀ v ∈ items, v.Nested := by
  constructor
  · intro h
    cases h with
    | array hitems => exact hitems
  · exact .array

mutual

/-- **`leaves v`** — the texts in a value, from left to right. -/
def leaves : Json → List Text
  | .string t => [t]
  | .array items => leavesOf items
  | _ => []

/-- The texts in values, one after another. -/
def leavesOf : List Json → List Text
  | [] => []
  | v :: rest => leaves v ++ leavesOf rest

end

/-- The texts of items have the segments of their leaves if the text of every item has. -/
theorem segments_pathTexts {items : List Json} (h : ∀ v ∈ items,
    v.pathText?.toList.flatMap Text.segments = v.leaves.flatMap Text.segments) :
    (pathTexts items).flatMap Text.segments = (leavesOf items).flatMap Text.segments := by
  induction items with
  | nil => rfl
  | cons v rest ih =>
    have hfirst := h v List.mem_cons_self
    have hrest := ih fun w hw => h w (List.mem_cons_of_mem v hw)
    rw [leavesOf, List.flatMap_append, ← hfirst, ← hrest, pathTexts]
    cases v.pathText? with
    | none => rfl
    | some t => simp

/-- **The text of a nested value has the segments of its leaves**; a value without text has none. -/
theorem Nested.segments_pathText? {v : Json} (h : v.Nested) :
    v.pathText?.toList.flatMap Text.segments = v.leaves.flatMap Text.segments := by
  induction h with
  | null => rfl
  | string t => rfl
  | @array items _ ih =>
    show [Text.joinWith ['/'] (pathTexts items)].flatMap Text.segments =
      (leavesOf items).flatMap Text.segments
    rw [List.flatMap_singleton, Text.segments_joinWith]
    exact segments_pathTexts ih

end Json

/-! ## The round trip -/

namespace Token

/-- A segments wildcard writes the segments of its text. -/
theorem segments_expand (v : Variable) (params : Params) :
    Text.segments ((wildcard v .segments).expand params) =
      Text.segments (v.effective params) := by
  simp only [expand]
  split
  · next hempty => rw [hempty]
  · rw [Text.segments_slash_cons, Text.segments_dropWhile_slash]

/-- A segments wildcard binds the segments of its text, decoded. -/
theorem rawValue_expand_segments (v : Variable) (params : Params) :
    (wildcard v .segments).rawValue ((wildcard v .segments).expand params) =
      .segments ((Text.segments (v.effective params)).map Percent.decode) := by
  rw [← segments_expand]
  rfl

/-- The expression of a segments wildcard matches what the wildcard is expanded to. -/
theorem exists_matches_expand_segments (v : Variable) (params : Params) :
    ∃ r, Regex.read (Pattern.sourceOf [wildcard v .segments]) = .ok r ∧
      r.Matches ((wildcard v .segments).expand params) := by
  have hcut := Pattern.IsCutting.cons (accepts_expand_segments params v) .nil
  rw [List.append_nil] at hcut
  exact ⟨_, Pattern.read_sourceOf _, Pattern.matches_expressionOf_iff.mpr ⟨_, hcut⟩⟩

end Token

/-- Texts that are segments without escapes are what is read from them. -/
theorem map_decode_flatMap_segments {ts : List Text}
    (h : ∀ t ∈ ts, t ≠ [] ∧ '/' ∉ t ∧ Percent.decode t = t) :
    (ts.flatMap Text.segments).map Percent.decode = ts := by
  induction ts with
  | nil => rfl
  | cons t ts ih =>
    obtain ⟨hne, hslash, hdecode⟩ := h t List.mem_cons_self
    have hrest := ih fun u hu => h u (List.mem_cons_of_mem t hu)
    rw [List.flatMap_cons, List.map_append, hrest, Text.segments_eq_singleton hne hslash]
    simp [hdecode]

section RoundTrip

variable {v : Variable} {members : List (Text × Json)} {items : List Json}

/-- A variable that is given an array takes the array's text, whatever its default. -/
theorem Variable.effective_array (h : members.lookup v.name = some (.array items)) :
    v.effective (Params.ofMembers members) = Text.joinWith ['/'] (Json.pathTexts items) := by
  have hgiven : Params.ofMembers members v.name =
      some (Text.joinWith ['/'] (Json.pathTexts items)) := by
    rw [Params.ofMembers, h]
    rfl
  rw [Variable.effective, hgiven]
  rfl

/-- **The leaves of an array come back.**  A segments wildcard whose variable is given an array of
texts, nulls and further arrays is expanded to a text that its own expression matches.  Captured,
that text binds the variable to the leaves of the array in their order, each cut at its slashes,
without the empty pieces, and decoded piece by piece.  Leaves that have no slash and no escape, and
are not empty, are bound as they were.  The default of the variable has no part in it. -/
theorem record_expand_array (v : Variable) (members : List (Text × Json)) (items : List Json)
    (hgiven : members.lookup v.name = some (.array items)) (hnested : (Json.array items).Nested) :
    ∃ text, (Token.wildcard v .segments).expand (Params.ofMembers members) = text ∧
      (∃ r, Regex.read (Pattern.sourceOf [.wildcard v .segments]) = .ok r ∧ r.Matches text) ∧
      (∀ captures, ((captures : Captures).record (.wildcard v .segments) text).get? v.key =
        some (.segments (((Json.array items).leaves.flatMap Text.segments).map Percent.decode))) ∧
      ((∀ leaf ∈ (Json.array items).leaves,
          leaf ≠ [] ∧ '/' ∉ leaf ∧ Percent.decode leaf = leaf) →
        ∀ captures, ((captures : Captures).record (.wildcard v .segments) text).get? v.key =
          some (.segments (Json.array items).leaves)) ∧
      ∀ default, (Token.wildcard { v with default } .segments).expand
        (Params.ofMembers members) = text := by
  have hsegments : Text.segments (v.effective (Params.ofMembers members)) =
      (Json.array items).leaves.flatMap Text.segments := by
    have hleaves := hnested.segments_pathText?
    rw [Variable.effective_array hgiven, ← hleaves]
    exact (List.flatMap_singleton _ _).symm
  have hbound : ∀ captures : Captures, (captures.record (.wildcard v .segments)
      ((Token.wildcard v .segments).expand (Params.ofMembers members))).get? v.key =
        some (.segments (((Json.array items).leaves.flatMap Text.segments).map Percent.decode)) := by
    intro captures
    have hcarries : (Token.wildcard v .segments).Carries v.key := rfl
    rw [Captures.get?_record, if_pos hcarries, Token.rawValue_expand_segments, hsegments]
  refine ⟨_, rfl, Token.exists_matches_expand_segments v _, hbound, ?_, ?_⟩
  · intro hplain captures
    rw [hbound, map_decode_flatMap_segments hplain]
  · intro default
    have hgiven' : members.lookup { v with default }.name = some (.array items) := hgiven
    simp only [Token.expand, Variable.effective_array hgiven, Variable.effective_array hgiven']

/-- Empty texts and arrays, nulls, slashes at the ends and escaped slashes: what is between slashes
comes back, with its escapes decoded, and the default does not. -/
theorem record_expand_array_mixed :
    ∃ v items, v.default = some (Text.ofString "none") ∧ (Json.array items).Nested ∧
      (Token.wildcard v .segments).expand (Params.ofMembers [(v.name, .array items)]) =
        Text.ofString "/a/b///%C3%A9%2F//x" ∧
      ∀ captures : Captures, (captures.record (.wildcard v .segments)
        (Text.ofString "/a/b///%C3%A9%2F//x")).get? v.key =
          some (.segments [['a'], ['b'], ['é', '/'], ['x']]) := by
  let v : Variable := ⟨['a'], none, some (Text.ofString "none")⟩
  let items : List Json := [.string [], .null, .string ['a', '/', 'b'], .array [],
    .array [.string (Text.ofString "/%C3%A9%2F/"), .array [.null, .string ['x']]]]
  have hnested : (Json.array items).Nested := by simp [items]
  obtain ⟨text, htext, -, hbound, -⟩ :=
    record_expand_array v [(v.name, .array items)] items (by simp) hnested
  obtain rfl : text = Text.ofString "/a/b///%C3%A9%2F//x" := by
    rw [← htext]
    decide
  refine ⟨v, items, rfl, hnested, htext, fun captures => (hbound captures).trans ?_⟩
  decide

end RoundTrip

end UriRouting
