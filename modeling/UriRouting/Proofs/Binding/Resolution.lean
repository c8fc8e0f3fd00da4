/-
# UriRouting.Proofs.Binding.Resolution — the outcome of a resolution

What resolving a path comes to is said by the last captures of the template's variables alone
(`IsOutcome`): the status by the worst of them, the values by those whose resolver takes them.  One
entry raises the status to its own and sets at most the value of its name (`resolveOne`); over all
entries the status is the highest one, and a name has a value as soon as one entry has one for it.
So the order of the entries is of no importance, but where two variables of one name, with different
types, resolve to different values.
-/
import UriRouting.Binding.Resolution
import UriRouting.Proofs.Binding.Captures
import UriRouting.Proofs.Binding.Precedence
import UriRouting.Proofs.Pattern.Matching
import Mathlib.Order.MinMax

namespace UriRouting

/-- The token is a segments wildcard. -/
def Token.isSegments : Token → Bool
  | .wildcard _ .segments => true
  | _ => false

theorem Token.rawValue_of_isSegments {token : Token} (h : token.isSegments = true) (piece : Text) :
    ∃ parts, token.rawValue piece = .segments parts := by
  cases token with
  | literal text => cases h
  | placeholder v m => cases h
  | wildcard v form =>
    cases form with
    | remainder => cases h
    | segments => exact ⟨_, rfl⟩

theorem Token.rawValue_of_not_isSegments {token : Token} (h : token.isSegments = false)
    (piece : Text) : token.rawValue piece = .single (Percent.decode piece) := by
  cases token with
  | literal text => rfl
  | placeholder v m => rfl
  | wildcard v form =>
    cases form with
    | remainder => rfl
    | segments => cases h

namespace Binder

variable (b : Binder) (key : Text × Option Text)

/-- The value that the resolver of a variable has for what was captured; it takes no list. -/
def valueOf? : RawValue → Option Json
  | .single raw => b.resolverOf key.1 key.2 raw
  | .segments _ => none

/-- The outcome of a variable alone. -/
def outcomeOf : RawValue → Status
  | .single raw => if (b.resolverOf key.1 key.2 raw).isSome then .resolved else .unresolved
  | .segments _ => .error

end Binder

namespace Status

theorem eq_error_iff {s : Status} : s = .error ↔ 2 ≤ s.severity := by
  cases s <;> simp [severity]

theorem eq_unresolved_iff {s : Status} : s = .unresolved ↔ ¬ 2 ≤ s.severity ∧ 1 ≤ s.severity := by
  cases s <;> simp [severity]

theorem eq_resolved_iff {s : Status} : s = .resolved ↔ ¬ 1 ≤ s.severity := by
  cases s <;> simp [severity]

end Status

namespace Resolution

variable {b : Binder} {r : Resolution} {name : Text}

/-! ## What one entry changes -/

theorem isPut_put (n : Text) (value : Json) :
    IsPut Prod.fst n (n, value) (fun e => (e.1, value)) (put.go n value) where
  key_fresh := rfl
  key_update _ := rfl
  nil := rfl
  found _ _ he := if_pos he
  passed _ _ he := if_neg he

theorem get?_put (n : Text) (value : Json) :
    (r.put n value).get? name = if n = name then some value else r.get? name := by
  rw [get?, get?, lookup_eq_map_find?, lookup_eq_map_find?]
  exact (isPut_put n value).map_find?_put rfl (fun _ => rfl) name r.values

theorem resolveOne_of_some {v : Variable} {text : Text} {value : Json}
    (h : b.resolverOf v.name v.type text = some value) :
    resolveOne b r (v, .single text) = r.put v.name value := by
  rw [resolveOne, h]

theorem resolveOne_of_none {v : Variable} {text : Text}
    (h : b.resolverOf v.name v.type text = none) :
    resolveOne b r (v, .single text) = r.raise .unresolved := by
  rw [resolveOne, h]

/-- An entry raises the status to its own outcome. -/
theorem severity_resolveOne (v : Variable) (raw : RawValue) :
    (resolveOne b r (v, raw)).status.severity =
      max r.status.severity (b.outcomeOf v.key raw).severity := by
  cases raw with
  | single text =>
    cases h : b.resolverOf v.name v.type text with
    | none =>
      rw [resolveOne_of_none h]
      simp [raise, Binder.outcomeOf, Variable.key, h]
    | some value =>
      rw [resolveOne_of_some h]
      simp [put, Binder.outcomeOf, Variable.key, h, Status.severity]
  | segments parts => exact Status.severity_combine _ _

/-- An entry sets the value of its name, if it has one. -/
theorem get?_resolveOne (v : Variable) (raw : RawValue) :
    (resolveOne b r (v, raw)).get? name =
      if v.name = name then (b.valueOf? v.key raw).or (r.get? name) else r.get? name := by
  cases raw with
  | single text =>
    cases h : b.resolverOf v.name v.type text with
    | none =>
      rw [resolveOne_of_none h]
      simp [raise, get?, Binder.valueOf?, Variable.key, h]
    | some value =>
      rw [resolveOne_of_some h, get?_put]
      simp [Binder.valueOf?, Variable.key, h]
  | segments parts => simp [resolveOne, raise, get?, Binder.valueOf?]

theorem names_nodup_resolveOne (entry : Variable × RawValue)
    (h : (r.values.map Prod.fst).Nodup) :
    ((resolveOne b r entry).values.map Prod.fst).Nodup := by
  obtain ⟨v, raw⟩ := entry
  cases raw with
  | segments parts => exact h
  | single text =>
    cases hv : b.resolverOf v.name v.type text with
    | none =>
      rw [resolveOne_of_none hv]
      exact h
    | some value =>
      rw [resolveOne_of_some hv]
      exact (isPut_put v.name value).nodup_put h

/-! ## What all entries come to -/

variable {entries : Captures}

theorem ofCaptures_concat (entry : Variable × RawValue) :
    ofCaptures b (entries ++ [entry]) = resolveOne b (ofCaptures b entries) entry := by
  simp [ofCaptures]

/-- The status of all entries is the worst outcome among them. -/
theorem le_severity_ofCaptures_iff {n : Nat} (hn : 0 < n) :
    n ≤ (ofCaptures b entries).status.severity ↔
      ∃ entry ∈ entries, n ≤ (b.outcomeOf entry.1.key entry.2).severity := by
  induction entries using List.reverseRecOn with
  | nil => simp [ofCaptures, start, Status.severity, Nat.ne_of_gt hn]
  | append_singleton entries entry ih =>
    rw [ofCaptures_concat, severity_resolveOne, le_max_iff, ih]
    simp only [List.mem_append, List.mem_singleton, or_and_right, exists_or, exists_eq_left]

theorem isSome_get?_ofCaptures_iff :
    ((ofCaptures b entries).get? name).isSome = true ↔
      ∃ entry ∈ entries, entry.1.name = name ∧ (b.valueOf? entry.1.key entry.2).isSome = true := by
  induction entries using List.reverseRecOn with
  | nil => simp [ofCaptures, start, get?]
  | append_singleton entries entry ih =>
    rw [ofCaptures_concat, get?_resolveOne]
    simp only [List.mem_append, List.mem_singleton, or_and_right, exists_or, exists_eq_left, ← ih]
    by_cases h : entry.1.name = name
    · simp [h, or_comm]
    · simp [h]

theorem exists_of_get?_ofCaptures {value : Json}
    (h : (ofCaptures b entries).get? name = some value) :
    ∃ entry ∈ entries, entry.1.name = name ∧ b.valueOf? entry.1.key entry.2 = some value := by
  induction entries using List.reverseRecOn with
  | nil => cases h
  | append_singleton entries entry ih =>
    rw [ofCaptures_concat, get?_resolveOne] at h
    have earlier : (ofCaptures b entries).get? name = some value →
        ∃ e ∈ entries ++ [entry], e.1.name = name ∧ b.valueOf? e.1.key e.2 = some value := by
      intro h
      obtain ⟨e, he, hvalue⟩ := ih h
      exact ⟨e, List.mem_append_left _ he, hvalue⟩
    -- an entry without a value leaves the value of an entry before it
    split at h
    · next hname =>
      rcases Option.or_eq_some_iff.mp h with hvalue | ⟨-, h⟩
      · exact ⟨entry, by simp, hname, hvalue⟩
      · exact earlier h
    · exact earlier h

theorem names_nodup_ofCaptures : ((ofCaptures b entries).values.map Prod.fst).Nodup := by
  induction entries using List.reverseRecOn with
  | nil => exact List.nodup_nil
  | append_singleton entries entry ih =>
    rw [ofCaptures_concat]
    exact names_nodup_resolveOne entry ih

/-! ## The outcome, from the last captures -/

/-- **`Resolves b steps name type value`** — the last token of the variable captured a single text,
and the resolver of the variable has `value` for it. -/
def Resolves (b : Binder) (steps : List (Token × Text)) (name : Text) (type : Option Text)
    (value : Json) : Prop :=
  ∃ token piece, Captures.IsLast steps (name, type) token piece ∧ token.isSegments = false ∧
    b.resolverOf name type (Percent.decode piece) = some value

/-- **`IsOutcome b steps r`** — `r` is what the last captures of the variables come to: an error if
one of them is a segments wildcard, else unresolved if one of them has a text that its resolver does
not take; a name has a value if some variable of that name resolves, and it is a value of such a
variable. -/
structure IsOutcome (b : Binder) (steps : List (Token × Text)) (r : Resolution) : Prop where
  error_iff : r.status = .error ↔
    ∃ key token piece, Captures.IsLast steps key token piece ∧ token.isSegments = true
  unresolved_iff : r.status = .unresolved ↔
    r.status ≠ .error ∧ ∃ name type token piece, Captures.IsLast steps (name, type) token piece ∧
      b.resolverOf name type (Percent.decode piece) = none
  resolved_iff : r.status = .resolved ↔
    ∀ name type token piece, Captures.IsLast steps (name, type) token piece →
      token.isSegments = false ∧ ∃ value, b.resolverOf name type (Percent.decode piece) = some value
  names_nodup : (r.values.map Prod.fst).Nodup
  bound_iff : ∀ name, (r.get? name).isSome = true ↔ ∃ type value, Resolves b steps name type value
  resolves : ∀ name value, r.get? name = some value → ∃ type, Resolves b steps name type value

variable {steps : List (Token × Text)}

/-- A property of the entries, in any order, is one of the last captures. -/
theorem exists_entry_iff {order : Captures} (h : order.Perm (Captures.recordAll steps []))
    (P : Text × Option Text → RawValue → Prop) :
    (∃ entry ∈ order, P entry.1.key entry.2) ↔
      ∃ key token piece, Captures.IsLast steps key token piece ∧ P key (token.rawValue piece) := by
  constructor
  · rintro ⟨⟨v, raw⟩, hmem, hP⟩
    obtain ⟨token, piece, hlast, hraw⟩ :=
      Captures.exists_mem_recordAll_iff.mp ⟨v, rfl, h.mem_iff.mp hmem⟩
    refine ⟨v.key, token, piece, hlast, ?_⟩
    rw [hraw]
    exact hP
  · rintro ⟨key, token, piece, hlast, hP⟩
    obtain ⟨v, hkey, hmem⟩ := Captures.exists_mem_recordAll_iff.mpr ⟨token, piece, hlast, rfl⟩
    refine ⟨(v, token.rawValue piece), h.mem_iff.mpr hmem, ?_⟩
    rw [hkey]
    exact hP

theorem two_le_outcomeOf_iff {key : Text × Option Text} {token : Token} {piece : Text} :
    2 ≤ (b.outcomeOf key (token.rawValue piece)).severity ↔ token.isSegments = true := by
  cases h : token.isSegments with
  | true =>
    obtain ⟨parts, hparts⟩ := Token.rawValue_of_isSegments h piece
    simp [hparts, Binder.outcomeOf, Status.severity]
  | false =>
    rw [Token.rawValue_of_not_isSegments h]
    by_cases hv : (b.resolverOf key.1 key.2 (Percent.decode piece)).isSome
    · simp [Binder.outcomeOf, Status.severity, hv]
    · simp [Binder.outcomeOf, Status.severity, hv]

theorem valueOf?_rawValue_eq_some_iff {key : Text × Option Text} {token : Token} {piece : Text}
    {value : Json} :
    b.valueOf? key (token.rawValue piece) = some value ↔
      token.isSegments = false ∧ b.resolverOf key.1 key.2 (Percent.decode piece) = some value := by
  cases h : token.isSegments with
  | true =>
    obtain ⟨parts, hparts⟩ := Token.rawValue_of_isSegments h piece
    simp [hparts, Binder.valueOf?]
  | false => simp [Token.rawValue_of_not_isSegments h, Binder.valueOf?]

/-- Short of an error, a capture is refused where its resolver has no value. -/
theorem one_le_outcomeOf_iff {key : Text × Option Text} {token : Token} {piece : Text}
    (h : token.isSegments = false) :
    1 ≤ (b.outcomeOf key (token.rawValue piece)).severity ↔
      b.resolverOf key.1 key.2 (Percent.decode piece) = none := by
  rw [Token.rawValue_of_not_isSegments h]
  cases hv : b.resolverOf key.1 key.2 (Percent.decode piece) with
  | none => simp [Binder.outcomeOf, Status.severity, hv]
  | some value => simp [Binder.outcomeOf, Status.severity, hv]

/-- A capture raises nothing where it is a text that its resolver takes. -/
theorem not_one_le_outcomeOf_iff {key : Text × Option Text} {token : Token} {piece : Text} :
    ¬ 1 ≤ (b.outcomeOf key (token.rawValue piece)).severity ↔
      token.isSegments = false ∧
        ∃ value, b.resolverOf key.1 key.2 (Percent.decode piece) = some value := by
  cases h : token.isSegments with
  | true =>
    have hle : 2 ≤ (b.outcomeOf key (token.rawValue piece)).severity := two_le_outcomeOf_iff.mpr h
    constructor
    · intro hlt
      omega
    · rintro ⟨hseg, _⟩
      cases hseg
  | false =>
    rw [one_le_outcomeOf_iff h, ← ne_eq, Option.ne_none_iff_exists']
    simp

/-- Some entry of a name has a value exactly if some variable of the name resolves to it. -/
theorem exists_entry_value_iff {order : Captures} {value : Json}
    (h : order.Perm (Captures.recordAll steps [])) :
    (∃ entry ∈ order, entry.1.name = name ∧ b.valueOf? entry.1.key entry.2 = some value) ↔
      ∃ type, Resolves b steps name type value := by
  refine (exists_entry_iff h fun key raw => key.1 = name ∧ b.valueOf? key raw = some value).trans ?_
  constructor
  · rintro ⟨⟨n, type⟩, token, piece, hlast, rfl, hvalue⟩
    obtain ⟨hseg, hvalue⟩ := valueOf?_rawValue_eq_some_iff.mp hvalue
    exact ⟨type, token, piece, hlast, hseg, hvalue⟩
  · rintro ⟨type, token, piece, hlast, hseg, hvalue⟩
    exact ⟨(name, type), token, piece, hlast, rfl,
      valueOf?_rawValue_eq_some_iff.mpr ⟨hseg, hvalue⟩⟩

/-- Resolving the entries, in any order, comes to what the last captures say. -/
theorem isOutcome_ofCaptures {order : Captures} (h : order.Perm (Captures.recordAll steps [])) :
    IsOutcome b steps (ofCaptures b order) := by
  have herror : (ofCaptures b order).status = .error ↔
      ∃ key token piece, Captures.IsLast steps key token piece ∧ token.isSegments = true := by
    rw [Status.eq_error_iff, le_severity_ofCaptures_iff (by omega)]
    refine (exists_entry_iff h fun key raw => 2 ≤ (b.outcomeOf key raw).severity).trans ?_
    simp only [two_le_outcomeOf_iff]
  -- the status is raised at all if some last capture raises it, to whatever height
  have hraised : 1 ≤ (ofCaptures b order).status.severity ↔
      ∃ key token piece, Captures.IsLast steps key token piece ∧
        1 ≤ (b.outcomeOf key (token.rawValue piece)).severity := by
    rw [le_severity_ofCaptures_iff (by omega)]
    exact exists_entry_iff h fun key raw => 1 ≤ (b.outcomeOf key raw).severity
  refine ⟨herror, ?_, ?_, names_nodup_ofCaptures, fun name => ?_, fun name value hvalue => ?_⟩
  · -- short of an error no last token is a segments wildcard, so what raises is a refused text
    rw [Status.eq_unresolved_iff, ← Status.eq_error_iff, hraised]
    refine and_congr_right fun hne => ?_
    have hseg : ∀ key token piece, Captures.IsLast steps key token piece →
        token.isSegments = false := by
      intro key token piece hlast
      rw [← Bool.not_eq_true]
      exact fun hs => hne (herror.mpr ⟨key, token, piece, hlast, hs⟩)
    constructor
    · rintro ⟨⟨name, type⟩, token, piece, hlast, hle⟩
      exact ⟨name, type, token, piece, hlast, (one_le_outcomeOf_iff (hseg _ _ _ hlast)).mp hle⟩
    · rintro ⟨name, type, token, piece, hlast, hnone⟩
      exact ⟨(name, type), token, piece, hlast,
        (one_le_outcomeOf_iff (hseg _ _ _ hlast)).mpr hnone⟩
  · rw [Status.eq_resolved_iff, hraised]
    constructor
    · intro hnone name type token piece hlast
      exact not_one_le_outcomeOf_iff.mp fun hle => hnone ⟨(name, type), token, piece, hlast, hle⟩
    · rintro hall ⟨⟨name, type⟩, token, piece, hlast, hle⟩
      exact not_one_le_outcomeOf_iff.mpr (hall name type token piece hlast) hle
  · rw [isSome_get?_ofCaptures_iff]
    simp only [Option.isSome_iff_exists]
    constructor
    · rintro ⟨entry, hmem, hname, value, hvalue⟩
      obtain ⟨type, hres⟩ := (exists_entry_value_iff h).mp ⟨entry, hmem, hname, hvalue⟩
      exact ⟨type, value, hres⟩
    · rintro ⟨type, value, hres⟩
      obtain ⟨entry, hmem, hname, hvalue⟩ := (exists_entry_value_iff h).mpr ⟨type, hres⟩
      exact ⟨entry, hmem, hname, value, hvalue⟩
  · exact (exists_entry_value_iff h).mp (exists_of_get?_ofCaptures hvalue)

/-- Two outcomes of the same captures have one status. -/
theorem IsOutcome.status_eq {r s : Resolution} (hr : IsOutcome b steps r)
    (hs : IsOutcome b steps s) : s.status = r.status := by
  have herror : s.status = .error ↔ r.status = .error := by rw [hr.error_iff, hs.error_iff]
  have hunresolved : s.status = .unresolved ↔ r.status = .unresolved := by
    rw [hr.unresolved_iff, hs.unresolved_iff, ne_eq, ne_eq, herror]
  cases h : r.status with
  | error => exact herror.mpr h
  | unresolved => exact hunresolved.mpr h
  | resolved => exact hs.resolved_iff.mpr (hr.resolved_iff.mp h)

/-- Two outcomes of the same captures agree on a name whose variables resolve alike. -/
theorem IsOutcome.get?_eq {r s : Resolution} (hr : IsOutcome b steps r) (hs : IsOutcome b steps s)
    (h : ∀ type type' value value', Resolves b steps name type value →
      Resolves b steps name type' value' → value = value') : s.get? name = r.get? name := by
  cases hrv : r.get? name with
  | none =>
    rw [← Option.not_isSome_iff_eq_none] at hrv ⊢
    rwa [hs.bound_iff, ← hr.bound_iff]
  | some value =>
    have hbound : (s.get? name).isSome = true := by
      rw [hs.bound_iff, ← hr.bound_iff, hrv]
      rfl
    obtain ⟨value', hsv⟩ := Option.isSome_iff_exists.mp hbound
    obtain ⟨type, hres⟩ := hr.resolves name value hrv
    obtain ⟨type', hres'⟩ := hs.resolves name value' hsv
    rw [hsv, h _ _ _ _ hres' hres]

/-- A resolved outcome has a value for every variable of the tokens. -/
theorem IsOutcome.isSome_get?_of_resolved {r : Resolution} (hr : IsOutcome b steps r)
    (hstatus : r.status = .resolved) {token : Token} {piece : Text} {v : Variable}
    (hmem : (token, piece) ∈ steps) (hvar : token.var? = some v) :
    (r.get? v.name).isSome = true := by
  have hcarries : token.Carries (v.name, v.type) := by simp [Token.Carries, hvar, Variable.key]
  obtain ⟨last, cut, hlast⟩ := Captures.exists_isLast hmem hcarries
  obtain ⟨hseg, value, hvalue⟩ := hr.resolved_iff.mp hstatus v.name v.type last cut hlast
  exact (hr.bound_iff v.name).mpr ⟨v.type, value, last, cut, hlast, hseg, hvalue⟩

end Resolution

namespace Pattern

open Resolution

/-- A path is resolved from what the tokens captured. -/
theorem resolve_eq (p : Pattern) (b : Binder) (path : Text) :
    p.resolve b path =
      match p.captures path with
      | some pieces => .ofCaptures b (Captures.recordAll (p.tokens.zip pieces) [])
      | none => .mismatch := by
  rw [resolve, captures]
  cases p.expression.captures path with
  | none => rfl
  | some groups => by_cases h : groups.length = p.tokens.length <;> simp [h]

theorem resolve_of_captures_eq_none {p : Pattern} {path : Text} (b : Binder)
    (h : p.captures path = none) : p.resolve b path = .mismatch := by
  rw [resolve_eq, h]

theorem resolve_of_captures_eq_some {p : Pattern} {path : Text} {pieces : List Text} (b : Binder)
    (h : p.captures path = some pieces) :
    p.resolve b path = .ofCaptures b (Captures.recordAll (p.tokens.zip pieces) []) := by
  rw [resolve_eq, h]

/-- A path that matches is resolved to the outcome of what the tokens captured. -/
theorem isOutcome_resolve {p : Pattern} {path : Text} {pieces : List Text} (b : Binder)
    (h : p.captures path = some pieces) :
    IsOutcome b (p.tokens.zip pieces) (p.resolve b path) := by
  rw [resolve_of_captures_eq_some b h]
  exact isOutcome_ofCaptures (List.Perm.refl _)

theorem length_of_captures_eq_some {p : Pattern} {path : Text} {pieces : List Text}
    (h : p.captures path = some pieces) : pieces.length = p.tokens.length :=
  (captures_eq_some_iff.mp h).cutting.length_eq

/-- Every token has its piece among the captures. -/
theorem exists_mem_zip_of_captures {p : Pattern} {path : Text} {pieces : List Text}
    (h : p.captures path = some pieces) {token : Token} (hmem : token ∈ p.tokens) :
    ∃ piece, (token, piece) ∈ p.tokens.zip pieces := by
  have hlength := length_of_captures_eq_some h
  rw [← List.map_fst_zip (Nat.le_of_eq hlength.symm)] at hmem
  obtain ⟨⟨token, piece⟩, hstep, rfl⟩ := List.mem_map.mp hmem
  exact ⟨piece, hstep⟩

/-- **The last captures decide a resolution.**  A path that does not match is an error without
values.  Of a path that matches, the tokens with their captures decide the outcome, whatever the
order in which the captured variables are resolved: the status is the same, and so is the value of a
name unless variables of that name resolve to different values.  A resolved path has a value for
every variable of the template. -/
theorem resolve_last_captures (p : Pattern) (b : Binder) (path : Text) :
    (p.matchesPath path = false → p.resolve b path = ⟨.error, []⟩) ∧
    (p.matchesPath path = true → ∃ pieces, p.captures path = some pieces ∧
      pieces.length = p.tokens.length ∧
      IsOutcome b (p.tokens.zip pieces) (p.resolve b path) ∧
      (∀ order : Captures, order.Perm (Captures.recordAll (p.tokens.zip pieces) []) →
        IsOutcome b (p.tokens.zip pieces) (ofCaptures b order) ∧
        (ofCaptures b order).status = (p.resolve b path).status ∧
        ∀ name, (∀ type type' value value', Resolves b (p.tokens.zip pieces) name type value →
            Resolves b (p.tokens.zip pieces) name type' value' → value = value') →
          (ofCaptures b order).get? name = (p.resolve b path).get? name) ∧
      ((p.resolve b path).status = .resolved →
        ∀ v ∈ p.template.vars, ((p.resolve b path).get? v.name).isSome = true)) := by
  constructor
  · intro h
    refine resolve_of_captures_eq_none b (Option.eq_none_iff_forall_ne_some.mpr fun pieces hc => ?_)
    exact absurd (matchesPath_iff_captures.mpr ⟨pieces, hc⟩) (Bool.eq_false_iff.mp h)
  · intro h
    obtain ⟨pieces, hpieces⟩ := matchesPath_iff_captures.mp h
    have houtcome : IsOutcome b (p.tokens.zip pieces) (p.resolve b path) := by
      rw [resolve_of_captures_eq_some b hpieces]
      exact isOutcome_ofCaptures (List.Perm.refl _)
    refine ⟨pieces, hpieces, length_of_captures_eq_some hpieces, houtcome,
      fun order horder => ?_, fun hstatus v hv => ?_⟩
    · have hother := isOutcome_ofCaptures (b := b) horder
      exact ⟨hother, houtcome.status_eq hother, fun name => houtcome.get?_eq hother⟩
    · obtain ⟨token, htoken, hvar⟩ := List.mem_filterMap.mp hv
      obtain ⟨piece, hmem⟩ := exists_mem_zip_of_captures hpieces htoken
      exact houtcome.isSome_get?_of_resolved hstatus hmem hvar

/-- Two variables of one name, the untyped one with two tokens. -/
theorem resolve_typed_and_untyped :
    ∃ p, compile (Text.ofString "/{int:a}/{a}/{a}") = .ok p ∧
      p.matchesPath (Text.ofString "/7/x/y") = true ∧
      p.resolve .builtin (Text.ofString "/7") = ⟨.error, []⟩ ∧
      ∃ pieces, p.captures (Text.ofString "/7/x/y") = some pieces ∧
        IsOutcome .builtin (p.tokens.zip pieces)
          (p.resolve .builtin (Text.ofString "/7/x/y")) := by
  let typed : Token := .placeholder ⟨['a'], some ['i', 'n', 't'], none⟩ .plain
  let untyped : Token := .placeholder ⟨['a'], none, none⟩ .plain
  let slash : Token := .literal ['/']
  let p : Pattern := .of ⟨Text.ofString "/{int:a}/{a}/{a}",
    [slash, typed, slash, untyped, slash, untyped]⟩
  refine ⟨p, rfl, by decide, (resolve_last_captures p .builtin _).1 (by decide), ?_⟩
  have hmatch := (resolve_last_captures p .builtin (Text.ofString "/7/x/y")).2 (by decide)
  obtain ⟨pieces, hpieces, -, houtcome, -⟩ := hmatch
  exact ⟨pieces, hpieces, houtcome⟩

end Pattern

end UriRouting
