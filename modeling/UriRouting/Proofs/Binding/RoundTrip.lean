/-
# UriRouting.Proofs.Binding.RoundTrip — resolving what was expanded

An expanded template is cut into the texts of its tokens (`isCutting_expand`), and for an
unambiguous template that is the only cutting.  Decoding takes each of these pieces back to the text
of its variable (`Token.decode_expand`).  With distinct names every variable has one capture, so
resolving the expanded path gives each variable what its resolver has for the text it was expanded
with (`resolve_expand`).
-/
import UriRouting.Proofs.Binding.Resolution
import UriRouting.Proofs.Pattern.Expansion
import UriRouting.Proofs.Pattern.Unambiguous

namespace UriRouting

/-! ## One token -/

namespace Token

/-- **`Admits params token`** — the token can be given the text of its variable and read back: any
text if it is encoded, as long as there is some; else a text without escapes, and in a placeholder
not empty and without slash. -/
def Admits (params : Params) : Token → Prop
  | literal _ => True
  | placeholder v .plain => v.effective params ≠ [] ∧ '/' ∉ v.effective params ∧
      Percent.decode (v.effective params) = v.effective params
  | placeholder v .encoded => v.effective params ≠ []
  | wildcard v _ => Percent.decode (v.effective params) = v.effective params

instance (params : Params) : (token : Token) → Decidable (token.Admits params)
  | literal _ => inferInstanceAs (Decidable True)
  | placeholder _ .plain => inferInstanceAs (Decidable (_ ∧ _))
  | placeholder _ .encoded => inferInstanceAs (Decidable (_ ≠ _))
  | wildcard _ _ => inferInstanceAs (Decidable (_ = _))

variable {params : Params} {token : Token}

/-- What can be read back can be captured. -/
theorem Admits.fits (h : token.Admits params) : token.Fits params := by
  cases token with
  | literal text => exact trivial
  | placeholder v m =>
    cases m with
    | plain => exact ⟨h.1, h.2.1⟩
    | encoded => exact h
  | wildcard v form => exact trivial

theorem admits_of_isLiteral (h : token.isLiteral = true) : token.Admits params := by
  cases token with
  | literal text => exact trivial
  | placeholder v m => cases h
  | wildcard v form => cases h

/-- Decoding takes the text that a token was expanded to back to the text of its variable. -/
theorem decode_expand {v : Variable} (h : token.Admits params) (hseg : token.isSegments = false)
    (hvar : token.var? = some v) : Percent.decode (token.expand params) = v.effective params := by
  cases token with
  | literal text => cases hvar
  | placeholder w m =>
    obtain rfl := Option.some.inj hvar
    cases m with
    | plain => exact h.2.2
    | encoded => exact Percent.decode_encode _
  | wildcard w form =>
    obtain rfl := Option.some.inj hvar
    cases form with
    | remainder => exact h
    | segments => cases hseg

end Token

theorem Token.isSegments_eq_false {tokens : List Token}
    (h : ∀ v, .wildcard v .segments ∉ tokens) {token : Token} (hmem : token ∈ tokens) :
    token.isSegments = false := by
  cases token with
  | literal text => rfl
  | placeholder v m => rfl
  | wildcard v form =>
    cases form with
    | remainder => rfl
    | segments => exact absurd hmem (h v)

theorem Pattern.Unambiguous.isSegments_eq_false {tokens : List Token} (h : Unambiguous tokens)
    {token : Token} (hmem : token ∈ tokens) : token.isSegments = false :=
  Token.isSegments_eq_false h.no_segments hmem

/-! ## Captures that are single texts, one for each variable -/

namespace Resolution

/-- **`LastTexts steps vars text`** — the last captures are those of the variables, each a single
text that is decoded to `text` of the variable. -/
structure LastTexts (steps : List (Token × Text)) (vars : List Variable) (text : Variable → Text) :
    Prop where
  single : ∀ key token piece, Captures.IsLast steps key token piece →
    token.isSegments = false ∧ ∃ v ∈ vars, v.key = key ∧ Percent.decode piece = text v
  covered : ∀ v ∈ vars, ∃ token piece, Captures.IsLast steps v.key token piece ∧
    Percent.decode piece = text v

variable {b : Binder} {steps : List (Token × Text)} {vars : List Variable}
  {text : Variable → Text} {r : Resolution}

theorem LastTexts.resolves_iff (h : LastTexts steps vars text) {name : Text} {type : Option Text}
    {value : Json} :
    Resolves b steps name type value ↔
      ∃ v ∈ vars, v.key = (name, type) ∧ b.resolverOf v.name v.type (text v) = some value := by
  constructor
  · rintro ⟨token, piece, hlast, -, hvalue⟩
    obtain ⟨-, v, hv, hkey, htext⟩ := h.single _ token piece hlast
    obtain ⟨rfl, rfl⟩ := Prod.mk.inj hkey
    exact ⟨v, hv, rfl, htext ▸ hvalue⟩
  · rintro ⟨v, hv, hkey, hvalue⟩
    obtain ⟨rfl, rfl⟩ := Prod.mk.inj hkey
    obtain ⟨token, piece, hlast, htext⟩ := h.covered v hv
    exact ⟨token, piece, hlast, (h.single _ token piece hlast).1, htext ▸ hvalue⟩

variable (hr : IsOutcome b steps r) (h : LastTexts steps vars text)

include hr h

/-- A variable whose name no other has is given what its resolver has for its text. -/
theorem IsOutcome.get?_eq_resolverOf (hnames : (vars.map Variable.name).Nodup) {v : Variable}
    (hv : v ∈ vars) : r.get? v.name = b.resolverOf v.name v.type (text v) := by
  -- whatever the name is bound to comes from `v`, since no other variable has its name
  have bound : ∀ value, r.get? v.name = some value →
      b.resolverOf v.name v.type (text v) = some value := by
    intro value hvalue
    obtain ⟨type, hres⟩ := hr.resolves v.name value hvalue
    obtain ⟨w, hw, hkey, hresolver⟩ := h.resolves_iff.mp hres
    obtain rfl : w = v := List.inj_on_of_nodup_map hnames hw hv (Prod.mk.inj hkey).1
    exact hresolver
  refine Option.ext fun value => ⟨bound value, fun hresolver => ?_⟩
  have hres := h.resolves_iff.mpr ⟨v, hv, rfl, hresolver⟩
  have hsome := (hr.bound_iff v.name).mpr ⟨v.type, value, hres⟩
  obtain ⟨other, hother⟩ := Option.isSome_iff_exists.mp hsome
  rw [hother, ← bound other hother, hresolver]

theorem IsOutcome.exists_of_get?_eq_some {name : Text} {value : Json}
    (hvalue : r.get? name = some value) : ∃ v ∈ vars, v.name = name := by
  obtain ⟨type, hres⟩ := hr.resolves name value hvalue
  obtain ⟨v, hv, hkey, -⟩ := h.resolves_iff.mp hres
  exact ⟨v, hv, (Prod.mk.inj hkey).1⟩

theorem IsOutcome.status_ne_error : r.status ≠ .error := by
  intro herror
  obtain ⟨key, token, piece, hlast, hseg⟩ := hr.error_iff.mp herror
  exact absurd hseg (Bool.eq_false_iff.mp (h.single key token piece hlast).1)

theorem IsOutcome.resolved_iff_forall :
    r.status = .resolved ↔
      ∀ v ∈ vars, (b.resolverOf v.name v.type (text v)).isSome = true := by
  rw [hr.resolved_iff]
  constructor
  · intro hall v hv
    obtain ⟨token, piece, hlast, htext⟩ := h.covered v hv
    rw [Option.isSome_iff_exists, ← htext]
    exact (hall _ _ token piece hlast).2
  · intro hall name type token piece hlast
    obtain ⟨hseg, v, hv, hkey, htext⟩ := h.single _ token piece hlast
    obtain ⟨rfl, rfl⟩ := Prod.mk.inj hkey
    rw [htext]
    exact ⟨hseg, Option.isSome_iff_exists.mp (hall v hv)⟩

theorem IsOutcome.unresolved_iff_exists :
    r.status = .unresolved ↔
      ∃ v ∈ vars, b.resolverOf v.name v.type (text v) = none := by
  have hne := hr.status_ne_error h
  have hnot : r.status = .unresolved ↔ ¬ r.status = .resolved := by
    cases hstatus : r.status with
    | error => exact absurd hstatus hne
    | resolved => simp
    | unresolved => simp
  rw [hnot, hr.resolved_iff_forall h]
  simp only [not_forall, Bool.not_eq_true, Option.isSome_eq_false_iff, Option.isNone_iff_eq_none,
    exists_prop]

end Resolution

/-! ## The round trip -/

namespace Pattern

open Resolution

variable {params : Params}

/-- An expanded template is cut into the texts that its tokens were expanded to. -/
theorem captures_expand {p : Pattern} (hcut : Unambiguous p.tokens)
    (hadmits : ∀ token ∈ p.tokens, token.Admits params) :
    p.captures (p.template.expand params) = some (p.tokens.map (Token.expand params)) := by
  refine captures_eq_some_iff.mpr (hcut.isPreferred (isCutting_expand fun token hmem => ?_))
  exact Token.accepts_expand_iff_fits.mpr (hadmits token hmem).fits

theorem mem_zip_map_iff {tokens : List Token} {f : Token → Text} {token : Token} {piece : Text} :
    (token, piece) ∈ tokens.zip (tokens.map f) ↔ token ∈ tokens ∧ f token = piece := by
  rw [← List.map_prod_left_eq_zip, List.mem_map]
  constructor
  · rintro ⟨t, ht, heq⟩
    obtain ⟨rfl, rfl⟩ := Prod.mk.inj heq
    exact ⟨ht, rfl⟩
  · rintro ⟨ht, rfl⟩
    exact ⟨token, ht, rfl⟩

/-- With distinct names every capture is the last one of its variable. -/
theorem lastTexts_of_captures {p : Pattern} {path : Text} {pieces : List Text}
    {text : Variable → Text} (hnames : (p.template.vars.map Variable.name).Nodup)
    (hpieces : p.captures path = some pieces)
    (htext : ∀ token piece, (token, piece) ∈ p.tokens.zip pieces → ∀ v, token.var? = some v →
      token.isSegments = false ∧ Percent.decode piece = text v) :
    LastTexts (p.tokens.zip pieces) p.template.vars text := by
  have single : ∀ key token piece, Captures.IsLast (p.tokens.zip pieces) key token piece →
      token.isSegments = false ∧
        ∃ v ∈ p.template.vars, v.key = key ∧ Percent.decode piece = text v := by
    intro key token piece hlast
    obtain ⟨v, hvar, hkey⟩ := hlast.exists_var
    obtain ⟨hseg, hpiece⟩ := htext token piece hlast.mem v hvar
    have hmem : token ∈ p.tokens := (List.of_mem_zip hlast.mem).1
    exact ⟨hseg, v, List.mem_filterMap.mpr ⟨token, hmem, hvar⟩, hkey, hpiece⟩
  refine ⟨single, fun v hv => ?_⟩
  obtain ⟨token, htoken, hvar⟩ := List.mem_filterMap.mp hv
  obtain ⟨piece, hstep⟩ := exists_mem_zip_of_captures hpieces htoken
  have hcarries : token.Carries v.key := by rw [Token.Carries, hvar, Option.map_some]
  obtain ⟨last, cut, hlast⟩ := Captures.exists_isLast hstep hcarries
  obtain ⟨-, w, hw, hkey, hpiece⟩ := single _ last cut hlast
  obtain rfl : w = v := List.inj_on_of_nodup_map hnames hw hv (Prod.mk.inj hkey).1
  exact ⟨last, cut, hlast, hpiece⟩

/-- The last captures of an expanded template are the texts of its variables. -/
theorem lastTexts_expand {p : Pattern} (hnames : (p.template.vars.map Variable.name).Nodup)
    (hcut : Unambiguous p.tokens) (hadmits : ∀ token ∈ p.tokens, token.Admits params) :
    LastTexts (p.tokens.zip (p.tokens.map (Token.expand params))) p.template.vars
      fun v => v.effective params := by
  refine lastTexts_of_captures hnames (captures_expand hcut hadmits) ?_
  intro token piece hstep v hvar
  obtain ⟨hmem, rfl⟩ := mem_zip_map_iff.mp hstep
  have hseg := hcut.isSegments_eq_false hmem
  exact ⟨hseg, Token.decode_expand (hadmits token hmem) hseg hvar⟩

/-- **Resolving undoes expanding.**  Of an unambiguous template whose variables have distinct names,
expanded with texts that its tokens admit, every variable captures its text again.  A variable has
the value that its resolver has for this text, no other name has a value, and the path is resolved
unless some resolver has none. -/
theorem resolve_expand (p : Pattern) (b : Binder) (params : Params)
    (hnames : (p.template.vars.map Variable.name).Nodup) (hcut : Unambiguous p.tokens)
    (hadmits : ∀ token ∈ p.tokens, token.Admits params) :
    (∃ pieces, p.captures (p.template.expand params) = some pieces ∧
      pieces.length = p.tokens.length ∧
      ∀ token piece, (token, piece) ∈ p.tokens.zip pieces → ∀ v, token.var? = some v →
        Percent.decode piece = v.effective params) ∧
    (∀ v ∈ p.template.vars, (p.resolve b (p.template.expand params)).get? v.name =
      b.resolverOf v.name v.type (v.effective params)) ∧
    (∀ name value, (p.resolve b (p.template.expand params)).get? name = some value →
      ∃ v ∈ p.template.vars, v.name = name) ∧
    ((p.resolve b (p.template.expand params)).status = .resolved ↔
      ∀ v ∈ p.template.vars, (b.resolverOf v.name v.type (v.effective params)).isSome = true) ∧
    ((p.resolve b (p.template.expand params)).status = .unresolved ↔
      ∃ v ∈ p.template.vars, b.resolverOf v.name v.type (v.effective params) = none) := by
  have hcaptures := captures_expand hcut hadmits
  have hlast := lastTexts_expand hnames hcut hadmits
  have houtcome : IsOutcome b (p.tokens.zip (p.tokens.map (Token.expand params)))
      (p.resolve b (p.template.expand params)) := by
    rw [resolve_of_captures_eq_some b hcaptures]
    exact isOutcome_ofCaptures (List.Perm.refl _)
  refine ⟨⟨_, hcaptures, List.length_map _, fun token piece hstep v hvar => ?_⟩,
    fun v hv => houtcome.get?_eq_resolverOf hlast hnames hv,
    fun name value => houtcome.exists_of_get?_eq_some hlast,
    houtcome.resolved_iff_forall hlast, houtcome.unresolved_iff_exists hlast⟩
  obtain ⟨hmem, rfl⟩ := mem_zip_map_iff.mp hstep
  exact Token.decode_expand (hadmits token hmem) (hcut.isSegments_eq_false hmem) hvar

/-- Texts that look like the literals around them are read back all the same. -/
theorem resolve_expand_lookalike :
    ∃ p params, compile (Text.ofString "/{int:id}.x/{q|encode}/{rest*}.x") = .ok p ∧
      (p.template.vars.map Variable.name).Nodup ∧ Unambiguous p.tokens ∧
      (∀ token ∈ p.tokens, token.Admits params) ∧
      p.template.expand params = Text.ofString "/7.x/%C3%A9%2F.x/a.x/b.x" ∧
      (p.resolve .builtin (p.template.expand params)).status = .resolved ∧
      (p.resolve .builtin (p.template.expand params)).get? (Text.ofString "q") =
        some (.string (Text.ofString "é/.x")) := by
  let q : Variable := ⟨['q'], none, none⟩
  let p : Pattern := .of ⟨Text.ofString "/{int:id}.x/{q|encode}/{rest*}.x",
    [.literal ['/'], .placeholder ⟨['i', 'd'], some ['i', 'n', 't'], none⟩ .plain,
      .literal ['.', 'x', '/'], .placeholder q .encoded, .literal ['/'],
      .wildcard ⟨['r', 'e', 's', 't'], none, none⟩ .remainder, .literal ['.', 'x']]⟩
  let params : Params := Params.ofPairs [(['i', 'd'], ['7']), (['q'], ['é', '/', '.', 'x']),
    (['r', 'e', 's', 't'], ['a', '.', 'x', '/', 'b'])]
  have hnames : (p.template.vars.map Variable.name).Nodup := by decide
  have hcut : Unambiguous p.tokens := by decide
  have hadmits : ∀ token ∈ p.tokens, token.Admits params := by decide
  obtain ⟨-, hvalues, -, hresolved, -⟩ := resolve_expand p .builtin params hnames hcut hadmits
  refine ⟨p, params, rfl, hnames, hcut, hadmits, by decide, hresolved.mpr (by decide), ?_⟩
  exact (hvalues q (by decide)).trans (by rfl)

end Pattern

end UriRouting
