/-
# UriRouting.Proofs.Binding.Canonical — expanding what was resolved

Without resolvers of its own, a resolution gives every variable the decoded text of its piece, and
expanding the template writes that text in the place of the piece (`effective_resolveDefault`).  The
path comes out again if every piece is canonical, that is if its token writes it so
(`Token.expand_eq_self_iff`).

Only encoded placeholders escape what they write.  Every other piece that decoding changes is
written shorter, by `Percent.decode_eq_self_or_shorter`, and no piece is written longer; so without
encoded placeholders canonical pieces are the only ones with which the path comes out again.
-/
import UriRouting.Proofs.Binding.RoundTrip

namespace UriRouting

theorem Binder.resolverOf_empty (name : Text) (type : Option Text) (raw : Text) :
    Binder.empty.resolverOf name type raw = some (.string raw) := by
  cases type <;> rfl

/-! ## One piece -/

namespace Token

/-- **`IsCanonical piece token`** — the piece stands in the path as the token writes its decoded
text. -/
def IsCanonical (piece : Text) : Token → Prop
  | literal _ => True
  | placeholder _ .encoded => Percent.encode (Percent.decode piece) = piece
  | placeholder _ .plain => Percent.decode piece = piece
  | wildcard _ _ => Percent.decode piece = piece

instance (piece : Text) : (token : Token) → Decidable (token.IsCanonical piece)
  | literal _ => inferInstanceAs (Decidable True)
  | placeholder _ .encoded => inferInstanceAs (Decidable (_ = _))
  | placeholder _ .plain => inferInstanceAs (Decidable (_ = _))
  | wildcard _ _ => inferInstanceAs (Decidable (_ = _))

variable {params : Params} {token : Token} {piece : Text}

/-- Of a token that does not encode, a piece is canonical if decoding leaves it as it is. -/
theorem isCanonical_iff (hliteral : token.isLiteral = false)
    (hplain : ∀ v, token ≠ .placeholder v .encoded) :
    token.IsCanonical piece ↔ Percent.decode piece = piece := by
  cases token with
  | literal text => cases hliteral
  | placeholder v m =>
    cases m with
    | plain => exact Iff.rfl
    | encoded => exact absurd rfl (hplain v)
  | wildcard v form => exact Iff.rfl

/-- With the decoded text of its piece, a token is expanded to the piece if that is canonical. -/
theorem expand_eq_self_iff (haccepts : token.Accepts piece) (hseg : token.isSegments = false)
    (htext : ∀ v, token.var? = some v → v.effective params = Percent.decode piece) :
    token.expand params = piece ↔ token.IsCanonical piece := by
  cases token with
  | literal text => exact iff_of_true haccepts.symm trivial
  | placeholder v m =>
    have hv := htext v rfl
    cases m with
    | plain =>
      show v.effective params = piece ↔ Percent.decode piece = piece
      rw [hv]
    | encoded =>
      show Percent.encode (v.effective params) = piece ↔ _
      rw [hv]
      rfl
  | wildcard v form =>
    cases form with
    | remainder =>
      show v.effective params = piece ↔ Percent.decode piece = piece
      rw [htext v rfl]
    | segments => cases hseg

/-- A token that does not encode is expanded to its piece or to less. -/
theorem expand_eq_self_or_shorter (haccepts : token.Accepts piece)
    (hseg : token.isSegments = false) (hplain : ∀ v, token ≠ .placeholder v .encoded)
    (htext : ∀ v, token.var? = some v → v.effective params = Percent.decode piece) :
    token.expand params = piece ∨ Text.width (token.expand params) < Text.width piece := by
  have hshorter := Percent.decode_eq_self_or_shorter piece
  cases token with
  | literal text => exact .inl haccepts.symm
  | placeholder v m =>
    cases m with
    | plain =>
      rw [← htext v rfl] at hshorter
      exact hshorter
    | encoded => exact absurd rfl (hplain v)
  | wildcard v form =>
    cases form with
    | remainder =>
      rw [← htext v rfl] at hshorter
      exact hshorter
    | segments => cases hseg

end Token

namespace Pattern

variable {tokens : List Token} {pieces : List Text} {path : Text} {params : Params}

/-! ## A whole path -/

theorem IsCutting.accepts (h : IsCutting tokens pieces path) {token : Token} {piece : Text}
    (hstep : (token, piece) ∈ tokens.zip pieces) : token.Accepts piece := by
  induction h with
  | nil => cases hstep
  | cons haccepts hrest ih =>
    rcases List.mem_cons.mp hstep with hstep | hstep
    · obtain ⟨rfl, rfl⟩ := Prod.mk.inj hstep
      exact haccepts
    · exact ih hstep

/-- Tokens that are expanded to their pieces are expanded to the path. -/
theorem IsCutting.expand_eq_self (h : IsCutting tokens pieces path)
    (hall : ∀ token piece, (token, piece) ∈ tokens.zip pieces → token.expand params = piece) :
    tokens.flatMap (Token.expand params) = path := by
  induction h with
  | nil => rfl
  | @cons token tokens piece pieces rest haccepts hrest ih =>
    have hpiece := hall token piece List.mem_cons_self
    rw [List.flatMap_cons, hpiece, ih fun t p hstep => hall t p (List.mem_cons_of_mem _ hstep)]

/-- Tokens that are expanded to their pieces or to less are expanded to less than the path, unless
each of them is expanded to its piece. -/
theorem IsCutting.expand_shorter (h : IsCutting tokens pieces path)
    (hall : ∀ token piece, (token, piece) ∈ tokens.zip pieces →
      token.expand params = piece ∨ Text.width (token.expand params) < Text.width piece) :
    (∀ token piece, (token, piece) ∈ tokens.zip pieces → token.expand params = piece) ∨
      Text.width (tokens.flatMap (Token.expand params)) < Text.width path := by
  induction h with
  | nil => exact .inl nofun
  | @cons token tokens piece pieces rest haccepts hrest ih =>
    have hhead := hall token piece List.mem_cons_self
    have htail := ih fun t p hstep => hall t p (List.mem_cons_of_mem _ hstep)
    rw [List.flatMap_cons, Text.width_append, Text.width_append]
    rcases htail with heq | hlt
    · rw [hrest.expand_eq_self heq]
      rcases hhead with hpiece | hlt
      · left
        intro t p hstep
        rcases List.mem_cons.mp hstep with hstep | hstep
        · obtain ⟨rfl, rfl⟩ := Prod.mk.inj hstep
          exact hpiece
        · exact heq t p hstep
      · right
        omega
    · right
      have hle : Text.width (token.expand params) ≤ Text.width piece :=
        hhead.elim (fun h => Nat.le_of_eq (congrArg _ h)) Nat.le_of_lt
      omega

/-- Tokens with different variables capture a text for each variable. -/
theorem exists_texts (hvars : (tokens.filterMap Token.var?).Nodup) (pieces : List Text) :
    ∃ text : Variable → Text, ∀ token piece, (token, piece) ∈ tokens.zip pieces →
      ∀ v, token.var? = some v → Percent.decode piece = text v := by
  induction tokens generalizing pieces with
  | nil => exact ⟨fun _ => [], nofun⟩
  | cons token tokens ih =>
    cases pieces with
    | nil => exact ⟨fun _ => [], nofun⟩
    | cons piece pieces =>
      cases hvar : token.var? with
      | none =>
        rw [List.filterMap_cons_none hvar] at hvars
        obtain ⟨text, htext⟩ := ih hvars pieces
        refine ⟨text, fun t q hstep v hv => ?_⟩
        rcases List.mem_cons.mp hstep with hstep | hstep
        · obtain ⟨rfl, rfl⟩ := Prod.mk.inj hstep
          rw [hvar] at hv
          cases hv
        · exact htext t q hstep v hv
      | some w =>
        rw [List.filterMap_cons_some hvar] at hvars
        obtain ⟨hw, hvars⟩ := List.nodup_cons.mp hvars
        obtain ⟨text, htext⟩ := ih hvars pieces
        -- no token behind carries `w` as well, so its text can be set freely
        refine ⟨fun v => if v = w then Percent.decode piece else text v,
          fun t q hstep v hv => ?_⟩
        rcases List.mem_cons.mp hstep with hstep | hstep
        · obtain ⟨rfl, rfl⟩ := Prod.mk.inj hstep
          rw [hvar] at hv
          exact (if_pos (Option.some.inj hv).symm).symm
        · have hmem : v ∈ tokens.filterMap Token.var? :=
            List.mem_filterMap.mpr ⟨t, (List.of_mem_zip hstep).1, hv⟩
          have hne : v ≠ w := fun heq => hw (heq ▸ hmem)
          exact (htext t q hstep v hv).trans (if_neg hne).symm

section

variable {p : Pattern} (hnames : (p.template.vars.map Variable.name).Nodup)
  (hseg : ∀ v, .wildcard v .segments ∉ p.tokens) (hpieces : p.captures path = some pieces)

include hnames hseg hpieces

/-- **A resolution without resolvers** gives every variable the decoded text of its piece. -/
theorem effective_resolveDefault {token : Token} {piece : Text}
    (hstep : (token, piece) ∈ p.tokens.zip pieces) {v : Variable} (hvar : token.var? = some v) :
    v.effective (Params.ofMembers (p.resolveDefault path).values) = Percent.decode piece := by
  obtain ⟨text, htext⟩ := exists_texts (List.Nodup.of_map _ hnames) pieces
  have hlast : Resolution.LastTexts (p.tokens.zip pieces) p.template.vars text :=
    lastTexts_of_captures hnames hpieces fun t q hmem w hw =>
      ⟨Token.isSegments_eq_false hseg (List.of_mem_zip hmem).1, htext t q hmem w hw⟩
  have houtcome : Resolution.IsOutcome .empty (p.tokens.zip pieces) (p.resolveDefault path) :=
    isOutcome_resolve .empty hpieces
  have hv : v ∈ p.template.vars :=
    List.mem_filterMap.mpr ⟨token, (List.of_mem_zip hstep).1, hvar⟩
  have hvalue : (p.resolveDefault path).get? v.name = some (.string (text v)) := by
    rw [houtcome.get?_eq_resolverOf hlast hnames hv, Binder.resolverOf_empty]
  have hparam : Params.ofMembers (p.resolveDefault path).values v.name = some (text v) := by
    show ((p.resolveDefault path).get? v.name).bind Json.pathText? = _
    rw [hvalue]
    rfl
  rw [Variable.effective, hparam, htext token piece hstep v hvar]
  rfl

/-- Every piece comes out again if it is canonical. -/
theorem expand_piece_iff {token : Token} {piece : Text}
    (hstep : (token, piece) ∈ p.tokens.zip pieces) :
    token.expand (Params.ofMembers (p.resolveDefault path).values) = piece ↔
      token.IsCanonical piece := by
  have hcutting := (captures_eq_some_iff.mp hpieces).cutting
  have hsingle := Token.isSegments_eq_false hseg (List.of_mem_zip hstep).1
  exact Token.expand_eq_self_iff (hcutting.accepts hstep) hsingle
    fun v hvar => effective_resolveDefault hnames hseg hpieces hstep hvar

/-- Where no token encodes, all pieces are canonical or less than the path comes out. -/
theorem canonical_or_shorter (hplain : ∀ v, .placeholder v .encoded ∉ p.tokens) :
    (∀ token piece, (token, piece) ∈ p.tokens.zip pieces → token.IsCanonical piece) ∨
      Text.width (p.template.expand (Params.ofMembers (p.resolveDefault path).values)) <
        Text.width path := by
  have hcutting := (captures_eq_some_iff.mp hpieces).cutting
  have hpiece : ∀ token piece, (token, piece) ∈ p.tokens.zip pieces →
      token.expand (Params.ofMembers (p.resolveDefault path).values) = piece ∨
      Text.width (token.expand (Params.ofMembers (p.resolveDefault path).values)) <
        Text.width piece := by
    intro token piece hstep
    have hmem : token ∈ p.tokens := (List.of_mem_zip hstep).1
    have hencoded : ∀ v, token ≠ .placeholder v .encoded := fun v heq => hplain v (heq ▸ hmem)
    exact Token.expand_eq_self_or_shorter (hcutting.accepts hstep)
      (Token.isSegments_eq_false hseg hmem) hencoded
      fun v hvar => effective_resolveDefault hnames hseg hpieces hstep hvar
  refine (hcutting.expand_shorter hpiece).imp_left fun hall token piece hstep => ?_
  exact (expand_piece_iff hnames hseg hpieces hstep).mp (hall token piece hstep)

end

/-- **Expanding undoes resolving where the pieces are canonical.**  Let a path that a template
matches be resolved without resolvers, and the template be expanded with the values; the variables
of the template have distinct names, and none of them is given a list of segments.  If every piece
of the path is canonical, the path comes out again.  If no token encodes, it comes out only then: as
soon as decoding changes what a variable captured, what comes out is shorter than the path. -/
theorem expand_resolveDefault (p : Pattern) {path : Text}
    (hnames : (p.template.vars.map Variable.name).Nodup)
    (hseg : ∀ v, .wildcard v .segments ∉ p.tokens) (hmatch : p.matchesPath path = true) :
    ∃ pieces, p.captures path = some pieces ∧
      let again := p.template.expand (Params.ofMembers (p.resolveDefault path).values)
      ((∀ token piece, (token, piece) ∈ p.tokens.zip pieces → token.IsCanonical piece) →
        again = path) ∧
      ((∀ v, .placeholder v .encoded ∉ p.tokens) →
        (again = path ↔
          ∀ token piece, (token, piece) ∈ p.tokens.zip pieces → token.IsCanonical piece) ∧
        ((∃ token piece, (token, piece) ∈ p.tokens.zip pieces ∧ token.isLiteral = false ∧
            Percent.decode piece ≠ piece) →
          Text.width again < Text.width path)) := by
  obtain ⟨pieces, hpieces⟩ := matchesPath_iff_captures.mp hmatch
  have hcutting := (captures_eq_some_iff.mp hpieces).cutting
  refine ⟨pieces, hpieces, ?_⟩
  intro again
  have hagain : (∀ token piece, (token, piece) ∈ p.tokens.zip pieces →
      token.IsCanonical piece) → again = path := by
    intro hall
    exact hcutting.expand_eq_self fun token piece hstep =>
      (expand_piece_iff hnames hseg hpieces hstep).mpr (hall token piece hstep)
  refine ⟨hagain, fun hplain => ?_⟩
  have hshorter := canonical_or_shorter hnames hseg hpieces hplain
  refine ⟨⟨fun heq => ?_, hagain⟩, ?_⟩
  · have hwidth : Text.width again = Text.width path := congrArg Text.width heq
    exact hshorter.resolve_right (Nat.not_lt.mpr (Nat.le_of_eq hwidth.symm))
  · rintro ⟨token, piece, hstep, hliteral, hne⟩
    have hencoded : ∀ v, token ≠ .placeholder v .encoded :=
      fun v heq => hplain v (heq ▸ (List.of_mem_zip hstep).1)
    refine hshorter.resolve_left fun hall => hne ?_
    exact (Token.isCanonical_iff hliteral hencoded).mp (hall token piece hstep)

/-- A path with an escape comes out again from a token that encodes, and shorter from one that does
not. -/
theorem expand_resolveDefault_escape :
    ∃ p q path, compile (Text.ofString "/\x7ba|encode\x7d/\x7bb*\x7d") = .ok p ∧
      compile (Text.ofString "/\x7ba\x7d/\x7bb*\x7d") = .ok q ∧
      p.matchesPath path = true ∧ q.matchesPath path = true ∧
      p.template.expand (Params.ofMembers (p.resolveDefault path).values) = path ∧
      Text.width (q.template.expand (Params.ofMembers (q.resolveDefault path).values)) <
        Text.width path := by
  let a : Variable := ⟨['a'], none, none⟩
  let b : Variable := ⟨['b'], none, none⟩
  let p : Pattern := .of ⟨Text.ofString "/\x7ba|encode\x7d/\x7bb*\x7d",
    [.literal ['/'], .placeholder a .encoded, .literal ['/'], .wildcard b .remainder]⟩
  let q : Pattern := .of ⟨Text.ofString "/\x7ba\x7d/\x7bb*\x7d",
    [.literal ['/'], .placeholder a .plain, .literal ['/'], .wildcard b .remainder]⟩
  let path := Text.ofString "/%C3%A9/x//y"
  let escape := Text.ofString "%C3%A9"
  let cut : List Text := [['/'], escape, ['/'], ['x', '/', '/', 'y']]
  have hp : p.captures path = some cut := by decide +kernel
  have hq : q.captures path = some cut := by decide +kernel
  have hmatchp : p.matchesPath path = true := matchesPath_iff_captures.mpr ⟨cut, hp⟩
  have hmatchq : q.matchesPath path = true := matchesPath_iff_captures.mpr ⟨cut, hq⟩
  obtain ⟨pieces, hpieces, hcanonical, -⟩ :=
    expand_resolveDefault p (by decide) (by simp [p, tokens]) hmatchp
  obtain ⟨pieces', hpieces', -, hshorter⟩ :=
    expand_resolveDefault q (by decide) (by simp [q, tokens]) hmatchq
  obtain rfl : cut = pieces := Option.some.inj (hp.symm.trans hpieces)
  obtain rfl : cut = pieces' := Option.some.inj (hq.symm.trans hpieces')
  have hall : ∀ step ∈ p.tokens.zip cut, step.1.IsCanonical step.2 := by decide +kernel
  have hne : Percent.decode escape ≠ escape := by decide +kernel
  refine ⟨p, q, path, rfl, rfl, hmatchp, hmatchq,
    hcanonical fun token piece hstep => hall _ hstep,
    (hshorter (by simp [q, tokens])).2 ⟨.placeholder a .plain, escape, ?_, rfl, hne⟩⟩
  exact List.mem_cons_of_mem _ List.mem_cons_self

end Pattern

end UriRouting
