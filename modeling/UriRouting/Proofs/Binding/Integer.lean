/-
# UriRouting.Proofs.Binding.Integer — integer variables are exact

The resolver of integers takes the texts that write an integer of 64 bits and no other: both ends of
the range are tight, and no value wraps around.  The JSON form of such an integer is one of these
texts.  It is made of digits and perhaps a minus sign, so that neither encoding nor a slash can come
in the way; where it stands between literals it is the only thing that can be captured there, and an
integer variable is resolved to the number that it was expanded with.
-/
import UriRouting.Proofs.Binding.RoundTrip
import UriRouting.Proofs.Text.Decimal

namespace UriRouting

open Text (Decimal.Writes Decimal.InSigned64)

theorem Text.Decimal.inSigned64_iff {n : Int} :
    InSigned64 n ↔ -2 ^ 63 ≤ n ∧ n ≤ 2 ^ 63 - 1 := by
  unfold InSigned64
  omega

namespace Resolver

/-- **Integers are exact.**  The resolver takes a text exactly if it writes an integer of 64 bits,
and its value is that integer. -/
theorem integer_eq_some_iff {raw : Text} {value : Json} :
    integer raw = some value ↔
      ∃ n : Int, value = .int n ∧ Decimal.Writes raw n ∧ -2 ^ 63 ≤ n ∧ n ≤ 2 ^ 63 - 1 := by
  simp only [integer, Option.map_eq_some_iff, Text.Decimal.signed64?_eq_some_iff,
    Text.Decimal.inSigned64_iff]
  constructor
  · rintro ⟨n, hn, rfl⟩
    exact ⟨n, rfl, hn⟩
  · rintro ⟨n, rfl, hn⟩
    exact ⟨n, hn, rfl⟩

end Resolver

/-! ## A single capture -/

namespace Pattern

variable {tokens : List Token} {v : Variable} {m : Modifier}

/-- Between literals a single placeholder is unambiguous. -/
theorem unambiguous_of_single (h : tokens.filter (fun t => !t.isLiteral) = [.placeholder v m]) :
    Unambiguous tokens := by
  have hcapture : ∀ t ∈ tokens, t.isLiteral = false → t = .placeholder v m := by
    intro t ht hliteral
    exact (isLiteral_or_eq_of_single h ht).resolve_left (by simp [hliteral])
  refine ⟨?_, ?_, ?_⟩
  · intro w hw
    exact absurd (hcapture _ hw rfl) nofun
  · intro before w after htokens
    have hw : .wildcard w .remainder ∈ tokens := by simp [htokens]
    exact absurd (hcapture _ hw rfl) nofun
  · intro before a between b after htokens ha hb
    -- the two captures would be two tokens that are no literals
    have hlength := congrArg List.length h
    simp [htokens, List.filter_append, ha, hb] at hlength
    omega

/-- The variables of a template with a single capture. -/
theorem vars_of_single (h : tokens.filter (fun t => !t.isLiteral) = [.placeholder v m]) :
    tokens.filterMap Token.var? = [v] := by
  have hvars : (tokens.filter fun t => !t.isLiteral).filterMap Token.var? =
      tokens.filterMap Token.var? := by
    rw [List.filterMap_filter]
    congr 1
    funext t
    cases t <;> rfl
  rw [← hvars, h]
  rfl

open Resolution in
/-- A single placeholder that is given a text it admits is resolved to what the binder has for this
text, and nothing else is bound. -/
theorem resolve_expand_single {p : Pattern} {b : Binder} {params : Params} {value : Json}
    (h : p.tokens.filter (fun t => !t.isLiteral) = [.placeholder v m])
    (hadmits : (Token.placeholder v m).Admits params)
    (hvalue : b.resolverOf v.name v.type (v.effective params) = some value) :
    (p.resolve b (p.template.expand params)).status = .resolved ∧
      ∀ name, (p.resolve b (p.template.expand params)).get? name =
        if name = v.name then some value else none := by
  have hcut := unambiguous_of_single h
  have hvars : p.template.vars = [v] := vars_of_single h
  have hnames : (p.template.vars.map Variable.name).Nodup := by simp [hvars]
  have hall : ∀ token ∈ p.tokens, token.Admits params := by
    intro token hmem
    rcases isLiteral_or_eq_of_single h hmem with hliteral | rfl
    · exact Token.admits_of_isLiteral hliteral
    · exact hadmits
  have houtcome := isOutcome_resolve b (captures_expand hcut hall)
  have hlast := lastTexts_expand hnames hcut hall
  refine ⟨(houtcome.resolved_iff_forall hlast).mpr fun w hw => ?_, fun name => ?_⟩
  · rw [hvars, List.mem_singleton] at hw
    rw [hw, hvalue]
    rfl
  · split
    · next hname =>
      rw [hname, houtcome.get?_eq_resolverOf hlast hnames (by simp [hvars]), hvalue]
    · next hname =>
      refine Option.eq_none_iff_forall_ne_some.mpr fun other hother => hname ?_
      obtain ⟨w, hw, hwname⟩ := houtcome.exists_of_get?_eq_some hlast hother
      rw [hvars, List.mem_singleton] at hw
      rw [← hwname, hw]

end Pattern

/-! ## Integers in a path -/

section Integers

variable {v : Variable} {members : List (Text × Json)} {n : Int}

/-- A variable that is given an integer takes its decimal text. -/
theorem Variable.effective_int (h : members.lookup v.name = some (.int n)) :
    v.effective (Params.ofMembers members) = Text.Decimal.ofInt n := by
  have hgiven : Params.ofMembers members v.name = some (Text.Decimal.ofInt n) := by
    rw [Params.ofMembers, h]
    rfl
  rw [Variable.effective, hgiven]
  rfl

/-- Digits and a minus sign are ASCII, no slash and no percent sign. -/
theorem Text.Decimal.ascii_of_mem_ofInt {c : Char} (h : c ∈ Text.Decimal.ofInt n) :
    c.toNat < 0x80 ∧ c ≠ '%' ∧ c ≠ '/' := by
  rcases Text.Decimal.mem_ofInt h with rfl | hdigit
  · decide
  · rw [Char.isDigit_iff_toNat] at hdigit
    refine ⟨by have := hdigit.2; change c.toNat ≤ 57 at this; omega, ?_, ?_⟩ <;>
    · rintro rfl
      exact absurd hdigit (by decide)

/-- Any placeholder admits the decimal text of an integer. -/
theorem Token.admits_int (m : Modifier) (h : members.lookup v.name = some (.int n)) :
    (Token.placeholder v m).Admits (Params.ofMembers members) := by
  have hne := Text.Decimal.ofInt_ne_nil n
  cases m with
  | plain =>
    rw [Token.Admits, Variable.effective_int h]
    refine ⟨hne, fun hslash => (Text.Decimal.ascii_of_mem_ofInt hslash).2.2 rfl, ?_⟩
    rw [Percent.decode, Percent.decode?_eq_self fun c hc => ?_]
    · rfl
    · obtain ⟨hascii, hpercent, -⟩ := Text.Decimal.ascii_of_mem_ofInt hc
      exact ⟨hascii, hpercent⟩
  | encoded =>
    rw [Token.Admits, Variable.effective_int h]
    exact hne

/-- The binder that knows types by their names has the resolver of integers for the type `int`. -/
theorem Binder.resolverOf_builtin_int (name : Text) :
    Binder.builtin.resolverOf name (some (Text.ofString "int")) = Resolver.integer := rfl

end Integers

/-- **Integers are exact, and come back.**  The resolver of integers takes exactly the texts of at
most one sign and one or more ASCII digits whose value is an integer of 64 bits, and gives that
integer; every other text has no value.  So a template whose only capture is a placeholder of type
`int`, encoded or not, is expanded with such an integer to a path that is resolved to it. -/
theorem integer_exact :
    (∀ raw value, Resolver.integer raw = some value ↔
      ∃ n : Int, value = .int n ∧ Decimal.Writes raw n ∧ -2 ^ 63 ≤ n ∧ n ≤ 2 ^ 63 - 1) ∧
    ∀ (p : Pattern) (v : Variable) (m : Modifier) (members : List (Text × Json)) (n : Int),
      p.tokens.filter (fun t => !t.isLiteral) = [.placeholder v m] →
      v.type = some (Text.ofString "int") → members.lookup v.name = some (.int n) →
      -2 ^ 63 ≤ n → n ≤ 2 ^ 63 - 1 →
      (p.resolve .builtin (p.template.expand (Params.ofMembers members))).status = .resolved ∧
      ∀ name, (p.resolve .builtin (p.template.expand (Params.ofMembers members))).get? name =
        if name = v.name then some (.int n) else none := by
  refine ⟨fun raw value => Resolver.integer_eq_some_iff, ?_⟩
  intro p v m members n hsingle htype hgiven hmin hmax
  refine Pattern.resolve_expand_single hsingle (Token.admits_int m hgiven) ?_
  rw [htype, Binder.resolverOf_builtin_int, Variable.effective_int hgiven]
  exact Resolver.integer_eq_some_iff.mpr ⟨n, rfl, Text.Decimal.writes_ofInt n, hmin, hmax⟩

/-- The least integer of 64 bits, which has no positive counterpart, between literals. -/
theorem integer_exact_least :
    ∃ (p : Pattern) (params : Params),
      Pattern.compile (Text.ofString "/x/{int:id|encode}.json") = .ok p ∧
      p.template.expand params = Text.ofString "/x/-9223372036854775808.json" ∧
      (p.resolve .builtin (Text.ofString "/x/-9223372036854775808.json")).status = .resolved ∧
      (p.resolve .builtin (Text.ofString "/x/-9223372036854775808.json")).get? ['i', 'd'] =
        some (.int (-9223372036854775808)) ∧
      Resolver.integer (Text.ofString "9223372036854775808") = none := by
  let v : Variable := ⟨['i', 'd'], some (Text.ofString "int"), none⟩
  let p : Pattern := .of ⟨Text.ofString "/x/{int:id|encode}.json",
    [.literal ['/', 'x', '/'], .placeholder v .encoded, .literal ['.', 'j', 's', 'o', 'n']]⟩
  let members : List (Text × Json) := [(['i', 'd'], .int (-9223372036854775808))]
  have hexpand : p.template.expand (Params.ofMembers members) =
      Text.ofString "/x/-9223372036854775808.json" := by decide
  obtain ⟨hstatus, hvalue⟩ := integer_exact.2 p v .encoded members (-9223372036854775808) rfl rfl
    rfl (by decide) (by decide)
  rw [hexpand] at hstatus hvalue
  exact ⟨p, Params.ofMembers members, rfl, hexpand, hstatus, hvalue ['i', 'd'], by decide⟩

end UriRouting
