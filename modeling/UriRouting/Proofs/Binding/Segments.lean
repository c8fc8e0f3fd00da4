/-
# UriRouting.Proofs.Binding.Segments — when a captured list of segments is an error

No resolver takes a list, so a segments wildcard is meant to make the outcome an error.  Captures are
kept by variable, though, and a later token of the same name and declared type replaces what an
earlier one captured.  So a segments wildcard counts only while no token behind it carries its
variable (`HasLastSegments`).  Where one counts, no path is resolved, whatever the binder does
(`status_eq_error_iff`); where each is replaced, the list is gone without a trace.
-/
import UriRouting.Proofs.Binding.Resolution

namespace UriRouting

/-- **`HasLastSegments tokens`** — some segments wildcard is the last of the tokens that carry its
variable. -/
def HasLastSegments (tokens : List Token) : Prop :=
  ∃ before v after, tokens = before ++ .wildcard v .segments :: after ∧
    ∀ token ∈ after, ¬ token.Carries v.key

theorem Token.exists_of_isSegments {token : Token} (h : token.isSegments = true) :
    ∃ v, token = .wildcard v .segments := by
  cases token with
  | literal text => cases h
  | placeholder v m => cases h
  | wildcard v form =>
    cases form with
    | remainder => cases h
    | segments => exact ⟨v, rfl⟩

namespace Captures

variable {tokens : List Token} {pieces : List Text} {key : Text × Option Text} {token : Token}

/-- Which token is the last of a variable does not depend on the pieces. -/
theorem exists_isLast_zip_iff (hlength : pieces.length = tokens.length) :
    (∃ piece, IsLast (tokens.zip pieces) key token piece) ↔
      ∃ before after, tokens = before ++ token :: after ∧ token.Carries key ∧
        ∀ other ∈ after, ¬ other.Carries key := by
  constructor
  · rintro ⟨piece, before, after, hsteps, hcarries, hafter⟩
    have htokens : tokens = (before ++ (token, piece) :: after).map Prod.fst := by
      rw [← hsteps, List.map_fst_zip (Nat.le_of_eq hlength.symm)]
    refine ⟨before.map Prod.fst, after.map Prod.fst, by simpa using htokens, hcarries, ?_⟩
    intro other hother
    obtain ⟨step, hstep, rfl⟩ := List.mem_map.mp hother
    exact hafter step hstep
  · rintro ⟨before, after, rfl, hcarries, hafter⟩
    -- the pieces are cut where the tokens are
    rw [List.length_append, List.length_cons] at hlength
    have hback : (pieces.drop before.length).length = after.length + 1 := by
      rw [List.length_drop]
      omega
    obtain ⟨piece, rest, hdrop⟩ := List.exists_cons_of_length_eq_add_one hback
    have hsteps : (before ++ token :: after).zip pieces =
        before.zip (pieces.take before.length) ++ (token, piece) :: after.zip rest := by
      have hfront : before.length = (pieces.take before.length).length := by
        rw [List.length_take]
        omega
      conv_lhs => rw [← List.take_append_drop before.length pieces, hdrop]
      rw [List.zip_append hfront, List.zip_cons_cons]
    refine ⟨piece, _, _, hsteps, hcarries, ?_⟩
    intro step hstep
    exact hafter step.1 (List.of_mem_zip hstep).1

end Captures

namespace Pattern

variable {p : Pattern} {b : Binder} {path : Text}

/-- **A resolution is an error** exactly if the path does not match or a segments wildcard is the last
token of its variable. -/
theorem status_eq_error_iff :
    (p.resolve b path).status = .error ↔
      p.matchesPath path = false ∨ HasLastSegments p.tokens := by
  cases hcaptures : p.captures path with
  | none =>
    have hmatch : p.matchesPath path = false := by simp [matchesPath_eq_isSome, hcaptures]
    rw [resolve_of_captures_eq_none b hcaptures]
    exact iff_of_true rfl (.inl hmatch)
  | some pieces =>
    have hmatch : ¬ p.matchesPath path = false := by simp [matchesPath_eq_isSome, hcaptures]
    have hlength := length_of_captures_eq_some hcaptures
    rw [(isOutcome_resolve b hcaptures).error_iff, or_iff_right hmatch]
    constructor
    · rintro ⟨key, token, piece, hlast, hsegments⟩
      obtain ⟨v, rfl⟩ := Token.exists_of_isSegments hsegments
      obtain ⟨before, after, htokens, hcarries, hafter⟩ :=
        (Captures.exists_isLast_zip_iff hlength).mp ⟨piece, hlast⟩
      obtain rfl : v.key = key := Option.some.inj hcarries
      exact ⟨before, v, after, htokens, hafter⟩
    · rintro ⟨before, v, after, htokens, hafter⟩
      have hcarries : (Token.wildcard v .segments).Carries v.key := rfl
      obtain ⟨piece, hlast⟩ :=
        (Captures.exists_isLast_zip_iff hlength).mpr ⟨before, after, htokens, hcarries, hafter⟩
      exact ⟨v.key, _, piece, hlast, rfl⟩

/-- Where variables are not repeated, every segments wildcard is the last token of its own. -/
theorem hasLastSegments_of_nodup {tokens : List Token} {v : Variable}
    (hkeys : ((tokens.filterMap Token.var?).map Variable.key).Nodup)
    (h : .wildcard v .segments ∈ tokens) : HasLastSegments tokens := by
  obtain ⟨before, after, rfl⟩ := List.append_of_mem h
  refine ⟨before, v, after, rfl, fun token htoken hcarries => ?_⟩
  obtain ⟨w, hw, hkey⟩ := Option.map_eq_some_iff.mp hcarries
  have hmem : v.key ∈ (after.filterMap Token.var?).map Variable.key := by
    rw [← hkey]
    exact List.mem_map_of_mem (List.mem_filterMap.mpr ⟨token, htoken, hw⟩)
  rw [List.filterMap_append, List.map_append, List.nodup_append] at hkeys
  exact (List.nodup_cons.mp hkeys.2.1).1 hmem

/-- **Lists of segments are never accepted while they are kept.**  Of the paths that match, a template
makes every one an error, whatever the binder, if some segments wildcard of it is replaced by no
later token of the same name and declared type, and else none.  So a segments wildcard makes every
path an error where no variable is repeated. -/
theorem resolve_segments_error (p : Pattern) :
    (∀ b path, (p.resolve b path).status = .error ↔
      p.matchesPath path = false ∨ HasLastSegments p.tokens) ∧
    ((p.template.vars.map Variable.key).Nodup → (∃ v, .wildcard v .segments ∈ p.tokens) →
      ∀ b path, (p.resolve b path).status = .error) := by
  refine ⟨fun b path => status_eq_error_iff, ?_⟩
  rintro hkeys ⟨v, hv⟩ b path
  exact status_eq_error_iff.mpr (.inr (hasLastSegments_of_nodup hkeys hv))

/-- A variable of the same name and another type does not replace the list. -/
theorem resolve_segments_error_typed :
    ∃ p, compile (Text.ofString "\x7b/a*\x7d/\x7bint:a\x7d") = .ok p ∧
      p.matchesPath (Text.ofString "/x/7") = true ∧
      (p.resolve .builtin (Text.ofString "/x/7")).status = .error := by
  let untyped : Variable := ⟨['a'], none, none⟩
  let typed : Variable := ⟨['a'], some ['i', 'n', 't'], none⟩
  let p : Pattern := .of ⟨Text.ofString "\x7b/a*\x7d/\x7bint:a\x7d",
    [.wildcard untyped .segments, .literal ['/'], .placeholder typed .plain]⟩
  have hsegments : ∃ v, .wildcard v .segments ∈ p.tokens := ⟨untyped, List.mem_cons_self⟩
  have herror := (resolve_segments_error p).2 (by decide) hsegments .builtin
  exact ⟨p, rfl, by decide, herror (Text.ofString "/x/7")⟩

/-- A placeholder behind a segments wildcard of the same variable replaces its list, and the path is
resolved. -/
theorem resolve_segments_replaced :
    ∃ p v, compile (Text.ofString "\x7b/a*\x7d\x7ba\x7d") = .ok p ∧
      .wildcard v .segments ∈ p.tokens ∧
      p.resolve .empty (Text.ofString "/x") = ⟨.resolved, [(['a'], .string ['x'])]⟩ :=
  ⟨.of ⟨Text.ofString "\x7b/a*\x7d\x7ba\x7d",
      [.wildcard ⟨['a'], none, none⟩ .segments, .placeholder ⟨['a'], none, none⟩ .plain]⟩,
    ⟨['a'], none, none⟩, rfl, List.mem_cons_self, rfl⟩

end Pattern

end UriRouting
