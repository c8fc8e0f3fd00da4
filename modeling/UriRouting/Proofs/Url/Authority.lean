/-
# UriRouting.Proofs.Url.Authority — host and port are read back

An authority that was read with a host has a well-formed one, and no port beyond the largest
(`isFormed_of_authority`).  Written without a user it is read back (`authority_render`): the host
ends where the port starts, and the digits of the port have its value.
-/
import UriRouting.Proofs.Url.Host

namespace UriRouting.Url

variable {kind : Kind} {followed : Bool} {h : Host} {p : Option Nat} {rest s : Text}

/-- **`portText p`** — a port as it is written behind a host. -/
def portText : Option Nat → Text
  | none => []
  | some n => ':' :: Text.Decimal.ofNat n

theorem portText_head? (p : Option Nat) : portText p = [] ∨ (portText p).head? = some ':' := by
  cases p with
  | none => exact .inl rfl
  | some n => exact .inr rfl

theorem mem_portText {c : Char} (hc : c ∈ portText p) : IsVisible c ∧ c ∉ Host.marks := by
  cases p with
  | none => exact absurd hc List.not_mem_nil
  | some n =>
    rcases List.mem_cons.mp hc with rfl | hdigit
    · decide
    · have halnum := Text.isAlphanum_of_isDigit (Text.Decimal.isDigit_of_mem_ofNat hdigit)
      exact ⟨isVisible_of_isAlphanum halnum, Text.not_mem_of_isAlphanum (by decide) halnum⟩

/-! ## What was read -/

theorem le_of_portAt {n : Nat} (hs : portAt s = .ok (some n, rest)) : n ≤ portLimit := by
  unfold portAt at hs
  generalize s.span Char.isDigit = cut at hs
  obtain ⟨digits, after⟩ := cut
  dsimp only at hs
  split at hs
  · cases hs
  · next hlimit =>
    have hdigits : ∀ tail : Text, (.ok (if digits = [] then none
        else some (Text.Decimal.value 0 digits), tail) : Except UrlError (Option Nat × Text)) =
        .ok (some n, rest) → n ≤ portLimit := by
      intro tail heq
      obtain ⟨hport, -⟩ := Prod.mk.inj (Except.ok.inj heq)
      split at hport
      · cases hport
      · obtain rfl := Option.some.inj hport
        omega
    split at hs
    · exact hdigits _ hs
    · exact hdigits _ hs
    · cases hs

/-- **The host and the port of an authority that was read.** -/
theorem isFormed_of_authority [idna : Idna] (hidna : idna.IsLawful) {a : Authority}
    (hs : authority kind followed s = .ok a) (hhost : a.host = some h) :
    h.IsFormed kind.isSpecial ∧ ∀ n, a.port = some n → n ≤ portLimit := by
  unfold authority at hs
  obtain ⟨⟨user, t⟩, -, hs⟩ := bind_eq_ok_iff.mp hs
  obtain ⟨name, hname, hs⟩ := bind_eq_ok_iff.mp hs
  dsimp only at hname hs
  split at hs
  · cases hs
  · obtain ⟨⟨p, tail⟩, hport, hs⟩ := bind_eq_ok_iff.mp hs
    obtain rfl := Except.ok.inj hs
    dsimp only at hhost
    subst hhost
    refine ⟨Host.isFormed_of_hostAt hidna hname, fun n hn => ?_⟩
    obtain rfl : p = some n := hn
    exact le_of_portAt hport
  · split at hs
    · cases hs
    · obtain rfl := Except.ok.inj hs
      cases hhost
  · obtain rfl := Except.ok.inj hs
    dsimp only at hhost
    subst hhost
    exact ⟨Host.isFormed_of_hostAt hidna hname, fun n hn => nomatch hn⟩

/-! ## Reading what was written -/

theorem portAt_ofNat {n : Nat} (hn : n ≤ portLimit) :
    portAt (Text.Decimal.ofNat n) = .ok (some n, []) := by
  have hspan : (Text.Decimal.ofNat n).span Char.isDigit = (Text.Decimal.ofNat n, []) := by
    have hrun := Text.span_run (r := []) (fun c => Text.Decimal.isDigit_of_mem_ofNat (n := n)) rfl
    rwa [List.append_nil] at hrun
  unfold portAt
  rw [hspan]
  dsimp only
  rw [Text.Decimal.value_ofNat, if_neg (by omega), if_neg (Text.Decimal.ofNat_ne_nil n)]

/-- **A host and a port are read back.** -/
theorem authority_render [idna : Idna] (hidna : idna.IsLawful)
    (hh : h.IsFormed kind.isSpecial) (hp : ∀ n, p = some n → n ≤ portLimit) :
    authority kind followed (h.render ++ portText p) = .ok ⟨some h, p, []⟩ := by
  have hat : '@' ∉ h.render ++ portText p := by
    intro hmem
    rcases List.mem_append.mp hmem with hhost | hport
    · exact (Host.mem_render hh hhost).2 (by decide)
    · exact (mem_portText hport).2 (by decide)
  have huser : withoutUser followed (h.render ++ portText p) =
      .ok (false, h.render ++ portText p) := by
    rw [withoutUser, Text.cutAtLast_eq_none hat]
  refine bind_eq_ok_iff.mpr ⟨_, huser, ?_⟩
  dsimp only
  rw [hostText_render hh (portText_head? p)]
  refine bind_eq_ok_iff.mpr ⟨some h, hostAt_render hidna hh, ?_⟩
  cases p with
  | none => rfl
  | some n => exact bind_eq_ok_iff.mpr ⟨_, portAt_ofNat (hp n rfl), rfl⟩

end UriRouting.Url
