/-
# UriRouting.Proofs.Url.Host — a host is read back

What is read as a host is well-formed (`IsFormed`): a name has characters, all of them allowed in it;
on the Internet it is also its own form in ASCII and does not end in a number, and an address has its
size.  A well-formed host is read back from its text (`hostAt_render`), since nothing in a name is left
to decode or to escape, and since neither a name nor an IPv4 address starts like an address in brackets.
The text is visible ASCII and has none of the marks that end a host; a colon stands in it only
between brackets, so the host ends where its port starts (`hostText_render`).

Of the conversion to ASCII nothing is used but its laws (`Idna.IsLawful`), which hold of the one that
knows no name outside ASCII (`Idna.plainOnly_isLawful`).
-/
import UriRouting.Url.Basic
import UriRouting.Proofs.FirstFault
import UriRouting.Proofs.Url.Encoding
import UriRouting.Proofs.Url.Ipv4
import UriRouting.Proofs.Url.Ipv6

namespace UriRouting.Url

variable {special : Bool} {c : Char} {h : Host} {s : Text}

/-! ## Names in ASCII -/

namespace Idna

theorem isVisible_of_not_isForbidden (hc : isForbidden c = false) : IsVisible c := by
  simp only [isForbidden, Bool.or_eq_false_iff, decide_eq_false_iff_not] at hc
  refine isVisible_of_not_isControl hc.1 fun hblank => hc.2 ?_
  rw [hblank]
  exact List.mem_cons_self

theorem isForbidden_toLower (hc : isForbidden c = false) : isForbidden c.toLower = false := by
  have hascii : c.toNat < 0x80 := by
    have := (isVisible_of_not_isForbidden hc).2
    omega
  exact Text.forall_of_ascii (P := fun c => isForbidden c = false → isForbidden c.toLower = false)
    (by decide) hascii hc

theorem lower_lower (t : Text) : Text.lower (Text.lower t) = Text.lower t :=
  Text.lower_eq_self fun c hc => by
    obtain ⟨d, -, rfl⟩ := List.mem_map.mp hc
    exact Text.toLower_toLower d

theorem toLower_eq_dot_iff : c.toLower = '.' ↔ c = '.' := by
  by_cases hascii : c.toNat < 0x80
  · exact Text.forall_of_ascii (P := fun c => c.toLower = '.' ↔ c = '.') (by decide) hascii
  · rw [Text.toLower_of_not_ascii hascii]

/-- Lower case leaves the labels where they are. -/
theorem pieces_lower (t : Text) :
    Text.pieces '.' (Text.lower t) = (Text.pieces '.' t).map Text.lower := by
  induction t with
  | nil => rfl
  | cons c t ih =>
    have hcons : Text.lower (c :: t) = c.toLower :: Text.lower t := rfl
    rw [hcons, Text.pieces, Text.pieces, ih]
    by_cases hc : c = '.'
    · rw [if_pos (toLower_eq_dot_iff.mpr hc), if_pos hc]
      rfl
    · rw [if_neg (mt toLower_eq_dot_iff.mp hc), if_neg hc]
      cases Text.pieces '.' t <;> rfl

theorem isPlain_iff {domain : Text} :
    isPlain domain = true ↔ (∀ c ∈ domain, isForbidden c = false) ∧
      ∀ label ∈ Text.pieces '.' domain, isEncoded label = false := by
  simp [isPlain]

theorem isPlain_lower {domain : Text} (h : isPlain domain = true) :
    isPlain (Text.lower domain) = true := by
  obtain ⟨hchars, hlabels⟩ := isPlain_iff.mp h
  refine isPlain_iff.mpr ⟨fun c hc => ?_, fun label hlabel => ?_⟩
  · obtain ⟨d, hd, rfl⟩ := List.mem_map.mp hc
    exact isForbidden_toLower (hchars d hd)
  · rw [pieces_lower] at hlabel
    obtain ⟨original, horiginal, rfl⟩ := List.mem_map.mp hlabel
    rw [isEncoded, lower_lower]
    exact hlabels original horiginal

/-- The conversion that knows no name outside ASCII keeps the laws. -/
theorem plainOnly_isLawful : plainOnly.IsLawful where
  allowed {domain ascii} h c hc := by
    obtain ⟨hplain, hlower⟩ := Option.ite_none_right_eq_some.mp h
    obtain rfl := Option.some.inj hlower
    exact (isPlain_iff.mp (isPlain_lower hplain)).1 c hc
  idempotent {domain ascii} h := by
    obtain ⟨hplain, hlower⟩ := Option.ite_none_right_eq_some.mp h
    obtain rfl := Option.some.inj hlower
    exact (if_pos (isPlain_lower hplain)).trans (congrArg some (lower_lower domain))
  plain h := if_pos h
  refused {domain} _ h := by
    refine if_neg fun hplain => ?_
    obtain ⟨c, hc, hforbidden⟩ := List.any_eq_true.mp h
    rw [(isPlain_iff.mp hplain).1 c hc] at hforbidden
    cases hforbidden

end Idna

namespace Host

/-- The characters that no name holds, in schemes with a fixed set of rules and in others. -/
def isForbidden (special : Bool) (c : Char) : Bool :=
  if special then Idna.isForbidden c else isForbiddenInName c

/-- **`IsNameChar special c`** — what a character of a name that was read looks like, in schemes with
a fixed set of rules and in others. -/
structure IsNameChar (special : Bool) (c : Char) : Prop where
  visible : IsVisible c
  allowed : isForbidden special c = false

theorem isNameChar_of_digit (hc : c = '.' ∨ c.isDigit = true) : IsNameChar true c := by
  have hascii : c.toNat < 0x80 := by
    rcases hc with rfl | hdigit
    · decide
    · have hrange := Text.toNat_of_isAlphanum (Text.isAlphanum_of_isDigit hdigit)
      omega
  have hchar := Text.forall_of_ascii (P := fun c => c = '.' ∨ c.isDigit = true →
    IsVisible c ∧ isForbidden true c = false) (by decide) hascii hc
  exact ⟨hchar.1, hchar.2⟩

theorem IsNameChar.not_mem (marks : List Char) (hc : IsNameChar special c)
    (hmarks : marks.all (isForbidden special) = true) : c ∉ marks := by
  intro hmem
  have hallowed := hc.allowed
  rw [List.all_eq_true.mp hmarks c hmem] at hallowed
  cases hallowed

variable [idna : Idna]

/-- **`IsFormed special h`** — what a host that was read looks like, in schemes with a fixed set of
rules and in others. -/
def IsFormed (special : Bool) : Host → Prop
  | name text => text ≠ [] ∧ (∀ c ∈ text, IsNameChar special c) ∧
      (special = true → Ipv4.endsInNumber text = false ∧ Idna.toAscii text = some text)
  | ipv4 address => special = true ∧ address < 2 ^ 32
  | ipv6 groups => Ipv6.IsAddress groups

/-! ## What is read is well-formed -/

theorem isFormed_of_bracketed (hs : bracketed s = .ok h) : h.IsFormed special := by
  unfold bracketed at hs
  split at hs
  · next groups hread =>
    obtain ⟨inner, -, hinner⟩ := Option.bind_eq_some_iff.mp hread
    obtain rfl := Except.ok.inj hs
    exact Ipv6.isAddress_of_read hinner
  · cases hs

/-- The form of a name in ASCII is a host. -/
theorem isFormed_of_ofAscii (hidna : idna.IsLawful) {domain : Text}
    (hascii : Idna.toAscii domain = some s) (hs : ofAscii s = .ok h) : h.IsFormed true := by
  unfold ofAscii at hs
  split at hs
  · cases hs
  · next hne =>
    split at hs
    · split at hs
      · next address hread =>
        obtain rfl := Except.ok.inj hs
        exact ⟨rfl, Ipv4.lt_of_read hread⟩
      · cases hs
    · next hname =>
      obtain rfl := Except.ok.inj hs
      refine ⟨hne, fun c hc => ?_, fun _ => ⟨Bool.eq_false_iff.mpr hname, hidna.idempotent hascii⟩⟩
      have hallowed := hidna.allowed hascii c hc
      exact ⟨Idna.isVisible_of_not_isForbidden hallowed, hallowed⟩

theorem isFormed_of_special (hidna : idna.IsLawful) (hs : Host.special s = .ok h) :
    h.IsFormed true := by
  unfold Host.special at hs
  split at hs
  · exact isFormed_of_bracketed hs
  · split at hs
    · cases hs
    · next ascii hascii =>
      obtain ⟨domain, -, hascii⟩ := Option.bind_eq_some_iff.mp hascii
      exact isFormed_of_ofAscii hidna hascii hs

theorem isFormed_of_plain (hne : s ≠ []) (hs : plain s = .ok h) : h.IsFormed false := by
  unfold plain at hs
  split at hs
  · exact isFormed_of_bracketed hs
  · split at hs
    · cases hs
    · next hchars =>
      simp only [List.any_eq_true, not_exists, not_and, Bool.not_eq_true] at hchars
      obtain rfl := Except.ok.inj hs
      refine ⟨Percent.encodeUnless_ne_nil _ hne, fun c hc => ?_, fun hspecial => nomatch hspecial⟩
      rcases Percent.mem_encodeUnless hc with ⟨hmem, hkeep⟩ | rfl | halnum
      · have hallowed := hchars c hmem
        refine ⟨isVisible_of_not_isControl (by simpa using hkeep) ?_, hallowed⟩
        rintro rfl
        exact absurd hallowed (by decide)
      · exact ⟨by decide, by decide⟩
      · exact ⟨isVisible_of_isAlphanum halnum,
          decide_eq_false (Text.not_mem_of_isAlphanum (by decide) halnum)⟩

theorem isFormed_of_hostAt (hidna : idna.IsLawful) {kind : Kind}
    (hs : hostAt kind s = .ok (some h)) : h.IsFormed kind.isSpecial := by
  unfold hostAt at hs
  split at hs
  · split at hs <;> cases hs
  · next hne =>
    obtain ⟨host, hread, hsome⟩ := map_eq_ok_iff.mp hs
    obtain rfl := Option.some.inj hsome
    split at hread
    · next hspecial =>
      rw [hspecial]
      exact isFormed_of_special hidna hread
    · next hspecial =>
      rw [Bool.eq_false_iff.mpr hspecial]
      exact isFormed_of_plain hne hread

/-! ## The text of a host -/

/-- The marks that end an authority, or part it. -/
def marks : List Char := ['#', '/', '?', '@', '\\']

/-- All but the addresses in brackets are written like names. -/
theorem isNameChar_or_ipv6 (hh : h.IsFormed special) :
    (∀ c ∈ h.render, IsNameChar special c) ∨ ∃ groups, h = .ipv6 groups := by
  cases h with
  | name text => exact .inl hh.2.1
  | ipv4 address =>
    obtain ⟨rfl, -⟩ := hh
    exact .inl fun c hc => isNameChar_of_digit (Ipv4.mem_render hc)
  | ipv6 groups => exact .inr ⟨groups, rfl⟩

theorem mem_render (hh : h.IsFormed special) (hc : c ∈ h.render) : IsVisible c ∧ c ∉ marks := by
  rcases isNameChar_or_ipv6 hh with hname | ⟨groups, rfl⟩
  · exact ⟨(hname c hc).visible, (hname c hc).not_mem marks (by cases special <;> decide)⟩
  · simp only [render, List.mem_append, List.mem_singleton] at hc
    rcases hc with (rfl | hinner) | rfl
    · decide
    · rcases Ipv6.mem_render hinner with rfl | hdigit
      · decide
      · have halnum := Text.isAlphanum_of_hexValue hdigit
        exact ⟨isVisible_of_isAlphanum halnum, Text.not_mem_of_isAlphanum (by decide) halnum⟩
    · decide

theorem render_ne_nil (hh : h.IsFormed special) : h.render ≠ [] := by
  cases h with
  | name text => exact hh.1
  | ipv4 address => exact Ipv4.render_ne_nil address
  | ipv6 groups => exact List.cons_ne_nil _ _

/-! ## Reading what was written -/

theorem bracketed_render {groups : List Nat} (hh : (ipv6 groups).IsFormed special) :
    bracketed (Ipv6.render groups ++ [']']) = .ok (.ipv6 groups) := by
  have hstrip : Text.stripLast ']' (Ipv6.render groups ++ [']']) = some (Ipv6.render groups) :=
    Text.stripLast_eq_some_iff.mpr rfl
  rw [bracketed, hstrip, Option.bind_some, Ipv6.read_render hh]

/-- Nothing in the text of a name is left to decode, and it is no address in brackets; this is so
even with a port behind it. -/
theorem special_eq (hchars : ∀ c ∈ s, IsNameChar true c ∨ c = ':') :
    Host.special s =
      match Idna.toAscii s with
      | none => .error .invalidInternetName
      | some ascii => ofAscii ascii := by
  have hmarks : ∀ c ∈ s, (c.toNat < 0x80 ∧ c ≠ '%') ∧ c ≠ '[' := by
    intro c hc
    rcases hchars c hc with hname | rfl
    · have hmem := hname.not_mem ['%', '['] (by decide)
      have hvisible := hname.visible.2
      simp only [List.mem_cons, List.not_mem_nil, or_false, not_or] at hmem
      exact ⟨⟨by omega, hmem.1⟩, hmem.2⟩
    · decide
  unfold Host.special
  split
  · exact absurd rfl (hmarks '[' List.mem_cons_self).2
  · have hname : (Percent.decode? s).bind Idna.toAscii = Idna.toAscii s := by
      rw [Percent.decode?_eq_self fun c hc => (hmarks c hc).1, Option.bind_some]
    exact congrArg (fun name : Option Text =>
      match name with
      | none => (.error .invalidInternetName : Except UrlError Host)
      | some ascii => ofAscii ascii) hname

/-- An address in decimal stands for no name outside ASCII. -/
theorem toAscii_render (hidna : idna.IsLawful) (address : Nat) :
    Idna.toAscii (Ipv4.render address) = some (Ipv4.render address) := by
  have hlower : ∀ c ∈ Ipv4.render address, c.toLower = c := by
    intro c hc
    rcases Ipv4.mem_render hc with rfl | hdigit
    · rfl
    · exact Text.toLower_of_isDigit hdigit
  have hplain : Idna.isPlain (Ipv4.render address) = true := by
    refine Idna.isPlain_iff.mpr ⟨fun c hc => (isNameChar_of_digit (Ipv4.mem_render hc)).allowed,
      fun label hlabel => Bool.eq_false_iff.mpr fun hencoded => ?_⟩
    -- a label that stands for another has an `x`
    obtain ⟨rest, hrest⟩ := Option.isSome_iff_exists.mp hencoded
    have hmem : 'x' ∈ Text.lower label := by
      rw [Text.strip_eq_some_iff.mp hrest]
      exact List.mem_cons_self
    obtain ⟨c, hc, hx⟩ := List.mem_map.mp hmem
    have haddress : c ∈ Ipv4.render address := (Text.mem_of_mem_pieces hlabel hc).1
    rw [hlower c haddress] at hx
    subst hx
    exact absurd (Ipv4.mem_render haddress) (by decide)
  rw [hidna.plain hplain, Text.lower_eq_self hlower]

theorem special_render (hidna : idna.IsLawful) (hh : h.IsFormed true) :
    Host.special h.render = .ok h := by
  cases h with
  | name text =>
    obtain ⟨hne, hchars, hname⟩ := hh
    obtain ⟨hnumber, hascii⟩ := hname rfl
    show Host.special text = .ok (.name text)
    rw [special_eq fun c hc => .inl (hchars c hc), hascii]
    show ofAscii text = _
    rw [ofAscii, if_neg hne, hnumber]
    rfl
  | ipv4 address =>
    have hchars : ∀ c ∈ Ipv4.render address, IsNameChar true c := fun c hc =>
      isNameChar_of_digit (Ipv4.mem_render hc)
    show Host.special (Ipv4.render address) = .ok (.ipv4 address)
    rw [special_eq fun c hc => .inl (hchars c hc), toAscii_render hidna]
    show ofAscii (Ipv4.render address) = _
    rw [ofAscii, if_neg (Ipv4.render_ne_nil address), Ipv4.endsInNumber_render, if_pos rfl,
      Ipv4.read_render hh.2]
  | ipv6 groups => exact bracketed_render hh

/-- **A host with a port behind it is refused as a host.** -/
theorem special_port (hidna : idna.IsLawful) (hh : h.IsFormed true) (n : Nat) :
    ∃ e, Host.special (h.render ++ ':' :: Text.Decimal.ofNat n) = .error e := by
  rcases isNameChar_or_ipv6 hh with hname | ⟨groups, rfl⟩
  · have hchars : ∀ c ∈ h.render ++ ':' :: Text.Decimal.ofNat n, IsNameChar true c ∨ c = ':' := by
      intro c hc
      rcases List.mem_append.mp hc with hhost | hport
      · exact .inl (hname c hhost)
      · refine (List.mem_cons.mp hport).symm.imp_left fun hdigit => ?_
        exact isNameChar_of_digit (.inr (Text.Decimal.isDigit_of_mem_ofNat hdigit))
    have hany : (h.render ++ ':' :: Text.Decimal.ofNat n).any Idna.isForbidden = true :=
      List.any_eq_true.mpr ⟨':', by simp, by decide⟩
    have hascii : ∀ c ∈ h.render ++ ':' :: Text.Decimal.ofNat n, c.toNat < 0x80 := by
      intro c hc
      rcases hchars c hc with hname | rfl
      · have := hname.visible.2
        omega
      · decide
    rw [special_eq hchars, hidna.refused hascii hany]
    exact ⟨_, rfl⟩
  · have htext : (ipv6 groups).render ++ ':' :: Text.Decimal.ofNat n =
        '[' :: ((Ipv6.render groups ++ [']', ':']) ++ Text.Decimal.ofNat n) := by
      simp [render]
    have hstrip : Text.stripLast ']' ((Ipv6.render groups ++ [']', ':']) ++
        Text.Decimal.ofNat n) = none := by
      rw [Text.stripLast_append (Text.Decimal.ofNat_ne_nil n)]
      cases hdigits : Text.stripLast ']' (Text.Decimal.ofNat n) with
      | none => rfl
      | some t =>
        -- the last character is a digit
        have hlast : ']' ∈ Text.Decimal.ofNat n := by
          rw [Text.stripLast_eq_some_iff.mp hdigits]
          simp
        exact absurd (Text.Decimal.isDigit_of_mem_ofNat hlast) (by decide)
    rw [htext]
    show ∃ e, bracketed _ = .error e
    rw [bracketed, hstrip]
    exact ⟨_, rfl⟩

theorem plain_render (hh : h.IsFormed false) : plain h.render = .ok h := by
  cases h with
  | name text =>
    obtain ⟨-, hchars, -⟩ := hh
    have hallowed : ∀ c ∈ text, isForbiddenInName c = false := fun c hc => (hchars c hc).allowed
    have hany : text.any isForbiddenInName = false := by
      simpa using hallowed
    have hencode : encodeOpaque text = text :=
      Percent.encodeUnless_eq_self fun c hc => by simp [isControl_eq_false (hchars c hc).visible]
    show plain text = .ok (.name text)
    unfold plain
    split
    · exact absurd (hallowed '[' List.mem_cons_self) (by decide)
    · rw [hany, hencode]
      rfl
  | ipv4 address => exact nomatch hh.1
  | ipv6 groups => exact bracketed_render hh

end Host

/-- **A well-formed host is read back from its text.** -/
theorem hostAt_render [idna : Idna] (hidna : idna.IsLawful) {kind : Kind}
    (hh : h.IsFormed kind.isSpecial) : hostAt kind h.render = .ok (some h) := by
  have hread : (if kind.isSpecial then Host.special h.render else Host.plain h.render) = .ok h := by
    split
    · next hspecial =>
      rw [hspecial] at hh
      exact Host.special_render hidna hh
    · next hspecial =>
      rw [Bool.eq_false_iff.mpr hspecial] at hh
      exact Host.plain_render hh
  unfold hostAt
  split
  · next hnil => exact absurd hnil (Host.render_ne_nil hh)
  · rw [hread]
    rfl

/-! ## Where a host ends -/

/-- Outside brackets a host goes on up to a colon. -/
theorem hostText_append_of_outside {t rest : Text} (ht : ∀ c ∈ t, c ≠ ':' ∧ c ≠ '[') :
    hostText false (t ++ rest) = (t ++ (hostText false rest).1, (hostText false rest).2) := by
  induction t with
  | nil => rfl
  | cons c t ih =>
    obtain ⟨hcolon, hbracket⟩ := ht c List.mem_cons_self
    have hinside : (decide (c = '[') || (false && c != ']')) = false := by
      simp [hbracket]
    rw [List.cons_append, hostText, if_neg (by simp [hcolon]), hinside,
      ih fun d hd => ht d (List.mem_cons_of_mem c hd)]
    rfl

/-- Inside brackets it goes on up to the closing one. -/
theorem hostText_append_of_inside {t rest : Text} (ht : ∀ c ∈ t, c ≠ ']') :
    hostText true (t ++ ']' :: rest) =
      (t ++ ']' :: (hostText false rest).1, (hostText false rest).2) := by
  induction t with
  | nil => rfl
  | cons c t ih =>
    have hinside : (decide (c = '[') || (true && c != ']')) = true := by
      simp [ht c List.mem_cons_self]
    rw [List.cons_append, hostText, if_neg (by simp), hinside,
      ih fun d hd => ht d (List.mem_cons_of_mem c hd)]
    rfl

/-- **A host ends where its port starts.** -/
theorem hostText_render [Idna] (hh : h.IsFormed special) {rest : Text}
    (hrest : rest = [] ∨ rest.head? = some ':') :
    hostText false (h.render ++ rest) = (h.render, rest) := by
  have hend : hostText false rest = ([], rest) := by
    rcases hrest with rfl | hcolon
    · rfl
    · obtain ⟨port, rfl⟩ := List.head?_eq_some_iff.mp hcolon
      rfl
  rcases Host.isNameChar_or_ipv6 hh with hname | ⟨groups, rfl⟩
  · have hchars : ∀ c ∈ h.render, c ≠ ':' ∧ c ≠ '[' := by
      intro c hc
      have hmem := (hname c hc).not_mem [':', '['] (by cases special <;> decide)
      simpa using hmem
    rw [hostText_append_of_outside hchars, hend, List.append_nil]
  · have hchars : ∀ c ∈ Ipv6.render groups, c ≠ ']' := by
      rintro c hc rfl
      exact absurd (Ipv6.mem_render hc) (by decide)
    have htext : (Host.ipv6 groups).render ++ rest =
        '[' :: (Ipv6.render groups ++ ']' :: rest) := by
      simp [Host.render]
    rw [htext, hostText, if_neg (by decide)]
    show ('[' :: (hostText true _).1, (hostText true _).2) = _
    rw [hostText_append_of_inside hchars, hend]
    rfl

end UriRouting.Url
