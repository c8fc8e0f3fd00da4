/-
# UriRouting.Proofs.Url.RoundTrip — a URL with a host is read back

Whatever way a URL with a host was written, its parts are well-formed once they were read
(`isFormed_of_read`): the scheme in lower case, host, port and path as their own modules say, and
nothing in the query left to escape.  Written one after the other they are read back
(`read_text`), since each part ends at the first mark that it cannot hold.

The URL of a file has no port.  If one is written it is taken for a part of the host, which is
refused (`read_text_file`).

Scheme and path take their form from the grammar of URLs alone (`isPath_of_read`); for the host the
laws of the conversion to ASCII are needed.
-/
import UriRouting.Proofs.Url.Authority
import UriRouting.Proofs.Url.Path

namespace UriRouting.Url

variable {kind : Kind} {scheme s : Text} {u : Url} {h : Host} {c : Char}

/-! ## Schemes -/

/-- **`IsScheme scheme`** — a letter and other characters of a scheme, in lower case. -/
structure IsScheme (scheme : Text) : Prop where
  letter : Text.startsWith Char.isAlpha scheme = true
  chars : ∀ c ∈ scheme, isSchemeChar c = true ∧ c.toLower = c

theorem ascii_of_isSchemeChar (hc : isSchemeChar c = true) : c.toNat < 0x80 := by
  simp only [isSchemeChar, Bool.or_eq_true, beq_iff_eq] at hc
  rcases hc with ((halnum | rfl) | rfl) | rfl
  · have hrange := Text.toNat_of_isAlphanum halnum
    omega
  all_goals decide

theorem isVisible_of_isSchemeChar (hc : isSchemeChar c = true) : IsVisible c :=
  Text.forall_of_ascii (P := fun c => isSchemeChar c = true → IsVisible c) (by decide)
    (ascii_of_isSchemeChar hc) hc

theorem isSchemeChar_toLower (hc : isSchemeChar c = true) : isSchemeChar c.toLower = true :=
  Text.forall_of_ascii (P := fun c => isSchemeChar c = true → isSchemeChar c.toLower = true)
    (by decide) (ascii_of_isSchemeChar hc) hc

theorem isSchemeChar_of_isAlpha (hc : c.isAlpha = true) : isSchemeChar c = true := by
  simp [isSchemeChar, Char.isAlphanum, hc]

theorem isAlpha_toLower (hc : c.isAlpha = true) : c.toLower.isAlpha = true :=
  Text.forall_of_ascii (P := fun c => c.isAlpha = true → c.toLower.isAlpha = true)
    (by decide) (ascii_of_isSchemeChar (isSchemeChar_of_isAlpha hc)) hc

theorem isScheme_of_scheme? {rest : Text} (hs : scheme? s = some (scheme, rest)) :
    IsScheme scheme := by
  unfold scheme? at hs
  split at hs
  · cases hs
  · next c t =>
    split at hs
    · next hletter =>
      rw [List.span_eq_takeWhile_dropWhile] at hs
      split at hs
      · next name after hspan =>
        obtain ⟨hname, -⟩ := Prod.mk.inj hspan
        obtain ⟨rfl, -⟩ := Prod.mk.inj (Option.some.inj hs)
        subst hname
        constructor
        · -- the letter is a character of the scheme, so the scheme starts with it
          rw [List.takeWhile_cons_of_pos (isSchemeChar_of_isAlpha hletter)]
          exact isAlpha_toLower hletter
        · intro d hd
          obtain ⟨e, he, rfl⟩ := List.mem_map.mp hd
          exact ⟨isSchemeChar_toLower (List.mem_takeWhile_imp he), Text.toLower_toLower e⟩
      · cases hs
    · cases hs

theorem scheme?_append (hscheme : IsScheme scheme) (rest : Text) :
    scheme? (scheme ++ ':' :: rest) = some (scheme, rest) := by
  obtain ⟨hletter, hchars⟩ := hscheme
  have hspan : (scheme ++ ':' :: rest).span isSchemeChar = (scheme, ':' :: rest) :=
    Text.span_run (fun c hc => (hchars c hc).1) (by decide : isSchemeChar ':' = false)
  have hlower : Text.lower scheme = scheme := Text.lower_eq_self fun c hc => (hchars c hc).2
  cases scheme with
  | nil => cases hletter
  | cons c scheme =>
    have hc : c.isAlpha = true := hletter
    rw [List.cons_append] at hspan ⊢
    rw [scheme?, if_pos hc, hspan]
    show some (Text.lower (c :: scheme), rest) = some (c :: scheme, rest)
    rw [hlower]

theorem ofScheme_eq_file_iff : Kind.ofScheme scheme = .file ↔ scheme = Text.ofString "file" := by
  unfold Kind.ofScheme
  constructor
  · intro hkind
    split at hkind
    · next hfile => exact hfile
    · split at hkind <;> cases hkind
  · intro hfile
    exact if_pos hfile

/-! ## Queries -/

theorem mem_of_query? {special : Bool} {tail : Text} (hc : c ∈ (query? special tail).getD []) :
    isEscapedInQuery special c = false := by
  unfold query? at hc
  split at hc
  · exact mem_encodeQuery hc
  · exact absurd hc List.not_mem_nil

theorem query?_queryText {special : Bool} {query : Text}
    (hquery : ∀ c ∈ query, isEscapedInQuery special c = false) :
    (query? special (queryText query)).getD [] = query := by
  unfold queryText
  split
  · next hempty =>
    rw [hempty]
    rfl
  · have hrun : query.takeWhile (· != '#') = query := by
      refine List.takeWhile_eq_self_iff.mpr fun c hc => ?_
      rw [bne_iff_ne]
      exact (isVisible_of_inQuery (hquery c hc)).2
    rw [query?, hrun, encodeQuery_eq_self hquery]
    rfl

/-! ## Texts of URLs -/

/-- **`text u h`** — a URL with a host as it is written. -/
def text (u : Url) (h : Host) : Text :=
  u.scheme ++ ':' :: '/' :: '/' ::
    (h.render ++ portText u.port ++ (u.path ++ queryText (u.query.getD [])))

theorem clean_eq_self (hs : ∀ c ∈ s, IsVisible c) : clean s = s := by
  have htrim : Text.trimWith (fun c => c.toNat ≤ 0x20) s = s := by
    have hstart : ∀ t : Text, (∀ c ∈ t, IsVisible c) →
        t.dropWhile (fun c => decide (c.toNat ≤ 0x20)) = t := by
      intro t ht
      refine Text.dropWhile_eq_self ?_
      cases t with
      | nil => rfl
      | cons c t =>
        have hc := (ht c List.mem_cons_self).1
        simp only [Text.startsWith, decide_eq_false_iff_not]
        omega
    rw [Text.trimWith, hstart s hs, hstart s.reverse fun c hc => hs c (List.mem_reverse.mp hc),
      List.reverse_reverse]
  rw [clean, htrim, List.filter_eq_self]
  intro c hc
  have hvisible := hs c hc
  simp only [Bool.and_eq_true, bne_iff_ne]
  refine ⟨⟨?_, ?_⟩, ?_⟩ <;>
  · rintro rfl
    exact absurd hvisible (by decide)

/-- A host with a port is no drive. -/
theorem isDrive_port (t : Text) (ht : t ≠ []) (n : Nat) :
    Path.isDrive (t ++ ':' :: Text.Decimal.ofNat n) = false := by
  have hlength : 2 < (t ++ ':' :: Text.Decimal.ofNat n).length := by
    have hhost := List.length_pos_iff.mpr ht
    have hdigits := List.length_pos_iff.mpr (Text.Decimal.ofNat_ne_nil n)
    rw [List.length_append, List.length_cons]
    omega
  unfold Path.isDrive
  split
  · next letter mark htext =>
    rw [htext] at hlength
    exact absurd hlength (by simp)
  · rfl

/-! ## Scheme and path -/

variable [idna : Idna]

theorem isPath_of_fromAuthority (hs : fromAuthority kind scheme s = .ok u) :
    u.scheme = scheme ∧ IsPath kind u.path := by
  unfold fromAuthority at hs
  obtain ⟨a, -, hs⟩ := bind_eq_ok_iff.mp hs
  obtain rfl := Except.ok.inj hs
  exact ⟨rfl, isPath_pathAfter kind _⟩

theorem isPath_of_ofFile (hs : ofFile scheme s = .ok u) :
    u.scheme = scheme ∧ IsPath .file u.path := by
  unfold ofFile at hs
  obtain ⟨place, -, hs⟩ := bind_eq_ok_iff.mp hs
  obtain rfl := Except.ok.inj hs
  exact ⟨rfl, isPath_renderFile (Path.segments_ne_nil _ _ _) (Path.forall_settled_segments _ _ _)⟩

theorem isPath_of_ofOther (hs : ofOther scheme s = .ok u) (hh : u.host = some h) :
    u.scheme = scheme ∧ IsPath .other u.path := by
  unfold ofOther at hs
  split at hs
  · exact isPath_of_fromAuthority hs
  · obtain rfl := Except.ok.inj hs
    cases hh
  · obtain rfl := Except.ok.inj hs
    cases hh

/-- **Scheme and path of a URL with a host**, whatever names have a form in ASCII. -/
theorem isPath_of_read (hs : read s = .ok u) (hh : u.host = some h) :
    IsScheme u.scheme ∧ IsPath (Kind.ofScheme u.scheme) u.path := by
  unfold read at hs
  split at hs
  · cases hs
  · next scheme rest hscheme =>
    have hform := isScheme_of_scheme? hscheme
    split at hs
    · next hkind =>
      obtain ⟨rfl, hpath⟩ := isPath_of_fromAuthority hs
      exact ⟨hform, hkind ▸ hpath⟩
    · next hkind =>
      obtain ⟨rfl, hpath⟩ := isPath_of_ofFile hs
      exact ⟨hform, hkind ▸ hpath⟩
    · next hkind =>
      obtain ⟨rfl, hpath⟩ := isPath_of_ofOther hs hh
      exact ⟨hform, hkind ▸ hpath⟩

/-! ## What was read -/

/-- **`IsFormed kind u h`** — what the parts of a URL with a host look like once they were read, under
the rules of a kind. -/
structure IsFormed (kind : Kind) (u : Url) (h : Host) : Prop where
  host : h.IsFormed kind.isSpecial
  port : ∀ n, u.port = some n → n ≤ portLimit
  path : IsPath kind u.path
  query : ∀ c ∈ u.query.getD [], isEscapedInQuery kind.isSpecial c = false

theorem isFormed_of_fromAuthority (hidna : idna.IsLawful)
    (hs : fromAuthority kind scheme s = .ok u) (hh : u.host = some h) : u.IsFormed kind h := by
  obtain ⟨-, hpath⟩ := isPath_of_fromAuthority hs
  unfold fromAuthority at hs
  obtain ⟨a, ha, hs⟩ := bind_eq_ok_iff.mp hs
  obtain rfl := Except.ok.inj hs
  obtain ⟨hhost, hport⟩ := isFormed_of_authority hidna ha hh
  refine ⟨hhost, fun n hn => ?_, hpath, fun c hc => mem_of_query? hc⟩
  dsimp only [unknownPort] at hn
  split at hn
  · cases hn
  · exact hport n hn

theorem special_of_filePlace (hidna : idna.IsLawful) {path : Text}
    (hs : filePlace s = .ok (some h, path)) : h.IsFormed true := by
  have hhosted : ∀ t, hostedFile t = .ok (some h, path) → h.IsFormed true := by
    intro t ht
    unfold hostedFile at ht
    dsimp only at ht
    split at ht
    · cases ht
    · obtain ⟨host, hhost, ht⟩ := bind_eq_ok_iff.mp ht
      obtain ⟨rfl, -⟩ := Prod.mk.inj (Except.ok.inj ht)
      unfold fileHost at hhost
      split at hhost
      · cases hhost
      · obtain ⟨host, hspecial, hhost⟩ := bind_eq_ok_iff.mp hhost
        have hsome := Except.ok.inj hhost
        split at hsome
        · cases hsome
        · obtain rfl := Option.some.inj hsome
          exact Host.isFormed_of_special hidna hspecial
  unfold filePlace at hs
  split at hs
  · split at hs
    · split at hs
      · exact hhosted _ hs
      · cases hs
    · cases hs
  · cases hs
  · cases hs

theorem isFormed_of_ofFile (hidna : idna.IsLawful) (hs : ofFile scheme s = .ok u)
    (hh : u.host = some h) : u.IsFormed .file h := by
  obtain ⟨-, hpath⟩ := isPath_of_ofFile hs
  unfold ofFile at hs
  obtain ⟨⟨host, path⟩, hplace, hs⟩ := bind_eq_ok_iff.mp hs
  obtain rfl := Except.ok.inj hs
  dsimp only at hh
  split at hh
  · cases hh
  · subst hh
    exact ⟨special_of_filePlace hidna hplace, fun n hn => (nomatch hn), hpath,
      fun c hc => mem_of_query? hc⟩

theorem isFormed_of_ofOther (hidna : idna.IsLawful) (hs : ofOther scheme s = .ok u)
    (hh : u.host = some h) : u.IsFormed .other h := by
  unfold ofOther at hs
  split at hs
  · exact isFormed_of_fromAuthority hidna hs hh
  · obtain rfl := Except.ok.inj hs
    cases hh
  · obtain rfl := Except.ok.inj hs
    cases hh

/-- **The parts of a URL that was read.** -/
theorem isFormed_of_read (hidna : idna.IsLawful) (hs : read s = .ok u) (hh : u.host = some h) :
    IsScheme u.scheme ∧ u.IsFormed (Kind.ofScheme u.scheme) h := by
  refine ⟨(isPath_of_read hs hh).1, ?_⟩
  unfold read at hs
  split at hs
  · cases hs
  · split at hs
    · next hkind =>
      obtain ⟨rfl, -⟩ := isPath_of_fromAuthority hs
      exact hkind ▸ isFormed_of_fromAuthority hidna hs hh
    · next hkind =>
      obtain ⟨rfl, -⟩ := isPath_of_ofFile hs
      exact hkind ▸ isFormed_of_ofFile hidna hs hh
    · next hkind =>
      obtain ⟨rfl, -⟩ := isPath_of_ofOther hs hh
      exact hkind ▸ isFormed_of_ofOther hidna hs hh

/-! ## Reading what was written -/

theorem IsFormed.mem_authority (hu : u.IsFormed kind h) (hc : c ∈ h.render ++ portText u.port) :
    IsVisible c ∧ c ∉ Host.marks := by
  rcases List.mem_append.mp hc with hhost | hport
  · exact Host.mem_render hu.host hhost
  · exact mem_portText hport

theorem IsFormed.isVisible (hscheme : IsScheme u.scheme) (hu : u.IsFormed kind h)
    (hc : c ∈ u.text h) : IsVisible c := by
  simp only [text, List.mem_append, List.mem_cons] at hc
  rcases hc with hscheme' | rfl | rfl | rfl | hauthority | hpath | hquery
  · exact isVisible_of_isSchemeChar (hscheme.chars c hscheme').1
  · decide
  · decide
  · decide
  · exact (hu.mem_authority (List.mem_append.mpr hauthority)).1
  · exact (isVisible_of_inPath (hu.path.inPath hpath)).1
  · unfold queryText at hquery
    split at hquery
    · exact absurd hquery List.not_mem_nil
    · rcases List.mem_cons.mp hquery with rfl | hquery
      · decide
      · exact (isVisible_of_inQuery (hu.query c hquery)).1

/-- The query starts at the first question mark, whether the slashes are still there or not. -/
theorem IsFormed.beforeQuery_text (hu : u.IsFormed kind h) (slashes : Text)
    (hslashes : ∀ c ∈ slashes, c = '/') :
    beforeQuery (slashes ++
        (h.render ++ portText u.port ++ (u.path ++ queryText (u.query.getD [])))) =
      (slashes ++ (h.render ++ portText u.port ++ u.path), queryText (u.query.getD [])) := by
  rw [← List.append_assoc (h.render ++ portText u.port), ← List.append_assoc slashes]
  refine Text.span_run (fun c hc => ?_) (startsWith_queryText rfl _)
  have hmarks : c ∉ ['?', '#'] := by
    rcases List.mem_append.mp hc with hslash | hc
    · rw [hslashes c hslash]
      decide
    · rcases List.mem_append.mp hc with hauthority | hpath
      · intro hmem
        refine (hu.mem_authority hauthority).2 ?_
        simp only [List.mem_cons, List.not_mem_nil, or_false] at hmem
        rcases hmem with rfl | rfl <;> decide
      · exact (isVisible_of_inPath (hu.path.inPath hpath)).2
  simpa using hmarks

/-- The path starts at the first slash. -/
theorem IsFormed.span_authority (hu : u.IsFormed kind h) :
    (h.render ++ portText u.port ++ u.path).span (fun c => !isSlash kind c) =
      (h.render ++ portText u.port, u.path) := by
  refine Text.span_run (fun c hc => ?_) ?_
  · have hmarks := (hu.mem_authority hc).2
    have hslash : c ≠ '/' := fun heq => hmarks (heq ▸ by decide)
    have hback : c ≠ '\\' := fun heq => hmarks (heq ▸ by decide)
    simp [isSlash, hslash, hback]
  · rcases hu.path.eq_nil_or with hempty | hslash
    · rw [hempty]
      rfl
    · obtain ⟨rest, hrest⟩ := List.head?_eq_some_iff.mp hslash
      rw [hrest]
      rfl

/-- **From its authority on a URL is read back**, with its query, if it has one. -/
theorem fromAuthority_text (hidna : idna.IsLawful) (hu : u.IsFormed kind h) :
    ∃ query, fromAuthority kind scheme
        (h.render ++ portText u.port ++ (u.path ++ queryText (u.query.getD []))) =
        .ok ⟨scheme, some h, unknownPort scheme u.port, u.path, query⟩ ∧
      query.getD [] = u.query.getD [] := by
  refine ⟨_, ?_, query?_queryText hu.query⟩
  have hquery := hu.beforeQuery_text [] (by simp)
  rw [List.nil_append, List.nil_append] at hquery
  unfold fromAuthority
  rw [hquery]
  dsimp only
  rw [hu.span_authority]
  refine bind_eq_ok_iff.mpr ⟨_, authority_render hidna hu.host hu.port, ?_⟩
  rw [List.nil_append, pathAfter_eq_self hu.path]
  rfl

/-- The host starts behind the slashes. -/
theorem IsFormed.dropSlashes (hu : u.IsFormed kind h) (rest : Text) :
    ('/' :: '/' :: (h.render ++ rest)).dropWhile (isSlash .web) = h.render ++ rest := by
  have hslashes : ∀ c ∈ ['/', '/'], isSlash .web c = true := by simp [isSlash]
  refine Text.dropWhile_run hslashes ?_
  -- no host starts with a slash
  obtain ⟨c, t, hcons⟩ := List.exists_cons_of_ne_nil (Host.render_ne_nil hu.host)
  have hmarks : c ∉ Host.marks := (Host.mem_render hu.host (hcons ▸ List.mem_cons_self)).2
  have hslash : c ≠ '/' := fun heq => hmarks (heq ▸ by decide)
  have hback : c ≠ '\\' := fun heq => hmarks (heq ▸ by decide)
  rw [hcons]
  simp [Text.startsWith, isSlash, hslash, hback]

theorem scheme?_text (hscheme : IsScheme u.scheme) (hu : u.IsFormed kind h) :
    scheme? (clean (u.text h)) = some (u.scheme, '/' :: '/' ::
      (h.render ++ portText u.port ++ (u.path ++ queryText (u.query.getD [])))) := by
  rw [clean_eq_self fun c hc => hu.isVisible hscheme hc, text, scheme?_append hscheme]

/-- **A URL with a host is read back from its text**, unless it is that of a file. -/
theorem read_text (hidna : idna.IsLawful) (hscheme : IsScheme u.scheme)
    (hu : u.IsFormed (Kind.ofScheme u.scheme) h) (hkind : Kind.ofScheme u.scheme ≠ .file) :
    ∃ query, read (u.text h) =
        .ok ⟨u.scheme, some h, unknownPort u.scheme u.port, u.path, query⟩ ∧
      query.getD [] = u.query.getD [] := by
  unfold read
  rw [scheme?_text hscheme hu]
  dsimp only
  split
  · next hweb =>
    rw [hweb] at hu
    rw [List.append_assoc, hu.dropSlashes, ← List.append_assoc]
    exact fromAuthority_text hidna hu
  · next hfile => exact absurd hfile hkind
  · next hother =>
    rw [hother] at hu
    exact fromAuthority_text hidna hu

/-! ## The port of a file -/

/-- **The URL of a file with a port is refused**: the port is taken for a part of the host. -/
theorem read_text_file (hidna : idna.IsLawful) {n : Nat} (hscheme : IsScheme u.scheme)
    (hu : u.IsFormed (Kind.ofScheme u.scheme) h) (hkind : Kind.ofScheme u.scheme = .file)
    (hport : u.port = some n) : ∃ e, read (u.text h) = .error e := by
  rw [hkind] at hu
  obtain ⟨e, he⟩ := Host.special_port hidna hu.host n
  have hne : h.render ++ portText u.port ≠ [] :=
    List.append_ne_nil_of_left_ne_nil (Host.render_ne_nil hu.host) _
  have hfile : fileHost (h.render ++ portText u.port) = .error e := by
    unfold fileHost
    split
    · next hempty => exact absurd hempty hne
    · rw [hport]
      exact bind_eq_error_iff.mpr (.inl he)
  -- two slashes announce a host, which goes on up to the next slash, port and all
  have hplace : filePlace ('/' :: '/' :: (h.render ++ portText u.port ++ u.path)) = .error e := by
    have hdrive := isDrive_port h.render (Host.render_ne_nil hu.host) n
    show hostedFile (h.render ++ portText u.port ++ u.path) = .error e
    unfold hostedFile
    rw [hu.span_authority]
    dsimp only
    rw [if_neg (by rw [hport]; exact Bool.eq_false_iff.mp hdrive)]
    exact bind_eq_error_iff.mpr (.inl hfile)
  have hquery := hu.beforeQuery_text ['/', '/'] (by simp)
  refine ⟨e, ?_⟩
  unfold read
  rw [scheme?_text hscheme hu]
  dsimp only
  rw [hkind]
  show ofFile u.scheme _ = .error e
  unfold ofFile
  rw [List.cons_append, List.singleton_append] at hquery
  rw [hquery]
  exact bind_eq_error_iff.mpr (.inl hplace)

end UriRouting.Url
