/-
# UriRouting.Proofs.Http.Expansion — two ways to ask for an expansion

The pattern of a service can be expanded on the command line and in a request.  The command line
takes a parameter apart at its first `=` and trims the name; a request names the service in its path,
percent-encoded, and the values in its query, form-encoded.  Both ways read back what was written
(`Cli.mapM_readParam`, `Percent.decode?_encode`, `Form.read_render`), and then look up the same
service and expand with the same values, the last for each name.

A request has to be short enough to be one: a target that takes more than 65534 bytes is refused
before it is read.
-/
import UriRouting.Proofs.Http.Agreement
import UriRouting.Proofs.Http.Form

namespace UriRouting

/-! ## §1 The command -/

namespace Cli

/-- A name and a value as a parameter of the command line. -/
def writeParam (p : Text × Text) : Text := p.1 ++ '=' :: p.2

/-- **`IsParamName name`** — a parameter can have the name as it stands: it has no `=`, and no blank
at either end. -/
structure IsParamName (name : Text) : Prop where
  noEquals : '=' ∉ name
  noLeadingBlank : Text.startsWith Text.isBlank name = false
  noTrailingBlank : Text.startsWith Text.isBlank name.reverse = false

/-- A parameter is read back. -/
theorem readParam_writeParam {p : Text × Text} (h : IsParamName p.1) :
    readParam (writeParam p) = .ok p := by
  unfold readParam writeParam
  rw [Text.cutAt_append_cons h.noEquals]
  show Except.ok (Text.trim p.1, p.2) = .ok p
  rw [Text.trim_eq_self h.noLeadingBlank h.noTrailingBlank]

theorem mapM_readParam {pairs : List (Text × Text)} (h : ∀ p ∈ pairs, IsParamName p.1) :
    (pairs.map writeParam).mapM readParam = .ok pairs := by
  induction pairs with
  | nil => rfl
  | cons p pairs ih =>
    have htail := ih fun q hq => h q (List.mem_cons_of_mem p hq)
    rw [List.map_cons, List.mapM_cons, readParam_writeParam (h p List.mem_cons_self), htail]
    rfl

/-- **What a command prints** that expands the pattern of a service. -/
theorem withTable_expand [Url.Idna] (table : RouteTable) (service : Text)
    {pairs : List (Text × Text)} (h : ∀ p ∈ pairs, IsParamName p.1) :
    withTable table { expand := some service, params := pairs.map writeParam } =
      .finished (match table.route? service with
        | some route => .line (route.pattern.template.expand (Params.ofAssignments pairs))
        | none => .failed [] ⟨Text.ofString "Unknown service: " ++ Text.inQuotes service, []⟩) := by
  show Run.finished _ = _
  unfold expand
  rw [mapM_readParam h]
  cases table.route? service with
  | none => rfl
  | some route => rfl

theorem line_inj {t u : Text} : Outcome.line t = .line u ↔ t = u := by
  simp [Outcome.line]

theorem failed_ne_line (out : Text) (report : Report) (t : Text) :
    Outcome.failed out report ≠ .line t := by
  simp [Outcome.failed, Outcome.line]

end Cli

/-! ## §2 The request -/

namespace Http

open Target (isPathChar isQueryChar pathAt queryAt)

/-- A target as a request writes it. -/
def Target.write : Target → Text
  | ⟨path, none⟩ => path
  | ⟨path, some query⟩ => path ++ '?' :: query

/-- **`Target.ofExpansion service pairs`** — the target of a request for the expansion of the pattern
of a service with the values of the pairs. -/
def Target.ofExpansion (service : Text) (pairs : List (Text × Text)) : Target :=
  ⟨Text.ofString "/_expand/" ++ Percent.encode service, some (Form.render pairs)⟩

variable {c : Char} {path query service : Text} {pairs : List (Text × Text)}

theorem ne_of_isAlphanum {d : Char} (hd : d.isAlphanum = false) (h : c.isAlphanum = true) :
    c ≠ d := by
  rintro rfl
  rw [hd] at h
  cases h

theorem bang_le_of_isAlphanum (h : c.isAlphanum = true) : '!' ≤ c := by
  have hrange := Text.toNat_of_isAlphanum h
  show '!'.toNat ≤ c.toNat
  have hbang : '!'.toNat = 0x21 := rfl
  omega

theorem isPathChar_of_isAlphanum (h : c.isAlphanum = true) : isPathChar c = true := by
  simp [isPathChar, bang_le_of_isAlphanum h, ne_of_isAlphanum _ h]

theorem isQueryChar_of_isAlphanum (h : c.isAlphanum = true) : isQueryChar c = true := by
  simp [isQueryChar, bang_le_of_isAlphanum h, ne_of_isAlphanum _ h]

theorem isPathChar_of_mem_encode (h : c ∈ Percent.encode service) : isPathChar c = true := by
  rcases Percent.mem_encode h with halnum | hmark
  · exact isPathChar_of_isAlphanum halnum
  · have hmarks : ['%', '-', '_', '.', '~'].all isPathChar = true := by decide
    exact List.all_eq_true.mp hmarks c hmark

theorem isQueryChar_of_mem_render (h : c ∈ Form.render pairs) : isQueryChar c = true := by
  rcases Form.mem_render h with hsep | ⟨t, hencoded⟩
  · have hseps : ['&', '='].all isQueryChar = true := by decide
    exact List.all_eq_true.mp hseps c hsep
  · rcases Form.mem_encode hencoded with halnum | hmark
    · exact isQueryChar_of_isAlphanum halnum
    · have hmarks : ['+', '%', '*', '-', '.', '_'].all isQueryChar = true := by decide
      exact List.all_eq_true.mp hmarks c hmark

/-- A path with a query is taken apart at its question mark. -/
theorem pathAt_append_query (hpath : ∀ c ∈ path, isPathChar c = true)
    (hquery : ∀ c ∈ query, isQueryChar c = true) :
    pathAt (path ++ '?' :: query) = some ⟨path, some query⟩ := by
  have hall : queryAt query = some query := by
    unfold queryAt
    rw [List.span_eq_takeWhile_dropWhile, List.takeWhile_eq_self_iff.mpr hquery,
      List.dropWhile_eq_nil_iff.mpr hquery]
  unfold pathAt
  rw [List.span_eq_takeWhile_dropWhile, Text.takeWhile_run hpath rfl, Text.dropWhile_run hpath rfl]
  show (queryAt query).map _ = _
  rw [hall]
  rfl

/-- **The target is read back** exactly if it is not too long. -/
theorem read_write_ofExpansion_iff :
    Target.read (Target.ofExpansion service pairs).write = some (.ofExpansion service pairs) ↔
      Text.width (Target.ofExpansion service pairs).write ≤ Target.lengthLimit := by
  have hfront : (Text.ofString "/_expand/").all isPathChar = true := by decide
  have hpath : ∀ c ∈ Text.ofString "/_expand/" ++ Percent.encode service, isPathChar c = true := by
    intro c hc
    rcases List.mem_append.mp hc with hc | hc
    · exact List.all_eq_true.mp hfront c hc
    · exact isPathChar_of_mem_encode hc
  have hquery : ∀ c ∈ Form.render pairs, isQueryChar c = true :=
    fun c hc => isQueryChar_of_mem_render hc
  unfold Target.read
  constructor
  · intro hread
    by_contra hlong
    rw [if_pos (Nat.lt_of_not_le hlong)] at hread
    cases hread
  · intro hshort
    rw [if_neg (Nat.not_lt.mpr hshort)]
    exact pathAt_append_query hpath hquery

theorem ofPath_ofExpansion (hservice : service ≠ []) :
    Resource.ofPath (Target.ofExpansion service pairs).path =
      .expansion (Percent.encode service) := by
  have hstrip : Text.strip (Text.ofString "/_expand/")
      (Text.ofString "/_expand/" ++ Percent.encode service) = some (Percent.encode service) :=
    Text.strip_eq_some_iff.mpr rfl
  have hlisting : Text.ofString "/_expand/" ++ Percent.encode service ≠ Text.ofString "/_routes" := by
    intro heq
    exact absurd (congrArg (fun t => t[2]?) heq) (by simp [Text.ofString])
  unfold Resource.ofPath
  rw [Target.ofExpansion, if_neg hlisting, hstrip]
  exact if_pos ⟨Percent.encode_ne_nil hservice, Percent.slash_not_mem_encode service⟩

/-- **How the service answers** a request for an expansion. -/
theorem respond_ofExpansion (table : RouteTable) (hservice : service ≠ []) :
    respond table ⟨.get, .ofExpansion service pairs⟩ =
      .ofResult (expansion table service (Params.ofAssignments pairs)) := by
  have hparams : paramsOf (Target.ofExpansion service pairs).query = Params.ofAssignments pairs :=
    congrArg Params.ofAssignments (Form.read_render pairs)
  unfold respond answer
  rw [ofPath_ofExpansion hservice]
  simp only [true_or, if_true, Percent.decode?_encode, hparams]
  rfl

end Http

/-! ## §3 The agreement -/

open Http

/-- **The service and the command line agree on expansions.**  Take any table, a service name that is
not empty, and values whose names a parameter can have.  The command prints a text exactly if the
request is answered with 200 and this text, and it fails because there is no such service exactly if
the request is answered with 404.  The target is one that a request can have if and only if it takes
no more than 65534 bytes. -/
theorem respond_agrees_with_expand [Url.Idna] (table : RouteTable) {service : Text}
    {pairs : List (Text × Text)} (hservice : service ≠ [])
    (hnames : ∀ p ∈ pairs, Cli.IsParamName p.1) :
    let target := Target.ofExpansion service pairs
    let response := respond table ⟨.get, target⟩
    (Target.read target.write = some target ↔ Text.width target.write ≤ Target.lengthLimit) ∧
    ∃ outcome,
      Cli.withTable table { expand := some service, params := pairs.map Cli.writeParam } =
        .finished outcome ∧
      (∀ uri, outcome = .line uri ↔ response.status = 200 ∧
        ∃ answer, response.body = some answer ∧
          answer.member? (Text.ofString "uri") = some (.string uri)) ∧
      (outcome = .failed [] ⟨Text.ofString "Unknown service: " ++ Text.inQuotes service, []⟩ ↔
        response.status = 404) := by
  refine ⟨read_write_ofExpansion_iff, _, Cli.withTable_expand table service hnames, ?_⟩
  rw [respond_ofExpansion table hservice, expansion]
  cases table.route? service with
  | none =>
    refine ⟨fun uri => iff_of_false (Cli.failed_ne_line _ _ uri) ?_, iff_of_true rfl rfl⟩
    intro hsuccess
    exact absurd hsuccess.1 (show (404 : Nat) ≠ 200 by decide)
  | some route =>
    refine ⟨fun uri => ?_, iff_of_false (Cli.failed_ne_line _ _ _).symm ?_⟩
    · rw [Cli.line_inj]
      constructor
      · rintro rfl
        exact ⟨rfl, _, rfl, rfl⟩
      · rintro ⟨-, answer, hbody, huri⟩
        obtain rfl := Option.some.inj hbody
        exact Json.string.inj (Option.some.inj huri)
    · exact show (200 : Nat) ≠ 404 by decide

/-- A value with all the characters that separate something, and a name that stands twice. -/
theorem respond_agrees_with_expand_separators :
    ∃ (table : RouteTable) (service : Text) (pairs : List (Text × Text)),
      service ≠ [] ∧ (∀ p ∈ pairs, Cli.IsParamName p.1) ∧
      pairs.map Cli.writeParam =
        [Text.ofString "x=1", Text.ofString "q=a=b+c%25&é ", Text.ofString "x=2"] ∧
      Target.read (Text.ofString "/_expand/s%2F%C3%A9?x=1&q=a%3Db%2Bc%2525%26%C3%A9+&x=2") =
          some (.ofExpansion service pairs) ∧
      Cli.withTable table { expand := some service, params := pairs.map Cli.writeParam } =
        .finished (.line (Text.ofString "/2/a=b+c%25&é ")) ∧
      (respond table ⟨.get, .ofExpansion service pairs⟩).status = 200 ∧
      (respond table ⟨.get, .ofExpansion (Text.ofString "t") pairs⟩).status = 404 := by
  let service : Text := Text.ofString "s/é"
  let unknown : Text := Text.ofString "t"
  let pairs : List (Text × Text) :=
    [(['x'], ['1']), (['q'], Text.ofString "a=b+c%25&é "), (['x'], ['2'])]
  let pattern : Pattern := .of ⟨Text.ofString "/{x}/{q*}",
    [.literal ['/'], .placeholder ⟨['x'], none, none⟩ .plain, .literal ['/'],
      .wildcard ⟨['q'], none, none⟩ .remainder]⟩
  let table : RouteTable := ⟨[⟨service, [], pattern⟩], .builtin, .first⟩
  have hnames : ∀ p ∈ pairs, Cli.IsParamName p.1 := by
    intro p hp
    simp only [pairs, List.mem_cons, List.not_mem_nil, or_false] at hp
    rcases hp with rfl | rfl | rfl
    all_goals exact ⟨by decide, by decide, by decide⟩
  have hrun : Cli.withTable table { expand := some service, params := pairs.map Cli.writeParam } =
      .finished (.line (Text.ofString "/2/a=b+c%25&é ")) := by rfl
  have hunknown : Cli.withTable table
      { expand := some unknown, params := pairs.map Cli.writeParam } =
      .finished (.failed [] ⟨Text.ofString "Unknown service: " ++ Text.inQuotes unknown, []⟩) :=
    Cli.withTable_expand table unknown hnames
  have hwrite : (Target.ofExpansion service pairs).write =
      Text.ofString "/_expand/s%2F%C3%A9?x=1&q=a%3Db%2Bc%2525%26%C3%A9+&x=2" := by rfl
  obtain ⟨hread, outcome, houtcome, hline, -⟩ :=
    respond_agrees_with_expand table (show service ≠ [] by decide) hnames
  obtain ⟨-, outcome', houtcome', -, hfailed⟩ :=
    respond_agrees_with_expand table (show unknown ≠ [] by decide) hnames
  rw [hwrite] at hread
  have hsame := Cli.Run.finished.inj (houtcome.symm.trans hrun)
  have hsame' := Cli.Run.finished.inj (houtcome'.symm.trans hunknown)
  exact ⟨table, service, pairs, by decide, hnames, rfl, hread.mpr (by decide), hrun,
    ((hline _).mp hsame).1, hfailed.mp hsame'⟩

/-- A long value cannot be sent. -/
theorem read_write_eq_none_of_long {service name value : Text}
    (hplain : ∀ c ∈ value, Form.isPlain c = true) (hlong : Target.lengthLimit < value.length) :
    Target.read (Target.ofExpansion service [(name, value)]).write = none := by
  have hwrite : (Target.ofExpansion service [(name, value)]).write =
      Text.ofString "/_expand/" ++ Percent.encode service ++
        '?' :: (Form.encode name ++ ['='] ++ value) := by
    show _ ++ '?' :: (Form.encode name ++ ['='] ++ Form.encode value) = _
    rw [Form.encode_eq_self hplain]
  have hvalue := Text.length_le_width value
  unfold Target.read
  apply if_pos
  rw [hwrite]
  simp only [Text.width_append, Text.width_cons]
  omega

/-- **What the command line takes, a request may not**: a value of 65535 letters is expanded, but no
target carries it. -/
theorem expand_beyond_lengthLimit :
    let path := Text.ofString "/a"
    let table := RouteTable.literal ['s'] path
    let pairs : List (Text × Text) := [(['x'], List.replicate 65535 'a')]
    Pattern.compile path = .ok (.of ⟨path, [.literal path]⟩) ∧
      (∀ p ∈ pairs, Cli.IsParamName p.1) ∧
      Cli.withTable table { expand := some ['s'], params := pairs.map Cli.writeParam } =
        .finished (.line path) ∧
      Target.read (Target.ofExpansion ['s'] pairs).write = none := by
  intro path table pairs
  have hnames : ∀ p ∈ pairs, Cli.IsParamName p.1 := by
    intro p hp
    rw [List.mem_singleton.mp hp]
    exact ⟨by decide, by decide, by decide⟩
  refine ⟨rfl, hnames, Cli.withTable_expand table ['s'] hnames, ?_⟩
  apply read_write_eq_none_of_long
  · intro c hc
    rw [List.eq_of_mem_replicate hc]
    decide
  · rw [List.length_replicate]
    decide

end UriRouting
