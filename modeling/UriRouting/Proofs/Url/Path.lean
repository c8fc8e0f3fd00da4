/-
# UriRouting.Proofs.Url.Path — a path is read back

The segments that are left of a path are settled (`IsSettled`): none of them stays or goes up any
more, and nothing in them is a slash or has to be escaped.  One step keeps a stack settled
(`forall_settled_step`), so all that was read is (`forall_settled_segments`).  A settled segment is
pushed as it is, and so a settled stack is read back from its segments (`segments_join`).

The path of a URL with a host is that of a settled stack (`IsPath`), for files too, whose paths lose
the slashes in front (`isPath_renderFile`); in schemes without fixed rules it may be empty.  In all
cases it is its own reading (`pathAfter_eq_self`).
-/
import UriRouting.Url.Basic
import UriRouting.Proofs.Text.Pieces
import UriRouting.Proofs.Url.Encoding

namespace UriRouting.Url.Path

variable {special file last : Bool} {c : Char} {segment s : Text} {stack : Stack}

/-- **`IsSettled special segment`** — what a segment looks like that was read, in schemes with a fixed
set of rules and in others. -/
structure IsSettled (special : Bool) (segment : Text) : Prop where
  parent : isParent segment = false
  current : isCurrent segment = false
  chars : ∀ c ∈ segment, isEscapedInPath c = false ∧ c ≠ '/' ∧ (special = true → c ≠ '\\')

theorem isSettled_nil (special : Bool) : IsSettled special [] := ⟨rfl, rfl, by simp⟩

/-! ## One step -/

theorem mem_of_mem_up (h : segment ∈ up stack) : segment ∈ stack := by
  cases stack with
  | nil => exact h
  | cons top below =>
    rw [up] at h
    split at h
    · exact h
    · exact List.mem_cons_of_mem top h

/-- A drive that starts a file path is settled, with its colon. -/
theorem IsSettled.kept (h : IsSettled special segment) :
    IsSettled special (kept file stack segment) := by
  unfold Path.kept
  split
  · next letter mark =>
    split
    · have hletter := h.chars letter List.mem_cons_self
      refine ⟨?_, ?_, ?_⟩
      · simp [isParent, Text.lower]
      · simp [isCurrent, Text.lower]
      · intro c hc
        simp only [List.mem_cons, List.not_mem_nil, or_false] at hc
        rcases hc with rfl | rfl
        · exact hletter
        · exact ⟨rfl, by decide, fun _ => by decide⟩
    · exact h
  · exact h

/-- **One step keeps a stack settled.** -/
theorem forall_settled_step (hstack : ∀ t ∈ stack, IsSettled special t)
    (hsegment : ∀ c ∈ segment, isEscapedInPath c = false ∧ c ≠ '/' ∧ (special = true → c ≠ '\\')) :
    ∀ t ∈ step file last stack segment, IsSettled special t := by
  have hnil := isSettled_nil special
  have hup : ∀ t ∈ up stack, IsSettled special t := fun t ht => hstack t (mem_of_mem_up ht)
  unfold step
  split
  · split
    · exact List.forall_mem_cons.mpr ⟨hnil, hup⟩
    · exact hup
  · next hparent =>
    split
    · split
      · exact List.forall_mem_cons.mpr ⟨hnil, hstack⟩
      · exact hstack
    · next hcurrent =>
      have hsettled : IsSettled special segment :=
        ⟨Bool.eq_false_iff.mpr hparent, Bool.eq_false_iff.mpr hcurrent, hsegment⟩
      exact List.forall_mem_cons.mpr ⟨hsettled.kept, hstack⟩

theorem step_last_ne_nil (file : Bool) (stack : Stack) (segment : Text) :
    step file true stack segment ≠ [] := by
  unfold step
  split
  · exact List.cons_ne_nil _ _
  · split
    · exact List.cons_ne_nil _ _
    · exact List.cons_ne_nil _ _

/-- A settled segment is pushed as it is. -/
theorem step_of_settled (h : IsSettled special segment) :
    step false last stack segment = segment :: stack := by
  have hkept : kept false stack segment = segment := by
    unfold kept
    split
    · exact if_neg (by simp)
    · rfl
  rw [step, h.parent, h.current, hkept]
  rfl

/-! ## A run over all segments -/

theorem forall_settled_walk {ps : List Text} (hstack : ∀ t ∈ stack, IsSettled special t)
    (hps : ∀ p ∈ ps, ∀ c ∈ p,
      isEscapedInPath c = false ∧ c ≠ '/' ∧ (special = true → c ≠ '\\')) :
    ∀ t ∈ walk file stack ps, IsSettled special t := by
  fun_induction walk file stack ps with
  | case1 stack => exact hstack
  | case2 stack p => exact forall_settled_step hstack (hps p List.mem_cons_self)
  | case3 stack p q ps ih =>
    exact ih (forall_settled_step hstack (hps p List.mem_cons_self))
      fun r hr => hps r (List.mem_cons_of_mem p hr)

theorem walk_ne_nil {ps : List Text} (hps : ps ≠ []) : walk file stack ps ≠ [] := by
  fun_induction walk file stack ps with
  | case1 => exact absurd rfl hps
  | case2 stack p => exact step_last_ne_nil file stack p
  | case3 stack p q ps ih => exact ih (List.cons_ne_nil q ps)

theorem walk_of_settled {ps : List Text} (hps : ∀ p ∈ ps, IsSettled special p) :
    walk false stack ps = ps.reverse ++ stack := by
  fun_induction walk false stack ps with
  | case1 stack => rfl
  | case2 stack p => exact step_of_settled (hps p List.mem_cons_self)
  | case3 stack p q ps ih =>
    rw [ih fun r hr => hps r (List.mem_cons_of_mem p hr),
      step_of_settled (hps p List.mem_cons_self)]
    simp

/-! ## A path -/

/-- **What is read of a path is settled.** -/
theorem forall_settled_segments (file special : Bool) (s : Text) :
    ∀ t ∈ segments file special s, IsSettled special t := by
  unfold segments
  refine forall_settled_walk (by simp) fun p hp c hc => ?_
  obtain ⟨hmem, hslash⟩ := Text.mem_of_mem_pieces hp hc
  obtain ⟨hescaped, horigin⟩ := mem_encodePath hmem
  refine ⟨hescaped, hslash, fun hspecial heq => ?_⟩
  subst heq
  rcases horigin with hmapped | hpercent | halnum
  · rw [if_pos hspecial] at hmapped
    obtain ⟨d, -, hd⟩ := List.mem_map.mp hmapped
    split at hd
    · exact absurd hd (by decide)
    · next hne => exact hne hd
  · exact absurd hpercent (by decide)
  · exact absurd halnum (by decide)

theorem segments_ne_nil (file special : Bool) (s : Text) : segments file special s ≠ [] :=
  walk_ne_nil (Text.pieces_ne_nil '/' _)

/-- **A settled stack is read back from its path**, after the slash that the path starts with. -/
theorem segments_join (hstack : ∀ t ∈ stack, IsSettled special t) (hne : stack ≠ []) :
    segments false special (Text.joinWith ['/'] stack.reverse) = stack := by
  have hreverse : ∀ t ∈ stack.reverse, IsSettled special t := fun t ht =>
    hstack t (List.mem_reverse.mp ht)
  have hchars : ∀ c ∈ Text.joinWith ['/'] stack.reverse,
      isEscapedInPath c = false ∧ (special = true → c ≠ '\\') := by
    intro c hc
    rcases Text.mem_joinWith hc with hslash | ⟨t, ht, hc⟩
    · obtain rfl := List.mem_singleton.mp hslash
      exact ⟨rfl, fun _ => by decide⟩
    · obtain ⟨hescaped, -, hback⟩ := (hreverse t ht).chars c hc
      exact ⟨hescaped, hback⟩
  have hslashes : ∀ t ∈ stack.reverse, '/' ∉ t := fun t ht hslash =>
    ((hreverse t ht).chars '/' hslash).2.1 rfl
  have hencode : encodePath (Text.joinWith ['/'] stack.reverse) =
      Text.joinWith ['/'] stack.reverse :=
    encodePath_eq_self fun c hc => (hchars c hc).1
  have hmap : (if special then (Text.joinWith ['/'] stack.reverse).map
      fun c => if c = '\\' then '/' else c else Text.joinWith ['/'] stack.reverse) =
      Text.joinWith ['/'] stack.reverse := by
    split
    · next hspecial =>
      have hid : ∀ c ∈ Text.joinWith ['/'] stack.reverse,
          (if c = '\\' then '/' else c) = c := fun c hc => if_neg ((hchars c hc).2 hspecial)
      rw [List.map_congr_left hid, List.map_id']
    · rfl
  unfold segments
  rw [hmap]
  show walk false [] (Text.pieces '/' (encodePath (Text.joinWith ['/'] stack.reverse))) = stack
  rw [hencode, Text.pieces_joinWith hslashes (by simpa using hne), walk_of_settled hreverse,
    List.reverse_reverse, List.append_nil]

/-! ## The path of a file -/

/-- What is left of segments without the slashes in front are the segments behind them. -/
theorem dropWhile_join {ps : List Text} (hps : ∀ p ∈ ps, '/' ∉ p) (hne : ps ≠ []) :
    ∃ front rest, ps = front ++ rest ∧ rest ≠ [] ∧
      (Text.joinWith ['/'] ps).dropWhile (· == '/') = Text.joinWith ['/'] rest := by
  fun_induction Text.joinWith ['/'] ps with
  | case1 => exact absurd rfl hne
  | case2 p =>
    refine ⟨[], [p], rfl, hne, Text.dropWhile_eq_self ?_⟩
    cases p with
    | nil => rfl
    | cons c p =>
      have hc : c ≠ '/' := fun heq => hps _ List.mem_cons_self (heq ▸ List.mem_cons_self)
      simpa [Text.startsWith] using hc
  | case3 p q ps ih =>
    cases p with
    | nil =>
      obtain ⟨front, rest, hsplit, hrest, hdrop⟩ :=
        ih (fun r hr => hps r (List.mem_cons_of_mem [] hr)) (List.cons_ne_nil q ps)
      exact ⟨[] :: front, rest, by rw [hsplit, List.cons_append], hrest, hdrop⟩
    | cons c p =>
      have hc : c ≠ '/' := fun heq => hps _ List.mem_cons_self (heq ▸ List.mem_cons_self)
      refine ⟨[], _, rfl, hne, Text.dropWhile_eq_self ?_⟩
      simpa [Text.startsWith] using hc

end UriRouting.Url.Path

namespace UriRouting.Url

/-! ## The path of a URL with a host -/

variable {kind : Kind} {path : Text} {stack : Path.Stack} {c : Char}

/-- **`IsPath kind path`** — what the path of a URL with a host looks like once it was read: that of
settled segments, or none, which only schemes without fixed rules have. -/
def IsPath (kind : Kind) (path : Text) : Prop :=
  (kind.isSpecial = false ∧ path = []) ∨
    ∃ stack, stack ≠ [] ∧ (∀ t ∈ stack, Path.IsSettled kind.isSpecial t) ∧ path = Path.render stack

theorem IsPath.inPath (h : IsPath kind path) (hc : c ∈ path) : isEscapedInPath c = false := by
  rcases h with ⟨-, rfl⟩ | ⟨stack, -, hstack, rfl⟩
  · exact absurd hc List.not_mem_nil
  · rcases List.mem_cons.mp hc with rfl | hc
    · rfl
    · rcases Text.mem_joinWith hc with hslash | ⟨t, ht, hc⟩
      · obtain rfl := List.mem_singleton.mp hslash
        rfl
      · exact ((hstack t (List.mem_reverse.mp ht)).chars c hc).1

theorem IsPath.eq_nil_or (h : IsPath kind path) : path = [] ∨ path.head? = some '/' := by
  rcases h with ⟨-, rfl⟩ | ⟨stack, -, -, rfl⟩
  · exact .inl rfl
  · exact .inr rfl

theorem isPath_pathAfter (kind : Kind) (s : Text) : IsPath kind (pathAfter kind s) := by
  have hread : ∀ t, IsPath kind (Path.render (Path.segments false kind.isSpecial t)) := fun t =>
    .inr ⟨_, Path.segments_ne_nil _ _ t, Path.forall_settled_segments _ _ t, rfl⟩
  unfold pathAfter
  split
  · split
    · refine .inr ⟨[[]], List.cons_ne_nil _ _, fun t ht => ?_, rfl⟩
      obtain rfl := List.mem_singleton.mp ht
      exact Path.isSettled_nil _
    · next hspecial => exact .inl ⟨Bool.eq_false_iff.mpr hspecial, rfl⟩
  · split
    · exact hread _
    · exact hread _

/-- The path of a file is that of its segments behind the slashes in front. -/
theorem isPath_renderFile (hne : stack ≠ []) (hstack : ∀ t ∈ stack, Path.IsSettled true t) :
    IsPath .file (Path.renderFile stack) := by
  have hslashes : ∀ t ∈ stack.reverse, '/' ∉ t := fun t ht hslash =>
    ((hstack t (List.mem_reverse.mp ht)).chars '/' hslash).2.1 rfl
  obtain ⟨front, rest, hsplit, hrest, hdrop⟩ :=
    Path.dropWhile_join hslashes (by simpa using hne)
  -- the slashes in front are empty segments, which are the last ones of the stack
  refine .inr ⟨rest.reverse, by simpa using hrest, fun t ht => hstack t ?_, ?_⟩
  · rw [← List.mem_reverse, hsplit]
    exact List.mem_append_right front (List.mem_reverse.mp ht)
  · show '/' :: (Text.joinWith ['/'] stack.reverse).dropWhile (· == '/') = _
    rw [hdrop, Path.render, List.reverse_reverse]

/-- **A path that was read is its own reading.** -/
theorem pathAfter_eq_self (h : IsPath kind path) : pathAfter kind path = path := by
  rcases h with ⟨hspecial, rfl⟩ | ⟨stack, hne, hstack, rfl⟩
  · rw [pathAfter, hspecial]
    rfl
  · rw [Path.render, pathAfter, if_pos (.inl rfl), Path.segments_join hstack hne, Path.render]

end UriRouting.Url
