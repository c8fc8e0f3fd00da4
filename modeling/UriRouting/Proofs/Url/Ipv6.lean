/-
# UriRouting.Proofs.Url.Ipv6 — an IPv6 address is read back

An address is eight groups of 16 bits (`IsAddress`), and what is read is one, however it was written
(`isAddress_of_read`).  It is written as its groups between colons, or as the groups before a run of
two or more zeros, two colons, and the groups behind the run (`render_cases`).  Groups between colons
are read one by one (`groups_colons`).  Two colons leave a zero and a mark where it stands, and in
the end as many zeros are put there as the other groups leave free, which are those of the run.  So
every address is read back from its shortest form (`read_render`).
-/
import UriRouting.Url.Host
import UriRouting.Proofs.Text.Digits
import UriRouting.Proofs.Text.Pieces

namespace UriRouting.Url.Ipv6

open Text (hexDigits)

/-- **`IsAddress gs`** — eight groups of 16 bits. -/
def IsAddress (gs : List Nat) : Prop := gs.length = 8 ∧ ∀ n ∈ gs, n < 0x10000

instance (gs : List Nat) : Decidable (IsAddress gs) := inferInstanceAs (Decidable (_ ∧ _))

/-! ## One group -/

variable {n fuel : Nat} {g : Groups} {rest : Text}

theorem isSome_hexValue_of_mem_hexDigits {c : Char} (h : c ∈ hexDigits n) :
    (Percent.hexValue c).isSome = true :=
  Text.isSome_hexValue_of_mem_toDigits (by decide) (by decide) n c h

theorem hexDigits_ne_nil (n : Nat) : hexDigits n ≠ [] := Nat.toDigits_ne_nil

/-- The digits of a group have its value. -/
theorem value_hexDigits (n : Nat) :
    (hexDigits n).foldl (fun acc c => 16 * acc + (Percent.hexValue c).getD 0) 0 = n := by
  refine Text.toDigits_induction (by decide : 1 < 16) (P := fun n digits =>
    digits.foldl (fun acc c => 16 * acc + (Percent.hexValue c).getD 0) 0 = n) ?_ ?_ n
  · intro d hd
    simp [Text.hexValue_digitChar d hd]
  · intro n d digits _ hd _ ih
    simp [ih, Text.hexValue_digitChar d hd]

/-- A group is read up to the first character that is no digit. -/
theorem group_hexDigits (rest : Text) (hn : n < 0x10000)
    (hrest : Text.startsWith (fun c => (Percent.hexValue c).isSome) rest = false) :
    group (hexDigits n ++ rest) = (n, rest) := by
  have hlength : (hexDigits n).length ≤ 4 :=
    (Nat.length_toDigits_le_iff (by decide) (by decide)).mpr hn
  have htake : (hexDigits n ++ rest).take 4 =
      hexDigits n ++ rest.take (4 - (hexDigits n).length) := by
    rw [List.take_append, List.take_of_length_le hlength]
  have hback : Text.startsWith (fun c => (Percent.hexValue c).isSome)
      (rest.take (4 - (hexDigits n).length)) = false := by
    cases rest with
    | nil => rw [List.take_nil, Text.startsWith]
    | cons c rest =>
      cases 4 - (hexDigits n).length with
      | zero => rfl
      | succ k => exact hrest
  have hdigits : ((hexDigits n ++ rest).take 4).takeWhile (fun c => (Percent.hexValue c).isSome) =
      hexDigits n := by
    rw [htake]
    exact Text.takeWhile_run (fun c => isSome_hexValue_of_mem_hexDigits) hback
  rw [group]
  simp only [hdigits, value_hexDigits, List.drop_left]

/-- The digits of a group do not start with a colon. -/
theorem exists_hexDigits_eq_cons (n : Nat) : ∃ c s, hexDigits n = c :: s ∧ c ≠ ':' := by
  obtain ⟨c, s, hcons⟩ := List.exists_cons_of_ne_nil (hexDigits_ne_nil n)
  refine ⟨c, s, hcons, ?_⟩
  rintro rfl
  have hhex : ':' ∈ hexDigits n := by
    rw [hcons]
    exact List.mem_cons_self
  exact absurd (isSome_hexValue_of_mem_hexDigits hhex) (by decide)

theorem groups_hexDigits (hn : n < 0x10000) (hg : g.read.length < 8) :
    groups (fuel + 1) g (hexDigits n) = some (g.push n) := by
  obtain ⟨c, s, hcons, hc⟩ := exists_hexDigits_eq_cons n
  have hgroup := group_hexDigits [] hn rfl
  rw [List.append_nil] at hgroup
  rw [hcons] at hgroup ⊢
  rw [groups, if_neg (by omega), if_neg hc, hgroup]

theorem groups_hexDigits_colon (hn : n < 0x10000) (hg : g.read.length < 8) (hrest : rest ≠ []) :
    groups (fuel + 1) g (hexDigits n ++ ':' :: rest) = groups fuel (g.push n) rest := by
  obtain ⟨c, s, hcons, hc⟩ := exists_hexDigits_eq_cons n
  have hgroup := group_hexDigits (':' :: rest) hn rfl
  rw [hcons, List.cons_append] at hgroup ⊢
  rw [groups, if_neg (by omega), if_neg hc, hgroup]
  exact if_neg hrest

/-! ## Groups between colons -/

theorem colons_cons_cons (n m : Nat) (ns : List Nat) :
    colons (n :: m :: ns) = hexDigits n ++ ':' :: colons (m :: ns) := by
  simp [colons, Text.joinWith]

theorem colons_singleton (n : Nat) : colons [n] = hexDigits n := rfl

theorem colons_ne_nil (n : Nat) (ns : List Nat) : colons (n :: ns) ≠ [] := by
  cases ns with
  | nil => exact hexDigits_ne_nil n
  | cons m ns =>
    rw [colons_cons_cons]
    exact List.append_ne_nil_of_left_ne_nil (hexDigits_ne_nil n) _

/-- Every group takes a character. -/
theorem length_le_length_colons (ns : List Nat) : ns.length ≤ (colons ns).length := by
  induction ns with
  | nil => exact Nat.le_refl 0
  | cons n ns ih =>
    have hn := List.length_pos_iff.mpr (hexDigits_ne_nil n)
    cases ns with
    | nil => exact hn
    | cons m ns =>
      rw [colons_cons_cons]
      simp only [List.length_append, List.length_cons] at ih ⊢
      omega

/-- What stands between the colons. -/
theorem mem_colons {ns : List Nat} {c : Char} (h : c ∈ colons ns) :
    c = ':' ∨ (Percent.hexValue c).isSome = true := by
  rcases Text.mem_joinWith h with hcolon | ⟨t, ht, hc⟩
  · exact .inl (List.mem_singleton.mp hcolon)
  · obtain ⟨n, -, rfl⟩ := List.mem_map.mp ht
    exact .inr (isSome_hexValue_of_mem_hexDigits hc)

/-- Groups are read one by one. -/
theorem groups_colons {ns : List Nat} (hns : ∀ n ∈ ns, n < 0x10000)
    (hg : g.read.length + ns.length ≤ 8) (hfuel : ns.length ≤ fuel) :
    groups fuel g (colons ns) = some { g with read := g.read ++ ns } := by
  induction ns generalizing fuel g with
  | nil =>
    show groups fuel g [] = _
    rw [groups, List.append_nil]
  | cons n ns ih =>
    rw [List.length_cons] at hg hfuel
    obtain ⟨fuel, rfl⟩ := Nat.exists_eq_add_of_lt (Nat.lt_of_lt_of_le (Nat.zero_lt_succ _) hfuel)
    rw [Nat.zero_add] at hfuel ⊢
    have hn := hns n List.mem_cons_self
    cases ns with
    | nil => rw [colons_singleton, groups_hexDigits hn (by omega), Groups.push]
    | cons m ns =>
      have hpush : (g.push n).read.length + (m :: ns).length ≤ 8 := by
        simp only [Groups.push, List.length_append, List.length_cons, List.length_nil] at hg ⊢
        omega
      rw [colons_cons_cons, groups_hexDigits_colon hn (by omega) (colons_ne_nil m ns),
        ih (fun k hk => hns k (List.mem_cons_of_mem n hk)) hpush (by omega)]
      simp [Groups.push]

/-- Groups are read up to two colons, of which the last group takes one. -/
theorem groups_colons_gap {ns : List Nat} (hne : ns ≠ []) (hns : ∀ n ∈ ns, n < 0x10000)
    (hg : g.read.length + ns.length ≤ 8) :
    groups (ns.length + fuel) g (colons ns ++ ':' :: ':' :: rest) =
      groups fuel { g with read := g.read ++ ns } (':' :: rest) := by
  induction ns generalizing g with
  | nil => exact absurd rfl hne
  | cons n ns ih =>
    rw [List.length_cons] at hg
    have hn := hns n List.mem_cons_self
    have hfuel : (n :: ns).length + fuel = ns.length + fuel + 1 := by
      rw [List.length_cons]
      omega
    rw [hfuel]
    cases ns with
    | nil =>
      -- of the two colons one belongs to the group, and the other is left
      rw [colons_singleton, groups_hexDigits_colon hn (by omega) (List.cons_ne_nil _ _)]
      simp [Groups.push]
    | cons m ns =>
      have hpush : (g.push n).read.length + (m :: ns).length ≤ 8 := by
        simp only [Groups.push, List.length_append, List.length_cons, List.length_nil] at hg ⊢
        omega
      have hnext := ih (List.cons_ne_nil m ns) (fun k hk => hns k (List.mem_cons_of_mem n hk)) hpush
      rw [colons_cons_cons, List.append_assoc, List.cons_append,
        groups_hexDigits_colon hn (by omega)
          (List.append_ne_nil_of_left_ne_nil (colons_ne_nil m ns) _), hnext]
      simp [Groups.push]

/-- The second of two colons opens the gap. -/
theorem groups_gap (hg : g.read.length < 8) (hgap : g.gap = none) :
    groups (fuel + 1) g (':' :: rest) = groups fuel g.open rest := by
  rw [groups, if_neg (by omega), if_pos rfl, hgap]
  rfl

/-- The zeros that are missing are put where the gap is. -/
theorem close_gap {before after : List Nat} {k : Nat}
    (hk : before.length + (k + 1) + after.length = 8) :
    Groups.close ⟨before ++ 0 :: after, some (before.length + 1)⟩ =
      some (before ++ List.replicate (k + 1) 0 ++ after) := by
  have hlength : (before ++ 0 :: after).length = 8 - k := by
    rw [List.length_append, List.length_cons]
    omega
  have hsplit : before ++ 0 :: after = (before ++ [0]) ++ after := by simp
  have hfront : (before ++ 0 :: after).take (before.length + 1) = before ++ [0] := by
    rw [hsplit]
    exact List.take_left' (by simp)
  have hback : (before ++ 0 :: after).drop (before.length + 1) = after := by
    rw [hsplit]
    exact List.drop_left' (by simp)
  show (if (before ++ 0 :: after).length ≤ 8 then _ else none) = _
  rw [if_pos (by omega), hfront, hback, hlength, show 8 - (8 - k) = k by omega,
    List.append_assoc before, ← List.singleton_append, List.replicate_succ]
  rfl

/-! ## The longest run of zeros -/

theorem zeros_split (gs : List Nat) : ∃ after, gs = List.replicate (zeros gs) 0 ++ after := by
  refine ⟨gs.dropWhile (· == 0), ?_⟩
  have hzeros : gs.takeWhile (· == 0) = List.replicate (zeros gs) 0 := by
    rw [List.eq_replicate_iff]
    refine ⟨rfl, fun n hn => ?_⟩
    exact beq_iff_eq.mp (List.mem_takeWhile_imp (p := (· == 0)) hn)
  rw [← hzeros, List.takeWhile_append_dropWhile]

theorem longestZeros_split (gs : List Nat) (start : Nat) :
    ∃ before after, gs = before ++ List.replicate (longestZeros start gs).2 0 ++ after ∧
      (longestZeros start gs).1 = start + before.length := by
  induction gs generalizing start with
  | nil => exact ⟨[], [], rfl, rfl⟩
  | cons g gs ih =>
    rw [longestZeros]
    split
    · obtain ⟨after, hafter⟩ := zeros_split (g :: gs)
      exact ⟨[], after, hafter, rfl⟩
    · obtain ⟨before, after, hsplit, hstart⟩ := ih (start + 1)
      refine ⟨g :: before, after, ?_, ?_⟩
      · rw [List.cons_append, List.cons_append, ← hsplit]
      · rw [List.length_cons]
        omega

/-- An address is written group by group, or with two colons for a run of at least two zeros. -/
theorem render_cases (gs : List Nat) :
    render gs = colons gs ∨ ∃ before k after, gs = before ++ List.replicate (k + 2) 0 ++ after ∧
      render gs = colons before ++ ':' :: ':' :: colons after := by
  obtain ⟨before, after, hsplit, hstart⟩ := longestZeros_split gs 0
  rw [render]
  generalize longestZeros 0 gs = run at hsplit hstart
  obtain ⟨start, length⟩ := run
  rw [Nat.zero_add] at hstart
  dsimp only at hsplit hstart ⊢
  split
  · next hlength =>
    refine .inr ⟨before, length - 2, after, ?_, ?_⟩
    · rw [Nat.sub_add_cancel hlength]
      exact hsplit
    · have hfront : gs.take start = before := by
        rw [hsplit, List.append_assoc]
        exact List.take_left' hstart.symm
      have hback : gs.drop (start + length) = after := by
        rw [hsplit]
        exact List.drop_left' (by simp [hstart])
      rw [hfront, hback]
      simp
  · exact .inl rfl

theorem mem_render {gs : List Nat} {c : Char} (h : c ∈ render gs) :
    c = ':' ∨ (Percent.hexValue c).isSome = true := by
  rcases render_cases gs with hall | ⟨before, k, after, -, hrun⟩
  · rw [hall] at h
    exact mem_colons h
  · rw [hrun] at h
    simp only [List.mem_append, List.mem_cons] at h
    rcases h with hbefore | rfl | rfl | hafter
    · exact mem_colons hbefore
    · exact .inl rfl
    · exact .inl rfl
    · exact mem_colons hafter

/-! ## Reading what was written -/

/-- A text that does not start with a colon is read from its first group on. -/
theorem read_of_head {s : Text} (h : s.head? ≠ some ':') :
    read s = (groups s.length {} s).bind Groups.close := by
  unfold read
  split
  · exact absurd rfl h
  · exact absurd rfl h
  · rfl

theorem head?_colons_append {ns : List Nat} (hne : ns ≠ []) (t : Text) :
    (colons ns ++ t).head? ≠ some ':' := by
  obtain ⟨n, ns, rfl⟩ := List.exists_cons_of_ne_nil hne
  obtain ⟨c, s, hcons, hc⟩ := exists_hexDigits_eq_cons n
  cases ns with
  | nil =>
    rw [colons_singleton, hcons]
    simpa using hc
  | cons m ns =>
    rw [colons_cons_cons, hcons]
    simpa using hc

theorem read_colons {gs : List Nat} (h : IsAddress gs) : read (colons gs) = some gs := by
  have hlength : gs.length = 8 := h.1
  have hhead := head?_colons_append (t := []) (List.ne_nil_of_length_pos (by omega : 0 < gs.length))
  rw [List.append_nil] at hhead
  rw [read_of_head hhead, groups_colons h.2 (by simp [hlength]) (length_le_length_colons gs)]
  show (if gs.length = 8 then some gs else none) = some gs
  exact if_pos hlength

theorem read_gap {before after : List Nat} {k : Nat}
    (h : IsAddress (before ++ List.replicate (k + 2) 0 ++ after)) :
    read (colons before ++ ':' :: ':' :: colons after) =
      some (before ++ List.replicate (k + 2) 0 ++ after) := by
  obtain ⟨hlength, hgroups⟩ := h
  simp only [List.length_append, List.length_replicate] at hlength
  have hbefore : ∀ n ∈ before, n < 0x10000 := fun n hn => hgroups n (by simp [hn])
  have hafter : ∀ n ∈ after, n < 0x10000 := fun n hn => hgroups n (by simp [hn])
  -- what is read behind the gap, and put together with what stands before it
  have hback : ∀ fuel, after.length ≤ fuel →
      (groups fuel ⟨before ++ [0], some (before.length + 1)⟩ (colons after)).bind Groups.close =
        some (before ++ List.replicate (k + 2) 0 ++ after) := by
    intro fuel hfuel
    have hroom : (before ++ [0]).length + after.length ≤ 8 := by
      rw [List.length_append, List.length_singleton]
      omega
    rw [groups_colons hafter hroom hfuel, Option.bind_some, List.append_assoc,
      List.singleton_append]
    exact close_gap (by omega)
  by_cases hempty : before = []
  · subst hempty
    exact hback _ (length_le_length_colons after)
  · have hfuel : (colons before ++ ':' :: ':' :: colons after).length =
        before.length + ((colons before).length - before.length + 1 +
          (colons after).length + 1) := by
      have hle := length_le_length_colons before
      simp only [List.length_append, List.length_cons]
      omega
    have hle := length_le_length_colons after
    rw [read_of_head (head?_colons_append hempty _), hfuel,
      groups_colons_gap hempty hbefore (by simp; omega), groups_gap (by simp; omega) rfl]
    exact hback _ (by omega)

/-- **An address is read from its shortest form.** -/
theorem read_render {gs : List Nat} (h : IsAddress gs) : read (render gs) = some gs := by
  rcases render_cases gs with hall | ⟨before, k, after, rfl, hrun⟩
  · rw [hall]
    exact read_colons h
  · rw [hrun]
    exact read_gap h

/-! ## What is read is an address -/

/-- **`Fits g`** — at most eight groups, of 16 bits each. -/
structure Groups.Fits (g : Groups) : Prop where
  length : g.read.length ≤ 8
  bits : ∀ n ∈ g.read, n < 0x10000

theorem Groups.Fits.append (hg : g.Fits) (ns : List Nat) (hlength : g.read.length + ns.length ≤ 8)
    (hns : ∀ n ∈ ns, n < 0x10000) (gap : Option Nat) : Fits ⟨g.read ++ ns, gap⟩ where
  length := by
    rw [List.length_append]
    exact hlength
  bits n hn := (List.mem_append.mp hn).elim (hg.bits n) (hns n)

/-- Up to four digits have a value of 16 bits. -/
theorem group_lt (s : Text) : (group s).1 < 0x10000 := by
  have hlength : ((s.take 4).takeWhile fun c => (Percent.hexValue c).isSome).length ≤ 4 :=
    ((List.takeWhile_prefix _).length_le).trans (List.length_take_le 4 s)
  simp only [group]
  generalize (s.take 4).takeWhile (fun c => (Percent.hexValue c).isSome) = digits at hlength ⊢
  have hvalue : ∀ c ∈ digits, (Percent.hexValue c).getD 0 < 16 := fun _ _ => Text.hexValue_lt
  have hdigits := Text.foldl_digits_lt hvalue 0
  have hpow := Nat.pow_le_pow_right (by decide : 0 < 16) hlength
  omega

theorem byte?_lt {t : Text} (h : byte? t = some n) : n < 256 := by
  unfold byte? at h
  split at h
  · cases h
  · split at h
    · split at h
      · next hlt =>
        obtain rfl := Option.some.inj h
        exact hlt
      · cases h
    · cases h

theorem forall_of_mapM {α β : Type} {f : α → Option β} {P : β → Prop}
    (hf : ∀ a b, f a = some b → P b) {as : List α} {bs : List β} (h : as.mapM f = some bs) :
    ∀ b ∈ bs, P b := by
  induction as generalizing bs with
  | nil =>
    obtain rfl := Option.some.inj (by simpa using h)
    simp
  | cons a as ih =>
    simp only [List.mapM_cons, Option.bind_eq_bind, Option.bind_eq_some_iff] at h
    obtain ⟨b, hb, rest, hrest, hbs⟩ := h
    obtain rfl := Option.some.inj hbs
    exact List.forall_mem_cons.mpr ⟨hf a b hb, ih hrest⟩

theorem dotted_fits {s : Text} {ns : List Nat} (h : dotted s = some ns) :
    ns.length = 2 ∧ ∀ n ∈ ns, n < 0x10000 := by
  unfold dotted at h
  split at h
  · next a b c d hbytes =>
    have hlt := forall_of_mapM (P := (· < 256)) (fun _ _ => byte?_lt) hbytes
    simp only [List.forall_mem_cons] at hlt
    obtain rfl := Option.some.inj h
    refine ⟨rfl, ?_⟩
    simp only [List.forall_mem_cons]
    refine ⟨?_, ?_, by simp⟩ <;> omega
  · cases h

theorem Groups.Fits.push (hg : g.Fits) (hroom : g.read.length ≠ 8) (hn : n < 0x10000) :
    (g.push n).Fits := by
  have hlength := hg.length
  refine hg.append [n] ?_ (by simpa using hn) g.gap
  rw [List.length_singleton]
  omega

theorem Groups.Fits.open (hg : g.Fits) (hroom : g.read.length ≠ 8) : g.open.Fits := by
  have hlength := hg.length
  refine hg.append [0] ?_ (by simp) (some (g.read.length + 1))
  rw [List.length_singleton]
  omega

/-- **Groups that fit stay so**, whatever is read. -/
theorem fits_groups {s : Text} {g' : Groups} (hg : g.Fits) (h : groups fuel g s = some g') :
    g'.Fits := by
  fun_induction groups fuel g s with
  | case1 => exact Option.some.inj h ▸ hg
  | case2 | case3 | case4 | case7 | case9 | case11 => cases h
  | case5 fuel g s hroom hgap ih => exact ih (hg.open hroom) h
  | case6 fuel g c s hroom hc n hgroup =>
    have hn := group_lt (c :: s)
    rw [hgroup] at hn
    exact Option.some.inj h ▸ hg.push hroom hn
  | case8 fuel g c s hroom hc n rest hgroup hrest ih =>
    have hn := group_lt (c :: s)
    rw [hgroup] at hn
    exact ih (hg.push hroom hn) h
  | case10 fuel g c s hroom hc n rest hgroup hsix =>
    obtain ⟨ns, hdotted, rfl⟩ := Option.map_eq_some_iff.mp h
    obtain ⟨htwo, hns⟩ := dotted_fits hdotted
    exact hg.append ns (by omega) hns g.gap

/-- The gap is filled up to eight groups. -/
theorem isAddress_of_close {gs : List Nat} (hg : g.Fits) (h : g.close = some gs) :
    IsAddress gs := by
  have hlength := hg.length
  unfold Groups.close at h
  split at h
  · next before _ =>
    rw [if_pos hlength] at h
    obtain rfl := Option.some.inj h
    constructor
    · simp only [List.length_append, List.length_replicate, List.length_take, List.length_drop]
      omega
    · intro n hn
      simp only [List.mem_append, List.mem_replicate] at hn
      rcases hn with (hfront | ⟨-, rfl⟩) | hback
      · exact hg.bits n (List.mem_of_mem_take hfront)
      · decide
      · exact hg.bits n (List.mem_of_mem_drop hback)
  · split at h
    · next height =>
      obtain rfl := Option.some.inj h
      exact ⟨height, hg.bits⟩
    · cases h

/-- **What is read is an address**, however it was written. -/
theorem isAddress_of_read {s : Text} {gs : List Nat} (h : read s = some gs) : IsAddress gs := by
  have hempty : Groups.Fits {} := ⟨by simp, by simp⟩
  have hbind : ∀ {fuel : Nat} {g : Groups} {t : Text}, g.Fits →
      (groups fuel g t).bind Groups.close = some gs → IsAddress gs := by
    intro fuel g t hg hread
    obtain ⟨g', hgroups, hclose⟩ := Option.bind_eq_some_iff.mp hread
    exact isAddress_of_close (fits_groups hg hgroups) hclose
  unfold read at h
  split at h
  · exact hbind (hempty.open (by decide)) h
  · cases h
  · exact hbind hempty h

end UriRouting.Url.Ipv6
