import ScriptSandbox.Proofs.Modules.Specifier
import ScriptSandbox.Url.Read

/-!
# URLs of the web

A text that begins with `http://` or `https://` is read, if at all, as a URL of one of these two
schemes with a host (`read?_onWeb`). A path that is joined onto such a URL names no scheme of its
own, so that the result has that of the base (`join?_onWeb`), and its text begins with one of the
two again (`isAbsoluteUrl_text`).
-/

namespace ScriptSandbox.Url

/-- A URL that a content network can be asked for. -/
structure OnWeb (u : Url) : Prop where
  scheme : u.scheme = "https".toList ∨ u.scheme = "http".toList
  host : u.host.isSome = true

variable {u v : Url}

@[simp] theorem withRest_scheme (u : Url) (s : List Char) : (u.withRest s).scheme = u.scheme := by
  unfold withRest
  split <;> rfl

@[simp] theorem withRest_host (u : Url) (s : List Char) : (u.withRest s).host = u.host := by
  unfold withRest
  split <;> rfl

theorem OnWeb.congr (h : u.OnWeb) (hscheme : v.scheme = u.scheme) (hhost : v.host = u.host) :
    v.OnWeb :=
  ⟨hscheme ▸ h.scheme, hhost ▸ h.host⟩

theorem OnWeb.kind (h : u.OnWeb) : u.kind = .web := by
  rw [Url.kind]
  rcases h.scheme with hs | hs <;> rw [hs] <;> decide

theorem OnWeb.isOpaque (h : u.OnWeb) : u.isOpaque = false := by
  obtain ⟨host, hhost⟩ := Option.isSome_iff_exists.mp h.host
  rw [Url.isOpaque, hhost]
  rfl

/-! ## Reading -/

theorem readAuthority?_spec {scheme s : List Char} (h : readAuthority? scheme s = some u) :
    u.scheme = scheme ∧ u.host.isSome = true := by
  have hplace {host? : Option Host} {port? : Option (Option Nat)} {f : Host → Option Nat → Url}
      (h : (host?.bind fun host => port?.bind fun port => some (f host port)) = some u) :
      ∃ host port, f host port = u := by
    obtain ⟨host, -, hport⟩ := Option.bind_eq_some_iff.mp h
    obtain ⟨port, -, hu⟩ := Option.bind_eq_some_iff.mp hport
    exact ⟨host, port, Option.some.inj hu⟩
  unfold readAuthority? at h
  simp only [Option.bind_eq_bind, Option.pure_def] at h
  -- Who is named before the host, and whether the host is empty, decide only whether all is read.
  repeat' split at h
  all_goals simp only [Option.bind_some, Option.bind_none, reduceCtorEq] at h
  all_goals repeat' split at h
  all_goals first
    | cases h
    | obtain ⟨host, port, rfl⟩ := hplace h
      simp

/-- A text without a scheme keeps the base's. -/
theorem readRelative?_onWeb (hu : u.OnWeb) {s : List Char} (h : readRelative? u s = some v) :
    v.OnWeb := by
  have hauthority {s : List Char} (h : readAuthority? u.scheme s = some v) : v.OnWeb := by
    obtain ⟨hscheme, hhost⟩ := readAuthority?_spec h
    exact ⟨hscheme ▸ hu.scheme, hhost⟩
  unfold readRelative? at h
  split at h
  · obtain rfl := Option.some.inj h
    exact hu.congr rfl rfl
  · obtain rfl := Option.some.inj h
    exact hu.congr (withRest_scheme ..) (withRest_host ..)
  · obtain rfl := Option.some.inj h
    exact hu.congr rfl rfl
  · split at h
    · split at h
      · split at h <;> exact hauthority h
      · obtain rfl := Option.some.inj h
        exact hu.congr (withRest_scheme ..) (withRest_host ..)
    · obtain rfl := Option.some.inj h
      exact hu.congr (withRest_scheme ..) (withRest_host ..)

/-- Blanks, controls and line breaks that count for nothing are not in a text that begins without
one. -/
theorem cleaned_of_prefix {s : String} {start : List Char} (hstart : start <+: s.toList)
    (hne : start ≠ []) (hprinted : ∀ c ∈ start, 32 < c.toNat) : start <+: cleaned s := by
  obtain ⟨rest, hs⟩ := hstart
  obtain ⟨c, start, rfl⟩ := List.exists_cons_of_ne_nil hne
  have hlow {d : Char} (hd : d ∈ c :: start) : decide (d.toNat ≤ 32) = false :=
    decide_eq_false (Nat.not_le_of_gt (hprinted d hd))
  have hfront : s.toList.dropWhile (fun d => decide (d.toNat ≤ 32)) = c :: start ++ rest := by
    rw [← hs, List.cons_append, List.dropWhile_cons_of_neg]
    simp [hlow (List.mem_cons_self ..)]
  have hback : ((c :: start ++ rest).reverse.dropWhile fun d => decide (d.toNat ≤ 32)).reverse =
      c :: start ++ (rest.reverse.dropWhile fun d => decide (d.toNat ≤ 32)).reverse := by
    rw [List.reverse_append, List.dropWhile_append]
    split
    · next hempty =>
        rw [List.isEmpty_iff.mp hempty]
        have hkept : (c :: start).reverse.dropWhile (fun d => decide (d.toNat ≤ 32)) =
            (c :: start).reverse := by
          cases hrev : (c :: start).reverse with
          | nil => rfl
          | cons d ds =>
              have hd : d ∈ c :: start := by
                rw [← List.mem_reverse, hrev]
                exact List.mem_cons_self ..
              exact List.dropWhile_cons_of_neg (by simp [hlow hd])
        rw [hkept, List.reverse_reverse, List.reverse_nil, List.append_nil]
    · rw [List.reverse_append, List.reverse_reverse]
  have hkept : (c :: start).filter (fun d => d != '\t' && d != '\n' && d != '\r') = c :: start := by
    refine List.filter_eq_self.mpr fun d hd => ?_
    have hlt := hprinted d hd
    have hne {e : Char} (he : e.toNat ≤ 32) : d ≠ e := fun heq => by
      rw [heq] at hlt
      omega
    simp [hne (e := '\t') (by decide), hne (e := '\n') (by decide), hne (e := '\r') (by decide)]
  rw [cleaned, hfront, hback, List.filter_append, hkept]
  exact List.prefix_append _ _

/-- The scheme that a text of the web begins with. -/
theorem splitScheme_of_prefix {s : List Char} {scheme : String}
    (hscheme : scheme = "https" ∨ scheme = "http") (hs : (scheme ++ "://").toList <+: s) :
    ∃ rest, splitScheme s = some (scheme.toList, rest) := by
  obtain ⟨rest, rfl⟩ := hs
  rcases hscheme with rfl | rfl
  · exact ⟨'/' :: '/' :: rest, by simp [splitScheme, Text.isAsciiLetter, Text.isAsciiDigit]⟩
  · exact ⟨'/' :: '/' :: rest, by simp [splitScheme, Text.isAsciiLetter, Text.isAsciiDigit]⟩

theorem read?_onWeb {s : String} (hs : Specifier.isAbsoluteUrl s = true)
    (h : read? s = some u) : u.OnWeb := by
  have hprefix : ∃ scheme, (scheme = "https" ∨ scheme = "http") ∧
      (scheme ++ "://").toList <+: cleaned s := by
    rcases Specifier.isAbsoluteUrl_iff.mp hs with hs | hs
    · exact ⟨"https", .inl rfl, cleaned_of_prefix (Specifier.startsWith_iff.mp hs)
        (by decide) (by simp)⟩
    · exact ⟨"http", .inr rfl, cleaned_of_prefix (Specifier.startsWith_iff.mp hs)
        (by decide) (by simp)⟩
  obtain ⟨scheme, hscheme, hclean⟩ := hprefix
  obtain ⟨rest, hsplit⟩ := splitScheme_of_prefix hscheme hclean
  have hkind : SchemeKind.of scheme.toList = .web := by
    rcases hscheme with rfl | rfl <;> decide
  simp only [read?, readFrom?, hsplit, readAfterScheme?, hkind] at h
  obtain ⟨hread, hhost⟩ := readAuthority?_spec h
  exact ⟨hread ▸ hscheme.imp (congrArg _) (congrArg _), hhost⟩

/-- A path that is joined onto a URL of the web gives another one. -/
theorem join?_onWeb (hu : u.OnWeb) {s : String} {c : Char} (hhead : s.toList.head? = some c)
    (hc : c = '.' ∨ c = '/') (h : u.join? s = some v) : v.OnWeb := by
  obtain ⟨rest, hs⟩ := List.head?_eq_some_iff.mp hhead
  have hprinted : 32 < c.toNat := by
    rcases hc with rfl | rfl <;> decide
  obtain ⟨rest, hclean⟩ := cleaned_of_prefix ⟨rest, by rw [hs]; rfl⟩ (List.cons_ne_nil c [])
    (List.forall_mem_singleton.mpr hprinted)
  have hsplit : splitScheme (cleaned s) = none := by
    rw [← hclean]
    rcases hc with rfl | rfl <;> rfl
  have hmark : ((cleaned s).head? == some '#') = false := by
    rw [← hclean]
    rcases hc with rfl | rfl <;> rfl
  simp only [join?, readFrom?, hsplit, Option.bind_eq_bind, Option.bind_some, hmark,
    hu.isOpaque, hu.kind] at h
  exact readRelative?_onWeb hu h

/-! ## Writing -/

/-- The text of a URL of the web begins with its scheme and two slashes. -/
theorem isAbsoluteUrl_text (h : u.OnWeb) : Specifier.isAbsoluteUrl u.text = true := by
  obtain ⟨host, hhost⟩ := Option.isSome_iff_exists.mp h.host
  have htext : u.scheme ++ "://".toList <+: u.text.toList := by
    simp [Url.text, Url.authorityText, hhost]
  rcases h.scheme with hs | hs
  · rw [hs] at htext
    exact Specifier.isAbsoluteUrl_iff.mpr (.inl (Specifier.startsWith_iff.mpr htext))
  · rw [hs] at htext
    exact Specifier.isAbsoluteUrl_iff.mpr (.inr (Specifier.startsWith_iff.mpr htext))

end ScriptSandbox.Url
