import ScriptSandbox.Proofs.Modules.Growth
import ScriptSandbox.Proofs.Scan.Offset

/-!
# What a specifier is looked up as

An entry whose name ends in a slash stands for every specifier that begins with it, and many such
names may begin one specifier, each of them within the next. `Leads` says what a specifier is mapped
to, by what is in a map alone: nothing is said there of how the entries are held, nor of how the
longest name is found. Looking up finds that and nothing else (`lookup_eq_iff_leads`). There is one
longest name, since names of the same length that begin the same specifier are the same name.

The rest of the specifier is what remains behind the bytes of the name. `lookupAt` takes it as a
slice at that offset, which there might not be; `lookup_exact_then_longest` says that there always
is.
-/

namespace ScriptSandbox.ImportMap

variable {m : ImportMap} {s name name' rest rest' url : String} {found : Option String}

/-! ## Names that begin a specifier -/

/-- A name that ends in a slash, and what is left of a specifier behind it. -/
structure Heads (name s rest : String) : Prop where
  slash : name.toList.getLast? = some '/'
  eq_append : s = name ++ rest

theorem heads_iff_covers : (∃ rest, Heads name s rest) ↔ covers name s = true := by
  rw [covers, Bool.and_eq_true, beq_iff_eq, Specifier.startsWith_iff]
  constructor
  · rintro ⟨rest, hslash, rfl⟩
    exact ⟨hslash, by rw [String.toList_append]; exact List.prefix_append _ _⟩
  · rintro ⟨hslash, rest, hrest⟩
    refine ⟨String.ofList rest, hslash, ?_⟩
    rw [← String.toList_inj, String.toList_append, String.toList_ofList, hrest]

/-- What is left is what remains when the name is dropped. -/
theorem Heads.rest_eq (h : Heads name s rest) :
    String.ofList (s.toList.drop name.length) = rest := by
  rw [h.eq_append, String.toList_append, ← String.length_toList, List.drop_left,
    String.ofList_toList]

/-- There is a character boundary behind the bytes of the name. -/
theorem Heads.cut? (h : Heads name s rest) :
    Scan.cut? name.utf8ByteSize s.toList = some (name.toList, rest.toList) := by
  have hsize : name.utf8ByteSize = Scan.byteLength name.toList := by
    rw [Scan.byteLength_eq_utf8ByteSize, String.ofList_toList]
  rw [hsize, h.eq_append, String.toList_append, Scan.cut?_append]

/-- Of two names that begin the same specifier, the one with fewer bytes has fewer characters. -/
theorem Heads.length_lt (h : Heads name s rest) (h' : Heads name' s rest') (hne : name' ≠ name)
    (hsize : name'.utf8ByteSize ≤ name.utf8ByteSize) : name'.length < name.length := by
  by_contra hlength
  have hprefix : name.toList <+: s.toList := by
    rw [h.eq_append, String.toList_append]
    exact List.prefix_append _ _
  have hprefix' : name'.toList <+: s.toList := by
    rw [h'.eq_append, String.toList_append]
    exact List.prefix_append _ _
  have hle : name.toList.length ≤ name'.toList.length := by
    rw [String.length_toList, String.length_toList]
    omega
  -- So the other name goes on from this one, by no bytes.
  obtain ⟨more, hmore⟩ := List.prefix_of_prefix_length_le hprefix hprefix' hle
  have hname' : name' = name ++ String.ofList more := by
    rw [← String.toList_inj, String.toList_append, String.toList_ofList, hmore]
  have hbytes : (String.ofList more).utf8ByteSize = 0 := by
    rw [hname', String.utf8ByteSize_append] at hsize
    omega
  rw [String.utf8ByteSize_eq_zero_iff] at hbytes
  rw [hname', hbytes, String.append_empty] at hne
  exact hne rfl

/-! ## The longest name -/

/-- What a specifier is mapped to: the URL of the entry of its name, or else that of the longest name
that begins it, followed by the rest; or else nothing. -/
inductive Leads (m : ImportMap) (s : String) : Option String → Prop where
  | exact {url : String} (entry : m.get? s = some url) : Leads m s (some url)
  | behind {name rest url : String} (absent : m.get? s = none) (entry : m.get? name = some url)
      (heads : Heads name s rest)
      (longest : ∀ name' rest', m.get? name' ≠ none → Heads name' s rest' → name' ≠ name →
        name'.length < name.length) :
      Leads m s (some (url ++ rest))
  | nothing (absent : m.get? s = none)
      (headless : ∀ name rest, m.get? name ≠ none → ¬ Heads name s rest) : Leads m s none

/-- A specifier is mapped to one thing at most. -/
theorem Leads.unique {found' : Option String} (h : Leads m s found) (h' : Leads m s found') :
    found = found' := by
  cases h with
  | exact entry =>
      cases h' with
      | exact entry' => exact entry.symm.trans entry'
      | behind absent' _ _ _ => exact nomatch entry.symm.trans absent'
      | nothing absent' _ => exact nomatch entry.symm.trans absent'
  | @behind name rest url absent entry heads longest =>
      cases h' with
      | exact entry' => exact nomatch absent.symm.trans entry'
      | @behind name' rest' url' _ entry' heads' longest' =>
          have hname : name = name' := by
            by_contra hne
            have hlt := longest name' rest' (by simp [entry']) heads' (Ne.symm hne)
            have hgt := longest' name rest (by simp [entry]) heads hne
            omega
          subst hname
          rw [Option.some.inj (entry.symm.trans entry'), ← heads.rest_eq, ← heads'.rest_eq]
      | nothing _ headless' => exact absurd heads (headless' name rest (by simp [entry]))
  | nothing absent headless =>
      cases h' with
      | exact entry' => exact nomatch absent.symm.trans entry'
      | behind _ entry' heads' _ => exact absurd heads' (headless _ _ (by simp [entry']))
      | nothing _ _ => rfl

/-- No name among some has more bytes than the longest. -/
theorem longest_greatest {es : List (String × String)} {e : String × String}
    (h : longest es = some e) : ∀ e' ∈ es, e'.1.utf8ByteSize ≤ e.1.utf8ByteSize := by
  induction es generalizing e with
  | nil => cases h
  | cons first es ih =>
      intro e' he'
      rw [longest] at h
      split at h
      · next hnone =>
          rw [longest_eq_none_iff.mp hnone, List.mem_singleton] at he'
          rw [he', Option.some.inj h]
      · next last hlast =>
          split at h
          · next hlt =>
              obtain rfl := Option.some.inj h
              rcases List.mem_cons.mp he' with rfl | he'
              · exact Nat.le_refl _
              · exact Nat.le_trans (ih hlast e' he') (Nat.le_of_lt hlt)
          · next hge =>
              obtain rfl := Option.some.inj h
              rcases List.mem_cons.mp he' with rfl | he'
              · exact Nat.le_of_not_lt hge
              · exact ih hlast e' he'

/-- What looking up chooses among the entries is the entry of the longest name. -/
theorem leads_of_longest (hm : m.imports.names.Nodup) (habsent : m.get? s = none)
    {e : String × String} (he : longest (m.imports.filter fun e => covers e.1 s) = some e) :
    ∃ rest, Heads e.1 s rest ∧ Leads m s (some (e.2 ++ rest)) := by
  obtain ⟨hmem, hcovers⟩ := List.mem_filter.mp (longest_mem he)
  obtain ⟨rest, hheads⟩ := heads_iff_covers.mpr hcovers
  have hentry : m.get? e.1 = some e.2 := (Assoc.get?_eq_some_iff hm).mpr hmem
  refine ⟨rest, hheads, .behind habsent hentry hheads fun name' rest' hname' hheads' hne => ?_⟩
  obtain ⟨url', hurl'⟩ := Option.ne_none_iff_exists'.mp hname'
  have hmem' : (name', url') ∈ m.imports.filter fun e => covers e.1 s :=
    List.mem_filter.mpr ⟨Assoc.mem_of_get? hurl', heads_iff_covers.mp ⟨rest', hheads'⟩⟩
  exact hheads.length_lt hheads' hne (longest_greatest he _ hmem')

theorem leads_lookup (hm : m.imports.names.Nodup) (s : String) : Leads m s (m.lookup s) := by
  rw [lookup]
  cases hself : m.get? s with
  | some url => exact .exact hself
  | none =>
      cases hlongest : longest (m.imports.filter fun e => covers e.1 s) with
      | none =>
          refine .nothing hself fun name rest hname hheads => ?_
          obtain ⟨url, hurl⟩ := Option.ne_none_iff_exists'.mp hname
          have hfilter := longest_eq_none_iff.mp hlongest
          exact List.filter_eq_nil_iff.mp hfilter _ (Assoc.mem_of_get? hurl)
            (heads_iff_covers.mp ⟨rest, hheads⟩)
      | some e =>
          obtain ⟨rest, hheads, hleads⟩ := leads_of_longest hm hself hlongest
          have hrest := hheads.rest_eq
          simp only [Option.map_some, hrest]
          exact hleads

theorem lookup_eq_iff_leads (hm : m.imports.names.Nodup) : m.lookup s = found ↔ Leads m s found :=
  ⟨fun h => h ▸ leads_lookup hm s, (leads_lookup hm s).unique⟩

/-- What a specifier is mapped to is a matter of what is in a map, and of nothing else. -/
theorem Leads.congr {m' : ImportMap} (hsame : ∀ name, m'.get? name = m.get? name)
    (h : Leads m s found) : Leads m' s found := by
  cases h with
  | exact entry => exact .exact ((hsame s).trans entry)
  | behind absent entry heads longest =>
      refine .behind ((hsame s).trans absent) ((hsame _).trans entry) heads ?_
      intro name' rest' hname'
      exact longest name' rest' (hsame name' ▸ hname')
  | nothing absent headless =>
      refine .nothing ((hsame s).trans absent) ?_
      intro name rest hname
      exact headless name rest (hsame name ▸ hname)

/-! ## Insertion one after another -/

theorem get?_perm {es es' : Assoc String} (hperm : es'.Perm es) (hes : es.names.Nodup)
    (name : String) : es'.get? name = es.get? name := by
  have hes' : es'.names.Nodup := (hperm.map Prod.fst).nodup_iff.mpr hes
  refine Option.ext fun url => ?_
  rw [Assoc.get?_eq_some_iff hes', Assoc.get?_eq_some_iff hes, hperm.mem_iff]

/-- The entries of a map may be inserted in any order. -/
theorem get?_insertAll_perm (hm : m.imports.names.Nodup) {es : List (String × String)}
    (hperm : es.Perm m.imports) (name : String) :
    (insertAll {} es).2.get? name = m.get? name := by
  rw [get?_insertAll, get?_perm hperm hm]
  rfl

/-! ## The slice behind a name -/

/-- Looks a specifier up, with the rest of it taken as the slice behind the bytes of the name; if there
is no such slice, there is no answer at all. -/
def lookupAt (m : ImportMap) (s : String) : Option (Option String) :=
  match m.get? s with
  | some url => some (some url)
  | none =>
    match longest (m.imports.filter fun e => covers e.1 s) with
    | none => some none
    | some (name, url) =>
      (Scan.cut? name.utf8ByteSize s.toList).map fun parts => some (url ++ String.ofList parts.2)

theorem lookupAt_eq (m : ImportMap) (s : String) : m.lookupAt s = some (m.lookup s) := by
  rw [lookupAt, lookup]
  cases m.get? s with
  | some url => rfl
  | none =>
      cases hlongest : longest (m.imports.filter fun e => covers e.1 s) with
      | none => rfl
      | some e =>
          obtain ⟨rest, hheads⟩ := heads_iff_covers.mpr (List.mem_filter.mp (longest_mem hlongest)).2
          simp only [hheads.cut?, hheads.rest_eq, Option.map_some, String.ofList_toList]

/-- A specifier that has an entry is looked up as the URL of the entry. Any other is looked up as the
URL of the longest name with a slash at its end that begins it, followed by the rest, if there is
such a name, and otherwise as nothing. It does not matter in which order the entries were inserted,
and behind the bytes of the name there is always a slice. -/
theorem lookup_exact_then_longest (hm : m.imports.Sorted) (s : String) :
    (∀ found, m.lookup s = found ↔ Leads m s found) ∧
      (∀ es : List (String × String), es.Perm m.imports →
        (insertAll {} es).2.lookup s = m.lookup s) ∧
      m.lookupAt s = some (m.lookup s) := by
  have hnames := hm.nodup_names
  refine ⟨fun found => lookup_eq_iff_leads hnames, fun es hperm => ?_, lookupAt_eq m s⟩
  have hinserted : (insertAll {} es).2.imports.Sorted := insertAll_sorted Assoc.sorted_nil es
  rw [lookup_eq_iff_leads hinserted.nodup_names]
  exact (leads_lookup hnames s).congr (get?_insertAll_perm hnames hperm)

/-- Names within each other, the last with characters of several bytes: the longest counts, wherever
it was inserted. -/
theorem lookup_exact_then_longest_nested :
    let m : ImportMap := ⟨[("é/", "https://a.test/"), ("é/日本/", "https://b.test/")]⟩
    m.imports.Sorted ∧ Leads m "é/日本/x.js" (some "https://b.test/x.js") ∧
      (insertAll {} m.imports.reverse).2.lookup "é/日本/x.js" = some "https://b.test/x.js" ∧
      m.lookupAt "é/日本/x.js" = some (some "https://b.test/x.js") := by
  intro m
  have hsorted : m.imports.Sorted := List.pairwise_pair.mpr (by decide)
  have hfound : m.lookup "é/日本/x.js" = some "https://b.test/x.js" := by decide +kernel
  obtain ⟨hleads, horder, hslice⟩ := lookup_exact_then_longest hsorted "é/日本/x.js"
  refine ⟨hsorted, (hleads _).mp hfound, ?_, ?_⟩
  · rw [horder _ (List.reverse_perm _), hfound]
  · rw [hslice, hfound]

end ScriptSandbox.ImportMap
