import ScriptSandbox.Modules.Inline
import ScriptSandbox.Modules.Specifier
import ScriptSandbox.Proofs.Data.Assoc

/-!
# Modules in memory are taken once

Whoever registers a module chooses the label in its name, and whoever takes or revokes one may come
with any name. Names are distinct all the same, because the number of a registration is what stands
behind the last slash of its name, whatever the label (`nameOf_inj`).

What there is to take is told by the past alone: a registration stands as long as its name has neither
been taken nor revoked since (`standing`). After any calls, the modules in memory are the registrations
that stand (`Kept`), so a take answers with the source of the registration that stands under its name,
and with nothing if there is none (`taken_once`).
-/

namespace ScriptSandbox

/-- What may be asked of the modules in memory. -/
inductive InlineCall where
  | register (label source : String)
  | take (name : String)
  | revoke (name : String)

/-- A call, with what came of it. -/
inductive InlineEvent where
  /-- A source was registered under a name. -/
  | registered (source name : String)
  | taken (name : String) (source? : Option String)
  | revoked (name : String)

namespace InlineEvent

def ends (name : String) : InlineEvent → Bool
  | .registered _ _ => false
  | .taken name' _ => name' == name
  | .revoked name' => name' == name

def registered? : InlineEvent → Option String
  | .registered _ name => some name
  | _ => none

def served? : InlineEvent → Option String
  | .taken name (some _) => some name
  | _ => none

/-- The names of all registrations, the oldest first. -/
def registeredNames (past : List InlineEvent) : List String := past.filterMap registered?

/-- The names under which sources were taken. -/
def servedNames (past : List InlineEvent) : List String := past.filterMap served?

/-- The registrations that have neither been taken nor revoked since. A revocation that comes before
the registration of its name does nothing to it. -/
def standing : List InlineEvent → Assoc String
  | [] => []
  | .registered source name :: later =>
    if later.any (ends name) then standing later else (name, source) :: standing later
  | _ :: later => standing later

variable {past : List InlineEvent} {e : InlineEvent}

/-- An event ends the registrations of its name, and a registration stands at first. -/
theorem standing_concat (past : List InlineEvent) (e : InlineEvent) :
    standing (past ++ [e]) = (standing past).filter (fun r => !e.ends r.1) ++ standing [e] := by
  induction past with
  | nil => rfl
  | cons first past ih =>
      cases first with
      | registered source name =>
          have hany : (past ++ [e]).any (ends name) = (past.any (ends name) || e.ends name) := by
            simp
          rw [List.cons_append, standing, standing, hany, ih]
          cases past.any (ends name) <;> cases hends : e.ends name <;> simp [hends]
      | taken name source? => exact ih
      | revoked name => exact ih

theorem standing_registered (past : List InlineEvent) (source name : String) :
    standing (past ++ [.registered source name]) = standing past ++ [(name, source)] := by
  rw [standing_concat]
  simp [ends, standing]

theorem standing_taken (past : List InlineEvent) (name : String) (source? : Option String) :
    standing (past ++ [.taken name source?]) = (standing past).erase name := by
  rw [standing_concat, Assoc.erase]
  simp [ends, standing, bne, BEq.comm (a := name)]

theorem standing_revoked (past : List InlineEvent) (name : String) :
    standing (past ++ [.revoked name]) = (standing past).erase name := by
  rw [standing_concat, Assoc.erase]
  simp [ends, standing, bne, BEq.comm (a := name)]

/-- What stands under a name was registered, and nothing has happened since that ends it. -/
theorem mem_standing_iff {name source : String} : (name, source) ∈ standing past ↔
    ∃ before after, past = before ++ .registered source name :: after ∧
      ∀ e ∈ after, e.ends name = false := by
  induction past with
  | nil => simp [standing]
  | cons first past ih =>
      have hcons : (∃ before after, first :: past = before ++ .registered source name :: after ∧
          ∀ e ∈ after, e.ends name = false) ↔
          (first = .registered source name ∧ ∀ e ∈ past, e.ends name = false) ∨
            (name, source) ∈ standing past := by
        rw [ih]
        constructor
        · rintro ⟨_ | ⟨_, before⟩, after, heq, hafter⟩
          · obtain ⟨rfl, rfl⟩ := List.cons.inj heq
            exact .inl ⟨rfl, hafter⟩
          · exact .inr ⟨before, after, (List.cons.inj heq).2, hafter⟩
        · rintro (⟨rfl, hafter⟩ | ⟨before, after, rfl, hafter⟩)
          · exact ⟨[], past, rfl, hafter⟩
          · exact ⟨first :: before, after, rfl, hafter⟩
      rw [hcons]
      cases first with
      | registered source' name' =>
          rw [standing]
          split
          · next hended =>
              refine ⟨.inr, Or.rec ?_ id⟩
              rintro ⟨heq, hafter⟩
              obtain ⟨rfl, rfl⟩ := InlineEvent.registered.inj heq
              obtain ⟨e, he, hends⟩ := List.any_eq_true.mp hended
              exact absurd hends (by simp [hafter e he])
          · next hstands =>
              have hafter : ∀ e ∈ past, e.ends name' = false := by simpa using hstands
              rw [List.mem_cons]
              refine or_congr_left ⟨?_, ?_⟩
              · rintro heq
                obtain ⟨rfl, rfl⟩ := Prod.mk.inj heq
                exact ⟨rfl, hafter⟩
              · rintro ⟨heq, -⟩
                obtain ⟨rfl, rfl⟩ := InlineEvent.registered.inj heq
                rfl
      | taken _ _ => simp [standing]
      | revoked _ => simp [standing]

theorem names_standing_subset (past : List InlineEvent) :
    (standing past).names ⊆ registeredNames past := by
  intro name hname
  obtain ⟨⟨_, source⟩, hmem, rfl⟩ := List.mem_map.mp hname
  obtain ⟨before, after, rfl, -⟩ := mem_standing_iff.mp hmem
  exact List.mem_filterMap.mpr ⟨.registered source _, by simp, rfl⟩

end InlineEvent

namespace InlineModules

open InlineEvent

def call (m : InlineModules) : InlineCall → InlineEvent × InlineModules
  | .register label source =>
    let (name, m) := m.register label source
    (.registered source name, m)
  | .take name =>
    let (source?, m) := m.take name
    (.taken name source?, m)
  | .revoke name => (.revoked name, m.revoke name)

/-- Makes calls one after another; the result is what happened, the oldest first. -/
def run (m : InlineModules) : List InlineCall → List InlineEvent × InlineModules
  | [] => ([], m)
  | c :: calls =>
    let (e, m) := m.call c
    let (past, m) := m.run calls
    (e :: past, m)

/-! ## Names -/

/-- The digits of a number are those of no other, and there is no slash among them. -/
theorem digits_inj {n k : Nat} (h : (toString n).toList = (toString k).toList) : n = k := by
  have hdigits : Nat.toDigits 10 n = Nat.toDigits 10 k := by
    simpa only [Nat.toString_eq_repr, Nat.toList_repr] using h
  have hvalue := congrArg (Nat.ofDigitChars 10 · 0) hdigits
  simpa using hvalue

theorem slash_not_mem_digits (n : Nat) : '/' ∉ (toString n).toList := by
  rw [Nat.toString_eq_repr, Nat.toList_repr]
  intro hslash
  exact absurd (Nat.isDigit_of_mem_toDigits (by decide) (by decide) hslash) (by decide)

/-- Two texts whose last slashes are given agree in what stands behind these. -/
theorem eq_of_append_slash {before before' behind behind' : List Char} (hbehind : '/' ∉ behind)
    (hbehind' : '/' ∉ behind') (h : before ++ '/' :: behind = before' ++ '/' :: behind') :
    behind = behind' := by
  have hlast (cs : List Char) {ds : List Char} (hds : '/' ∉ ds) :
      (cs ++ '/' :: ds).reverse.takeWhile (· != '/') = ds.reverse := by
    rw [List.reverse_append, List.reverse_cons, List.append_assoc, List.takeWhile_append_of_pos]
    · simp
    · intro c hc
      have hne : c ≠ '/' := fun heq => hds (heq ▸ List.mem_reverse.mp hc)
      simpa using hne
  have hsame := hlast before hbehind
  rw [h, hlast before' hbehind'] at hsame
  exact (List.reverse_inj.mp hsame).symm

/-- A label cannot make the names of two registrations the same. -/
theorem nameOf_inj {label label' : String} {n k : Nat} (h : nameOf label n = nameOf label' k) :
    n = k := by
  have hchars := congrArg String.toList h
  simp only [nameOf, String.toList_append, List.append_assoc] at hchars
  rw [List.append_cancel_left_eq, ← List.append_assoc, ← List.append_assoc,
    ← List.append_assoc label'.toList, ← List.append_assoc _ (toString k).toList,
    List.append_cancel_right_eq] at hchars
  exact digits_inj (eq_of_append_slash (slash_not_mem_digits n) (slash_not_mem_digits k)
    (by simpa using hchars))

/-- Every name that is given is that of a module in memory. -/
theorem isInline_nameOf (label : String) (n : Nat) : Specifier.isInline (nameOf label n) = true := by
  rw [Specifier.isInline, Specifier.startsWith, List.isPrefixOf_iff_prefix]
  simp only [nameOf, String.toList_append, List.append_assoc]
  exact List.prefix_append _ _

/-! ## What calls keep -/

/-- What holds after any calls: the modules in memory are the registrations that stand, every name has
its own number, and a source that was taken is gone for good. -/
structure Kept (past : List InlineEvent) (m : InlineModules) : Prop where
  sorted : m.sources.Sorted
  sources_perm : m.sources.Perm (standing past)
  numbered : ∀ name ∈ registeredNames past,
    ∃ label number, name = nameOf label number ∧ number ≤ m.issued
  distinct : (registeredNames past).Nodup
  served_nodup : (servedNames past).Nodup
  /-- Nothing stands under a name that was served. -/
  gone : ∀ name ∈ servedNames past, name ∉ (standing past).names
  served_registered : ∀ name ∈ servedNames past, name ∈ registeredNames past
  /-- Each take so far was answered with what stood under its name. -/
  answers : ∀ earlier name source? later, past = earlier ++ .taken name source? :: later →
    ∀ source, source? = some source ↔ (name, source) ∈ standing earlier

variable {m : InlineModules} {past : List InlineEvent}

theorem kept_start : Kept [] {} where
  sorted := Assoc.sorted_nil
  sources_perm := .nil
  numbered := nofun
  distinct := .nil
  served_nodup := .nil
  gone := nofun
  served_registered := nofun
  answers earlier _ _ _ h := absurd h (by simp)

namespace Kept

theorem get?_iff (h : Kept past m) (name source : String) :
    m.sources.get? name = some source ↔ (name, source) ∈ standing past := by
  rw [Assoc.get?_eq_some_iff h.sorted.nodup_names, h.sources_perm.mem_iff]

theorem names_iff (h : Kept past m) (name : String) :
    name ∈ m.sources.names ↔ name ∈ (standing past).names :=
  (h.sources_perm.map _).mem_iff

theorem answers_concat (h : Kept past m) {e : InlineEvent}
    (he : ∀ name source?, e = .taken name source? →
      ∀ source, source? = some source ↔ (name, source) ∈ standing past)
    (earlier : List InlineEvent) (name : String) (source? : Option String)
    (later : List InlineEvent) (hsplit : past ++ [e] = earlier ++ .taken name source? :: later)
    (source : String) : source? = some source ↔ (name, source) ∈ standing earlier := by
  rcases List.eq_nil_or_concat later with rfl | ⟨later, last, rfl⟩
  · obtain ⟨rfl, hlast⟩ := List.append_inj' hsplit rfl
    exact he _ _ (List.singleton_inj.mp hlast) source
  · rw [List.concat_eq_append, ← List.cons_append, ← List.append_assoc] at hsplit
    obtain ⟨hpast, -⟩ := List.append_inj' hsplit rfl
    exact h.answers _ _ _ _ hpast source

theorem fresh (h : Kept past m) (label : String) :
    nameOf label (m.issued + 1) ∉ registeredNames past := by
  intro hmem
  obtain ⟨label', number, hname, hnumber⟩ := h.numbered _ hmem
  exact absurd (nameOf_inj hname ▸ hnumber) (Nat.not_succ_le_self _)

theorem register (h : Kept past m) (label source : String) :
    Kept (past ++ [.registered source (nameOf label (m.issued + 1))]) (m.register label source).2 := by
  have hfresh := h.fresh label
  generalize hname : nameOf label (m.issued + 1) = name at hfresh
  have hregistered : registeredNames (past ++ [.registered source name]) =
      registeredNames past ++ [name] := List.filterMap_append
  have hserved : servedNames (past ++ [.registered source name]) = servedNames past :=
    List.filterMap_append.trans (List.append_nil _)
  have hstanding := standing_registered past source name
  have habsent : name ∉ (standing past).names := fun hmem => hfresh (names_standing_subset past hmem)
  have hsources : (m.register label source).2.sources = m.sources.put name source := by
    rw [← hname]
    rfl
  constructor
  case sorted =>
    rw [hsources]
    exact h.sorted.put
  case sources_perm =>
    rw [hsources, hstanding]
    refine (Assoc.perm_put h.sorted).trans ?_
    rw [Assoc.erase_of_not_mem (mt (h.names_iff name).mp habsent)]
    exact (h.sources_perm.cons _).trans (List.perm_append_singleton ..).symm
  case numbered =>
    intro name' hmem
    rw [hregistered] at hmem
    rcases List.mem_append.mp hmem with hold | hnew
    · obtain ⟨label', number, hname', hnumber⟩ := h.numbered _ hold
      exact ⟨label', number, hname', Nat.le_succ_of_le hnumber⟩
    · exact ⟨label, m.issued + 1, (List.mem_singleton.mp hnew).trans hname.symm, Nat.le_refl _⟩
  case distinct =>
    rw [hregistered]
    exact (List.perm_append_singleton ..).nodup_iff.mpr (List.nodup_cons.mpr ⟨hfresh, h.distinct⟩)
  case served_nodup =>
    rw [hserved]
    exact h.served_nodup
  case gone =>
    intro name' hmem hnames
    rw [hserved] at hmem
    rw [hstanding, Assoc.names, List.map_append] at hnames
    rcases List.mem_append.mp hnames with hold | hnew
    · exact h.gone _ hmem hold
    · obtain rfl : name' = name := List.mem_singleton.mp hnew
      exact hfresh (h.served_registered _ hmem)
  case served_registered =>
    intro name' hmem
    rw [hserved] at hmem
    rw [hregistered]
    exact List.mem_append_left _ (h.served_registered _ hmem)
  case answers =>
    refine h.answers_concat fun _ _ htaken => ?_
    cases htaken

/-- A call that ends the registration of a name, if one stands; the name may have been served. -/
theorem ended (h : Kept past m) (e : InlineEvent) (name : String)
    (hregistered : e.registered? = none)
    (hserved : e.served? = none ∨ e.served? = some name ∧ name ∈ (standing past).names)
    (hstanding : standing (past ++ [e]) = (standing past).erase name)
    (hanswer : ∀ name source?, e = .taken name source? →
      ∀ source, source? = some source ↔ (name, source) ∈ standing past) :
    Kept (past ++ [e]) { m with sources := m.sources.erase name } := by
  have hnames : registeredNames (past ++ [e]) = registeredNames past := by
    simp [registeredNames, hregistered]
  have hmem : ∀ name', name' ∈ servedNames (past ++ [e]) →
      name' ∈ servedNames past ∨ name' = name ∧ name ∈ (standing past).names := by
    intro name'
    rcases hserved with hnone | ⟨hsome, hstands⟩
    · simp +contextual [servedNames, hnone]
    · simp +contextual [servedNames, hsome, hstands]
  constructor
  case sorted => exact h.sorted.erase
  case sources_perm =>
    rw [hstanding]
    exact h.sources_perm.filter _
  case numbered =>
    rw [hnames]
    exact h.numbered
  case distinct =>
    rw [hnames]
    exact h.distinct
  case served_nodup =>
    rcases hserved with hnone | ⟨hsome, hstands⟩
    · simpa [servedNames, hnone] using h.served_nodup
    · have hnew : servedNames (past ++ [e]) = servedNames past ++ [name] := by
        simp [servedNames, hsome]
      rw [hnew]
      exact (List.perm_append_singleton ..).nodup_iff.mpr
        (List.nodup_cons.mpr ⟨fun hold => h.gone _ hold hstands, h.served_nodup⟩)
  case gone =>
    intro name' hserved' hstands
    rw [hstanding, Assoc.names_erase, List.mem_filter] at hstands
    obtain ⟨hstands, hne⟩ := hstands
    rcases hmem _ hserved' with hold | ⟨rfl, -⟩
    · exact h.gone _ hold hstands
    · simp at hne
  case served_registered =>
    intro name' hserved'
    rw [hnames]
    rcases hmem _ hserved' with hold | ⟨rfl, hstands⟩
    · exact h.served_registered _ hold
    · exact names_standing_subset past hstands
  case answers => exact h.answers_concat hanswer

theorem take (h : Kept past m) (name : String) :
    Kept (past ++ [.taken name (m.take name).1]) (m.take name).2 := by
  refine h.ended _ name rfl ?_ (standing_taken ..) ?_
  · cases hget : (m.take name).1 with
    | none => exact .inl rfl
    | some source =>
        exact .inr ⟨rfl, List.mem_map_of_mem (f := Prod.fst) ((h.get?_iff name source).mp hget)⟩
  · rintro name' source? heq source
    obtain ⟨rfl, rfl⟩ := InlineEvent.taken.inj heq
    exact h.get?_iff name source

theorem revoke (h : Kept past m) (name : String) :
    Kept (past ++ [.revoked name]) (m.revoke name) :=
  h.ended _ name rfl (.inl rfl) (standing_revoked ..) nofun

theorem call (h : Kept past m) (c : InlineCall) :
    Kept (past ++ [(m.call c).1]) (m.call c).2 := by
  cases c with
  | register label source => exact h.register label source
  | take name => exact h.take name
  | revoke name => exact h.revoke name

theorem run (h : Kept past m) (calls : List InlineCall) :
    Kept (past ++ (m.run calls).1) (m.run calls).2 := by
  induction calls generalizing past m with
  | nil => simpa [InlineModules.run] using h
  | cons c calls ih =>
      have hrest := ih (h.call c)
      rwa [List.append_assoc] at hrest

end Kept

/-! ## Any calls -/

/-- After any calls, all names that were given are distinct and those of modules in memory; no name is
served twice; each take was answered with the source that stood under the name, which is one that was
registered under it and neither taken nor revoked since (`mem_standing_iff`); and what is pending are
the registrations that stand. -/
theorem taken_once (calls : List InlineCall) :
    let (past, m) := ({} : InlineModules).run calls
    (registeredNames past).Nodup ∧
      (∀ name ∈ registeredNames past, Specifier.isInline name = true) ∧
      (servedNames past).Nodup ∧
      (∀ earlier name source? later, past = earlier ++ .taken name source? :: later →
        ∀ source, source? = some source ↔ ∃ before after,
          earlier = before ++ .registered source name :: after ∧
            ∀ e ∈ after, e.ends name = false) ∧
      m.pending = (standing past).length := by
  have hkept := kept_start.run calls
  refine ⟨hkept.distinct, ?_, hkept.served_nodup, ?_, hkept.sources_perm.length_eq⟩
  · intro name hname
    obtain ⟨label, number, rfl, -⟩ := hkept.numbered name hname
    exact isInline_nameOf label number
  · intro earlier name source? later hsplit source
    rw [← mem_standing_iff]
    exact hkept.answers earlier name source? later hsplit source

end InlineModules
end ScriptSandbox
