import ScriptSandbox.Cache.Directory
import ScriptSandbox.Proofs.Cache.Files
import ScriptSandbox.Proofs.Cache.Store

/-!
# A store in a directory is lawful

A value is written beside its place and then moved there, so there is more than one place that a
write touches. No two keys have any such place in common where a file can be: the name of a file
tells the bytes of its key (`fileName_inj`), and has no dot in it, so nothing that is written first is
in the place of a value (`placeOf_ne_stagingOf`). The empty key is the exception: its path is that of
the directory, and what is written first for it lies beside the directory, or is the directory again.
What the three operations come to is said once, by `set_eq`, `get_eq` and `remove_eq`: an operation
fails if one of its places is blocked, by a directory or by its name, and else changes its own places
only. With that, a store in a directory is lawful and treats each key by itself, in whatever state
the directory is found.
-/

namespace ScriptSandbox

/-! ## Places of keys -/

namespace Directory

theorem lastName?_concat (components : List Path.Component) (name : String) :
    lastName? (components ++ [.name name.toList]) = some name := by
  rw [lastName?, List.getLast?_concat]
  exact congrArg some String.ofList_toList

theorem concat_of_lastName? {components : List Path.Component} {name : String}
    (h : lastName? components = some name) :
    components.dropLast ++ [.name name.toList] = components := by
  unfold lastName? at h
  split at h
  · next chars hlast =>
      obtain rfl := Option.some.inj h
      obtain ⟨front, rfl⟩ := List.getLast?_eq_some_iff.mp hlast
      rw [String.toList_ofList, List.dropLast_concat]
  · cases h

theorem placeAt_of_child {own path name : String}
    (h : Path.components path = Path.components own ++ [.name name.toList]) :
    placeAt own path = .inside name := by
  have hpath : path.isEmpty = false := by
    rw [← Bool.not_eq_true, String.isEmpty_iff]
    rintro rfl
    exact List.append_ne_nil_of_right_ne_nil _ (List.cons_ne_nil _ _) h.symm
  have hself : Path.components path ≠ Path.components own := by
    intro hself
    have hlength := congrArg List.length (h.symm.trans hself)
    simp at hlength
  unfold placeAt
  simp only [hpath, Bool.false_eq_true, if_false, if_neg hself]
  rw [h, lastName?_concat, List.dropLast_concat]
  exact if_pos rfl

theorem placeAt_eq_inside {own path name : String} : placeAt own path = .inside name ↔
    Path.components path = Path.components own ++ [.name name.toList] := by
  refine ⟨fun h => ?_, placeAt_of_child⟩
  unfold placeAt at h
  dsimp only at h
  split at h
  · cases h
  · split at h
    · cases h
    · split at h
      · cases h
      · next last hlast =>
          split at h
          · next hparent =>
              obtain rfl := Place.inside.inj h
              rw [← hparent]
              exact (concat_of_lastName? hlast).symm
          · split at h <;> cases h

end Directory

open Directory

def placeOf (own key : String) : Place := placeAt own (pathOf own key)

/-- The place to which a value is written first. -/
def stagingOf (own key : String) : Place := placeAt own (stagingPath own key)

theorem placeOf_eq (own key : String) : placeOf own key = placeAt own (pathOf own key) := rfl

theorem stagingOf_eq (own key : String) : stagingOf own key = placeAt own (stagingPath own key) :=
  rfl

-- What is said of these places is said by lemmas: to unfold them is to compute with texts.
attribute [irreducible] placeOf stagingOf

theorem placeOf_of_ne (own : String) {key : String} (h : key ≠ "") :
    placeOf own key = .inside (fileName key) := by
  rw [placeOf_eq]
  exact placeAt_of_child (components_pathOf own h)

theorem stagingOf_of_ne (own : String) {key : String} (h : key ≠ "") :
    stagingOf own key = .inside (fileName key ++ ".tmp") := by
  rw [stagingOf_eq]
  exact placeAt_of_child (components_stagingPath own h)

theorem tooLong_placeOf (own : String) {key : String} (h : key ≠ "") :
    tooLong (placeOf own key) = decide (127 < key.utf8ByteSize) := by
  rw [placeOf_of_ne own h, tooLong, utf8ByteSize_fileName, nameLimit]
  exact decide_eq_decide.mpr (by omega)

/-- What is written first has the longer name of the two. -/
theorem tooLong_stagingOf (own : String) {key : String} (h : key ≠ "") :
    tooLong (stagingOf own key) = decide (125 < key.utf8ByteSize) := by
  have hending : ".tmp".utf8ByteSize = 4 := by decide
  rw [stagingOf_of_ne own h, tooLong, String.utf8ByteSize_append, utf8ByteSize_fileName, hending,
    nameLimit]
  exact decide_eq_decide.mpr (by omega)

theorem placeOf_empty (own : String) : placeOf own "" = .nowhere ∨ placeOf own "" = .itself := by
  rw [placeOf_eq]
  unfold placeAt
  dsimp only
  split
  · exact .inl rfl
  · exact .inr (if_pos (components_pathOf_empty own))

theorem placeOf_empty_ne (own name : String) : placeOf own "" ≠ .inside name := by
  rcases placeOf_empty own with h | h <;> simp [h]

/-- What is written first for the empty key is never in the directory. -/
theorem stagingOf_empty_ne (own name : String) : stagingOf own "" ≠ .inside name := by
  intro h
  rw [stagingOf_eq, placeAt_eq_inside] at h
  have hlength := congrArg List.length h
  rw [length_components_stagingPath_empty, List.length_append, List.length_singleton] at hlength
  omega

theorem placeOf_inj {own key key' : String} (h : placeOf own key = placeOf own key') :
    key = key' := by
  by_cases hkey : key = "" <;> by_cases hkey' : key' = ""
  · rw [hkey, hkey']
  · rw [hkey, placeOf_of_ne own hkey'] at h
    exact absurd h (placeOf_empty_ne own _)
  · rw [hkey', placeOf_of_ne own hkey] at h
    exact absurd h.symm (placeOf_empty_ne own _)
  · rw [placeOf_of_ne own hkey, placeOf_of_ne own hkey'] at h
    exact fileName_inj (Place.inside.inj h)

theorem stagingOf_inj {own key key' : String} (h : stagingOf own key = stagingOf own key') :
    key = key' := by
  by_cases hkey : key = "" <;> by_cases hkey' : key' = ""
  · rw [hkey, hkey']
  · rw [hkey, stagingOf_of_ne own hkey'] at h
    exact absurd h (stagingOf_empty_ne own _)
  · rw [hkey', stagingOf_of_ne own hkey] at h
    exact absurd h.symm (stagingOf_empty_ne own _)
  · rw [stagingOf_of_ne own hkey, stagingOf_of_ne own hkey'] at h
    exact fileName_inj ((String.append_left_inj _).mp (Place.inside.inj h))

/-- What is written first is never in the place of a value, unless neither is a place for a file. -/
theorem placeOf_ne_stagingOf {own key key' : String} (h : key ≠ "" ∨ key' ≠ "") :
    placeOf own key ≠ stagingOf own key' := by
  intro hsame
  by_cases hkey : key = "" <;> by_cases hkey' : key' = ""
  · exact h.elim (fun h => h hkey) fun h => h hkey'
  · rw [hkey, stagingOf_of_ne own hkey'] at hsame
    exact placeOf_empty_ne own _ hsame
  · rw [hkey', placeOf_of_ne own hkey] at hsame
    exact stagingOf_empty_ne own _ hsame.symm
  · rw [placeOf_of_ne own hkey, stagingOf_of_ne own hkey'] at hsame
    refine dot_not_mem_fileName key ?_
    rw [Place.inside.inj hsame, String.toList_append]
    exact List.mem_append_right _ (by decide)

/-- Whether a file can be at a place, as far as the place goes. -/
def Place.Holds (p : Place) : Prop := p ≠ .itself ∧ p ≠ .nowhere

/-- Where no file can be there is always the same. -/
theorem entry?_of_not_holds {p : Place} (h : ¬ p.Holds) (d d' : Directory) :
    d.entry? p = d'.entry? p := by
  cases p with
  | itself => rfl
  | nowhere => rfl
  | inside name => exact absurd ⟨nofun, nofun⟩ h
  | beside name => exact absurd ⟨nofun, nofun⟩ h

theorem Place.Holds.placeOf_ne {own key' : String} (h : (stagingOf own key').Holds) (key : String) :
    placeOf own key ≠ stagingOf own key' := by
  by_cases hkey : key = ""
  · intro hsame
    rw [hkey] at hsame
    rcases placeOf_empty own with hplace | hplace
    · exact h.2 (hsame.symm.trans hplace)
    · exact h.1 (hsame.symm.trans hplace)
  · exact placeOf_ne_stagingOf (.inl hkey)

/-! ## Operations on a directory -/

namespace Directory

variable {d : Directory} {p q source : Place} {bytes : ByteArray}

/-- Whether what is at a place, or would be, is no file. -/
def locked (d : Directory) (p : Place) : Bool :=
  tooLong p || d.entry? p matches some .folder

def blocked (d : Directory) (p : Place) : Bool := d.locked p || p = .nowhere

theorem locked_of_blocked (h : d.blocked p = false) : d.locked p = false :=
  (Bool.or_eq_false_iff.mp h).1

theorem ne_itself_of_locked (h : d.locked p = false) : p ≠ .itself := by
  rintro rfl
  cases h

theorem holds_of_blocked (h : d.blocked p = false) : p.Holds :=
  ⟨ne_itself_of_locked (locked_of_blocked h), of_decide_eq_false (Bool.or_eq_false_iff.mp h).2⟩

theorem tooLong_of_blocked (h : d.blocked p = false) : tooLong p = false :=
  (Bool.or_eq_false_iff.mp (locked_of_blocked h)).1

theorem locked_congr {d' : Directory} (h : d.entry? p = d'.entry? p) :
    d.locked p = d'.locked p := by
  rw [locked, locked, h]

theorem blocked_congr {d' : Directory} (h : d.entry? p = d'.entry? p) :
    d.blocked p = d'.blocked p := by
  rw [blocked, blocked, locked_congr h]

theorem entry?_put (hp : p.Holds) :
    entry? (d.put p bytes) q = if q = p then some (.file bytes) else d.entry? q := by
  cases p with
  | itself => exact absurd rfl hp.1
  | inside name => cases q <;> simp [put, entry?, Assoc.get?_put]
  | beside name => cases q <;> simp [put, entry?, Assoc.get?_put]
  | nowhere => exact absurd rfl hp.2

theorem entry?_erase (hp : p ≠ .itself) :
    entry? (d.erase p) q = if q = p then none else d.entry? q := by
  cases p with
  | itself => exact absurd rfl hp
  | inside name => cases q <;> simp [erase, entry?, Assoc.get?_erase]
  | beside name => cases q <;> simp [erase, entry?, Assoc.get?_erase]
  | nowhere => cases q <;> simp [erase, entry?]

theorem erase_of_entry?_eq_none (hp : d.entry? p = none) : d.erase p = d := by
  have habsent {m : Assoc Entry} {name : String} (h : m.get? name = none) : m.erase name = m := by
    have hhas := Assoc.has_eq_false_iff.mpr h
    exact Assoc.erase_of_not_mem fun hmem =>
      Bool.eq_false_iff.mp hhas (Assoc.has_iff_mem_names.mpr hmem)
  cases p with
  | itself => rfl
  | inside name => simp [erase, habsent hp]
  | beside name => simp [erase, habsent hp]
  | nowhere => rfl

def text? (d : Directory) (p : Place) : Option String :=
  match d.entry? p with
  | some (.file bytes) => String.fromUTF8? bytes
  | _ => none

theorem write_eq (d : Directory) (p : Place) (bytes : ByteArray) :
    d.write p bytes = if d.blocked p then .error .io else .ok (d.put p bytes) := by
  rw [write, blocked, locked]
  by_cases hp : p = .nowhere
  · simp [hp]
  · simp only [hp, decide_false, Bool.or_false]
    cases tooLong p with
    | true => rfl
    | false => rcases d.entry? p with _ | _ | _ <;> rfl

theorem delete_eq (d : Directory) (p : Place) :
    d.delete p = if d.locked p then .error .io else .ok (d.erase p) := by
  rw [delete, locked]
  cases tooLong p with
  | true => rfl
  | false =>
      rcases hentry : d.entry? p with _ | _ | _
      · rw [erase_of_entry?_eq_none hentry]
        rfl
      · rfl
      · rfl

theorem rename_eq (hsource : tooLong source = false)
    (hfile : d.entry? source = some (.file bytes)) (target : Place) :
    d.rename source target =
      if d.blocked target then .error .io else .ok ((d.erase source).put target bytes) := by
  rw [rename, blocked, locked, hsource, hfile]
  by_cases htarget : target = .nowhere
  · simp [htarget]
  · simp only [htarget, decide_false, Bool.or_false, Bool.false_or]
    cases tooLong target with
    | true => rfl
    | false => rcases d.entry? target with _ | _ | _ <;> rfl

theorem read_ok {found : Option String} (h : d.read p = .ok found) : found = d.text? p := by
  rw [read] at h
  rw [text?]
  split at h
  · cases h
  · rcases hentry : d.entry? p with _ | _ | _ <;> rw [hentry] at h
    · exact (Except.ok.inj h).symm
    · rename_i bytes
      cases htext : String.fromUTF8? bytes <;> simp [htext] at h ⊢
      exact h.symm
    · cases h

theorem read_congr {d' : Directory} (h : d.entry? p = d'.entry? p) : d.read p = d'.read p := by
  rw [read, read, h]

end Directory

/-! ## Operations on a store -/

namespace FileStore

variable {s s' : FileStore} {k k' v : String} {p : Place}

def staged (s : FileStore) (k v : String) : Directory :=
  s.directory.put (stagingOf s.own k) v.toUTF8

def replaced (s : FileStore) (k v : String) : Directory :=
  ((s.staged k v).erase (stagingOf s.own k)).put (placeOf s.own k) v.toUTF8

theorem entry?_staged (h : (stagingOf s.own k).Holds) : entry? (s.staged k v) p =
    if p = stagingOf s.own k then some (.file v.toUTF8) else s.directory.entry? p :=
  entry?_put h

theorem entry?_replaced (hstaging : (stagingOf s.own k).Holds) (hplace : (placeOf s.own k).Holds) :
    entry? (s.replaced k v) p =
      if p = placeOf s.own k then some (.file v.toUTF8)
      else if p = stagingOf s.own k then none else s.directory.entry? p := by
  rw [replaced, entry?_put hplace, entry?_erase hstaging.1, entry?_staged hstaging]
  grind

theorem get_eq (s : FileStore) (k : String) :
    KeyValueStore.get s k = s.directory.read (placeOf s.own k) := by
  rw [placeOf_eq]
  rfl

theorem set_eq (s : FileStore) (k v : String) :
    KeyValueStore.set s k v =
      if s.directory.blocked (stagingOf s.own k) then (.error .io, s)
      else if s.directory.blocked (placeOf s.own k) then
        (.error .io, { s with directory := s.staged k v })
      else (.ok (), { s with directory := s.replaced k v }) := by
  have hwrite := write_eq s.directory (stagingOf s.own k) v.toUTF8
  simp only [KeyValueStore.set, perform, setSteps, FileSystem.performAll, fileSystem]
  rw [← stagingOf_eq, ← placeOf_eq, hwrite]
  cases hstaging : s.directory.blocked (stagingOf s.own k) with
  | true => rfl
  | false =>
      have hholds := holds_of_blocked hstaging
      have hfile : entry? (s.staged k v) (stagingOf s.own k) = some (.file v.toUTF8) := by
        rw [entry?_staged hholds, if_pos rfl]
      have hplace : (s.staged k v).blocked (placeOf s.own k) =
          s.directory.blocked (placeOf s.own k) := by
        refine blocked_congr ?_
        rw [entry?_staged hholds, if_neg (hholds.placeOf_ne k)]
      have hrename := rename_eq (tooLong_of_blocked hstaging) hfile (placeOf s.own k)
      rw [hplace, staged] at hrename
      simp only [Bool.false_eq_true, if_false, outcome, hrename]
      cases s.directory.blocked (placeOf s.own k) <;> rfl

/-- A key that is too long is never written. -/
theorem set_of_overlong (s : FileStore) (v : String) (h : 125 < k.utf8ByteSize) :
    KeyValueStore.set s k v = (.error .io, s) := by
  have hk : k ≠ "" := by
    rintro rfl
    exact absurd h (by decide)
  have hlong : s.directory.blocked (stagingOf s.own k) = true := by
    rw [blocked, locked, tooLong_stagingOf s.own hk, decide_eq_true h]
    rfl
  rw [set_eq, if_pos hlong]

theorem remove_eq (s : FileStore) (k : String) :
    KeyValueStore.remove s k =
      if s.directory.locked (placeOf s.own k) then (.error .io, s)
      else (.ok (), { s with directory := s.directory.erase (placeOf s.own k) }) := by
  simp only [KeyValueStore.remove, perform, removeSteps, FileSystem.performAll, fileSystem]
  rw [← placeOf_eq, delete_eq]
  cases s.directory.locked (placeOf s.own k) <;> rfl

theorem fromUTF8?_toUTF8 (v : String) : String.fromUTF8? v.toUTF8 = some v := by
  rw [String.toUTF8, String.fromUTF8?, dif_pos v.isValidUTF8]
  rfl

theorem text?_staged (h : (stagingOf s.own k).Holds) (k' : String) :
    (s.staged k v).text? (placeOf s.own k') = s.directory.text? (placeOf s.own k') := by
  rw [text?, text?, entry?_staged h, if_neg (h.placeOf_ne k')]

theorem text?_replaced (hstaging : (stagingOf s.own k).Holds) (hplace : (placeOf s.own k).Holds)
    (k' : String) :
    (s.replaced k v).text? (placeOf s.own k') =
      if k' = k then some v else s.directory.text? (placeOf s.own k') := by
  rw [text?, entry?_replaced hstaging hplace]
  by_cases hk : k' = k
  · subst hk
    rw [if_pos rfl, if_pos rfl]
    exact fromUTF8?_toUTF8 v
  · rw [if_neg (mt placeOf_inj hk), if_neg (hstaging.placeOf_ne k'), if_neg hk, text?]

theorem text?_erase {d : Directory} {own : String} (h : placeOf own k ≠ .itself) (k' : String) :
    (d.erase (placeOf own k)).text? (placeOf own k') =
      if k' = k then none else d.text? (placeOf own k') := by
  rw [text?, entry?_erase h]
  by_cases hk : k' = k
  · subst hk
    rw [if_pos rfl, if_pos rfl]
  · rw [if_neg (mt placeOf_inj hk), if_neg hk, text?]

end FileStore

instance : LawfulStore FileStore where
  content s k := s.directory.text? (placeOf s.own k)
  get_ok {s k found} h := read_ok ((FileStore.get_eq s k).symm.trans h)
  set_ok {s k v} k' h := by
    rw [FileStore.set_eq] at h ⊢
    cases hstaging : s.directory.blocked (stagingOf s.own k) with
    | true => simp [hstaging] at h
    | false =>
        cases hplace : s.directory.blocked (placeOf s.own k) with
        | true => simp [hstaging, hplace] at h
        | false =>
            exact FileStore.text?_replaced (holds_of_blocked hstaging) (holds_of_blocked hplace) k'
  set_error {s k v e} k' h := by
    rw [FileStore.set_eq] at h ⊢
    cases hstaging : s.directory.blocked (stagingOf s.own k) with
    | true => rfl
    | false =>
        cases hplace : s.directory.blocked (placeOf s.own k) with
        | true => exact FileStore.text?_staged (holds_of_blocked hstaging) k'
        | false => simp [hstaging, hplace] at h
  remove_ok {s k} k' h := by
    rw [FileStore.remove_eq] at h ⊢
    cases hplace : s.directory.locked (placeOf s.own k) with
    | true => simp [hplace] at h
    | false => exact FileStore.text?_erase (ne_itself_of_locked hplace) k'
  remove_error {s k e} k' h := by
    rw [FileStore.remove_eq] at h ⊢
    cases hplace : s.directory.locked (placeOf s.own k) with
    | true => rfl
    | false => simp [hplace] at h

namespace FileStore

variable {s s' : FileStore} {k k' v : String} {p : Place}

/-- A write touches two places at most. -/
theorem entry?_set_of_ne (hplace : p ≠ placeOf s.own k) (hstaging : p ≠ stagingOf s.own k) :
    entry? (KeyValueStore.set s k v).2.directory p = s.directory.entry? p := by
  rw [set_eq]
  cases hfirst : s.directory.blocked (stagingOf s.own k) with
  | true => rfl
  | false =>
      have hholds := holds_of_blocked hfirst
      cases hthen : s.directory.blocked (placeOf s.own k) with
      | true => exact (entry?_staged hholds).trans (if_neg hstaging)
      | false =>
          exact (entry?_replaced hholds (holds_of_blocked hthen)).trans
            ((if_neg hplace).trans (if_neg hstaging))

theorem own_perform (s : FileStore) (steps : List FileStep) : (s.perform steps).2.own = s.own := by
  rw [perform]

theorem own_set : (KeyValueStore.set s k v).2.own = s.own := own_perform s (setSteps s.own k v)

theorem entry?_remove_of_ne (hplace : p ≠ placeOf s.own k) :
    entry? (KeyValueStore.remove s k).2.directory p = s.directory.entry? p := by
  rw [remove_eq]
  split
  · rfl
  · next hfree =>
      exact (entry?_erase (ne_itself_of_locked (Bool.eq_false_iff.mpr hfree))).trans
        (if_neg hplace)

theorem own_remove : (KeyValueStore.remove s k).2.own = s.own := own_perform s (removeSteps s.own k)

/-- What is at the places of a key. -/
def cellAt (s : FileStore) (k : String) : String × Option Entry × Option Entry :=
  (s.own, s.directory.entry? (placeOf s.own k), s.directory.entry? (stagingOf s.own k))

theorem cellAt_eq_iff : s.cellAt k = s'.cellAt k' ↔
    s.own = s'.own ∧
      s.directory.entry? (placeOf s.own k) = s'.directory.entry? (placeOf s'.own k') ∧
      s.directory.entry? (stagingOf s.own k) = s'.directory.entry? (stagingOf s'.own k') := by
  simp only [cellAt, Prod.mk.injEq]

theorem set_congr (v : String) (h : s.cellAt k = s'.cellAt k) :
    (KeyValueStore.set s k v).1 = (KeyValueStore.set s' k v).1 ∧
      (KeyValueStore.set s k v).2.cellAt k = (KeyValueStore.set s' k v).2.cellAt k := by
  obtain ⟨own, d⟩ := s
  obtain ⟨own', d'⟩ := s'
  obtain ⟨rfl, hplace, hstaging⟩ := cellAt_eq_iff.mp h
  rw [set_eq, set_eq, blocked_congr hplace, blocked_congr hstaging]
  cases hfirst : d'.blocked (stagingOf own k) with
  | true => exact ⟨rfl, h⟩
  | false =>
      have hholds := holds_of_blocked hfirst
      have hne := hholds.placeOf_ne k
      cases hthen : d'.blocked (placeOf own k) with
      | true =>
          refine ⟨rfl, cellAt_eq_iff.mpr ⟨rfl, ?_, ?_⟩⟩
          · exact (entry?_staged (s := ⟨own, d⟩) hholds).trans ((if_neg hne).trans (hplace.trans
              ((entry?_staged (s := ⟨own, d'⟩) hholds).trans (if_neg hne)).symm))
          · exact ((entry?_staged (s := ⟨own, d⟩) hholds).trans (if_pos rfl)).trans
              ((entry?_staged (s := ⟨own, d'⟩) hholds).trans (if_pos rfl)).symm
      | false =>
          have hholds' := holds_of_blocked hthen
          have hself (d : Directory) :
              entry? (replaced ⟨own, d⟩ k v) (placeOf own k) = some (.file v.toUTF8) :=
            (entry?_replaced hholds hholds').trans (if_pos rfl)
          have hmoved (d : Directory) :
              entry? (replaced ⟨own, d⟩ k v) (stagingOf own k) = none :=
            (entry?_replaced hholds hholds').trans ((if_neg hne.symm).trans (if_pos rfl))
          exact ⟨rfl, cellAt_eq_iff.mpr
            ⟨rfl, (hself d).trans (hself d').symm, (hmoved d).trans (hmoved d').symm⟩⟩

theorem remove_congr (h : s.cellAt k = s'.cellAt k) :
    (KeyValueStore.remove s k).1 = (KeyValueStore.remove s' k).1 ∧
      (KeyValueStore.remove s k).2.cellAt k = (KeyValueStore.remove s' k).2.cellAt k := by
  obtain ⟨own, d⟩ := s
  obtain ⟨own', d'⟩ := s'
  obtain ⟨rfl, hplace, hstaging⟩ := cellAt_eq_iff.mp h
  rw [remove_eq, remove_eq, locked_congr hplace]
  split
  · exact ⟨rfl, h⟩
  · next hfree =>
      have hne := ne_itself_of_locked (Bool.eq_false_iff.mpr hfree)
      have hgone (d : Directory) : entry? (d.erase (placeOf own k)) (placeOf own k) = none :=
        (entry?_erase hne).trans (if_pos rfl)
      have hstays : entry? (d.erase (placeOf own k)) (stagingOf own k) =
          entry? (d'.erase (placeOf own k)) (stagingOf own k) := by
        rw [entry?_erase hne, entry?_erase hne, hstaging]
      exact ⟨rfl, cellAt_eq_iff.mpr ⟨rfl, (hgone d).trans (hgone d').symm, hstays⟩⟩

theorem cellAt_set_of_ne (s : FileStore) (v : String) (h : k' ≠ k) :
    (KeyValueStore.set s k v).2.cellAt k' = s.cellAt k' := by
  have hsome : k' ≠ "" ∨ k ≠ "" := by
    by_cases hk : k = ""
    · exact .inl (hk ▸ h)
    · exact .inr hk
  refine cellAt_eq_iff.mpr ⟨own_set, ?_, ?_⟩ <;> rw [own_set]
  · exact entry?_set_of_ne (mt placeOf_inj h) (placeOf_ne_stagingOf hsome)
  · exact entry?_set_of_ne (placeOf_ne_stagingOf hsome.symm).symm (mt stagingOf_inj h)

theorem cellAt_remove_of_ne (s : FileStore) (h : k' ≠ k) :
    (KeyValueStore.remove s k).2.cellAt k' = s.cellAt k' := by
  have hsome : k ≠ "" ∨ k' ≠ "" := by
    by_cases hk : k = ""
    · exact .inr (hk ▸ h)
    · exact .inl hk
  refine cellAt_eq_iff.mpr ⟨own_remove, ?_, ?_⟩ <;> rw [own_remove]
  · exact entry?_remove_of_ne (mt placeOf_inj h)
  · exact entry?_remove_of_ne (placeOf_ne_stagingOf hsome).symm

end FileStore

instance : KeywiseStore FileStore where
  Cell := String × Option Entry × Option Entry
  cell := FileStore.cellAt
  content_congr {s s' k} h := by
    obtain ⟨-, hplace, -⟩ := FileStore.cellAt_eq_iff.mp h
    show s.directory.text? (placeOf s.own k) = s'.directory.text? (placeOf s'.own k)
    rw [text?, text?, hplace]
  get_congr {s s' k} h := by
    obtain ⟨hown, hplace, -⟩ := FileStore.cellAt_eq_iff.mp h
    rw [FileStore.get_eq, FileStore.get_eq, hown]
    exact read_congr (hown ▸ hplace)
  set_congr := FileStore.set_congr
  set_ne := FileStore.cellAt_set_of_ne
  remove_congr := FileStore.remove_congr
  remove_ne := FileStore.cellAt_remove_of_ne

end ScriptSandbox
