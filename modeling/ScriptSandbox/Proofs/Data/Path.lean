import Mathlib.Data.List.TakeWhile
import ScriptSandbox.Data.Path

/-!
# Where joined paths lead

A path is what its pieces are (`pieces_inj`), so everything here is said of pieces. A path that is
joined with one more piece has the pieces of the path, up to an empty one at its end, and then the new
one (`pieces_join`): what stands for something before the new piece is what the path stands for
(`components_join`). A new extension changes the last name and leaves what is before it, so that such
a path has the parent it had (`withExtension_cases`); behind a path that was joined with a name it is
the extension of that name (`withExtension_join`).
-/

namespace ScriptSandbox.Path

variable {path next name extension : String} {ps : List (List Char)} {p q : List Char}

/-! ## Pieces -/

theorem pieces_inj {path path' : String} (h : pieces path = pieces path') : path = path' := by
  have hchars (p : String) : ['/'].intercalate (pieces p) = p.toList := List.intercalate_splitOn '/'
  exact String.toList_inj.mp ((hchars path).symm.trans ((congrArg _ h).trans (hchars path')))

theorem pieces_ne_nil : pieces path ≠ [] := List.splitOn_ne_nil '/' path.toList

theorem pieces_ofList_intercalate (hslash : ∀ p ∈ ps, '/' ∉ p) (hne : ps ≠ []) :
    pieces (String.ofList (['/'].intercalate ps)) = ps := by
  rw [pieces, String.toList_ofList]
  exact List.splitOn_intercalate '/' hslash hne

/-- A path that ends in a slash has an empty piece behind it. -/
theorem pieces_of_slash {front : List Char} (h : path.toList = front ++ ['/']) :
    pieces path = front.splitOn '/' ++ [[]] := by
  rw [pieces, h, List.splitOn_append_cons_self, List.splitOn_nil]

theorem slash_not_mem_of_pieces : ∀ p ∈ pieces path, '/' ∉ p := by
  suffices h : ∀ chars : List Char, ∀ p ∈ chars.splitOn '/', '/' ∉ p from h path.toList
  intro chars
  induction chars with
  | nil => simp
  | cons c chars ih =>
      intro p hp
      rw [List.splitOn_cons_eq_if_modifyHead] at hp
      split at hp
      · rcases List.mem_cons.mp hp with rfl | hp
        · exact List.not_mem_nil
        · exact ih p hp
      · next hc =>
          obtain ⟨first, rest, hsplit⟩ := List.exists_cons_of_ne_nil (List.splitOn_ne_nil '/' chars)
          rw [hsplit] at hp ih
          rcases List.mem_cons.mp hp with rfl | hp
          · simp only [List.mem_cons, not_or]
            exact ⟨fun heq => hc (by simp [← heq]), ih first List.mem_cons_self⟩
          · exact ih p (List.mem_cons_of_mem first hp)

/-- The pieces behind which the next one stands. -/
def lead (path : String) : List (List Char) :=
  if isOpen path then (pieces path).dropLast else pieces path

theorem isOpen_cases (h : isOpen path = true) :
    path = "" ∨ ∃ front, path.toList = front ++ ['/'] := by
  rcases List.eq_nil_or_concat path.toList with hnil | ⟨front, last, hlast⟩
  · exact .inl (String.toList_eq_nil_iff.mp hnil)
  · unfold isOpen at h
    rw [hlast, List.concat_eq_append, List.getLast?_concat] at h
    obtain rfl : last = '/' := by simpa using h
    exact .inr ⟨front, by rw [hlast, List.concat_eq_append]⟩

theorem join_of_isOpen (hnext : '/' ∉ next.toList) (h : isOpen path = true) :
    join path next = path ++ next := by
  have hhead : next.toList.head? ≠ some '/' := fun hhead => hnext (List.mem_of_mem_head? hhead)
  unfold join
  rw [if_neg hhead, if_pos h]

theorem join_of_not_isOpen (hnext : '/' ∉ next.toList) (h : ¬ isOpen path = true) :
    join path next = path ++ "/" ++ next := by
  have hhead : next.toList.head? ≠ some '/' := fun hhead => hnext (List.mem_of_mem_head? hhead)
  unfold join
  rw [if_neg hhead, if_neg h]

theorem pieces_join (hnext : '/' ∉ next.toList) :
    pieces (join path next) = lead path ++ [next.toList] := by
  have hone : next.toList.splitOn '/' = [next.toList] := List.splitOn_eq_singleton hnext
  unfold lead
  by_cases h : isOpen path = true
  · rw [join_of_isOpen hnext h, if_pos h]
    rcases isOpen_cases h with rfl | ⟨front, hfront⟩
    · rw [String.empty_append]
      exact hone
    · rw [pieces_of_slash hfront, List.dropLast_concat, pieces, String.toList_append, hfront,
        List.append_assoc]
      show (front ++ '/' :: next.toList).splitOn '/' = _
      rw [List.splitOn_append_cons_self, hone]
  · rw [join_of_not_isOpen hnext h, if_neg h, pieces, String.append_assoc, String.toList_append,
      String.toList_append]
    show (path.toList ++ '/' :: next.toList).splitOn '/' = _
    rw [List.splitOn_append_cons_self, hone, pieces]

/-! ## Components -/

/-- What a path begins with is told by its first piece and by whether there is another one. -/
theorem start_append {before after after' : List (List Char)} (hbefore : before ≠ [])
    (hafter : after ≠ []) (hafter' : after' ≠ []) :
    start (before ++ after) = start (before ++ after') := by
  obtain ⟨first, rest, rfl⟩ := List.exists_cons_of_ne_nil hbefore
  have hmore := List.length_pos_iff.mpr hafter
  have hmore' := List.length_pos_iff.mpr hafter'
  have hmany : 1 < (first :: rest ++ after).length ↔ 1 < (first :: rest ++ after').length := by
    simp only [List.length_append, List.length_cons]
    omega
  unfold start
  simp only [hmany]
  rfl

theorem start_concat (hps : ps ≠ []) (hempty : ps ≠ [[]]) (p : List Char) :
    start (ps ++ [p]) = start ps := by
  obtain ⟨first, rest, rfl⟩ := List.exists_cons_of_ne_nil hps
  cases rest with
  | nil =>
      have hfirst : first ≠ [] := fun h => hempty (by rw [h])
      simp [start, hfirst]
  | cons next rest => simp [start]

theorem start_singleton (hdot : p ≠ ['.']) : start [p] = [] := by
  simp [start, hdot]

/-- A path with another piece behind it stands for what it stands for alone, and then for what the
piece stands for. -/
theorem components_join (hslash : '/' ∉ next.toList) (hdot : next.toList ≠ ['.']) :
    components (join path next) = components path ++ (component? next.toList).toList := by
  have hlast : [next.toList].filterMap component? = (component? next.toList).toList := by
    cases h : component? next.toList <;> simp [h]
  unfold components
  rw [pieces_join hslash, componentsOf, componentsOf, List.filterMap_append, hlast, ← List.append_assoc]
  congr 1
  unfold lead
  split
  · next hopen =>
      rcases isOpen_cases hopen with rfl | ⟨front, hfront⟩
      · have hnothing : pieces "" = [[]] := List.splitOn_nil '/'
        rw [hnothing]
        exact congrArg (· ++ []) ((start_singleton hdot).trans (start_singleton (by decide)).symm)
      · have hfront' := List.splitOn_ne_nil '/' front
        rw [pieces_of_slash hfront, List.dropLast_concat, List.filterMap_append,
          start_append hfront' (List.cons_ne_nil _ _) (List.cons_ne_nil [] [])]
        simp [component?]
  · next hopen =>
      have hempty : pieces path ≠ [[]] := by
        intro h
        have hnothing : pieces "" = [[]] := List.splitOn_nil '/'
        rw [pieces_inj (h.trans hnothing.symm)] at hopen
        exact hopen rfl
      rw [start_concat pieces_ne_nil hempty]

/-! ## Extensions -/

theorem component?_of_length (h : 2 < p.length) : component? p = some (.name p) := by
  unfold component?
  split <;> simp at h ⊢

theorem component?_of_not_mem (hne : p ≠ []) (hdot : '.' ∉ p) : component? p = some (.name p) := by
  unfold component?
  split
  · exact absurd rfl hne
  · exact absurd List.mem_cons_self hdot
  · exact absurd List.mem_cons_self hdot
  · rfl

theorem component?_eq_some (h : (component? p).isNone = false) (hparent : p ≠ ['.', '.']) :
    component? p = some (.name p) := by
  unfold component? at h ⊢
  split at h <;> simp_all

theorem stem_of_not_mem (hdot : '.' ∉ p) : stem p = p := by
  have hnone : p.reverse.dropWhile (· ≠ '.') = [] := by
    rw [List.dropWhile_eq_nil_iff]
    intro c hc
    exact decide_eq_true fun h => hdot (by rw [← h]; exact List.mem_reverse.mp hc)
  unfold stem
  rw [hnone]

theorem slash_not_mem_stem (hslash : '/' ∉ p) : '/' ∉ stem p := by
  unfold stem
  split
  · exact hslash
  · exact hslash
  · next c before _ hbefore =>
      intro hmem
      refine hslash (List.mem_reverse.mp ?_)
      refine (List.dropWhile_suffix (fun c : Char => decide (c ≠ '.'))).mem ?_
      rw [hbefore]
      exact List.mem_cons_of_mem c (List.mem_reverse.mp hmem)

theorem pieces_cases (path : String) :
    ((pieces path).reverse.dropWhile fun p => (component? p).isNone) = [] ∨
      ∃ last before blanks,
        ((pieces path).reverse.dropWhile fun p => (component? p).isNone) = last :: before.reverse ∧
          pieces path = before ++ last :: blanks ∧ (component? last).isNone = false ∧
            ∀ p ∈ blanks, component? p = none := by
  rcases h : (pieces path).reverse.dropWhile fun p => (component? p).isNone with _ | ⟨last, rest⟩
  · exact .inl rfl
  · refine .inr ⟨last, rest.reverse,
      ((pieces path).reverse.takeWhile fun p => (component? p).isNone).reverse, by simp, ?_, ?_, ?_⟩
    · have hsplit := List.takeWhile_append_dropWhile (p := fun p => (component? p).isNone)
        (l := (pieces path).reverse)
      rw [h] at hsplit
      have hwhole := congrArg List.reverse hsplit
      rw [List.reverse_append, List.reverse_reverse, List.reverse_cons, List.append_assoc] at hwhole
      exact hwhole.symm
    · have hfirst := List.head_dropWhile_not (fun p => (component? p).isNone)
        (l := (pieces path).reverse) (by rw [h]; exact List.cons_ne_nil _ _)
      simpa [h] using hfirst
    · intro p hp
      have hblank := List.mem_takeWhile_imp (List.mem_reverse.mp hp)
      simpa using hblank

/-- What is written behind the last name. -/
theorem pieces_withExtension {before blanks : List (List Char)} {last : List Char}
    (hsplit : pieces path = before ++ last :: blanks)
    (hdrop : ((pieces path).reverse.dropWhile fun p => (component? p).isNone) =
      last :: before.reverse)
    (hparent : last ≠ ['.', '.']) (hext : extension ≠ "") (hslash : '/' ∉ extension.toList) :
    pieces (withExtension path extension) =
      before ++ [stem last ++ '.' :: extension.toList] := by
  have hpieces : ∀ p ∈ before ++ [stem last ++ '.' :: extension.toList], '/' ∉ p := by
    have hown (p : List Char) (hp : p ∈ before ++ last :: blanks) : '/' ∉ p :=
      slash_not_mem_of_pieces p (hsplit ▸ hp)
    intro p hp
    rcases List.mem_append.mp hp with hp | hp
    · exact hown p (List.mem_append_left _ hp)
    · obtain rfl := List.mem_singleton.mp hp
      have hlast := slash_not_mem_stem (hown last (by simp))
      simp only [List.mem_append, List.mem_cons, not_or]
      exact ⟨hlast, by decide, hslash⟩
  have hempty : extension.isEmpty = false := by
    rw [← Bool.not_eq_true, String.isEmpty_iff]
    exact hext
  unfold withExtension
  rw [hdrop]
  simp only [hempty, if_neg hparent, List.reverse_reverse]
  exact pieces_ofList_intercalate hpieces (by simp)

/-- What a path begins with does not depend on its last name. -/
theorem start_of_last (before blanks : List (List Char)) (hp : (component? p).isNone = false)
    (hq : q ≠ ['.']) : start (before ++ [q]) = start (before ++ p :: blanks) := by
  rcases before with _ | ⟨first, before⟩
  · have hne : p ≠ [] := by
      rintro rfl
      cases hp
    have hdot : p ≠ ['.'] := by
      rintro rfl
      cases hp
    have hnothing : start (p :: blanks) = [] := by simp [start, hne, hdot]
    exact (start_singleton hq).trans hnothing.symm
  · exact start_append (List.cons_ne_nil _ _) (List.cons_ne_nil _ _) (List.cons_ne_nil _ _)

/-- A new extension changes nothing, or it changes the last name. -/
theorem withExtension_cases (path : String) (hlong : 1 < extension.toList.length)
    (hslash : '/' ∉ extension.toList) :
    withExtension path extension = path ∨
      ∃ parent last, components path = parent ++ [.name last] ∧
        components (withExtension path extension) =
          parent ++ [.name (stem last ++ '.' :: extension.toList)] := by
  rcases pieces_cases path with hnone | ⟨last, before, blanks, hdrop, hsplit, hlast, hblanks⟩
  · refine .inl ?_
    unfold withExtension
    rw [hnone]
  · by_cases hparent : last = ['.', '.']
    · refine .inl ?_
      unfold withExtension
      rw [hdrop]
      exact if_pos hparent
    · refine .inr ⟨start (before ++ last :: blanks) ++ before.filterMap component?, last, ?_, ?_⟩
      · have hrest : blanks.filterMap component? = [] := List.filterMap_eq_nil_iff.mpr hblanks
        rw [components, hsplit, componentsOf, List.filterMap_append, List.filterMap_cons,
          component?_eq_some hlast hparent, hrest, List.append_assoc]
      · have hext : extension ≠ "" := by
          rintro rfl
          exact absurd hlong (by decide)
        have hlength : 2 < (stem last ++ '.' :: extension.toList).length := by
          rw [List.length_append, List.length_cons]
          omega
        have hname := component?_of_length hlength
        have hdot : stem last ++ '.' :: extension.toList ≠ ['.'] := by
          intro h
          rw [h] at hlength
          exact absurd hlength (by decide)
        have hstart := start_of_last before blanks hlast hdot
        rw [components, pieces_withExtension hsplit hdrop hparent hext hslash, componentsOf, hstart,
          List.filterMap_append, List.append_assoc]
        simp [hname]

/-- Behind a path that was joined with a name, it is the name that gets the extension. -/
theorem withExtension_join (path : String) (hslash : '/' ∉ name.toList) (hdot : '.' ∉ name.toList)
    (hname : name ≠ "") (hext : extension ≠ "") (hslash' : '/' ∉ extension.toList) :
    withExtension (join path name) extension = join path (name ++ "." ++ extension) := by
  have hchars : name.toList ≠ [] := fun h => hname (String.toList_eq_nil_iff.mp h)
  have hparent : name.toList ≠ ['.', '.'] := fun h => hdot (by rw [h]; decide)
  have hcomponent := component?_of_not_mem hchars hdot
  have hlast : pieces (join path name) = lead path ++ name.toList :: [] := pieces_join hslash
  have hdrop : ((pieces (join path name)).reverse.dropWhile fun p => (component? p).isNone) =
      name.toList :: (lead path).reverse := by
    rw [hlast, List.reverse_append, List.reverse_singleton, List.singleton_append,
      List.dropWhile_cons_of_neg (by simp [hcomponent])]
  have hslashes : '/' ∉ (name ++ "." ++ extension).toList := by
    simp only [String.toList_append, List.mem_append, not_or]
    exact ⟨⟨hslash, by decide⟩, hslash'⟩
  refine pieces_inj ?_
  rw [pieces_withExtension hlast hdrop hparent hext hslash', pieces_join hslashes,
    stem_of_not_mem hdot]
  simp [String.toList_append]

end ScriptSandbox.Path
