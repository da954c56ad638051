import ScriptSandbox.Proofs.Machine.Keeping

/-!
# How often a URL is asked for

A URL is asked for when a module of its name is not there. While a module is loaded with all that it
requests, no URL is asked for twice, and when that has gone well, all that was asked for is there
(`leads_loadModule`): modules that request each other are found half-way through. But what could not
be loaded is not there, and nothing remembers that it has been asked for. So in a whole run a URL is
asked for at most once more than its loading has failed (`Machine.Run.course`).
-/

namespace ScriptSandbox

/-- What has been asked for, and the names of the modules that are there. A module that could not be
loaded has lost its name. -/
structure Fetching where
  fetch : Fetch
  /-- The URLs that were asked for. -/
  requests : List String
  /-- Those of them for which there was a source. -/
  loaded : List String
  names : List String

/-- What a machine has asked for, and the names of its modules. -/
def Machine.fetching (m : Machine) : Fetching where
  fetch := m.host.fetch
  requests := m.host.requests
  loaded := m.host.loaded
  names := m.modules.toList.map (·.name)

theorem Machine.Kept.fetching {m m' : Machine} (h : m.Kept m') : m'.fetching = m.fetching := by
  rw [Machine.fetching, h.host, h.modules, Machine.fetching]

theorem Machine.size_modules (m : Machine) :
    m.modules.size = m.fetching.names.length := by
  simp [Machine.fetching]

theorem Machine.fetching_push (m : Machine) (r : ModuleRecord) :
    { m with modules := m.modules.push r }.fetching =
      { m.fetching with names := m.fetching.names ++ [r.name] } := by
  simp [Machine.fetching]

theorem Machine.fetching_modify {f : ModuleRecord → ModuleRecord} {g : String → String}
    (hname : ∀ r, (f r).name = g r.name) (m : Machine) (i : Nat) :
    { m with modules := m.modules.modify i f }.fetching =
      { m.fetching with names := m.fetching.names.modify i g } := by
  have hnames : ((m.modules.modify i f).toList.map (·.name)) =
      (m.modules.toList.map (·.name)).modify i g := by
    refine List.ext_getElem? fun k => ?_
    rw [Array.toList_modify, List.getElem?_map, List.getElem?_modify, List.getElem?_modify,
      List.getElem?_map]
    cases m.modules.toList[k]? with
    | none => rfl
    | some r => by_cases hk : i = k <;> simp [hk, hname]
  rw [Machine.fetching, hnames, Machine.fetching]

namespace Fetching

variable {t t' t'' : Fetching} {asked more : List String} {url : String}

def serves (t : Fetching) (url : String) : Bool := (t.fetch url).isOk

theorem serves_congr (h : t'.fetch = t.fetch) : t'.serves = t.serves := by
  funext url
  rw [serves, serves, h]

def asking (t : Fetching) (url : String) : Fetching where
  fetch := t.fetch
  requests := t.requests ++ [url]
  loaded := t.loaded ++ [url].filter t.serves
  names := t.names

theorem asking_of_serves (h : t.serves url = true) :
    t.asking url = { t with requests := t.requests ++ [url], loaded := t.loaded ++ [url] } := by
  simp [asking, h]

theorem asking_of_not_serves (h : t.serves url = false) :
    t.asking url = { t with requests := t.requests ++ [url] } := by
  simp [asking, h]

/-- Some URLs are asked for in turn, none of them twice and none for which a module is there. Modules
that are there stay there. -/
structure Pass (asked : List String) (t t' : Fetching) : Prop where
  fetch : t'.fetch = t.fetch
  requests : t'.requests = t.requests ++ asked
  loaded : t'.loaded = t.loaded ++ asked.filter t.serves
  names : t.names <+: t'.names
  once : asked.Nodup
  missing : ∀ url ∈ asked, url ∉ t.names

theorem Pass.refl (t : Fetching) : Pass [] t t where
  fetch := rfl
  requests := (List.append_nil _).symm
  loaded := (List.append_nil _).symm
  names := List.prefix_rfl
  once := .nil
  missing := by simp

theorem Pass.trans (h : Pass asked t t') (hthere : asked ⊆ t'.names) (h' : Pass more t' t'') :
    Pass (asked ++ more) t t'' where
  fetch := h'.fetch.trans h.fetch
  requests := by rw [h'.requests, h.requests, List.append_assoc]
  loaded := by
    rw [h'.loaded, h.loaded, serves_congr h.fetch, List.filter_append, List.append_assoc]
  names := h.names.trans h'.names
  once := by
    refine List.nodup_append.mpr ⟨h.once, h'.once, ?_⟩
    rintro url hurl _ hmore rfl
    exact h'.missing url hmore (hthere hurl)
  missing := by
    refine List.forall_mem_append.mpr ⟨h.missing, fun url hurl hmem => ?_⟩
    exact h'.missing url hurl (h.names.subset hmem)

/-- All that was asked for is there. -/
def Loaded (t t' : Fetching) : Prop := ∃ asked, Pass asked t t' ∧ asked ⊆ t'.names

/-- Some of what was asked for may not be there. -/
def Ended (t t' : Fetching) : Prop := ∃ asked, Pass asked t t'

theorem Loaded.refl (t : Fetching) : t.Loaded t := ⟨[], .refl t, List.nil_subset _⟩

theorem Loaded.ended (h : t.Loaded t') : t.Ended t' :=
  let ⟨asked, hpass, _⟩ := h
  ⟨asked, hpass⟩

theorem Loaded.trans (h : t.Loaded t') (h' : t'.Loaded t'') : t.Loaded t'' := by
  obtain ⟨asked, hpass, hthere⟩ := h
  obtain ⟨more, hpass', hthere'⟩ := h'
  refine ⟨asked ++ more, hpass.trans hthere hpass', List.append_subset.mpr ⟨?_, hthere'⟩⟩
  exact List.Subset.trans hthere hpass'.names.subset

theorem Loaded.trans_ended (h : t.Loaded t') (h' : t'.Ended t'') : t.Ended t'' := by
  obtain ⟨asked, hpass, hthere⟩ := h
  obtain ⟨more, hpass'⟩ := h'
  exact ⟨asked ++ more, hpass.trans hthere hpass'⟩

/-- One URL at most has been asked for, and no module has come. -/
def Sought (name : String) (t t' : Fetching) : Prop :=
  ∃ asked, Pass asked t t' ∧ asked ⊆ [name] ∧ t'.names = t.names

/-- The module is there, behind those that were; what it requests is not there yet. -/
def Opened (name : String) (t t' : Fetching) : Prop := t.Loaded t' ∧ t'.names = t.names ++ [name]

theorem Sought.refl (name : String) (t : Fetching) : t.Sought name t :=
  ⟨[], .refl t, List.nil_subset _, rfl⟩

theorem Sought.asking {name : String} (hmissing : name ∉ t.names) : t.Sought name (t.asking name) :=
  ⟨[name], ⟨rfl, rfl, rfl, List.prefix_rfl, by simp, by simpa using hmissing⟩,
    List.Subset.refl _, rfl⟩

theorem Sought.ended {name : String} (h : t.Sought name t') : t.Ended t' :=
  let ⟨asked, hpass, _⟩ := h
  ⟨asked, hpass⟩

theorem Sought.opened {name : String} (h : t.Sought name t') :
    t.Opened name { t' with names := t'.names ++ [name] } := by
  obtain ⟨asked, hpass, hone, hnames⟩ := h
  refine ⟨⟨asked, ?_, ?_⟩, congrArg (· ++ [name]) hnames⟩
  · exact { hpass with names := hpass.names.trans (List.prefix_append _ _) }
  · exact List.Subset.trans hone (List.subset_append_right _ _)

/-- A module that cannot be loaded is not there any more; those that were there before it stay. -/
theorem Opened.withdrawn {name : String} (h : t.Opened name t') (h' : t'.Ended t'')
    (g : String → String) :
    t.Ended { t'' with names := t''.names.modify t.names.length g } := by
  obtain ⟨asked, hpass⟩ := h.1.trans_ended h'
  refine ⟨asked, { hpass with names := ?_ }⟩
  have htake : (t''.names.modify t.names.length g).take t.names.length = t.names := by
    rw [List.take_modify, ← List.prefix_iff_eq_take.mp hpass.names]
    exact List.modify_eq_self (Nat.le_refl _)
  exact List.prefix_iff_eq_take.mpr htake.symm

end Fetching

namespace Exec

open Fetching

variable {α β : Type} {P P' E E' : Fetching → Prop} {Q Q' : α → Fetching → Prop}
  {R : β → Fetching → Prop} {act : Exec α} {f : α → Exec β} {t : Fetching}

/-! ## Where operations lead -/

/-- Where something is true of what has been asked for, an operation leads to where something else
is. -/
def Leads (P : Fetching → Prop) (act : Exec α) (Q : α → Fetching → Prop) (E : Fetching → Prop) :
    Prop :=
  ∀ c m, P m.fetching →
    match act c m with
    | .ok a m' => Q a m'.fetching
    | .error _ m' => E m'.fetching

theorem Leads.mono (h : Leads P act Q E) (hP : ∀ t, P' t → P t) (hQ : ∀ a t, Q a t → Q' a t)
    (hE : ∀ t, E t → E' t) : Leads P' act Q' E' := by
  intro c m hm
  have hact := h c m (hP _ hm)
  cases hrun : act c m with
  | ok a m' => rw [hrun] at hact; exact hQ _ _ hact
  | error e m' => rw [hrun] at hact; exact hE _ hact

/-- What is true at the start may be taken one case at a time. -/
theorem Leads.each (h : ∀ t, P t → Leads (· = t) act Q E) : Leads P act Q E :=
  fun c m hm => h m.fetching hm c m rfl

theorem Leads.pure {a : α} (hQ : ∀ t, P t → Q a t) : Leads P (Pure.pure a : Exec α) Q E :=
  fun _ m hm => hQ m.fetching hm

theorem Leads.throw (e : Stop) (hE : ∀ t, P t → E t) :
    Leads P (MonadExcept.throw e : Exec α) Q E :=
  fun _ m hm => hE m.fetching hm

theorem Leads.bind (h : Leads P act Q E) (hf : ∀ a, Leads (Q a) (f a) R E) :
    Leads P (act >>= f) R E := by
  intro c m hm
  have hact := h c m hm
  rw [bind_eq]
  cases hrun : act c m with
  | error e m' => rw [hrun] at hact; exact hact
  | ok a m' => rw [hrun] at hact; exact hf a c m' hact

theorem Leads.get : Leads P (MonadState.get : Exec Machine) (fun m t => m.fetching = t ∧ P t) E :=
  fun _ _ hm => ⟨rfl, hm⟩

theorem Leads.change {g : Machine → Machine} {f : Unit → Exec β} {S : Fetching → Prop}
    (hg : ∀ m : Machine, P m.fetching → S (g m).fetching) (hf : Leads S (f ()) R E) :
    Leads P (modify g >>= f) R E :=
  .bind (Q := fun _ => S) (fun _ m hm => hg m hm) fun _ => hf

theorem Leads.changeModule {i : Nat} {g : ModuleRecord → ModuleRecord} {f : Unit → Exec β}
    {S : Fetching → Prop} (name : String → String) (hname : ∀ r, (g r).name = name r.name)
    (hg : ∀ t, P t → S { t with names := t.names.modify i name }) (hf : Leads S (f ()) R E) :
    Leads P (modifyModule i g >>= f) R E := by
  refine .change (fun m hm => ?_) hf
  rw [Machine.fetching_modify hname]
  exact hg _ hm

theorem Keeps.leads {S : α → Prop} (h : Keeps S act) (hE : ∀ t, P t → E t) :
    Leads P act (fun a t => P t ∧ S a) E := by
  intro c m hm
  have hact := h c m
  cases hrun : act c m with
  | ok a m' => rw [hrun] at hact; exact ⟨hact.1.fetching ▸ hm, hact.2⟩
  | error e m' => rw [hrun] at hact; exact hE _ (hact.fetching ▸ hm)

theorem Keeps.leads_of_throws (h : Keeps (fun _ => False) act) (hE : ∀ t, P t → E t) :
    Leads P act Q E :=
  (h.leads hE).mono (fun _ ht => ht) (fun _ _ hfalse => hfalse.2.elim) fun _ ht => ht

theorem Leads.withStack {bytes : Nat} (h : Leads P act Q E) (hE : ∀ t, P t → E t) :
    Leads P (withStack bytes act) Q E := by
  refine Leads.get.bind fun m => ?_
  extract_lets isFull below
  split
  · refine (keeps_stackOverflow.leads_of_throws (Q := fun _ _ => False) ?_).bind fun _ => ?_
    · exact fun t ht => hE t ht.2
    · exact fun _ _ hfalse => hfalse.elim
  · refine .change (S := P) (fun m hm => hm.2) (h.bind fun a => ?_)
    exact .change (S := Q a) (fun _ hm => hm) (.pure fun _ ht => ht)

/-- What is thrown can be caught, whatever has been asked for. -/
theorem Leads.attempt {Q : Fetching → Prop} (h : Leads P act (fun _ => Q) E) :
    Leads P (attempt act)
      (fun r t => match r with
        | .value _ => Q t
        | .thrown _ => E t) E := by
  refine Leads.get.bind fun _ => Leads.get.bind fun _ => Leads.get.bind fun _ => ?_
  intro c m hm
  have hact := h c m hm.2.2.2
  rw [tryCatch_eq, map_eq_pure_bind, bind_eq]
  cases hrun : act c m with
  | ok a m' => rw [hrun] at hact; exact hact
  | error e m' =>
      rw [hrun] at hact
      cases e with
      | thrown v => exact hact
      | exhausted => exact hact

/-- Loads one after the other make one. -/
theorem Leads.mapM {f : β → Exec α}
    (h : ∀ b t, Leads (· = t) (f b) (fun _ => t.Loaded) t.Ended) (bs : List β) (t : Fetching) :
    Leads (· = t) (bs.mapM f) (fun _ => t.Loaded) t.Ended := by
  induction bs generalizing t with
  | nil =>
      refine .pure ?_
      rintro _ rfl
      exact .refl _
  | cons b bs ih =>
      rw [List.mapM_cons]
      refine (h b t).bind fun _ => .each fun t' ht' => ?_
      refine .bind (Q := fun _ => t.Loaded) ?_ fun _ => .pure fun _ ht => ht
      exact (ih t').mono (fun _ h => h) (fun _ _ h => ht'.trans h) fun _ h => ht'.trans_ended h

/-! ## Loading a module -/

/-- The source of a module is asked for, unless it is in memory. -/
theorem leads_moduleSource {name : String} (hmissing : name ∉ t.names) :
    Leads (· = t) (moduleSource name) (fun _ => t.Sought name) t.Ended := by
  refine Leads.get.bind fun m => .each ?_
  rintro _ ⟨rfl, rfl⟩
  simp only
  split
  · -- what is in memory is taken from there, and nothing is asked for
    have hnothing : ∀ t, t = m.fetching → m.fetching.Sought name t := fun _ ht => ht ▸ .refl _ _
    refine .change (S := (· = m.fetching)) (fun _ hm => hm) ?_
    split
    · exact .pure hnothing
    · exact (keeps_throwBare _ _).leads_of_throws fun t ht => (hnothing t ht).ended
  · refine .change
      (S := (· = { m.fetching with requests := m.fetching.requests ++ [name] })) ?_ ?_
    · intro m' hm'
      rw [← hm']
      rfl
    split
    · next source hsource =>
      have hserves : m.fetching.serves name = true := congrArg Except.isOk hsource
      refine .change (S := (· = m.fetching.asking name)) ?_ (.pure fun _ ht => ht ▸ .asking hmissing)
      intro m' hm'
      rw [asking_of_serves hserves]
      exact congrArg (fun t : Fetching => { t with loaded := t.loaded ++ [name] }) hm'
    · next e hnone =>
      have hserves : m.fetching.serves name = false := congrArg Except.isOk hnone
      refine (keeps_throwBare _ _).leads_of_throws fun t ht => ?_
      rw [ht, ← asking_of_not_serves hserves]
      exact (Sought.asking hmissing).ended

theorem name_not_mem {m : Machine} {name : String}
    (h : m.modules.findIdx? (·.name == name) = none) : name ∉ m.fetching.names := by
  have hnone := Array.findIdx?_eq_none_iff.mp h
  simpa [Machine.fetching] using hnone

/-- A load asks for no URL twice, and for none for which a module is there. When it ends well, all
that it has asked for is there. -/
theorem leads_loadModule (fuel : Nat) (base s : String) (t : Fetching) :
    Leads (· = t) (loadModule fuel base s) (fun _ => t.Loaded) t.Ended := by
  induction fuel generalizing base s t with
  | zero => exact keeps_stackOverflow.leads_of_throws fun t' ht' => ht' ▸ (Loaded.refl _).ended
  | succ fuel ih =>
      have hstay : ∀ t', t' = t → t.Ended t' := fun _ ht' => ht' ▸ (Loaded.refl _).ended
      refine (keeps_resolveSpecifier base s).leads hstay |>.bind fun name => Leads.get.bind fun m => ?_
      split
      · refine .pure ?_
        rintro _ ⟨-, rfl, -⟩
        exact .refl _
      · next hnone =>
        refine .each fun t₁ ht₁ => ?_
        obtain ⟨hm, rfl, -⟩ := ht₁
        have hmissing : name ∉ t₁.names := hm ▸ name_not_mem hnone
        refine .withStack ?_ hstay
        refine (leads_moduleSource hmissing).bind fun source => ?_
        refine ((keeps_readModule name source).leads fun _ ht => ht.ended).bind fun read => ?_
        obtain ⟨r, requests⟩ := read
        refine Leads.get.bind fun m => ?_
        -- from here on the module is there, so what requests it in turn finds it
        refine .change (S := fun t => t₁.Opened name t ∧ m.modules.size = t₁.names.length) ?_ ?_
        · rintro m' ⟨hm, hsought, hname⟩
          have hplace : m.modules.size = t₁.names.length := by
            obtain ⟨-, -, -, hnames⟩ := hsought
            rw [Machine.size_modules, hm, hnames]
          rw [Machine.fetching_push, show r.name = name from hname]
          exact ⟨hsought.opened, hplace⟩
        · refine .each fun t₂ ht₂ => ?_
          obtain ⟨hopened, hplace⟩ := ht₂
          refine (Leads.attempt (.mapM (fun s t => ih name s t) requests t₂)).mono (fun _ h => h)
            (fun _ _ h => h) (fun _ h => hopened.1.trans_ended h) |>.bind fun result => ?_
          split
          · refine .changeModule (S := t₁.Loaded) id (fun _ => rfl) (fun t ht => ?_)
              (.pure fun _ ht => ht)
            rw [List.modify_id]
            exact hopened.1.trans ht
          · -- it is behind those that were there before, and they keep their names
            refine .changeModule (S := t₁.Ended) (fun _ => "") (fun _ => rfl) (fun t ht => ?_)
              (.throw _ fun _ ht => ht)
            rw [hplace]
            exact hopened.withdrawn ht _

section

variable {fuel i : Nat} {base s : String} {c : Calls} {m m' : Machine} {e : Stop}

theorem loaded_of_ok (h : loadModule fuel base s c m = .ok i m') :
    m.fetching.Loaded m'.fetching := by
  have hleads := leads_loadModule fuel base s m.fetching c m rfl
  rwa [h] at hleads

theorem ended_of_error (h : loadModule fuel base s c m = .error e m') :
    m.fetching.Ended m'.fetching := by
  have hleads := leads_loadModule fuel base s m.fetching c m rfl
  rwa [h] at hleads

end

end Exec

/-! ## Whole runs -/

/-- The URLs that were asked for on the way and for which no module is there. -/
def Fetching.lost (t t' : Fetching) : List String :=
  (t'.requests.drop t.requests.length).filter (· ∉ t'.names)

/-- What a machine goes through, as far as modules are concerned: it loads some, and whatever else it
does asks for nothing. A URL counts as failed whenever a load that goes wrong has asked for it, and no
module of that name is there when the load is over. -/
inductive Machine.Run (m : Machine) : (failed : List String) → Machine → Prop where
  | start : Run m [] m
  | other {failed : List String} {m' m'' : Machine} (before : Run m failed m')
      (still : m''.fetching = m'.fetching) : Run m failed m''
  | loaded {failed : List String} {m' m'' : Machine} {fuel i : Nat} {base s : String} {c : Calls}
      (before : Run m failed m') (load : Exec.loadModule fuel base s c m' = .ok i m'') :
      Run m failed m''
  | failed {failed : List String} {m' m'' : Machine} {fuel : Nat} {base s : String} {c : Calls}
      {e : Stop} (before : Run m failed m')
      (load : Exec.loadModule fuel base s c m' = .error e m'') :
      Run m (failed ++ m'.fetching.lost m''.fetching) m''

namespace Fetching

variable {t t' t'' : Fetching} {asked more failed lost : List String} {url : String}

theorem Pass.lost_eq (h : Pass asked t t') : t.lost t' = asked.filter (· ∉ t'.names) := by
  rw [Fetching.lost, h.requests, List.drop_left]

/-- What has failed was asked for. A URL was asked for at most as often as it has failed, and once
more if its module is there. -/
structure Course (asked failed : List String) (t t' : Fetching) : Prop where
  fetch : t'.fetch = t.fetch
  requests : t'.requests = t.requests ++ asked
  loaded : t'.loaded = t.loaded ++ asked.filter t.serves
  failed_le : ∀ url, failed.count url ≤ asked.count url
  count : ∀ url, asked.count url ≤ failed.count url + if url ∈ t'.names then 1 else 0

theorem Course.refl (t : Fetching) : Course [] [] t t where
  fetch := rfl
  requests := (List.append_nil _).symm
  loaded := (List.append_nil _).symm
  failed_le _ := Nat.le_refl _
  count := by simp

/-- What is asked for next is either there from now on or has failed. -/
theorem Course.pass (h : Course asked failed t t') (hpass : Pass more t' t'')
    (hsub : lost.Sublist more) (hlost : ∀ url ∈ more, url ∈ t''.names ∨ url ∈ lost) :
    Course (asked ++ more) (failed ++ lost) t t'' where
  fetch := hpass.fetch.trans h.fetch
  requests := by rw [hpass.requests, h.requests, List.append_assoc]
  loaded := by
    rw [hpass.loaded, h.loaded, serves_congr h.fetch, List.filter_append, List.append_assoc]
  failed_le url := by
    rw [List.count_append, List.count_append]
    exact Nat.add_le_add (h.failed_le url) (hsub.count_le url)
  count url := by
    have hbefore := h.count url
    rw [List.count_append, List.count_append, hpass.once.count]
    by_cases hmore : url ∈ more
    · rw [if_neg (hpass.missing url hmore)] at hbefore
      rw [if_pos hmore]
      rcases hlost url hmore with hthere | hfailed
      · rw [if_pos hthere]
        omega
      · have hsome : 0 < lost.count url := List.count_pos_iff.mpr hfailed
        omega
    · have hstays : url ∈ t'.names → url ∈ t''.names := fun hmem => hpass.names.subset hmem
      rw [if_neg hmore]
      split at hbefore
      · next hthere =>
        rw [if_pos (hstays hthere)]
        omega
      · omega

theorem Course.count_le (h : Course asked failed t t') (url : String) :
    asked.count url ≤ failed.count url + 1 := by
  have hcount := h.count url
  split at hcount <;> omega

end Fetching

namespace Machine.Run

open Fetching

variable {m m' m'' : Machine} {failed more : List String}

theorem trans (h : m.Run failed m') (h' : m'.Run more m'') : m.Run (failed ++ more) m'' := by
  induction h' with
  | start => rwa [List.append_nil]
  | other _ still ih => exact .other ih still
  | loaded _ load ih => exact .loaded ih load
  | failed _ load ih =>
      rw [← List.append_assoc]
      exact .failed ih load

/-- In a whole run, a URL is asked for as often as it fails, or once more. -/
theorem course (h : m.Run failed m') : ∃ asked, Course asked failed m.fetching m'.fetching := by
  induction h with
  | start => exact ⟨[], .refl _⟩
  | other _ still ih => rwa [still]
  | loaded _ load ih =>
      obtain ⟨asked, hcourse⟩ := ih
      obtain ⟨more, hpass, hthere⟩ := Exec.loaded_of_ok load
      have hlost : ∀ url ∈ more, url ∈ _ ∨ url ∈ [] := fun url hurl => .inl (hthere hurl)
      have hnext := hcourse.pass hpass (List.nil_sublist _) hlost
      rw [List.append_nil] at hnext
      exact ⟨asked ++ more, hnext⟩
  | failed _ load ih =>
      obtain ⟨asked, hcourse⟩ := ih
      obtain ⟨more, hpass⟩ := Exec.ended_of_error load
      rw [hpass.lost_eq]
      refine ⟨asked ++ more, hcourse.pass hpass List.filter_sublist fun url hurl => ?_⟩
      refine (Decidable.em _).imp_right fun hnot => List.mem_filter.mpr ⟨hurl, ?_⟩
      exact decide_eq_true hnot

end Machine.Run
end ScriptSandbox
