import ScriptSandbox.Proofs.Machine.Keeping
import ScriptSandbox.Proofs.Modules.Web

/-!
# What is asked for when modules are loaded

Loading a module runs no code of the guest, and apart from the source that it asks for it does
nothing to the host. `Asks` says of an operation of the machine that all it asks the host for are
URLs of the web; it holds of each operation that loading is made of, and so of loading a module with
all that it requests, whatever the sources are (`asks_loadModule`).
-/

namespace ScriptSandbox

open Specifier ImportMap

/-- Some more URLs of the web have been asked for, and modules are found as before. -/
structure Host.Asked (h h' : Host) : Prop where
  resolution : h'.resolution = h.resolution
  requests : ∃ urls, h'.requests = h.requests ++ urls ∧ ∀ url ∈ urls, isAbsoluteUrl url = true

theorem Host.Asked.refl (h : Host) : h.Asked h := ⟨rfl, [], (List.append_nil _).symm, by simp⟩

theorem Host.Asked.trans {h₁ h₂ h₃ : Host} (h : h₁.Asked h₂) (h' : h₂.Asked h₃) : h₁.Asked h₃ := by
  obtain ⟨urls, hurls, hweb⟩ := h.requests
  obtain ⟨urls', hurls', hweb'⟩ := h'.requests
  refine ⟨h'.resolution.trans h.resolution, urls ++ urls', ?_, ?_⟩
  · rw [hurls', hurls, List.append_assoc]
  · exact List.forall_mem_append.mpr ⟨hweb, hweb'⟩

/-- What modules are served from memory, and which were loaded, has nothing to do with it. -/
theorem Host.Asked.congr {h h₁ h₂ : Host} (h' : h.Asked h₁)
    (hresolution : h₂.resolution = h₁.resolution) (hrequests : h₂.requests = h₁.requests) :
    h.Asked h₂ :=
  ⟨hresolution.trans h'.resolution, hrequests ▸ h'.requests⟩

namespace Exec

variable {α β : Type} {r : Resolver} {Q : α → Prop} {R : β → Prop} {act : Exec α}
  {f : α → Exec β}

/-- Whatever comes of an operation, it asks for nothing but URLs of the web; what it returns has a
property. -/
def Asks (r : Resolver) (Q : α → Prop) (act : Exec α) : Prop :=
  ∀ c m, m.host.resolution.Of r →
    match act c m with
    | .ok a m' => m.host.Asked m'.host ∧ Q a
    | .error _ m' => m.host.Asked m'.host

/-! ## Composing operations -/

theorem Asks.mono {Q' : α → Prop} (h : Asks r Q act) (hQ : ∀ a, Q a → Q' a) : Asks r Q' act := by
  intro c m hm
  have hact := h c m hm
  cases hrun : act c m with
  | ok a m' => rw [hrun] at hact; exact ⟨hact.1, hQ a hact.2⟩
  | error e m' => rw [hrun] at hact; exact hact

theorem Asks.pure {a : α} (ha : Q a) : Asks r Q (Pure.pure a : Exec α) :=
  fun _ m _ => ⟨.refl m.host, ha⟩

theorem Asks.throw (e : Stop) : Asks r Q (MonadExcept.throw e : Exec α) :=
  fun _ m _ => .refl m.host

theorem Asks.bind (h : Asks r Q act) (hf : ∀ a, Q a → Asks r R (f a)) :
    Asks r R (act >>= f) := by
  intro c m hm
  have hact := h c m hm
  rw [bind_eq]
  cases hrun : act c m with
  | error e m' => rw [hrun] at hact; exact hact
  | ok a m' =>
      rw [hrun] at hact
      obtain ⟨hasked, ha⟩ := hact
      have hnext := hf a ha c m' (hasked.resolution ▸ hm)
      simp only
      cases hlast : f a c m' with
      | ok b m'' => rw [hlast] at hnext; exact ⟨hasked.trans hnext.1, hnext.2⟩
      | error e m'' => rw [hlast] at hnext; exact hasked.trans hnext

theorem Asks.get :
    Asks r (fun m : Machine => m.host.resolution.Of r) (MonadState.get : Exec Machine) :=
  fun _ m hm => ⟨.refl m.host, hm⟩

theorem Asks.change {g : Machine → Machine} {f : Unit → Exec β}
    (hg : ∀ m : Machine, m.host.Asked (g m).host) (hf : Asks r R (f ())) :
    Asks r R (modify g >>= f) :=
  .bind (Q := fun _ => True) (fun _ m _ => ⟨hg m, trivial⟩) fun _ _ => hf

theorem Asks.changeOwn {g : Machine → Machine} {f : Unit → Exec β}
    (hg : ∀ m : Machine, (g m).host = m.host) (hf : Asks r R (f ())) :
    Asks r R (modify g >>= f) := by
  refine .change (fun m => ?_) hf
  rw [hg m]
  exact .refl m.host

/-- What leaves the host alone asks it for nothing. -/
theorem Keeps.asks (h : Keeps Q act) : Asks r Q act := by
  intro c m _
  have hact := h c m
  cases hrun : act c m with
  | ok a m' => rw [hrun] at hact; exact ⟨hact.1.host ▸ .refl m.host, hact.2⟩
  | error e m' => rw [hrun] at hact; exact hact.host ▸ .refl m.host

theorem Asks.tryCatch {handle : Stop → Exec α} (h : Asks r Q act)
    (hhandle : ∀ e, Asks r Q (handle e)) : Asks r Q (tryCatch act handle) := by
  intro c m hm
  have hact := h c m hm
  rw [tryCatch_eq]
  cases hrun : act c m with
  | ok a m' => rw [hrun] at hact; exact hact
  | error e m' =>
      rw [hrun] at hact
      have hnext := hhandle e c m' (hact.resolution ▸ hm)
      simp only
      cases hlast : handle e c m' with
      | ok a m'' => rw [hlast] at hnext; exact ⟨hact.trans hnext.1, hnext.2⟩
      | error e m'' => rw [hlast] at hnext; exact hact.trans hnext

theorem Asks.mapM {f : β → Exec α} (hf : ∀ b, Asks r (fun _ => True) (f b)) (bs : List β) :
    Asks r (fun _ => True) (bs.mapM f) := by
  induction bs with
  | nil => exact .pure trivial
  | cons b bs ih =>
      rw [List.mapM_cons]
      exact (hf b).bind fun _ _ => ih.bind fun _ _ => .pure trivial

/-! ## The operations of loading -/

theorem asks_attempt (h : Asks r (fun _ => True) act) : Asks r (fun _ => True) (attempt act) := by
  unfold attempt
  refine Asks.get.bind fun _ _ => Asks.get.bind fun _ _ => Asks.get.bind fun _ _ => ?_
  refine .tryCatch ?_ fun e => ?_
  · rw [map_eq_pure_bind]
    exact h.bind (R := fun _ => True) fun _ _ => .pure trivial
  · split
    · exact .changeOwn (fun _ => rfl) <| .pure trivial
    · exact .throw _

theorem asks_withStack (bytes : Nat) (h : Asks r Q act) : Asks r Q (withStack bytes act) := by
  unfold withStack
  refine Asks.get.bind fun m _ => ?_
  extract_lets isFull below
  split
  · exact keeps_stackOverflow.asks.bind (Q := fun _ => False) fun _ h => h.elim
  · refine .changeOwn (fun _ => rfl) (h.bind fun _ ha => ?_)
    exact .changeOwn (fun _ => rfl) <| .pure ha

/-- The name that is found for a specifier is as it should be. -/
theorem asks_resolveSpecifier (hroot : isAbsoluteUrl r.root = true) (base s : String) :
    Asks r (Named s) (resolveSpecifier base s) := by
  refine Asks.get.bind fun m hm => ?_
  split
  · next hfound => exact .pure (hm.named hroot hfound)
  · exact (keeps_throwBare _ _).asks

theorem asks_moduleSource {s name : String} (hname : Named s name) :
    Asks r (fun _ => True) (moduleSource name) := by
  refine Asks.get.bind fun m _ => ?_
  simp only
  split
  · refine .change (fun m => ?_) ?_
    · exact (Host.Asked.refl m.host).congr rfl rfl
    · split
      · exact .pure trivial
      · exact (keeps_throwBare _ _).asks
  · next hinline =>
      have habs : isAbsoluteUrl name = true := by
        rw [hname.absolute, ← hname.inline]
        simpa using hinline
      refine .change (fun m => ?_) ?_
      · exact ⟨rfl, [name], rfl, by simpa using habs⟩
      · split
        · refine .change (fun m => ?_) (.pure trivial)
          exact (Host.Asked.refl m.host).congr rfl rfl
        · exact (keeps_throwBare _ _).asks

/-- Loading a module with all that it requests asks for nothing but URLs of the web. -/
theorem asks_loadModule (hroot : isAbsoluteUrl r.root = true) (fuel : Nat) (base s : String) :
    Asks r (fun _ => True) (loadModule fuel base s) := by
  induction fuel generalizing base s with
  | zero => exact keeps_stackOverflow.asks
  | succ fuel ih =>
      refine (asks_resolveSpecifier hroot base s).bind fun name hname => ?_
      refine Asks.get.bind fun m _ => ?_
      split
      · exact .pure trivial
      · refine asks_withStack _ ((asks_moduleSource hname).bind fun source _ => ?_)
        refine (keeps_readModule name source).asks.bind fun read _ => Asks.get.bind fun m _ => ?_
        refine .changeOwn (fun _ => rfl) ?_
        refine (asks_attempt (.mapM (fun s => ih name s) _)).bind fun result _ => ?_
        split
        · exact .changeOwn (fun _ => rfl) <| .pure trivial
        · exact .changeOwn (fun _ => rfl) <| .throw _

end Exec

end ScriptSandbox
