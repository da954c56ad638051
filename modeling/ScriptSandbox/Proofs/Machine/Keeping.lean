import ScriptSandbox.Machine.Link

/-!
# What loading leaves alone

To load a module the machine makes errors, takes memory and reads sources. None of that touches the
host or the modules that are there. `Keeps` says so of an operation, and of what it returns besides;
what remains of loading is to ask for a source and to put the module in its place.
-/

namespace ScriptSandbox

/-- The host is as it was, and so are the modules. -/
structure Machine.Kept (m m' : Machine) : Prop where
  host : m'.host = m.host
  modules : m'.modules = m.modules

theorem Machine.Kept.refl (m : Machine) : m.Kept m := ⟨rfl, rfl⟩

theorem Machine.Kept.trans {m₁ m₂ m₃ : Machine} (h : m₁.Kept m₂) (h' : m₂.Kept m₃) : m₁.Kept m₃ :=
  ⟨h'.host.trans h.host, h'.modules.trans h.modules⟩

namespace Exec

variable {α β : Type} {Q : α → Prop} {R : β → Prop} {act : Exec α} {f : α → Exec β}

/-! ## Running operations -/

theorem bind_eq (act : Exec α) (f : α → Exec β) (c : Calls) (m : Machine) :
    (act >>= f) c m =
      match act c m with
      | .ok a m' => f a c m'
      | .error e m' => .error e m' := by
  change EStateM.bind (act c) (fun a => f a c) m = _
  delta EStateM.bind
  cases act c m <;> rfl

theorem tryCatch_eq (act : Exec α) (handle : Stop → Exec α) (c : Calls) (m : Machine) :
    (tryCatch act handle) c m =
      match act c m with
      | .ok a m' => .ok a m'
      | .error e m' => handle e c m' := by
  change EStateM.tryCatch (act c) (fun e => handle e c) m = _
  delta EStateM.tryCatch
  cases act c m <;> rfl

/-! ## Operations that keep host and modules -/

/-- Whatever comes of an operation, it leaves host and modules alone; what it returns has a
property. -/
def Keeps (Q : α → Prop) (act : Exec α) : Prop :=
  ∀ c m,
    match act c m with
    | .ok a m' => m.Kept m' ∧ Q a
    | .error _ m' => m.Kept m'

theorem Keeps.pure {a : α} (ha : Q a) : Keeps Q (Pure.pure a : Exec α) := fun _ m => ⟨.refl m, ha⟩

theorem Keeps.throw (e : Stop) : Keeps Q (MonadExcept.throw e : Exec α) := fun _ m => .refl m

theorem Keeps.bind (h : Keeps Q act) (hf : ∀ a, Q a → Keeps R (f a)) : Keeps R (act >>= f) := by
  intro c m
  have hact := h c m
  rw [bind_eq]
  cases hrun : act c m with
  | error e m' => rw [hrun] at hact; exact hact
  | ok a m' =>
      rw [hrun] at hact
      obtain ⟨hkept, ha⟩ := hact
      have hnext := hf a ha c m'
      simp only
      cases hlast : f a c m' with
      | ok b m'' => rw [hlast] at hnext; exact ⟨hkept.trans hnext.1, hnext.2⟩
      | error e m'' => rw [hlast] at hnext; exact hkept.trans hnext

theorem Keeps.get : Keeps (fun _ => True) (MonadState.get : Exec Machine) :=
  fun _ m => ⟨.refl m, trivial⟩

theorem Keeps.change {g : Machine → Machine} {f : Unit → Exec β} (hg : ∀ m : Machine, m.Kept (g m))
    (hf : Keeps R (f ())) : Keeps R (modify g >>= f) :=
  .bind (Q := fun _ => True) (fun _ m => ⟨hg m, trivial⟩) fun _ _ => hf

theorem Keeps.modifyGet {g : Machine → α × Machine} (hg : ∀ m : Machine, m.Kept (g m).2) :
    Keeps (fun _ => True) (MonadStateOf.modifyGet g : Exec α) :=
  fun _ m => ⟨hg m, trivial⟩

theorem keeps_alloc (o : Obj) : Keeps (fun _ => True) (alloc o) := by
  refine .modifyGet fun m => ?_
  simp only
  split <;> exact ⟨rfl, rfl⟩

theorem keeps_makeErrorWith (k : ErrorKind) (message stack : String) :
    Keeps (fun _ => True) (makeErrorWith k message stack) :=
  .change (fun _ => ⟨rfl, rfl⟩) <| (keeps_alloc _).bind fun _ _ => .pure trivial

/-- Nothing is returned where something is thrown. -/
theorem keeps_throwBare (k : ErrorKind) (message : String) :
    Keeps Q (throwBare k message : Exec α) :=
  (keeps_makeErrorWith _ _ _).bind fun _ _ => .throw _

theorem keeps_stackOverflow : Keeps Q (stackOverflow : Exec α) :=
  (Keeps.get.bind fun _ _ => keeps_makeErrorWith _ _ _).bind fun _ _ => .throw _

theorem keeps_orFault (file : String) (result : Except Language.SourceFault α) :
    Keeps (fun _ => True) (orFault file result) := by
  unfold orFault
  split
  · exact .pure trivial
  · unfold throwFault
    split
    · exact keeps_stackOverflow
    · exact Keeps.get.bind fun _ _ => (keeps_makeErrorWith _ _ _).bind fun _ _ => .throw _

theorem keeps_readModule (name source : String) :
    Keeps (fun read => read.1.name = name) (readModule name source) := by
  unfold readModule
  split
  · exact (keeps_throwBare _ _).bind (Q := fun _ => False) fun _ h => h.elim
  · refine .change (fun _ => ⟨rfl, rfl⟩) ?_
    refine (keeps_orFault _ _).bind fun _ _ => (keeps_orFault _ _).bind fun _ _ => ?_
    exact .pure rfl

theorem keeps_resolveSpecifier (base s : String) :
    Keeps (fun _ => True) (resolveSpecifier base s) := by
  refine Keeps.get.bind fun _ _ => ?_
  split
  · exact .pure trivial
  · exact keeps_throwBare _ _

end Exec
end ScriptSandbox
