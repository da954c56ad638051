import ScriptSandbox.Proofs.Sandbox.Draining

/-!
# Two runs of a machine

Two worlds are alike if guest code cannot tell them apart. A machine respects a likeness if whatever
a host asks of it makes alike worlds of alike worlds, with alike results. Then so does what a host
makes of that: waiting for promises, doing jobs, and putting failures into words.

What no operation changes is said in the same way. A world is like itself as long as it has a property
(`Likeness.same`), and a machine that preserves the property respects that.
-/

namespace ScriptSandbox

/-- Which worlds, and which guest values, are alike. -/
structure Likeness (κ ν : Type) where
  world : World κ → World κ → Prop
  value : ν → ν → Prop

namespace Likeness

variable {κ ν α β γ δ : Type} (L : Likeness κ ν)

/-! ## Operations -/

/-- Faults are alike if what was thrown is, or if the words are the same. -/
inductive Faults : Fault ν → Fault ν → Prop where
  | thrown {v v' : ν} (h : L.value v v') : Faults (.thrown v) (.thrown v')
  | host (why : String) : Faults (.host why) (.host why)

/-- Results are alike if both operations succeed or both fail, with what is alike. -/
inductive Results (R : α → β → Prop) : Except (Fault ν) α → Except (Fault ν) β → Prop where
  | ok {a : α} {b : β} (h : R a b) : Results R (.ok a) (.ok b)
  | error {e e' : Fault ν} (h : L.Faults e e') : Results R (.error e) (.error e')

/-- Values that are no promises are alike here, and so are promises of which alike has become. -/
inductive Settlements : Option (Settlement ν) → Option (Settlement ν) → Prop where
  | none : Settlements none none
  | pending : Settlements (some .pending) (some .pending)
  | fulfilled {v v' : ν} (h : L.value v v') : Settlements (some (.fulfilled v)) (some (.fulfilled v'))
  | rejected {v v' : ν} (h : L.value v v') : Settlements (some (.rejected v)) (some (.rejected v'))

theorem Faults.refl {L : Likeness κ ν} (hvalue : ∀ v, L.value v v) (e : Fault ν) : L.Faults e e := by
  cases e with
  | thrown v => exact .thrown (hvalue v)
  | host why => exact .host why

theorem Results.refl {L : Likeness κ ν} {R : α → α → Prop} (hvalue : ∀ v, L.value v v)
    (hR : ∀ a, R a a) (r : Except (Fault ν) α) : L.Results R r r := by
  cases r with
  | ok a => exact .ok (hR a)
  | error e => exact .error (.refl hvalue e)

theorem Settlements.refl {L : Likeness κ ν} (hvalue : ∀ v, L.value v v)
    (s : Option (Settlement ν)) : L.Settlements s s := by
  rcases s with _ | _ | v | v
  · exact .none
  · exact .pending
  · exact .fulfilled (hvalue v)
  · exact .rejected (hvalue v)

/-- From alike worlds, two operations lead to alike worlds, with results that are related. -/
def Follows (R : α → β → Prop) (m : Change κ α) (m' : Change κ β) : Prop :=
  ∀ w w', L.world w w' → R (m.run w).1 (m'.run w').1 ∧ L.world (m.run w).2 (m'.run w').2

/-- The same for operations that may fail. -/
def Attempts (R : α → β → Prop) (m : Attempted κ ν α) (m' : Attempted κ ν β) : Prop :=
  L.Follows (L.Results R) m.run m'.run

variable {L} {R : α → β → Prop} {S : γ → δ → Prop}

theorem Follows.pure {a : α} {b : β} (h : R a b) :
    L.Follows R (pure a : Change κ α) (pure b : Change κ β) :=
  fun _ _ hw => ⟨h, hw⟩

theorem Follows.bind {m : Change κ α} {m' : Change κ β} {f : α → Change κ γ} {g : β → Change κ δ}
    (hm : L.Follows R m m') (hf : ∀ a b, R a b → L.Follows S (f a) (g b)) :
    L.Follows S (m >>= f) (m' >>= g) := by
  intro w w' hw
  obtain ⟨hresult, hworld⟩ := hm w w' hw
  exact hf _ _ hresult _ _ hworld

theorem Attempts.bind {m : Attempted κ ν α} {m' : Attempted κ ν β} {f : α → Attempted κ ν γ}
    {g : β → Attempted κ ν δ} (hm : L.Attempts R m m')
    (hf : ∀ a b, R a b → L.Attempts S (f a) (g b)) : L.Attempts S (m >>= f) (m' >>= g) := by
  intro w w' hw
  obtain ⟨hresult, hworld⟩ := hm w w' hw
  rw [Attempted.run_bind, Attempted.run_bind]
  generalize m.run.run w = p at hresult hworld
  generalize m'.run.run w' = p' at hresult hworld
  obtain ⟨r, v⟩ := p
  obtain ⟨r', v'⟩ := p'
  cases hresult with
  | ok h => exact hf _ _ h v v' hworld
  | error h => exact ⟨.error h, hworld⟩

end Likeness

/-! ## Machines -/

/-- Guest code on this machine cannot tell alike worlds apart. -/
structure Vm.Respects {κ ν : Type} (vm : Vm κ ν) (L : Likeness κ ν) : Prop where
  importModule (name : String) : L.Attempts L.value (vm.importModule name) (vm.importModule name)
  needObject {v v' : ν} (h : L.value v v') :
    L.Attempts L.value (vm.needObject v) (vm.needObject v')
  completion {v v' : ν} (h : L.value v v') :
    L.Attempts L.value (vm.completion v) (vm.completion v')
  runJob : L.Follows Eq vm.runJob vm.runJob
  render {v v' : ν} (h : L.value v v') : L.Follows Eq (vm.render v) (vm.render v')
  classify {v v' : ν} (h : L.value v v') : L.Follows Eq (vm.classify v) (vm.classify v')
  settlement {w w' : World κ} {v v' : ν} (hw : L.world w w') (h : L.value v v') :
    L.Settlements (vm.settlement w v) (vm.settlement w' v')
  exhausted {w w' : World κ} (hw : L.world w w') : vm.exhausted w = vm.exhausted w'

namespace Vm.Respects

variable {κ ν : Type} {vm : Vm κ ν} {L : Likeness κ ν} (h : vm.Respects L)
include h

/-- Jobs are done in both worlds, or in none. -/
theorem drain (fuel : Nat) : L.Follows Eq (vm.drain fuel) (vm.drain fuel) := by
  induction fuel with
  | zero => exact .pure rfl
  | succ fuel ih =>
      refine h.runJob.bind fun more _ hmore => ?_
      subst hmore
      cases more with
      | false => exact .pure rfl
      | true => exact ih.bind fun n _ hn => .pure (congrArg (· + 1) hn)

theorem await {v v' : ν} (hv : L.value v v') (fuel : Nat) :
    L.Attempts L.value (vm.await fuel v) (vm.await fuel v') := by
  induction fuel with
  | zero => exact fun w w' hw => ⟨.error (.host deadlock), hw⟩
  | succ fuel ih =>
      intro w w' hw
      rw [run_await_succ, run_await_succ]
      have hsettled := h.settlement hw hv
      generalize vm.settlement w v = s at hsettled
      generalize vm.settlement w' v' = s' at hsettled
      cases hsettled with
      | none => exact ⟨.ok hv, hw⟩
      | fulfilled hx => exact ⟨.ok hx, hw⟩
      | rejected hx => exact ⟨.error (.thrown hx), hw⟩
      | pending =>
          obtain ⟨hmore, hworld⟩ := h.runJob w w' hw
          simp only [hmore]
          split
          · exact ih _ _ hworld
          · exact ⟨.error (.host deadlock), hworld⟩

theorem importWhole (name : String) :
    L.Attempts L.value (vm.importWhole name) (vm.importWhole name) :=
  (h.importModule name).bind fun _ _ hv => (h.await hv jobLimit).bind fun _ _ hx => h.needObject hx

/-- A failure has the same words in both worlds. -/
theorem guestFailure {e e' : Fault ν} (he : L.Faults e e') :
    L.Follows Eq (vm.guestFailure e) (vm.guestFailure e') := by
  -- with the words at hand, all that is asked of the world is whether the heap is exhausted
  have hfold (error : GuestError) : L.Follows Eq
      (do return if vm.exhausted (← get) then error.onExhaustedHeap else error)
      (do return if vm.exhausted (← get) then error.onExhaustedHeap else error) := by
    intro w w' hw
    refine ⟨?_, hw⟩
    change (if vm.exhausted w then error.onExhaustedHeap else error) =
      if vm.exhausted w' then error.onExhaustedHeap else error
    rw [h.exhausted hw]
  cases he with
  | thrown hv => exact (h.classify hv).bind fun error _ hsame => hsame ▸ hfold error
  | host why => exact hfold (.text why)

end Vm.Respects

/-! ## What no operation changes -/

/-- Worlds with a property, each of them like itself only. -/
def Likeness.same {κ : Type} (ν : Type) (P : World κ → Prop) : Likeness κ ν where
  world w w' := w = w' ∧ P w
  value := Eq

/-- Whatever a host asks of a machine, the world keeps a property. -/
structure Vm.Preserves {κ ν : Type} (vm : Vm κ ν) (P : World κ → Prop) : Prop where
  importModule (name : String) (w : World κ) : P w → P ((vm.importModule name).run.run w).2
  needObject (v : ν) (w : World κ) : P w → P ((vm.needObject v).run.run w).2
  completion (v : ν) (w : World κ) : P w → P ((vm.completion v).run.run w).2
  runJob (w : World κ) : P w → P (vm.runJob.run w).2
  render (v : ν) (w : World κ) : P w → P ((vm.render v).run w).2
  classify (v : ν) (w : World κ) : P w → P ((vm.classify v).run w).2

section Same

variable {κ ν α : Type} {P : World κ → Prop}

theorem Likeness.Follows.same {m : Change κ α} (h : ∀ w, P w → P (m.run w).2) :
    (Likeness.same ν P).Follows Eq m m := by
  rintro w _ ⟨rfl, hw⟩
  exact ⟨rfl, rfl, h w hw⟩

theorem Likeness.Attempts.same {m : Attempted κ ν α} (h : ∀ w, P w → P (m.run.run w).2) :
    (Likeness.same ν P).Attempts Eq m m := by
  rintro w _ ⟨rfl, hw⟩
  exact ⟨.refl (fun _ => rfl) (fun _ => rfl) _, rfl, h w hw⟩

/-- What is preserved can be seen as a likeness that the machine respects. -/
theorem Vm.Preserves.respects {vm : Vm κ ν} (h : vm.Preserves P) : vm.Respects (.same ν P) where
  importModule name := .same (h.importModule name)
  needObject := by
    rintro v _ rfl
    exact .same (h.needObject v)
  completion := by
    rintro v _ rfl
    exact .same (h.completion v)
  runJob := .same h.runJob
  render := by
    rintro v _ rfl
    exact .same (h.render v)
  classify := by
    rintro v _ rfl
    exact .same (h.classify v)
  settlement := by
    rintro w _ v _ ⟨rfl, -⟩ rfl
    exact .refl (fun _ => rfl) _
  exhausted := by
    rintro w _ ⟨rfl, -⟩
    rfl

end Same

/-! ## What is kept -/

/-- A world that goes on from another one. The guest has neither registered modules nor changed where
specifiers lead and where modules come from; it may have taken modules that were registered. -/
structure Confined {κ : Type} (w w' : World κ) : Prop where
  resolution : w'.host.resolution = w.host.resolution
  fetch : w'.host.fetch = w.host.fetch
  reading : w'.host.reading = w.host.reading
  issued : w'.host.inline.issued = w.host.inline.issued
  sources : w'.host.inline.sources.Sublist w.host.inline.sources
  tracks : w'.tracks = w.tracks

namespace Confined

variable {κ : Type} {w w' w'' : World κ}

theorem refl (w : World κ) : Confined w w := ⟨rfl, rfl, rfl, rfl, .refl _, rfl⟩

theorem trans (h : Confined w w') (h' : Confined w' w'') : Confined w w'' where
  resolution := h'.resolution.trans h.resolution
  fetch := h'.fetch.trans h.fetch
  reading := h'.reading.trans h.reading
  issued := h'.issued.trans h.issued
  sources := h'.sources.trans h.sources
  tracks := h'.tracks.trans h.tracks

end Confined

/-- What a machine does stays within its own state: of what host and machine share, it adds to the
console output and to the notes, and takes modules. A context is made without output or notes. -/
structure Vm.Confines {κ ν : Type} (vm : Vm κ ν) : Prop where
  importModule (name : String) (w : World κ) : Confined w ((vm.importModule name).run.run w).2
  needObject (v : ν) (w : World κ) : Confined w ((vm.needObject v).run.run w).2
  completion (v : ν) (w : World κ) : Confined w ((vm.completion v).run.run w).2
  runJob (w : World κ) : Confined w (vm.runJob.run w).2
  render (v : ν) (w : World κ) : Confined w ((vm.render v).run w).2
  classify (v : ν) (w : World κ) : Confined w ((vm.classify v).run w).2
  renew (w : World κ) : Confined w (vm.renew.run.run w).2
  installRecorder (w : World κ) : Confined w (vm.installRecorder.run.run w).2
  renew_silent (w : World κ) : (vm.renew.run.run w).2.host.logs = w.host.logs ∧
    (vm.renew.run.run w).2.rejections = w.rejections
  installRecorder_silent (w : World κ) :
    (vm.installRecorder.run.run w).2.host.logs = w.host.logs ∧
      (vm.installRecorder.run.run w).2.rejections = w.rejections

/-- Worlds that go on from a given one, each of them like itself only. -/
def Likeness.kept {κ : Type} (ν : Type) (start : World κ) : Likeness κ ν where
  world w w' := w = w' ∧ Confined start w
  value := Eq

namespace Vm.Confines

variable {κ ν : Type} {vm : Vm κ ν}

/-- What is confined stays so, from whatever world it goes on. -/
theorem preserves (h : vm.Confines) (start : World κ) : vm.Preserves (Confined start) where
  importModule name w hw := hw.trans (h.importModule name w)
  needObject v w hw := hw.trans (h.needObject v w)
  completion v w hw := hw.trans (h.completion v w)
  runJob w hw := hw.trans (h.runJob w)
  render v w hw := hw.trans (h.render v w)
  classify v w hw := hw.trans (h.classify v w)

theorem respects (h : vm.Confines) (start : World κ) : vm.Respects (.kept ν start) :=
  (h.preserves start).respects

end Vm.Confines

end ScriptSandbox
