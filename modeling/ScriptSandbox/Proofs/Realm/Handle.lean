import ScriptSandbox.Realm.Handle

/-!
# The host's end of a realm

A realm has the import map that it was built with for as long as there is a host's end of it,
whatever the host sends and whatever arrives.

An outcome does not say which request it answers. If nothing but the signal of readiness is on its
way when code is sent (`Quiet`), the first outcome that arrives is that of the code, however long it
takes and however late the signal is (`request_ok`); and then nothing is on its way again. A request
that is given up is another matter: its outcome may still arrive.
-/

namespace ScriptSandbox.RealmHandle

variable {σ : Type} {h : RealmHandle σ}

/-! ## Waiting for readiness -/

theorem spawn_ok {threads : Threads σ} {config : RealmConfig}
    (hspawn : spawn threads config = .ok h) :
    ∃ start thread, h = ofStart config.importMap start thread := by
  rw [spawn] at hspawn
  split at hspawn
  · exact ⟨_, _, (Except.ok.inj hspawn).symm⟩
  · cases hspawn

/-- Waiting for what does not come takes time, and changes nothing else. -/
theorem waitInVain_eq (deadline : Nat) (h : RealmHandle σ) :
    ∃ died now, h.waitInVain deadline = (died, { h with now }) := by
  rw [waitInVain]
  split <;> exact ⟨_, _, rfl⟩

/-- Waiting for readiness takes time and may take messages off their way; it asks nothing of the
thread. -/
theorem waitReady_frame (limit : Duration) (h : RealmHandle σ) :
    ∃ now ready inbox, (h.waitReady limit).2 = { h with now, ready, inbox } ∧
      inbox <:+ h.inbox := by
  rw [waitReady]
  split
  · exact ⟨_, _, _, rfl, List.suffix_refl _⟩
  · simp only
    split
    · next hinbox =>
        split
        · rw [hinbox]
          split <;> exact ⟨_, _, _, rfl, List.suffix_cons ..⟩
        · exact ⟨_, _, h.inbox, rfl, List.suffix_refl _⟩
    · obtain ⟨died, now, hvain⟩ := waitInVain_eq (h.deadline limit) h
      rw [hvain]
      cases died <;> exact ⟨_, _, h.inbox, rfl, List.suffix_refl _⟩

/-! ## The import map -/

theorem ofStart_importMap (map : ImportMap) (start : Ending Unit) (thread : σ) :
    (ofStart map start thread).importMap = map := by
  cases start <;> rfl

theorem spawn_importMap {threads : Threads σ} {config : RealmConfig}
    (hspawn : spawn threads config = .ok h) : h.importMap = config.importMap := by
  obtain ⟨start, thread, rfl⟩ := spawn_ok hspawn
  exact ofStart_importMap ..

theorem waitReady_importMap (limit : Duration) (h : RealmHandle σ) :
    (h.waitReady limit).2.importMap = h.importMap := by
  obtain ⟨now, ready, inbox, heq, -⟩ := waitReady_frame limit h
  rw [heq]

theorem send_importMap (threads : Threads σ) (code : String) (h : RealmHandle σ) :
    (h.send threads code).importMap = h.importMap := by
  rw [send]
  split
  · rfl
  · simp only
    split <;> rfl

theorem receiveOutcome_importMap (limit : Duration) (deadline : Nat) (inbox : List Arrival)
    (h : RealmHandle σ) :
    (receiveOutcome limit deadline inbox h).2.importMap = h.importMap := by
  induction inbox generalizing h with
  | nil =>
      obtain ⟨died, now, hvain⟩ := waitInVain_eq deadline { h with inbox := [] }
      rw [receiveOutcome, hvain]
      cases died <;> rfl
  | cons a rest ih =>
      rw [receiveOutcome]
      split
      · simp only
        split
        · rfl
        · rw [ih]
          rfl
      · rfl

theorem request_importMap (threads : Threads σ) (code : String) (limit : Duration)
    (h : RealmHandle σ) : (h.request threads code limit).2.importMap = h.importMap := by
  rw [request]
  split
  · rfl
  · exact (receiveOutcome_importMap ..).trans (send_importMap threads code h)

/-! ## What is on its way -/

def underway (h : RealmHandle σ) : List RealmMessage := h.inbox.map (·.message)

/-- Nothing is on its way but the signal of readiness, if that. -/
def Quiet (h : RealmHandle σ) : Prop := h.underway <+: [.ready]

theorem quiet_of_inbox_nil (hnil : h.inbox = []) : h.Quiet := by
  rw [Quiet, underway, hnil]
  exact List.nil_prefix

theorem Quiet.message_eq (hq : h.Quiet) {a : Arrival} (ha : a ∈ h.inbox) : a.message = .ready :=
  List.mem_singleton.mp (hq.subset (List.mem_map_of_mem ha))

theorem ofStart_quiet (map : ImportMap) (start : Ending Unit) (thread : σ) :
    (ofStart map start thread).Quiet := by
  cases start with
  | done span _ => exact List.prefix_refl _
  | death span => exact quiet_of_inbox_nil rfl
  | never => exact quiet_of_inbox_nil rfl

theorem spawn_quiet {threads : Threads σ} {config : RealmConfig}
    (hspawn : spawn threads config = .ok h) : h.Quiet := by
  obtain ⟨start, thread, rfl⟩ := spawn_ok hspawn
  exact ofStart_quiet ..

theorem Quiet.of_suffix {h' : RealmHandle σ} (hq : h.Quiet) (hsuffix : h'.inbox <:+ h.inbox) :
    h'.Quiet := by
  have hlist : h'.underway <:+ h.underway := hsuffix.map _
  rcases List.prefix_cons_iff.mp hq with hnil | ⟨rest, hone, hrest⟩
  · rw [hnil] at hlist
    rw [Quiet, List.suffix_nil.mp hlist]
    exact List.nil_prefix
  · obtain rfl := List.prefix_nil.mp hrest
    rw [hone] at hlist
    rcases List.suffix_cons_iff.mp hlist with hsame | hnil
    · simp only [Quiet, hsame, List.prefix_refl]
    · rw [Quiet, List.suffix_nil.mp hnil]
      exact List.nil_prefix

theorem Quiet.waitReady (hq : h.Quiet) (limit : Duration) : (h.waitReady limit).2.Quiet := by
  obtain ⟨now, ready, inbox, heq, hsuffix⟩ := waitReady_frame limit h
  rw [heq]
  exact hq.of_suffix hsuffix

/-! ## One request -/

/-- What the thread makes of code is behind all that is on its way already; or else nothing comes of
it. -/
theorem send_cases (threads : Threads σ) (code : String) (h : RealmHandle σ) :
    (h.send threads code).inbox = h.inbox ∨
      ∃ span outcome thread time, threads.execute code h.thread = (.done span outcome, thread) ∧
        (h.send threads code).thread = thread ∧
        (h.send threads code).inbox = h.inbox ++ [⟨time, .executionResult outcome⟩] := by
  rw [send]
  split
  · exact .inl rfl
  · simp only
    split
    · next span outcome thread hrun => exact .inr ⟨span, outcome, thread, _, hrun, rfl, rfl⟩
    · exact .inl rfl
    · exact .inl rfl

/-- What is received is the first outcome on its way; what is behind it stays on its way. -/
theorem receiveOutcome_ok {limit : Duration} {deadline : Nat} {inbox : List Arrival} {o : Outcome}
    (hok : (receiveOutcome limit deadline inbox h).1 = .ok o) :
    ∃ before time, inbox = before ++
        ⟨time, .executionResult o⟩ :: (receiveOutcome limit deadline inbox h).2.inbox ∧
      (∀ a ∈ before, a.message = .ready) ∧
      (receiveOutcome limit deadline inbox h).2.thread = h.thread := by
  induction inbox generalizing h with
  | nil =>
      obtain ⟨died, now, hvain⟩ := waitInVain_eq deadline { h with inbox := [] }
      rw [receiveOutcome, hvain] at hok
      cases died <;> cases hok
  | cons a rest ih =>
      obtain ⟨time, message⟩ := a
      rw [receiveOutcome] at hok ⊢
      split at hok
      · next hin =>
          simp only [if_pos hin] at hok ⊢
          cases message with
          | executionResult outcome =>
              obtain rfl := Except.ok.inj hok
              exact ⟨[], time, rfl, List.forall_mem_nil _, rfl⟩
          | ready =>
              obtain ⟨before, time', hinbox, hready, hthread⟩ := ih hok
              refine ⟨⟨time, .ready⟩ :: before, time', ?_, ?_, hthread⟩
              · rw [List.cons_append, ← hinbox]
              · intro a ha
                rcases List.mem_cons.mp ha with rfl | ha
                · rfl
                · exact hready a ha
      · cases hok

/-- An answered request is answered by what the thread made of the code that was sent; nothing is on
its way afterwards. -/
theorem request_ok (hq : h.Quiet) {threads : Threads σ} {code : String} {limit : Duration}
    {o : Outcome} (hok : (h.request threads code limit).1 = .ok o) :
    ∃ span, threads.execute code h.thread =
        (.done span o, (h.request threads code limit).2.thread) ∧
      (h.request threads code limit).2.inbox = [] := by
  rw [request] at hok ⊢
  split at hok
  · cases hok
  · next hopen =>
      rw [if_neg hopen]
      obtain ⟨before, time, hinbox, -, hthread⟩ := receiveOutcome_ok hok
      generalize receiveOutcome limit _ _ _ = received at hinbox hthread
      have hnone : ∀ behind, h.inbox ≠ before ++ ⟨time, .executionResult o⟩ :: behind := by
        intro behind heq
        have hmem : (⟨time, .executionResult o⟩ : Arrival) ∈ h.inbox := by
          rw [heq]
          exact List.mem_append_right _ (List.mem_cons_self ..)
        cases hq.message_eq hmem
      rcases send_cases threads code h with hsame | ⟨span, outcome, thread, time', hrun, hsent, hlast⟩
      · exact absurd (hsame.symm.trans hinbox) (hnone _)
      · rw [hlast] at hinbox
        rcases List.eq_nil_or_concat received.2.inbox with hnil | ⟨behind, last, hbehind⟩
        · rw [hnil] at hinbox
          obtain ⟨-, hone⟩ := List.append_inj' hinbox rfl
          obtain ⟨-, rfl⟩ : time' = time ∧ outcome = o := by simpa using hone
          exact ⟨span, by rw [hrun, hthread, hsent], hnil⟩
        · rw [hbehind, List.concat_eq_append, ← List.cons_append, ← List.append_assoc] at hinbox
          exact absurd (List.append_inj' hinbox rfl).1 (hnone behind)

end ScriptSandbox.RealmHandle
