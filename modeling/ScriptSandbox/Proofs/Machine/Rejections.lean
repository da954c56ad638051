import ScriptSandbox.Machine.Call
import ScriptSandbox.Machine.Promise
import ScriptSandbox.Sandbox.Vm

/-!
# The log of rejections

A promise that is rejected while nobody has asked about it is noted by its place, and when somebody
asks after all, the last note with that place is taken away. A place is used again when the promise
there is gone. So notes of several promises may have one place, and some may be there of promises
about which nobody can ask any more. The log is exact all the same, as `rejections_exact` says: it
has the rejections that have not been handled, as if promises were told apart for good.

It is so since promises that are alive have places of their own. When somebody asks about a promise,
it is alive, and so it was when all the later rejections happened; none of them has its place, and
its note is the last one that has (`unhandled_of_alive`).
-/

namespace ScriptSandbox

/-! ## What happens to promises -/

/-- What happens to promises, which `ι` tells apart for good, and to the log. -/
inductive Notice (ι : Type) where
  | made (p : ι)
  /-- A promise was rejected while nobody had asked about it; these are the words for the reason. -/
  | rejected (p : ι) (message : String)
  /-- Somebody has asked about a rejected promise after all. -/
  | handled (p : ι)
  | gone (p : ι)
  /-- The log was cleared. -/
  | cleared
  deriving DecidableEq, Repr

section History

variable {ι : Type}

/-- Whether a promise was made and is not gone. In a history, the latest notice comes first. -/
structure Alive (past : List (Notice ι)) (p : ι) : Prop where
  made : .made p ∈ past
  not_gone : .gone p ∉ past

/-- The histories that there may be. What happens to a promise happens while it is alive. It is
rejected once at most, and handled once at most, after that; and promises that are alive at the same
time have different places. -/
inductive Legal (place : ι → PromisePlace) : List (Notice ι) → Prop where
  | start : Legal place []
  | made {past : List (Notice ι)} {p : ι} (before : Legal place past) (new : .made p ∉ past)
      (free : ∀ q, Alive past q → place q ≠ place p) : Legal place (.made p :: past)
  | rejected {past : List (Notice ι)} {p : ι} {message : String} (before : Legal place past)
      (alive : Alive past p) (once : ∀ message', .rejected p message' ∉ past) :
      Legal place (.rejected p message :: past)
  | handled {past : List (Notice ι)} {p : ι} {message : String} (before : Legal place past)
      (alive : Alive past p) (after : .rejected p message ∈ past) (once : .handled p ∉ past) :
      Legal place (.handled p :: past)
  | gone {past : List (Notice ι)} {p : ι} (before : Legal place past) (alive : Alive past p) :
      Legal place (.gone p :: past)
  | cleared {past : List (Notice ι)} (before : Legal place past) : Legal place (.cleared :: past)

variable {place : ι → PromisePlace} {past : List (Notice ι)} {p q : ι} {message : String}

theorem Alive.before {notice : Notice ι} (h : Alive (notice :: past) p) (hnew : notice ≠ .made p) :
    Alive past p :=
  ⟨(List.mem_cons.mp h.made).resolve_left hnew.symm,
    fun hgone => h.not_gone (List.mem_cons_of_mem _ hgone)⟩

/-- Nothing has happened to a promise before it was made. -/
theorem Legal.made_of_rejected (h : Legal place past) (hrejected : .rejected p message ∈ past) :
    .made p ∈ past := by
  induction h with
  | start => cases hrejected
  | made _ _ _ ih | gone _ _ ih | cleared _ ih =>
      exact List.mem_cons_of_mem _ (ih ((List.mem_cons.mp hrejected).resolve_left nofun))
  | handled _ _ _ _ ih =>
      exact List.mem_cons_of_mem _ (ih ((List.mem_cons.mp hrejected).resolve_left nofun))
  | rejected _ halive _ ih =>
      rcases List.mem_cons.mp hrejected with heq | hrejected
      · cases heq
        exact List.mem_cons_of_mem _ halive.made
      · exact List.mem_cons_of_mem _ (ih hrejected)

theorem Legal.rejected_of_handled (h : Legal place past) (hhandled : .handled p ∈ past) :
    ∃ message, .rejected p message ∈ past := by
  have hbefore {notice : Notice ι} {past : List (Notice ι)} (hne : notice ≠ .handled p)
      (ih : .handled p ∈ past → ∃ message, .rejected p message ∈ past)
      (hhandled : .handled p ∈ notice :: past) : ∃ message, .rejected p message ∈ notice :: past := by
    obtain ⟨message, hrejected⟩ := ih ((List.mem_cons.mp hhandled).resolve_left hne.symm)
    exact ⟨message, List.mem_cons_of_mem _ hrejected⟩
  induction h with
  | start => cases hhandled
  | made _ _ _ ih | gone _ _ ih | cleared _ ih => exact hbefore nofun ih hhandled
  | rejected _ _ _ ih => exact hbefore nofun ih hhandled
  | @handled past q message' _ _ hafter _ ih =>
      rcases List.mem_cons.mp hhandled with heq | hhandled
      · cases heq
        exact ⟨message', List.mem_cons_of_mem _ hafter⟩
      · obtain ⟨message, hrejected⟩ := ih hhandled
        exact ⟨message, List.mem_cons_of_mem _ hrejected⟩

/-- Promises that are alive have places of their own. -/
theorem Legal.place_inj (h : Legal place past) (hp : Alive past p) (hq : Alive past q)
    (hplace : place p = place q) : p = q := by
  induction h with
  | start => exact nomatch hp.made
  | @made past r _ hnew hfree ih =>
      -- The new promise has a place that no other has.
      by_cases hpr : p = r
      · by_cases hqr : q = r
        · rw [hpr, hqr]
        · have hold := hq.before fun heq => hqr (Notice.made.inj heq).symm
          exact absurd (hpr ▸ hplace.symm) (hfree q hold)
      · have hold := hp.before fun heq => hpr (Notice.made.inj heq).symm
        by_cases hqr : q = r
        · exact absurd (hqr ▸ hplace) (hfree p hold)
        · exact ih hold (hq.before fun heq => hqr (Notice.made.inj heq).symm)
  | rejected _ _ _ ih => exact ih (hp.before nofun) (hq.before nofun)
  | handled _ _ _ _ ih => exact ih (hp.before nofun) (hq.before nofun)
  | gone _ _ ih => exact ih (hp.before nofun) (hq.before nofun)
  | cleared _ ih => exact ih (hp.before nofun) (hq.before nofun)

end History

/-! ## What has not been handled -/

section Unhandled

variable {ι : Type} [DecidableEq ι]

/-- The promise of which a notice tells that it was rejected, unless it has been handled. -/
def Notice.open? (past : List (Notice ι)) : Notice ι → Option (ι × String)
  | .rejected p message => if .handled p ∈ past then none else some (p, message)
  | _ => none

/-- The promises that were rejected since the log was last cleared and have not been handled, with
the words for the reasons, the oldest first. -/
def unhandled (past : List (Notice ι)) : List (ι × String) :=
  ((past.takeWhile (· ≠ .cleared)).filterMap (Notice.open? past)).reverse

variable {place : ι → PromisePlace} {past : List (Notice ι)} {p : ι} {message : String}

theorem rejected_of_mem_unhandled {e : ι × String} (h : e ∈ unhandled past) :
    .rejected e.1 e.2 ∈ past := by
  obtain ⟨notice, hnotice, hopen⟩ := List.mem_filterMap.mp (List.mem_reverse.mp h)
  have hpast := (List.takeWhile_sublist _).subset hnotice
  cases notice with
  | rejected q message =>
      simp only [Notice.open?] at hopen
      split at hopen
      · cases hopen
      · obtain rfl := Option.some.inj hopen
        exact hpast
  | made | handled | gone | cleared => cases hopen

/-- Only that a promise is handled closes a rejection. -/
theorem open?_cons {notice : Notice ι} (h : ∀ p, notice ≠ .handled p) :
    Notice.open? (notice :: past) = Notice.open? past := by
  funext other
  cases other with
  | rejected p message => simp [Notice.open?, (h p).symm]
  | made | handled | gone | cleared => rfl

theorem open?_handled : Notice.open? (.handled p :: past) =
    fun notice => (Notice.open? past notice).filter (·.1 ≠ p) := by
  funext notice
  cases notice with
  | rejected q message =>
      by_cases hq : q = p
      · subst hq
        simp only [Notice.open?, List.mem_cons, true_or, if_true]
        split <;> simp [Option.filter]
      · have hne : Notice.handled q ≠ .handled p := fun heq => hq (Notice.handled.inj heq)
        simp only [Notice.open?, List.mem_cons, hne, false_or]
        split <;> simp [Option.filter, hq]
  | made | handled | gone | cleared => rfl

theorem unhandled_made : unhandled (.made p :: past) = unhandled past := by
  simp [unhandled, List.filterMap_cons, open?_cons, Notice.open?]

theorem unhandled_gone : unhandled (.gone p :: past) = unhandled past := by
  simp [unhandled, List.filterMap_cons, open?_cons, Notice.open?]

theorem unhandled_cleared : unhandled (.cleared :: past) = [] := by
  simp [unhandled]

/-- A rejection is added at the end. -/
theorem unhandled_rejected (h : Legal place (.rejected p message :: past)) :
    unhandled (.rejected p message :: past) = unhandled past ++ [(p, message)] := by
  obtain ⟨hbefore, -, honce⟩ : Legal place past ∧ Alive past p ∧
      ∀ message', .rejected p message' ∉ past := by
    cases h with
    | rejected before alive once => exact ⟨before, alive, once⟩
  have hopen : .handled p ∉ past := by
    intro hhandled
    obtain ⟨message', hrejected⟩ := hbefore.rejected_of_handled hhandled
    exact honce message' hrejected
  simp [unhandled, open?_cons, Notice.open?, hopen]

theorem unhandled_handled :
    unhandled (.handled p :: past) = (unhandled past).filter (·.1 ≠ p) := by
  simp [unhandled, open?_handled, Notice.open?, List.filter_filterMap]

/-- If a promise that is alive was rejected and has not been handled, no later note has its place.
Its own note is there unless the log has been cleared since. -/
theorem unhandled_of_alive (h : Legal place past) (halive : Alive past p)
    (hrejected : .rejected p message ∈ past) (hopen : .handled p ∉ past) :
    (∀ e ∈ unhandled past, place e.1 ≠ place p) ∨
      ∃ earlier later, unhandled past = earlier ++ (p, message) :: later ∧
        (∀ e ∈ earlier, e.1 ≠ p) ∧ ∀ e ∈ later, place e.1 ≠ place p := by
  have hkeep {notice : Notice ι} {past : List (Notice ι)} (hnotice : ¬ .handled p ∈ notice :: past) :
      .handled p ∉ past := fun hmem => hnotice (List.mem_cons_of_mem _ hmem)
  induction h with
  | start => cases hrejected
  | @made past q before hnew _ ih =>
      have hrejected := (List.mem_cons.mp hrejected).resolve_left nofun
      have hne : Notice.made q ≠ .made p := by
        intro heq
        exact hnew (heq ▸ before.made_of_rejected hrejected)
      rw [unhandled_made]
      exact ih (halive.before hne) hrejected (hkeep hopen)
  | gone _ _ ih =>
      rw [unhandled_gone]
      exact ih (halive.before nofun) ((List.mem_cons.mp hrejected).resolve_left nofun) (hkeep hopen)
  | cleared _ _ =>
      rw [unhandled_cleared]
      exact .inl (List.forall_mem_nil _)
  | @handled past q _ _ _ _ _ ih =>
      have hne : q ≠ p := fun heq => hopen (heq ▸ List.mem_cons_self ..)
      have hsub {es : List (ι × String)} {P : ι × String → Prop} (hes : ∀ e ∈ es, P e) :
          ∀ e ∈ es.filter (·.1 ≠ q), P e := fun e he => hes e (List.mem_filter.mp he).1
      rw [unhandled_handled]
      rcases ih (halive.before nofun) ((List.mem_cons.mp hrejected).resolve_left nofun)
        (hkeep hopen) with hnone | ⟨earlier, later, hsplit, hearlier, hlater⟩
      · exact .inl (hsub hnone)
      · refine .inr ⟨earlier.filter (·.1 ≠ q), later.filter (·.1 ≠ q), ?_, hsub hearlier, hsub hlater⟩
        rw [hsplit, List.filter_append, List.filter_cons_of_pos (by simpa using hne.symm)]
  | @rejected past q message' before alive once ih =>
      have hbefore := halive.before (nofun : Notice.rejected q message' ≠ .made p)
      rw [unhandled_rejected (.rejected before alive once)]
      by_cases hq : q = p
      · -- This is the rejection of the promise itself, of which nothing was noted before.
        subst hq
        have hmessage : message' = message := by
          rcases List.mem_cons.mp hrejected with heq | hmem
          · exact (Notice.rejected.inj heq).2.symm
          · exact absurd hmem (once message)
        subst hmessage
        refine .inr ⟨unhandled past, [], rfl, ?_, List.forall_mem_nil _⟩
        rintro e he rfl
        exact once e.2 (rejected_of_mem_unhandled he)
      · -- Both promises are alive.
        have hplace : place q ≠ place p := fun heq => hq (before.place_inj alive hbefore heq)
        have hrejected := (List.mem_cons.mp hrejected).resolve_left fun heq =>
          hq (Notice.rejected.inj heq).1.symm
        have hsnoc {es : List (ι × String)} (hes : ∀ e ∈ es, place e.1 ≠ place p) :
            ∀ e ∈ es ++ [(q, message')], place e.1 ≠ place p := by
          intro e he
          rcases List.mem_append.mp he with he | he
          · exact hes e he
          · rw [List.mem_singleton.mp he]
            exact hplace
        rcases ih hbefore hrejected (hkeep hopen) with hnone | ⟨earlier, later, hsplit, hearlier, hlater⟩
        · exact .inl (hsnoc hnone)
        · refine .inr ⟨earlier, later ++ [(q, message')], ?_, hearlier, hsnoc hlater⟩
          rw [hsplit, List.append_assoc, List.cons_append]

end Unhandled

/-! ## What the machines note -/

namespace Exec

theorem withoutLast_eq_eraseP (a : PromisePlace) (rs : List Rejection) :
    withoutLast a rs = (rs.reverse.eraseP (·.promise == a)).reverse := by
  have hgo (rs : List Rejection) : withoutLast.go a rs = rs.eraseP (·.promise == a) := by
    induction rs with
    | nil => rfl
    | cons r rs ih =>
        rw [withoutLast.go, List.eraseP_cons, ih]
        cases r.promise == a <;> rfl
  rw [withoutLast, hgo]

theorem withoutLast_of_forall_ne {a : PromisePlace} {rs : List Rejection}
    (h : ∀ r ∈ rs, r.promise ≠ a) : withoutLast a rs = rs := by
  have hnone : ∀ r ∈ rs.reverse, ¬ (r.promise == a) = true := fun r hr =>
    mt eq_of_beq (h r (List.mem_reverse.mp hr))
  rw [withoutLast_eq_eraseP, List.eraseP_of_forall_not hnone, List.reverse_reverse]

theorem withoutLast_append_cons {a : PromisePlace} {earlier later : List Rejection}
    (message : String) (h : ∀ r ∈ later, r.promise ≠ a) :
    withoutLast a (earlier ++ ⟨a, message⟩ :: later) = earlier ++ later := by
  have hnone : ∀ r ∈ later.reverse, ¬ (r.promise == a) = true := fun r hr =>
    mt eq_of_beq (h r (List.mem_reverse.mp hr))
  rw [withoutLast_eq_eraseP, List.reverse_append, List.reverse_cons, List.append_assoc,
    List.eraseP_append_right _ hnone]
  simp

/-- A rejection is noted behind whatever was noted while it was put into words. -/
theorem noteRejection_eq {p : Nat} {reason : Value} {c : Calls} {m worded : Machine}
    {message : String} (htracks : m.tracks = true)
    (hworded : rejectionMessage reason c m = .ok message worded) :
    noteRejection p reason c m = .ok ()
      { worded with rejections := worded.rejections ++ [⟨⟨m.context, p⟩, message⟩] } := by
  change (if m.tracks = true then _ else _ : Exec Unit) c m = _
  rw [if_pos htracks]
  change EStateM.bind (rejectionMessage reason c) _ m = _
  rw [EStateM.bind, hworded]
  rfl

/-- What is noted of a rejection, if it can be put into words and nothing else is noted
meanwhile. -/
theorem noteRejection_rejections {p : Nat} {reason : Value} {c : Calls} {m worded m' : Machine}
    {message : String} (htracks : m.tracks = true)
    (hworded : rejectionMessage reason c m = .ok message worded)
    (hquiet : worded.rejections = m.rejections) (hnoted : noteRejection p reason c m = .ok () m') :
    m'.rejections = m.rejections ++ [⟨⟨m.context, p⟩, message⟩] := by
  rw [noteRejection_eq htracks hworded] at hnoted
  cases hnoted
  rw [hquiet]

theorem noteHandled_rejections {p : Nat} {c : Calls} {m m' : Machine} (htracks : m.tracks = true)
    (hnoted : noteHandled p c m = .ok () m') :
    m'.rejections = withoutLast ⟨m.context, p⟩ m.rejections := by
  have hrun : noteHandled p c m = .ok ()
      { m with rejections := withoutLast ⟨m.context, p⟩ m.rejections } := by
    change EStateM.Result.ok () (if m.tracks = true then _ else _) = _
    rw [if_pos htracks]
  rw [hrun] at hnoted
  cases hnoted
  rfl

end Exec

section Log

variable {ι : Type}

/-- The logs that there may be when machines have noted what has happened. A notice finds the log as
the one before has left it. While a rejection is put into words, nothing else is noted. -/
inductive Noted (place : ι → PromisePlace) : List (Notice ι) → List Rejection → Prop where
  | start : Noted place [] []
  | made {past : List (Notice ι)} {log : List Rejection} (p : ι) (before : Noted place past log) :
      Noted place (.made p :: past) log
  | rejected {past : List (Notice ι)} {p : ι} {message : String} {a : Nat} {reason : Value}
      {c : Calls} {m worded m' : Machine} (before : Noted place past m.rejections)
      (tracks : m.tracks = true) (found : place p = ⟨m.context, a⟩)
      (wording : Exec.rejectionMessage reason c m = .ok message worded)
      (quiet : worded.rejections = m.rejections)
      (noted : Exec.noteRejection a reason c m = .ok () m') :
      Noted place (.rejected p message :: past) m'.rejections
  | handled {past : List (Notice ι)} {p : ι} {a : Nat} {c : Calls} {m m' : Machine}
      (before : Noted place past m.rejections) (tracks : m.tracks = true)
      (found : place p = ⟨m.context, a⟩) (noted : Exec.noteHandled a c m = .ok () m') :
      Noted place (.handled p :: past) m'.rejections
  | gone {past : List (Notice ι)} {log : List Rejection} (p : ι) (before : Noted place past log) :
      Noted place (.gone p :: past) log
  | cleared {past : List (Notice ι)} {κ : Type} {w w' : World κ} (before : Noted place past w.rejections)
      (noted : World.clearRejections.run w = ((), w')) : Noted place (.cleared :: past) w'.rejections

/-- The notes of rejections, in their order. -/
def notesOf (place : ι → PromisePlace) (rejections : List (ι × String)) : List Rejection :=
  rejections.map fun e => ⟨place e.1, e.2⟩

variable [DecidableEq ι] {place : ι → PromisePlace} {past : List (Notice ι)} {log : List Rejection}

/-- Taking away the last note of a place takes away the note of the promise that is there. -/
theorem withoutLast_notesOf {p : ι} (h : Legal place (.handled p :: past)) :
    Exec.withoutLast (place p) (notesOf place (unhandled past)) =
      notesOf place (unhandled (.handled p :: past)) := by
  obtain ⟨message, hbefore, halive, hrejected, honce⟩ : ∃ message, Legal place past ∧ Alive past p ∧
      .rejected p message ∈ past ∧ .handled p ∉ past := by
    cases h with
    | handled before alive after once => exact ⟨_, before, alive, after, once⟩
  have hkept {es : List (ι × String)} (hes : ∀ e ∈ es, e.1 ≠ p) : es.filter (·.1 ≠ p) = es :=
    List.filter_eq_self.mpr fun e he => decide_eq_true (hes e he)
  have hplace {es : List (ι × String)} (hes : ∀ e ∈ es, place e.1 ≠ place p) :
      ∀ r ∈ notesOf place es, r.promise ≠ place p := by
    intro r hr
    obtain ⟨e, he, rfl⟩ := List.mem_map.mp hr
    exact hes e he
  have hother {es : List (ι × String)} (hes : ∀ e ∈ es, place e.1 ≠ place p) : ∀ e ∈ es, e.1 ≠ p :=
    fun e he heq => hes e he (congrArg place heq)
  rw [unhandled_handled]
  rcases unhandled_of_alive hbefore halive hrejected honce with
    hnone | ⟨earlier, later, hsplit, hearlier, hlater⟩
  · rw [Exec.withoutLast_of_forall_ne (hplace hnone), hkept (hother hnone)]
  · have hnotes : notesOf place (earlier ++ (p, message) :: later) =
        notesOf place earlier ++ ⟨place p, message⟩ :: notesOf place later := by
      simp [notesOf]
    rw [hsplit, hnotes, Exec.withoutLast_append_cons message (hplace hlater), List.filter_append,
      List.filter_cons_of_neg (by simp), hkept hearlier, hkept (hother hlater)]
    simp [notesOf]

/-- After each notice of a history, the log has notes of exactly the rejections since it was last
cleared that have not been handled, in their order, although places are used again. So what counts
as the first rejection, and how many there are, is what it would be if promises were told apart for
good. -/
theorem rejections_exact (hlegal : Legal place past) (hnoted : Noted place past log) :
    log = notesOf place (unhandled past) ∧
      log.head?.map (·.message) = (unhandled past).head?.map (·.2) ∧
      log.length = (unhandled past).length ∧ log.isEmpty = (unhandled past).isEmpty := by
  have hexact : log = notesOf place (unhandled past) := by
    induction hnoted with
    | start => rfl
    | made p _ ih =>
        rw [unhandled_made]
        cases hlegal with
        | made before _ _ => exact ih before
    | gone p _ ih =>
        rw [unhandled_gone]
        cases hlegal with
        | gone before _ => exact ih before
    | cleared _ noted _ =>
        rw [unhandled_cleared, ← (Prod.mk.inj noted).2]
        rfl
    | rejected _ tracks found wording quiet noted ih =>
        have hnext := hlegal
        cases hnext with
        | rejected before _ _ =>
            rw [Exec.noteRejection_rejections tracks wording quiet noted, ← found, ih before,
              unhandled_rejected hlegal]
            simp [notesOf]
    | handled _ tracks found noted ih =>
        have hnext := hlegal
        cases hnext with
        | handled before _ _ _ =>
            rw [Exec.noteHandled_rejections tracks noted, ← found, ih before,
              withoutLast_notesOf hlegal]
  subst hexact
  refine ⟨rfl, ?_, List.length_map .., ?_⟩
  · cases unhandled past <;> rfl
  · cases unhandled past <;> rfl

end Log

/-- A promise is rejected, and is gone; the next one has its place. When somebody asks about that
one, the note of the first stays. -/
theorem rejections_exact_in_reused_place :
    let place : Bool → PromisePlace := fun _ => ⟨0, 7⟩
    let past : List (Notice Bool) :=
      [.handled true, .rejected true "y", .made true, .gone false, .rejected false "x", .made false]
    ∃ log, Legal place past ∧ Noted place past log ∧ log = [⟨⟨0, 7⟩, "x"⟩] := by
  intro place past
  have hlegal : Legal place past := by
    have hmade : Legal place [Notice.made false] :=
      .made .start (by decide) fun q hq => nomatch hq.made
    have hrejected : Legal place [.rejected false "x", .made false] :=
      .rejected hmade ⟨by decide, by decide⟩ (by simp)
    have hgone : Legal place [.gone false, .rejected false "x", .made false] :=
      .gone hrejected ⟨by decide, by decide⟩
    have hmade' : Legal place [.made true, .gone false, .rejected false "x", .made false] := by
      refine .made hgone (by decide) ?_
      rintro (_ | _) ⟨hmade, hgone⟩
      · exact absurd (by decide) hgone
      · exact absurd hmade (by decide)
    have hrejected' : Legal place
        [.rejected true "y", .made true, .gone false, .rejected false "x", .made false] :=
      .rejected hmade' ⟨by decide, by decide⟩ (by simp)
    exact .handled hrejected' ⟨by decide, by decide⟩ (List.mem_cons_self ..) (by decide)
  let machine (log : List Rejection) : Machine := { tracks := true, rejections := log }
  have hfirst : Exec.rejectionMessage (.ofString "x") .none (machine []) = .ok "x" (machine []) := rfl
  have hrejected : Noted place [.rejected false "x", .made false] [⟨⟨0, 7⟩, "x"⟩] :=
    .rejected (.made false .start) rfl rfl hfirst rfl rfl
  have hsecond : Exec.rejectionMessage (.ofString "y") .none (machine [⟨⟨0, 7⟩, "x"⟩]) =
      .ok "y" (machine [⟨⟨0, 7⟩, "x"⟩]) := rfl
  have hrejected' : Noted place
      [.rejected true "y", .made true, .gone false, .rejected false "x", .made false]
      [⟨⟨0, 7⟩, "x"⟩, ⟨⟨0, 7⟩, "y"⟩] :=
    .rejected (.made true (.gone false hrejected)) rfl rfl hsecond rfl rfl
  have hhandled : Exec.noteHandled 7 .none (machine [⟨⟨0, 7⟩, "x"⟩, ⟨⟨0, 7⟩, "y"⟩]) =
      .ok () (machine [⟨⟨0, 7⟩, "x"⟩]) := rfl
  have hfound : place true = ⟨0, 7⟩ := rfl
  have hnoted : Noted place past [⟨⟨0, 7⟩, "x"⟩] := .handled hrejected' rfl hfound hhandled
  exact ⟨_, hlegal, hnoted, (rejections_exact hlegal hnoted).1.trans (by decide)⟩

end ScriptSandbox
