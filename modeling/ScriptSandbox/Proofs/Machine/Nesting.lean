import ScriptSandbox.Proofs.Machine.Rejections

/-!
# Rejections while a rejection is put into words

To put a rejection into words, code of the guest may have to run: a getter of `name`, say. That code
may make and reject promises and ask about others, and so on to any depth. A `Nest` is what happens,
with whatever a wording does inside the rejection that it belongs to.

A rejection is noted when it has been put into words, so behind all that its wording notes. The log
is exact for the order in which rejections are noted, as long as nobody asks about a promise while
its own reason is put into words (`nested_rejections_exact`). It has the order in which they happened
exactly if no rejection that stays unhandled is inside another one. A nest where it has not is
`inner_noted_first`, and `noted_though_handled` is one where somebody asks too early.

The two orders are compared as histories. The one of what was noted lags behind (`Lags`): it lacks
the rejections that are just being put into words.
-/

namespace ScriptSandbox

/-! ## Nests -/

/-- What happens to promises, in its order. Inside a rejection is what happens while its reason is put
into words. -/
inductive Nest (ι : Type) where
  | done
  | made (p : ι) (rest : Nest ι)
  | rejected (p : ι) (message : String) (inside rest : Nest ι)
  | handled (p : ι) (rest : Nest ι)
  | gone (p : ι) (rest : Nest ι)

namespace Nest

variable {ι : Type}

/-- The notices in the order in which everything happens: a rejection comes before what is inside. -/
def told : Nest ι → List (Notice ι)
  | done => []
  | made p rest => .made p :: rest.told
  | rejected p message inside rest => .rejected p message :: inside.told ++ rest.told
  | handled p rest => .handled p :: rest.told
  | gone p rest => .gone p :: rest.told

/-- The notices in the order in which the log hears of them: a rejection comes after what is
inside. -/
def noted : Nest ι → List (Notice ι)
  | done => []
  | made p rest => .made p :: rest.noted
  | rejected p message inside rest => inside.noted ++ .rejected p message :: rest.noted
  | handled p rest => .handled p :: rest.noted
  | gone p rest => .gone p :: rest.noted

/-- Something is true of every rejection: of its promise, and of what is inside. -/
def Throughout (R : ι → Nest ι → Prop) : Nest ι → Prop
  | done => True
  | made _ rest | handled _ rest | gone _ rest => rest.Throughout R
  | rejected p _ inside rest => R p inside ∧ inside.Throughout R ∧ rest.Throughout R

/-- No promise is gone while its reason is put into words. -/
def Held : Nest ι → Prop := Throughout fun p inside => .gone p ∉ inside.told

/-- Nobody asks about a promise while its reason is put into words. -/
def Unasked : Nest ι → Prop := Throughout fun p inside => .handled p ∉ inside.told

/-- What is inside a rejection that is not handled in a history is all handled in it. -/
def Apart (past : List (Notice ι)) : Nest ι → Prop :=
  Throughout fun p inside =>
    .handled p ∈ past ∨ ∀ q message, .rejected q message ∈ inside.told → .handled q ∈ past

theorem noted_perm (nest : Nest ι) : nest.noted.Perm nest.told := by
  induction nest with
  | done => exact .refl _
  | made _ _ ih | handled _ _ ih | gone _ _ ih => exact ih.cons _
  | rejected p message inside rest ihinside ihrest =>
      exact List.perm_middle.trans ((ihinside.append ihrest).cons _)

theorem cleared_not_mem (nest : Nest ι) : .cleared ∉ nest.told := by
  induction nest with
  | done => exact List.not_mem_nil
  | made _ _ ih | handled _ _ ih | gone _ _ ih =>
      exact fun hmem => ih ((List.mem_cons.mp hmem).resolve_left nofun)
  | rejected p message inside rest ihinside ihrest =>
      intro hmem
      rcases List.mem_append.mp ((List.mem_cons.mp hmem).resolve_left nofun) with hmem | hmem
      · exact ihinside hmem
      · exact ihrest hmem

end Nest

/-! ## Histories of nests -/

section History

variable {ι : Type} {place : ι → PromisePlace} {past pending : List (Notice ι)} {p q : ι}
  {message : String}

/-- The history after some more notices, the first of them first. -/
def following (past notices : List (Notice ι)) : List (Notice ι) := notices.reverse ++ past

theorem following_cons (notice : Notice ι) (notices : List (Notice ι)) :
    following past (notice :: notices) = following (notice :: past) notices := by
  simp [following]

theorem following_append (first second : List (Notice ι)) :
    following past (first ++ second) = following (following past first) second := by
  simp [following]

theorem mem_following {notice : Notice ι} {notices : List (Notice ι)} :
    notice ∈ following past notices ↔ notice ∈ notices ∨ notice ∈ past := by
  simp [following]

theorem Alive.cons_rejected (h : Alive past p) : Alive (.rejected q message :: past) p :=
  ⟨List.mem_cons_of_mem _ h.made, fun hgone => h.not_gone ((List.mem_cons.mp hgone).resolve_left nofun)⟩

theorem Alive.following {notices : List (Notice ι)} (h : Alive past p) (hstays : .gone p ∉ notices) :
    Alive (following past notices) p :=
  ⟨mem_following.mpr (.inr h.made), fun hgone => (mem_following.mp hgone).elim hstays h.not_gone⟩

theorem Legal.tail {notice : Notice ι} (h : Legal place (notice :: past)) : Legal place past := by
  cases h with
  | made before _ _ | rejected before _ _ | handled before _ _ _ | gone before _ | cleared before =>
      exact before

theorem Legal.of_following {notices : List (Notice ι)} (h : Legal place (following past notices)) :
    Legal place past := by
  induction notices generalizing past with
  | nil => exact h
  | cons notice notices ih => exact (ih (following_cons notice notices ▸ h)).tail

theorem Legal.rejected_once {notices : List (Notice ι)} (hrejected : .rejected p message ∈ past)
    (h : Legal place (following past notices)) (message' : String) :
    .rejected p message' ∉ notices := by
  induction notices generalizing past with
  | nil => exact List.not_mem_nil
  | cons notice notices ih =>
      rw [following_cons] at h
      refine fun hmem => (List.mem_cons.mp hmem).elim ?_ (ih (List.mem_cons_of_mem _ hrejected) h)
      rintro rfl
      cases h.of_following with
      | rejected _ _ once => exact once message hrejected

theorem Legal.throughout_once {nest : Nest ι} (h : Legal place (following past nest.told)) :
    nest.Throughout fun p inside => ∀ message, .rejected p message ∉ inside.told := by
  induction nest generalizing past with
  | done => trivial
  | made p rest ih | handled p rest ih | gone p rest ih =>
      rw [Nest.told, following_cons] at h
      exact ih h
  | rejected p message inside rest ihinside ihrest =>
      rw [Nest.told, List.cons_append, following_cons, following_append] at h
      have hinside := h.of_following
      exact ⟨hinside.rejected_once (List.mem_cons_self ..), ihinside hinside, ihrest h⟩

/-! ## Two histories side by side -/

/-- What was noted lags behind what has happened: some rejections are still being put into words. -/
structure Lags (place : ι → PromisePlace) (past noted pending : List (Notice ι)) : Prop where
  legal : Legal place noted
  perm : past.Perm (pending ++ noted)
  rejections : ∀ notice ∈ pending, ∃ p message, notice = .rejected p message

/-- Among some notices, nobody asks about a promise of which a rejection is pending. -/
def Silent (pending notices : List (Notice ι)) : Prop :=
  ∀ p message, .rejected p message ∈ pending → .handled p ∉ notices

theorem Silent.mono {notices notices' : List (Notice ι)} (h : Silent pending notices')
    (hsub : notices ⊆ notices') : Silent pending notices :=
  fun p message hp hmem => h p message hp (hsub hmem)

theorem Silent.cons {notices : List (Notice ι)} (h : Silent pending notices)
    (hself : .handled p ∉ notices) : Silent (.rejected p message :: pending) notices := by
  intro q message' hq
  rcases List.mem_cons.mp hq with heq | hq
  · cases heq
    exact hself
  · exact h q message' hq

namespace Lags

variable {noted : List (Notice ι)}

theorem mem_iff (h : Lags place past noted pending) {notice : Notice ι}
    (hnotice : ∀ p message, notice ≠ .rejected p message) : notice ∈ past ↔ notice ∈ noted := by
  rw [h.perm.mem_iff, List.mem_append]
  refine or_iff_right fun hpending => ?_
  obtain ⟨p, message, heq⟩ := h.rejections notice hpending
  exact hnotice p message heq

theorem alive_iff (h : Lags place past noted pending) : Alive past p ↔ Alive noted p := by
  have hmade : .made p ∈ past ↔ .made p ∈ noted := h.mem_iff nofun
  have hgone : .gone p ∈ past ↔ .gone p ∈ noted := h.mem_iff nofun
  exact ⟨fun ⟨hm, hg⟩ => ⟨hmade.mp hm, mt hgone.mpr hg⟩,
    fun ⟨hm, hg⟩ => ⟨hmade.mpr hm, mt hgone.mp hg⟩⟩

/-- What is no rejection is noted when it happens. -/
theorem cons (h : Lags place past noted pending) {notice : Notice ι}
    (hlegal : Legal place (notice :: noted)) : Lags place (notice :: past) (notice :: noted) pending :=
  ⟨hlegal, (h.perm.cons _).trans List.perm_middle.symm, h.rejections⟩

theorem made (h : Lags place past noted pending) (hlegal : Legal place (.made p :: past)) :
    Lags place (.made p :: past) (.made p :: noted) pending := by
  refine h.cons ?_
  cases hlegal with
  | made _ new free =>
      have hsame : .made p ∈ past ↔ .made p ∈ noted := h.mem_iff nofun
      exact .made h.legal (mt hsame.mpr new) fun q hq => free q (h.alive_iff.mpr hq)

theorem gone (h : Lags place past noted pending) (hlegal : Legal place (.gone p :: past)) :
    Lags place (.gone p :: past) (.gone p :: noted) pending := by
  refine h.cons ?_
  cases hlegal with
  | gone _ alive => exact .gone h.legal (h.alive_iff.mp alive)

theorem handled (h : Lags place past noted pending) (hlegal : Legal place (.handled p :: past))
    (hworded : ∀ message, .rejected p message ∉ pending) :
    Lags place (.handled p :: past) (.handled p :: noted) pending := by
  refine h.cons ?_
  cases hlegal with
  | @handled _ _ message _ alive after once =>
      have hsame : .handled p ∈ past ↔ .handled p ∈ noted := h.mem_iff nofun
      have hafter := List.mem_append.mp (h.perm.mem_iff.mp after)
      exact .handled h.legal (h.alive_iff.mp alive) (hafter.resolve_left (hworded message))
        (mt hsame.mpr once)

/-- A rejection happens, and begins to be put into words. -/
theorem begin (h : Lags place past noted pending) (p : ι) (message : String) :
    Lags place (.rejected p message :: past) noted (.rejected p message :: pending) :=
  ⟨h.legal, h.perm.cons _, List.forall_mem_cons.mpr ⟨⟨p, message, rfl⟩, h.rejections⟩⟩

/-- It has been put into words, and is noted. -/
theorem finish (h : Lags place past noted (.rejected p message :: pending)) (halive : Alive past p)
    (honce : ∀ message, .rejected p message ∉ noted) :
    Lags place past (.rejected p message :: noted) pending :=
  ⟨.rejected h.legal (h.alive_iff.mp halive) honce, h.perm.trans List.perm_middle.symm,
    (List.forall_mem_cons.mp h.rejections).2⟩

/-- After a nest nothing else is pending than before it. -/
theorem nest {nest : Nest ι} (h : Lags place past noted pending)
    (hlegal : Legal place (following past nest.told)) (hheld : nest.Held) (hunasked : nest.Unasked)
    (hsilent : Silent pending nest.told) :
    Lags place (following past nest.told) (following noted nest.noted) pending := by
  induction nest generalizing past noted pending with
  | done => exact h
  | made p rest ih =>
      simp only [Nest.told, Nest.noted, following_cons] at hlegal ⊢
      exact ih (h.made hlegal.of_following) hlegal hheld hunasked
        (hsilent.mono (List.subset_cons_self ..))
  | gone p rest ih =>
      simp only [Nest.told, Nest.noted, following_cons] at hlegal ⊢
      exact ih (h.gone hlegal.of_following) hlegal hheld hunasked
        (hsilent.mono (List.subset_cons_self ..))
  | handled p rest ih =>
      simp only [Nest.told, Nest.noted, following_cons] at hlegal ⊢
      have hworded (message : String) : .rejected p message ∉ pending := fun hp =>
        hsilent p message hp (List.mem_cons_self ..)
      exact ih (h.handled hlegal.of_following hworded) hlegal hheld hunasked
        (hsilent.mono (List.subset_cons_self ..))
  | rejected p message inside rest ihinside ihrest =>
      obtain ⟨hstays, hheldin, hheldafter⟩ := hheld
      obtain ⟨hself, haskedin, haskedafter⟩ := hunasked
      simp only [Nest.told, Nest.noted, List.cons_append, following_cons, following_append]
        at hlegal hsilent ⊢
      have hpast := hlegal.of_following
      obtain ⟨halive, honce⟩ : Alive past p ∧ ∀ message, .rejected p message ∉ past := by
        cases hpast.of_following with
        | rejected _ alive once => exact ⟨alive, once⟩
      have hsilent := hsilent.mono (List.subset_cons_self ..)
      -- Inside, the rejection itself is pending as well.
      have hinside := ihinside (h.begin p message) hpast hheldin haskedin
        ((hsilent.mono (List.subset_append_left ..)).cons hself)
      have hthere : Alive (following (.rejected p message :: past) inside.told) p :=
        halive.cons_rejected.following hstays
      have hfirst (message' : String) : .rejected p message' ∉ following noted inside.noted := by
        intro hmem
        rcases mem_following.mp hmem with hmem | hmem
        · exact hpast.rejected_once (List.mem_cons_self ..) message'
            (inside.noted_perm.mem_iff.mp hmem)
        · exact honce message' (h.perm.mem_iff.mpr (List.mem_append_right _ hmem))
      exact ihrest (hinside.finish hthere hfirst) hlegal hheldafter haskedafter
        (hsilent.mono (List.subset_append_right ..))

end Lags

end History

/-! ## What has not been handled -/

section Unhandled

variable {ι : Type} [DecidableEq ι] {place : ι → PromisePlace} {past : List (Notice ι)}
  {notices : List (Notice ι)}

theorem open?_congr {past' : List (Notice ι)} (h : ∀ p, .handled p ∈ past ↔ .handled p ∈ past') :
    Notice.open? past = Notice.open? past' := by
  funext notice
  cases notice with
  | rejected p message => simp only [Notice.open?, h]
  | made | handled | gone | cleared => rfl

theorem open?_eq_some_iff {notice : Notice ι} {e : ι × String} :
    Notice.open? past notice = some e ↔ notice = .rejected e.1 e.2 ∧ .handled e.1 ∉ past := by
  cases notice with
  | rejected p message =>
      rw [Notice.open?]
      by_cases hhandled : .handled p ∈ past
      · rw [if_pos hhandled]
        constructor
        · intro hnone
          cases hnone
        · rintro ⟨heq, hopen⟩
          cases heq
          exact absurd hhandled hopen
      · rw [if_neg hhandled, Option.some.injEq]
        constructor
        · rintro rfl
          exact ⟨rfl, hhandled⟩
        · rintro ⟨heq, -⟩
          cases heq
          rfl
  | made | handled | gone | cleared => simp [Notice.open?]

theorem filterMap_open?_eq_nil_iff : notices.filterMap (Notice.open? past) = [] ↔
    ∀ q message, .rejected q message ∈ notices → .handled q ∈ past := by
  rw [List.filterMap_eq_nil_iff]
  constructor
  · intro hnone q message hmem
    refine Decidable.byContradiction fun hopen => ?_
    have hsome := (open?_eq_some_iff (e := (q, message))).mpr ⟨rfl, hopen⟩
    exact nomatch (hnone _ hmem).symm.trans hsome
  · intro hall notice hmem
    refine Option.eq_none_iff_forall_ne_some.mpr fun e hsome => ?_
    obtain ⟨rfl, hopen⟩ := open?_eq_some_iff.mp hsome
    exact hopen (hall e.1 e.2 hmem)

/-- What is open from before comes first. -/
theorem unhandled_following (hclear : .cleared ∉ notices) :
    unhandled (following past notices) =
      ((past.takeWhile (· ≠ .cleared)).filterMap (Notice.open? (following past notices))).reverse ++
        notices.filterMap (Notice.open? (following past notices)) := by
  have hkept : ∀ notice ∈ notices.reverse, decide (notice ≠ .cleared) = true := by
    intro notice hmem
    refine decide_eq_true ?_
    rintro rfl
    exact hclear (List.mem_reverse.mp hmem)
  have hwhile : (following past notices).takeWhile (· ≠ .cleared) =
      notices.reverse ++ past.takeWhile (· ≠ .cleared) := by
    rw [following, List.takeWhile_append_of_pos hkept]
  rw [unhandled, hwhile, List.filterMap_append, List.reverse_append, List.filterMap_reverse,
    List.reverse_reverse]

/-- Whatever is open inside a rejection is noted first, and it is not the rejection itself. -/
theorem filterMap_noted_eq_nil {inside : Nest ι} {p : ι} {message : String}
    {later rest : List (ι × String)} (hself : ∀ message, .rejected p message ∉ inside.told)
    (heq : inside.noted.filterMap (Notice.open? past) ++ later = (p, message) :: rest) :
    inside.noted.filterMap (Notice.open? past) = [] := by
  cases hfirst : inside.noted.filterMap (Notice.open? past) with
  | nil => rfl
  | cons first others =>
      rw [hfirst, List.cons_append] at heq
      obtain rfl := (List.cons.inj heq).1
      have hmem : (p, message) ∈ inside.noted.filterMap (Notice.open? past) :=
        hfirst ▸ List.mem_cons_self ..
      obtain ⟨notice, hnotice, hopen⟩ := List.mem_filterMap.mp hmem
      obtain ⟨rfl, -⟩ := open?_eq_some_iff.mp hopen
      exact absurd (inside.noted_perm.mem_iff.mp hnotice) (hself message)

/-- In a nest the order in which rejections are noted is the one in which they happen exactly if none
that stays open is inside another one. -/
theorem filterMap_noted_eq_iff {nest : Nest ι}
    (honce : nest.Throughout fun p inside => ∀ message, .rejected p message ∉ inside.told) :
    nest.noted.filterMap (Notice.open? past) = nest.told.filterMap (Notice.open? past) ↔
      nest.Apart past := by
  induction nest with
  | done => exact iff_of_true rfl trivial
  | made p rest ih | handled p rest ih | gone p rest ih => exact ih honce
  | rejected p message inside rest ihinside ihrest =>
      obtain ⟨hself, hinside, hrest⟩ := honce
      have hperm := inside.noted_perm.filterMap (Notice.open? past)
      simp only [Nest.noted, Nest.told, List.filterMap_append, List.cons_append, Nest.Apart,
        Nest.Throughout]
      by_cases hhandled : .handled p ∈ past
      · have hskip : Notice.open? past (.rejected p message) = none := if_pos hhandled
        rw [List.filterMap_cons_none hskip, List.filterMap_cons_none hskip, List.filterMap_append]
        constructor
        · intro heq
          obtain ⟨hin, hafter⟩ := List.append_inj heq hperm.length_eq
          exact ⟨.inl hhandled, (ihinside hinside).mp hin, (ihrest hrest).mp hafter⟩
        · rintro ⟨-, hin, hafter⟩
          rw [(ihinside hinside).mpr hin, (ihrest hrest).mpr hafter]
      · have hkept : Notice.open? past (.rejected p message) = some (p, message) := if_neg hhandled
        rw [List.filterMap_cons_some hkept, List.filterMap_cons_some hkept, List.filterMap_append]
        constructor
        · intro heq
          have hnone := filterMap_noted_eq_nil hself heq
          have hnone' : inside.told.filterMap (Notice.open? past) = [] :=
            List.nil_perm.mp (hnone ▸ hperm)
          rw [hnone, hnone', List.nil_append, List.nil_append] at heq
          exact ⟨.inr (filterMap_open?_eq_nil_iff.mp hnone'),
            (ihinside hinside).mp (hnone.trans hnone'.symm), (ihrest hrest).mp (List.cons.inj heq).2⟩
        · rintro ⟨hapart, hin, hafter⟩
          have hnone := filterMap_open?_eq_nil_iff.mpr (hapart.resolve_left hhandled)
          rw [(ihinside hinside).mpr hin, (ihrest hrest).mpr hafter, hnone]
          rfl

end Unhandled

/-! ## The log -/

section Log

variable {ι : Type}

/-- The logs before and after a nest. While a reason is put into words, the log changes as the nest
inside tells. -/
inductive NotedNest (place : ι → PromisePlace) : Nest ι → List Rejection → List Rejection → Prop where
  | done (log : List Rejection) : NotedNest place .done log log
  | made {rest : Nest ι} {log log' : List Rejection} (p : ι) (after : NotedNest place rest log log') :
      NotedNest place (.made p rest) log log'
  | rejected {inside rest : Nest ι} {p : ι} {message : String} {a : Nat} {reason : Value} {c : Calls}
      {m worded m' : Machine} {log' : List Rejection} (tracks : m.tracks = true)
      (found : place p = ⟨m.context, a⟩)
      (wording : Exec.rejectionMessage reason c m = .ok message worded)
      (within : NotedNest place inside m.rejections worded.rejections)
      (noted : Exec.noteRejection a reason c m = .ok () m')
      (after : NotedNest place rest m'.rejections log') :
      NotedNest place (.rejected p message inside rest) m.rejections log'
  | handled {rest : Nest ι} {p : ι} {a : Nat} {c : Calls} {m m' : Machine} {log' : List Rejection}
      (tracks : m.tracks = true) (found : place p = ⟨m.context, a⟩)
      (noted : Exec.noteHandled a c m = .ok () m') (after : NotedNest place rest m'.rejections log') :
      NotedNest place (.handled p rest) m.rejections log'
  | gone {rest : Nest ι} {log log' : List Rejection} (p : ι) (after : NotedNest place rest log log') :
      NotedNest place (.gone p rest) log log'

variable [DecidableEq ι] {place : ι → PromisePlace} {past : List (Notice ι)} {nest : Nest ι}
  {log log' : List Rejection}

/-- The log is exact for the history of what was noted, if there may be such a history. -/
theorem NotedNest.log_eq (h : NotedNest place nest log log')
    (hlegal : Legal place (following past nest.noted)) (hbefore : log = notesOf place (unhandled past)) :
    log' = notesOf place (unhandled (following past nest.noted)) := by
  induction h generalizing past with
  | done _ => exact hbefore
  | made p _ ih =>
      rw [Nest.noted, following_cons] at hlegal ⊢
      exact ih hlegal (hbefore.trans (congrArg _ unhandled_made.symm))
  | gone p _ ih =>
      rw [Nest.noted, following_cons] at hlegal ⊢
      exact ih hlegal (hbefore.trans (congrArg _ unhandled_gone.symm))
  | handled tracks found noted _ ih =>
      rw [Nest.noted, following_cons] at hlegal ⊢
      refine ih hlegal ?_
      rw [Exec.noteHandled_rejections tracks noted, ← found, hbefore,
        withoutLast_notesOf hlegal.of_following]
  | rejected tracks found wording _ noted _ ihinside ihrest =>
      rw [Nest.noted, following_append, following_cons] at hlegal ⊢
      have hnext := hlegal.of_following
      refine ihrest hlegal ?_
      rw [Exec.noteRejection_eq tracks wording] at noted
      cases noted
      rw [ihinside hnext.tail hbefore, ← found, unhandled_rejected hnext]
      simp [notesOf]

/-- Nobody asks about a promise while its own reason is put into words. Then a nest, to whatever
depth, leaves notes of exactly the rejections that have not been handled, in the order in which they
were put into words. That is the order in which they happened exactly if none of them happened while
another one of them was put into words. -/
theorem nested_rejections_exact (hlegal : Legal place (following past nest.told)) (hheld : nest.Held)
    (hunasked : nest.Unasked) (hbefore : log = notesOf place (unhandled past))
    (hnoted : NotedNest place nest log log') :
    log' = notesOf place (unhandled (following past nest.noted)) ∧
      (unhandled (following past nest.noted)).Perm (unhandled (following past nest.told)) ∧
      (unhandled (following past nest.noted) = unhandled (following past nest.told) ↔
        nest.Apart (following past nest.told)) := by
  -- Before the nest nothing is pending.
  have hstart : Lags place past past [] := ⟨hlegal.of_following, .refl _, List.forall_mem_nil _⟩
  have hsilent : Silent [] nest.told := fun _ _ hmem => absurd hmem List.not_mem_nil
  have hlags := hstart.nest hlegal hheld hunasked hsilent
  have hsame (p : ι) : .handled p ∈ following past nest.told ↔
      .handled p ∈ following past nest.noted := hlags.mem_iff nofun
  have hopen : Notice.open? (following past nest.noted) = Notice.open? (following past nest.told) :=
    open?_congr fun p => (hsame p).symm
  have hclear : .cleared ∉ nest.noted := mt nest.noted_perm.mem_iff.mp nest.cleared_not_mem
  refine ⟨hnoted.log_eq hlags.legal hbefore, ?_, ?_⟩
  · rw [unhandled_following hclear, unhandled_following nest.cleared_not_mem, hopen]
    exact (nest.noted_perm.filterMap _).append_left _
  · rw [unhandled_following hclear, unhandled_following nest.cleared_not_mem, hopen,
      List.append_right_inj]
    exact filterMap_noted_eq_iff hlegal.throughout_once

end Log

/-! ## Getters that reject and ask -/

/-- An object whose name is found by a getter. -/
def withGetter : Obj where
  props := PropertyTable.put {} (.named "name") (.accessor (.obj 1) .undefined true true)

/-- Calls of functions that do something and give back `outer`. -/
def answering (act : Exec Unit) : Calls :=
  { Calls.none with
    call := fun _ _ _ => (do
      act
      return .ofString "outer" : Exec Value) .none }

/-- A machine with one object that notes rejections, none so far. -/
def noting : Machine := { tracks := true, heap := #[withGetter] }

/-- What came of putting a reason into words: the words and the log. -/
def wordedLog : EStateM.Result Stop Machine String → Option (String × List Rejection)
  | .ok message m => some (message, m.rejections)
  | .error .. => none

theorem exists_of_wordedLog {r : EStateM.Result Stop Machine String} {message : String}
    {log : List Rejection} (h : wordedLog r = some (message, log)) :
    ∃ worded, r = .ok message worded ∧ worded.rejections = log := by
  cases r with
  | ok message' m =>
      cases h
      exact ⟨m, rfl, rfl⟩
  | error e m => cases h

/-- The first promise is at place 7, the second at place 8. -/
def sideBySide : Bool → PromisePlace
  | false => ⟨0, 7⟩
  | true => ⟨0, 8⟩

/-- While the first promise's reason is put into words, the second one is rejected. -/
def rejectedInside : Nest Bool :=
  .made false (.made true (.rejected false "outer" (.rejected true "inner" .done .done) .done))

theorem rejectedInside_legal : Legal sideBySide (following [] rejectedInside.told) := by
  have hmade : Legal sideBySide [Notice.made true, .made false] := by
    refine .made (.made .start (by decide) fun q hq => nomatch hq.made) (by decide) ?_
    rintro (_ | _) ⟨hmade, -⟩
    · decide
    · exact absurd hmade (by decide)
  exact .rejected (.rejected hmade ⟨by decide, by decide⟩ (by simp)) ⟨by decide, by decide⟩ (by simp)

theorem rejectedInside_noted :
    NotedNest sideBySide rejectedInside [] [⟨⟨0, 8⟩, "inner"⟩, ⟨⟨0, 7⟩, "outer"⟩] := by
  have hworded : wordedLog (Exec.rejectionMessage (.obj 0)
      (answering (Exec.noteRejection 8 (.ofString "inner"))) noting) =
        some ("outer", [⟨⟨0, 8⟩, "inner"⟩]) := by decide +kernel
  obtain ⟨worded, hwording, hlog⟩ := exists_of_wordedLog hworded
  have hinner : Exec.rejectionMessage (.ofString "inner") .none noting = .ok "inner" noting := rfl
  have hinside : NotedNest sideBySide (.rejected true "inner" .done .done) noting.rejections
      worded.rejections :=
    .rejected rfl rfl hinner (.done _) (Exec.noteRejection_eq rfl hinner) (hlog ▸ .done _)
  have hfound : sideBySide false = ⟨noting.context, 7⟩ := rfl
  have hnoted := Exec.noteRejection_eq (p := 7) rfl hwording
  rw [hlog] at hnoted
  exact .made false (.made true (.rejected rfl hfound hwording hinside hnoted (.done _)))

/-- The second rejection is noted first. -/
theorem nested_rejections_exact_inside_out :
    Legal sideBySide (following [] rejectedInside.told) ∧ rejectedInside.Held ∧
      rejectedInside.Unasked ∧ NotedNest sideBySide rejectedInside []
        (notesOf sideBySide [(true, "inner"), (false, "outer")]) ∧
      ¬ rejectedInside.Apart (following [] rejectedInside.told) := by
  have hheld : rejectedInside.Held := ⟨by decide, ⟨by decide, trivial, trivial⟩, trivial⟩
  have hunasked : rejectedInside.Unasked := ⟨by decide, ⟨by decide, trivial, trivial⟩, trivial⟩
  have hexact := nested_rejections_exact rejectedInside_legal hheld hunasked rfl rejectedInside_noted
  refine ⟨rejectedInside_legal, hheld, hunasked, rejectedInside_noted, ?_⟩
  exact mt hexact.2.2.mpr (by decide)

/-- After every nest, the log has notes of exactly the rejections that have not been handled, in the
order in which they happened. -/
def NestsExact (ι : Type) [DecidableEq ι] : Prop :=
  ∀ (place : ι → PromisePlace) (nest : Nest ι) (past : List (Notice ι)) (log log' : List Rejection),
    Legal place (following past nest.told) → nest.Held → log = notesOf place (unhandled past) →
      NotedNest place nest log log' → log' = notesOf place (unhandled (following past nest.told))

theorem inner_noted_first : ¬ NestsExact Bool := by
  intro hexact
  have hlog := hexact sideBySide rejectedInside [] [] _ rejectedInside_legal
    ⟨by decide, ⟨by decide, trivial, trivial⟩, trivial⟩ rfl rejectedInside_noted
  exact absurd hlog (by decide)

/-- While a promise's reason is put into words, somebody asks about it. -/
def handledInside : Nest Unit := .made () (.rejected () "outer" (.handled () .done) .done)

/-- The rejection has been handled before it is noted, and its note stays. -/
theorem noted_though_handled :
    let place : Unit → PromisePlace := fun _ => ⟨0, 7⟩
    Legal place (following [] handledInside.told) ∧ handledInside.Held ∧
      unhandled (following [] handledInside.told) = [] ∧
        NotedNest place handledInside [] [⟨⟨0, 7⟩, "outer"⟩] := by
  intro place
  have hlegal : Legal place (following [] handledInside.told) := by
    have hmade : Legal place [Notice.made ()] := .made .start (by decide) fun q hq => nomatch hq.made
    exact .handled (.rejected hmade ⟨by decide, by decide⟩ (by simp)) ⟨by decide, by decide⟩
      (List.mem_cons_self ..) (by decide)
  have hworded : wordedLog (Exec.rejectionMessage (.obj 0) (answering (Exec.noteHandled 7)) noting) =
      some ("outer", []) := by decide +kernel
  obtain ⟨worded, hwording, hlog⟩ := exists_of_wordedLog hworded
  have hfound : place () = ⟨noting.context, 7⟩ := rfl
  have hasked : Exec.noteHandled 7 .none noting = .ok () noting := rfl
  have hinside : NotedNest place (.handled () .done) noting.rejections worded.rejections :=
    .handled rfl hfound hasked (hlog ▸ .done _)
  have hnoted := Exec.noteRejection_eq (p := 7) rfl hwording
  rw [hlog] at hnoted
  exact ⟨hlegal, ⟨by decide, trivial, trivial⟩, by decide,
    .made () (.rejected rfl hfound hwording hinside hnoted (.done _))⟩

end ScriptSandbox
