import ScriptSandbox.Proofs.Scan.Patterns

/-!
# Searching a text

`Finds` is a judgement on a piece of a text, with what follows it: every match that begins in the
piece ends in it, and these are the matches. Such pieces can be put together, and a search of the
whole is a search of one after the other (`findAll_of_finds`).
-/

namespace ScriptSandbox.Scan

variable {α : Type} {find? : Spot → Option (α × Spot)} {b : Option Char} {offset : Nat}
  {text piece rest : List Char}

/-! ## Places of a search -/

/-- A search reports its matches at offsets that rise, from where it begins. -/
theorem findAll_sorted {α : Type} (find? : Spot → Option (α × Spot)) (before : Option Char)
    (offset skip : Nat) (text : List Char) :
    ((findAll find? before offset skip text).map (·.1)).Pairwise (· < ·) ∧
      ∀ place ∈ (findAll find? before offset skip text).map (·.1), offset ≤ place := by
  induction text generalizing before offset skip with
  | nil =>
      rw [findAll]
      split <;> simp
  | cons c cs ih =>
      have hlater := ih (some c) (offset + 1)
      rw [findAll]
      split
      · refine ⟨List.pairwise_cons.mpr ⟨(hlater _).2, (hlater _).1⟩, ?_⟩
        intro place hplace
        rcases List.mem_cons.mp hplace with rfl | hplace
        · exact Nat.le_refl _
        · exact Nat.le_of_succ_le ((hlater _).2 place hplace)
      · exact ⟨(hlater _).1, fun place hplace => Nat.le_of_succ_le ((hlater _).2 place hplace)⟩

/-! ## One step of a search -/

@[simp] theorem findAll_skipping (n : Nat) (c : Char) (cs : List Char) :
    findAll find? b offset (n + 1) (c :: cs) = findAll find? (some c) (offset + 1) n cs := by
  rw [findAll]
  rfl

theorem findAll_miss {c : Char} {cs : List Char} (h : find? ⟨b, c :: cs⟩ = none) :
    findAll find? b offset 0 (c :: cs) = findAll find? (some c) (offset + 1) 0 cs := by
  rw [findAll]
  simp [h]

theorem findAll_hit {c : Char} {cs : List Char} {a : α} {s : Spot}
    (h : find? ⟨b, c :: cs⟩ = some (a, s)) :
    findAll find? b offset 0 (c :: cs) =
      (offset, a) :: findAll find? (some c) (offset + 1) (cs.length - s.rest.length) cs := by
  rw [findAll]
  have hskip : (c :: cs).length - s.rest.length - 1 = cs.length - s.rest.length := by
    rw [List.length_cons]
    omega
  simp only [beq_self_eq_true, if_true, h, hskip]

theorem mem_findAll {place skip : Nat} {a : α}
    (h : (place, a) ∈ findAll find? b offset skip text) :
    ∃ front back s, text = front ++ back ∧ place = offset + front.length ∧
      find? ⟨past b front, back⟩ = some (a, s) := by
  induction text generalizing b offset skip with
  | nil =>
      cases skip with
      | succ n => simp [findAll] at h
      | zero =>
          cases hfind : find? ⟨b, []⟩ with
          | none => simp [findAll, hfind] at h
          | some found =>
              simp only [findAll, beq_self_eq_true, if_true, hfind, List.mem_singleton] at h
              obtain ⟨rfl, rfl⟩ := Prod.mk.inj h
              exact ⟨[], [], found.2, rfl, rfl, hfind⟩
  | cons c cs ih =>
      have hlater {skip : Nat} (h : (place, a) ∈ findAll find? (some c) (offset + 1) skip cs) :
          ∃ front back s, c :: cs = front ++ back ∧ place = offset + front.length ∧
            find? ⟨past b front, back⟩ = some (a, s) := by
        obtain ⟨front, back, s, rfl, rfl, hfind⟩ := ih h
        exact ⟨c :: front, back, s, rfl, by rw [List.length_cons]; omega, hfind⟩
      cases skip with
      | succ n => exact hlater (findAll_skipping n c cs ▸ h)
      | zero =>
          cases hfind : find? ⟨b, c :: cs⟩ with
          | none => exact hlater (findAll_miss hfind ▸ h)
          | some found =>
              rw [findAll_hit (a := found.1) (s := found.2) hfind] at h
              rcases List.mem_cons.mp h with heq | h
              · obtain ⟨rfl, rfl⟩ := Prod.mk.inj heq
                exact ⟨[], c :: cs, found.2, rfl, rfl, hfind⟩
              · exact hlater h

/-- If there is something to be found somewhere, something is found. -/
theorem findAll_ne_nil {front back : List Char} (hback : back ≠ [])
    (h : (find? ⟨past b front, back⟩).isSome = true) :
    findAll find? b offset 0 (front ++ back) ≠ [] := by
  have hhead {b : Option Char} {offset : Nat} {c : Char} {cs : List Char} {found : α × Spot}
      (hfind : find? ⟨b, c :: cs⟩ = some found) :
      findAll find? b offset 0 (c :: cs) ≠ [] := by
    rw [findAll_hit (a := found.1) (s := found.2) hfind]
    exact List.cons_ne_nil _ _
  induction front generalizing b offset with
  | nil =>
      obtain ⟨found, hfind⟩ := Option.isSome_iff_exists.mp h
      obtain ⟨c, cs, rfl⟩ := List.exists_cons_of_ne_nil hback
      exact hhead hfind
  | cons c cs ih =>
      cases hfind : find? ⟨b, c :: (cs ++ back)⟩ with
      | some found => exact hhead hfind
      | none =>
          rw [List.cons_append, findAll_miss hfind]
          exact ih h

/-! ## Searching pieces -/

theorem findAll_past (piece : List Char) (skip : Nat) :
    findAll find? b offset (piece.length + skip) (piece ++ rest) =
      findAll find? (past b piece) (offset + piece.length) skip rest := by
  induction piece generalizing b offset with
  | nil => rw [List.length_nil, Nat.zero_add]; rfl
  | cons c cs ih =>
      rw [List.length_cons, Nat.add_right_comm, List.cons_append, findAll_skipping, ih, past_cons,
        Nat.add_right_comm, Nat.add_assoc]

theorem findAll_behind (piece : List Char) :
    findAll find? b offset piece.length (piece ++ rest) =
      findAll find? (past b piece) (offset + piece.length) 0 rest :=
  findAll_past piece 0

/-- What is found in a piece of a text, given what follows it. -/
inductive Finds (find? : Spot → Option (α × Spot)) (rest : List Char) :
    Option Char → Nat → List Char → List (Nat × α) → Prop
  | done (b : Option Char) (offset : Nat) : Finds find? rest b offset [] []
  | miss {b : Option Char} {offset : Nat} {c : Char} {cs : List Char} {found : List (Nat × α)}
      (hnone : find? ⟨b, c :: (cs ++ rest)⟩ = none)
      (hlater : Finds find? rest (some c) (offset + 1) cs found) :
      Finds find? rest b offset (c :: cs) found
  | hit {b : Option Char} {offset : Nat} {piece cs : List Char} {found : List (Nat × α)} {a : α}
      (hne : piece ≠ [])
      (hsome : find? ⟨b, piece ++ (cs ++ rest)⟩ = some (a, ⟨past b piece, cs ++ rest⟩))
      (hlater : Finds find? rest (past b piece) (offset + piece.length) cs found) :
      Finds find? rest b offset (piece ++ cs) ((offset, a) :: found)

theorem finds_none (h : ∀ front back, piece = front ++ back → back ≠ [] →
    find? ⟨past b front, back ++ rest⟩ = none) : Finds find? rest b offset piece [] := by
  induction piece generalizing b offset with
  | nil => exact .done b offset
  | cons c cs ih =>
      refine .miss (h [] (c :: cs) rfl (List.cons_ne_nil c cs)) (ih fun front back heq hne => ?_)
      exact h (c :: front) back (by rw [heq, List.cons_append]) hne

/-- A search goes through a piece and then through what follows it. -/
theorem findAll_of_finds {found : List (Nat × α)} (h : Finds find? rest b offset piece found) :
    findAll find? b offset 0 (piece ++ rest) =
      found ++ findAll find? (past b piece) (offset + piece.length) 0 rest := by
  induction h with
  | done b offset => rfl
  | miss hnone _ ih =>
      rw [List.cons_append, findAll_miss hnone, ih, past_cons, List.length_cons, Nat.add_assoc,
        Nat.add_comm 1]
  | @hit b offset piece cs found a hne hsome _ ih =>
      obtain ⟨c, piece, rfl⟩ := List.exists_cons_of_ne_nil hne
      have hskip : (piece ++ (cs ++ rest)).length - (cs ++ rest).length = piece.length := by
        rw [List.length_append]
        omega
      rw [List.cons_append] at hsome
      rw [List.append_assoc, List.cons_append, findAll_hit hsome, hskip, findAll_behind,
        ← past_cons b c piece, Nat.add_assoc offset 1, Nat.add_comm 1, ← List.length_cons (a := c),
        ih, past_append, List.length_append, Nat.add_assoc]
      rfl

/-- Pieces that follow each other are a piece. -/
theorem Finds.append {piece' : List Char} {found found' : List (Nat × α)}
    (h : Finds find? (piece' ++ rest) b offset piece found)
    (h' : Finds find? rest (past b piece) (offset + piece.length) piece' found') :
    Finds find? rest b offset (piece ++ piece') (found ++ found') := by
  induction h with
  | done b offset => exact h'
  | @miss b offset c cs found hnone _ ih =>
      rw [← List.append_assoc] at hnone
      refine .miss hnone (ih ?_)
      rw [past_cons, List.length_cons, Nat.add_comm cs.length, ← Nat.add_assoc] at h'
      exact h'
  | @hit b offset piece cs found a hne hsome _ ih =>
      rw [List.append_assoc]
      refine .hit hne (by rw [List.append_assoc]; exact hsome) (ih ?_)
      rw [past_append, List.length_append, ← Nat.add_assoc] at h'
      exact h'

/-- What is found in a piece does not depend on what follows it. -/
def Settled (find? : Spot → Option (α × Spot)) (b : Option Char) (offset : Nat)
    (piece : List Char) : Prop :=
  ∃ found, ∀ rest, Finds find? rest b offset piece found

theorem settled_nil : Settled find? b offset [] := ⟨[], fun _ => .done b offset⟩

theorem Settled.miss {c : Char} {cs : List Char}
    (hnone : ∀ rest, find? ⟨b, c :: (cs ++ rest)⟩ = none)
    (h : Settled find? (some c) (offset + 1) cs) : Settled find? b offset (c :: cs) := by
  obtain ⟨found, hfound⟩ := h
  exact ⟨found, fun rest => .miss (hnone rest) (hfound rest)⟩

theorem Settled.hit {cs : List Char} {a : α} (hne : piece ≠ [])
    (hsome : ∀ rest, find? ⟨b, piece ++ (cs ++ rest)⟩ = some (a, ⟨past b piece, cs ++ rest⟩))
    (h : Settled find? (past b piece) (offset + piece.length) cs) :
    Settled find? b offset (piece ++ cs) := by
  obtain ⟨found, hfound⟩ := h
  exact ⟨(offset, a) :: found, fun rest => .hit hne (hsome rest) (hfound rest)⟩

theorem Settled.append {piece' : List Char} (h : Settled find? b offset piece)
    (h' : Settled find? (past b piece) (offset + piece.length) piece') :
    Settled find? b offset (piece ++ piece') := by
  obtain ⟨found, hfound⟩ := h
  obtain ⟨found', hfound'⟩ := h'
  exact ⟨found ++ found', fun rest => (hfound (piece' ++ rest)).append (hfound' rest)⟩

/-- Nothing is found in a piece at whose characters nothing begins. -/
theorem settled_of_forall {P : Char → Prop}
    (hnone : ∀ b c cs, P c → find? ⟨b, c :: cs⟩ = none) (hpiece : ∀ c ∈ piece, P c) :
    Settled find? b offset piece := by
  induction piece generalizing b offset with
  | nil => exact settled_nil
  | cons c cs ih =>
      rw [List.forall_mem_cons] at hpiece
      exact .miss (fun rest => hnone b c _ hpiece.1) (ih hpiece.2)

/-- A text in quotes with what leads to it: the recogniser finds it from wherever it can reach it,
and if it can from nowhere, nothing may be found from the quotes on. -/
theorem settled_lead {front quoted back : List Char} {a : α}
    (reaches : Option Char → List Char → Bool)
    (hfind : ∀ b head rest, head <:+ front →
      find? ⟨b, head ++ (quoted ++ (back ++ rest))⟩ =
        if reaches b head then some (a, ⟨past b (head ++ quoted), back ++ rest⟩) else none)
    (hback : ∀ b offset, Settled find? b offset back)
    (h : (∃ pre head, front = pre ++ head ∧ head ≠ [] ∧ reaches (past b pre) head = true) ∨
      ∀ offset, Settled find? (past b front) offset (quoted ++ back)) :
    Settled find? b offset (front ++ (quoted ++ back)) := by
  induction front generalizing b offset with
  | nil =>
      rcases h with ⟨pre, head, hnil, hne, -⟩ | h
      · exact absurd (List.append_eq_nil_iff.mp hnil.symm).2 hne
      · exact h offset
  | cons c cs ih =>
      have hhere := fun rest => hfind b (c :: cs) rest (List.suffix_refl _)
      by_cases hreach : reaches b (c :: cs) = true
      · rw [← List.append_assoc]
        refine .hit (a := a) (by simp) (fun rest => ?_) (hback _ _)
        rw [List.append_assoc, hhere, if_pos hreach]
      · rw [List.cons_append]
        refine .miss (fun rest => ?_) (ih (fun b head rest hhead => ?_) (h.imp ?_ id))
        · have hmiss := hhere rest
          rw [if_neg hreach] at hmiss
          rw [List.append_assoc, List.append_assoc]
          exact hmiss
        · exact hfind b head rest (hhead.trans (List.suffix_cons c cs))
        · rintro ⟨pre, head, heq, hne, hhead⟩
          cases pre with
          | nil =>
              rw [List.nil_append] at heq
              rw [← heq] at hhead
              exact absurd hhead hreach
          | cons d pre =>
              obtain ⟨rfl, rfl⟩ := List.cons.inj heq
              exact ⟨pre, head, rfl, hne, hhead⟩

/-! ## Where a search begins -/

/-- Offsets are counted from where the search begins. -/
theorem findAll_shift (n skip : Nat) :
    findAll find? b (n + offset) skip text =
      (findAll find? b offset skip text).map fun e => (n + e.1, e.2) := by
  induction text generalizing b offset skip with
  | nil =>
      rw [findAll, findAll]
      split <;> rfl
  | cons c cs ih =>
      cases skip with
      | succ k => rw [findAll_skipping, findAll_skipping, Nat.add_assoc, ih]
      | zero =>
          cases hfind : find? ⟨b, c :: cs⟩ with
          | none => rw [findAll_miss hfind, findAll_miss hfind, Nat.add_assoc, ih]
          | some found =>
              rw [findAll_hit (a := found.1) (s := found.2) hfind,
                findAll_hit (a := found.1) (s := found.2) hfind, Nat.add_assoc, ih, List.map_cons]

theorem findAll_before {b' : Option Char} (h : ∀ text, find? ⟨b, text⟩ = find? ⟨b', text⟩)
    (skip : Nat) : findAll find? b offset skip text = findAll find? b' offset skip text := by
  cases text with
  | nil => simp only [findAll, h]
  | cons c cs => simp only [findAll, h]

end ScriptSandbox.Scan
