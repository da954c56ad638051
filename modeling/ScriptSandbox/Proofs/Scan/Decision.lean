import ScriptSandbox.Engine.Interpreter
import ScriptSandbox.Proofs.Scan.Offset
import ScriptSandbox.Proofs.Scan.Search

/-!
# Whether a source can be told to be a module

`hasModuleSyntax` tries the statements that await one after another and stops at the first that lies
outside every function. So a brace that splits a word does harm only if no statement before it has
settled the matter, and `Decided` says when that is so. The main result is `scan_fails_exactly`: it
can be told what a source is exactly if it is decided; if it is not, the missing slice is the word
before a head, and it is all that an engine which is ready ever crashes of.
-/

namespace ScriptSandbox.Scan

/-! ## Places of a search -/

/-- The places of the statements that await, in order. -/
def awaitPlaces (code : List Char) : List Nat :=
  (findAll (fun s => (awaitStatement s).head?.map fun e => ((), e)) none 0 0 code).map (·.1)

theorem awaitPlaces_sorted (code : List Char) : (awaitPlaces code).Pairwise (· < ·) :=
  (findAll_sorted _ none 0 0 code).1

theorem hasModuleSyntax_eq (source : String) :
    hasModuleSyntax source =
      if matchesSomewhere moduleOnly none (blankComments source.toList) then .ok true
      else anyOutside (blankComments source.toList) (awaitPlaces (blankComments source.toList)) :=
  rfl

/-! ## The decision -/

/-- Whether it can be told if a source is a module: it has syntax of modules only, or a statement
that awaits lies outside every function, or no brace before such a statement splits a word. -/
def Decided (source : String) : Prop :=
  let code := blankComments source.toList
  matchesSomewhere moduleOnly none code = true ∨
    (∃ place ∈ awaitPlaces code, insideFunction (code.take place) = .ok false) ∨
    ∀ place ∈ awaitPlaces code, ∀ c, ¬ SplitBrace (code.take place) c

theorem SplitBrace.later {code : List Char} {place later : Nat} {c : Char}
    (h : SplitBrace (code.take place) c) (hle : place ≤ later) :
    SplitBrace (code.take later) c := by
  have htake : code.take later = code.take place ++ (code.drop place).take (later - place) := by
    rw [← List.take_add, Nat.add_sub_cancel' hle]
  rw [htake]
  exact h.append _

/-- The places are tried in order: the first that lies outside settles the matter, and the places
before it have no more braces that split a word than it has. -/
theorem anyOutside_ok_iff {code : List Char} {places : List Nat}
    (hsorted : places.Pairwise (· < ·)) :
    (∃ b, anyOutside code places = .ok b) ↔
      (∃ place ∈ places, insideFunction (code.take place) = .ok false) ∨
        ∀ place ∈ places, ∀ c, ¬ SplitBrace (code.take place) c := by
  induction places with
  | nil => simp [anyOutside]
  | cons place places ih =>
      obtain ⟨hfirst, hsorted⟩ := List.pairwise_cons.mp hsorted
      have hok := insideFunction_ok_iff (code.take place)
      rw [anyOutside]
      cases hinside : insideFunction (code.take place) with
      | error e =>
          obtain ⟨c, hsplit⟩ : ∃ c, SplitBrace (code.take place) c := by
            by_contra hnone
            obtain ⟨b, hb⟩ := hok.mpr (not_exists.mp hnone)
            rw [hinside] at hb
            cases hb
          constructor
          · rintro ⟨b, hb⟩
            cases hb
          · rintro (⟨later, hmem, houtside⟩ | hnone)
            · rcases List.mem_cons.mp hmem with rfl | hmem
              · rw [hinside] at houtside; cases houtside
              · exact absurd (hsplit.later (Nat.le_of_lt (hfirst later hmem)))
                  ((insideFunction_ok_iff _).mp ⟨_, houtside⟩ c)
            · exact absurd hsplit (hnone place (List.mem_cons_self ..) c)
      | ok b =>
          cases b with
          | false => simp [hinside]
          | true =>
              have hnone : ∀ c, ¬ SplitBrace (code.take place) c := hok.mp ⟨true, hinside⟩
              simp [ih hsorted, hinside, hnone]

theorem hasModuleSyntax_ok_iff (source : String) :
    (∃ b, hasModuleSyntax source = .ok b) ↔ Decided source := by
  rw [hasModuleSyntax_eq, Decided]
  by_cases hmodule : matchesSomewhere moduleOnly none (blankComments source.toList) = true
  · simp [hmodule]
  · simp only [hmodule, Bool.false_eq_true, if_false, false_or]
    exact anyOutside_ok_iff (awaitPlaces_sorted _)

/-! ## The decision at byte offsets -/

/-- `anyOutside`, with places at byte offsets. -/
def anyOutsideAt (code : List Char) : (offsets : List Nat) → Except Slice Bool
  | [] => .ok false
  | offset :: offsets => do
    if ← insideFunctionAt code offset then anyOutsideAt code offsets else return true

/-- `hasModuleSyntax`, with every slice at its byte offset. -/
def hasModuleSyntaxAt (source : String) : Except Slice Bool :=
  let code := blankComments source.toList
  if matchesSomewhere moduleOnly none code then .ok true
  else anyOutsideAt code ((awaitPlaces code).map fun place => byteLength (code.take place))

theorem anyOutsideAt_eq (code : List Char) (places : List Nat) :
    anyOutsideAt code (places.map fun place => byteLength (code.take place)) =
      (anyOutside code places).mapError fun _ => .word := by
  induction places with
  | nil => rfl
  | cons place places ih =>
      rw [List.map_cons, anyOutsideAt, anyOutside, insideFunctionAt_eq, ih]
      cases insideFunction (code.take place) with
      | error e => rfl
      | ok b => cases b <;> rfl

/-- No slice is ever missing but the word before a head, and it is missing exactly where the walk in
characters finds a fault. -/
theorem hasModuleSyntaxAt_eq (source : String) :
    hasModuleSyntaxAt source = (hasModuleSyntax source).mapError fun _ => .word := by
  rw [hasModuleSyntaxAt, hasModuleSyntax_eq]
  simp only [anyOutsideAt_eq]
  split <;> rfl

/-! ## Executions -/

theorem not_decided_iff (source : String) :
    ¬ Decided source ↔ ∃ e, hasModuleSyntax source = .error e := by
  rw [← hasModuleSyntax_ok_iff]
  cases hasModuleSyntax source <;> simp

variable {κ ν : Type}

/-- An execution on a machine that can be had comes to no outcome exactly if its source is not
decided. -/
theorem execute_undecided_iff (vm : Vm κ ν) (r : EvalRequest) :
    (∃ e, vm.execute r = .error (.undecided e)) ↔
      (∃ core, vm.boot r.limits = .ok core) ∧ ¬ Decided r.source := by
  rw [not_decided_iff, Vm.execute]
  cases vm.boot r.limits with
  | error why => simp
  | ok core =>
      cases hasModuleSyntax r.source with
      | error e => simp
      | ok asModule => exact ⟨fun ⟨_, h⟩ => (nomatch h), by simp⟩

/-- An engine crashes exactly if it is ready, can have a machine, and its source is not decided. -/
theorem execute_crashed_iff (vm : Vm κ ν) (e : InterpreterEngine) (source : String) :
    (∃ why, (e.execute vm source).1 = .error (.crashed why)) ↔
      e.ready = true ∧ e.provider.isSome ∧ (∃ core, vm.boot e.limits = .ok core) ∧
        ¬ Decided source := by
  rw [InterpreterEngine.execute]
  cases e.ready with
  | false => simp
  | true =>
      cases e.provider with
      | none => simp
      | some p =>
          have hundecided := execute_undecided_iff vm
            { source, limits := e.limits, resolver := e.resolver, provider := p }
          simp only [Option.isSome_some, true_and, ← hundecided]
          cases vm.execute { source, limits := e.limits, resolver := e.resolver, provider := p } with
          | ok o => simp
          | error why => cases why <;> simp

end ScriptSandbox.Scan
