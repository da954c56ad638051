import ScriptSandbox.Proofs.Cache.Directory

/-!
# What a store touches

Behind the path of the directory the name of a key's file is one more name, and so is the name to
which a value is written first. So every path of every step is that of a direct child of the directory
(`within_setSteps`, `within_removeSteps`), whatever the path of the directory looks like; and whatever
the steps come to, each of them successful or not, nothing else is changed by them
(`FileSystem.rest_performAll`).

The empty key is left out, and has to be: its file would be the directory itself, and a new ending is
put behind the directory's own name then, so that neither path is ever that of a child
(`isChild_pathOf_iff`, `isChild_stagingPath_iff`). In `staged_beside` a value that is written under
the empty key remains beside the directory.
-/

namespace ScriptSandbox

/-! ## Paths of children -/

/-- A path leads to a direct child of a directory: to what the path of the directory leads to, and
from there by one name. -/
def Path.IsChild (own path : String) : Prop :=
  ∃ name : String, Path.components path = Path.components own ++ [.name name.toList]

theorem Path.not_isChild {own path : String}
    (h : (Path.components path).length = (Path.components own).length) :
    ¬ Path.IsChild own path := by
  rintro ⟨name, hchild⟩
  rw [hchild, List.length_append, List.length_singleton] at h
  omega

theorem isChild_pathOf_iff {own key : String} : Path.IsChild own (pathOf own key) ↔ key ≠ "" := by
  refine ⟨?_, fun h => ⟨_, components_pathOf own h⟩⟩
  rintro hchild rfl
  exact Path.not_isChild (congrArg List.length (components_pathOf_empty own)) hchild

theorem isChild_stagingPath_iff {own key : String} :
    Path.IsChild own (stagingPath own key) ↔ key ≠ "" := by
  refine ⟨?_, fun h => ⟨_, components_stagingPath own h⟩⟩
  rintro hchild rfl
  exact Path.not_isChild (length_components_stagingPath_empty own) hchild

/-! ## Steps -/

/-- A step touches direct children of a directory only. -/
def FileStep.Within (own : String) (step : FileStep) : Prop :=
  ∀ path ∈ step.paths, Path.IsChild own path

theorem within_setSteps {own key value : String} {step : FileStep} (h : key ≠ "")
    (hstep : step ∈ setSteps own key value) : step.Within own := by
  intro path hpath
  have hpath' : path = stagingPath own key ∨ path = pathOf own key := by
    simp only [setSteps, List.mem_cons, List.not_mem_nil, or_false] at hstep
    rcases hstep with rfl | rfl
    · exact .inl (List.mem_singleton.mp hpath)
    · simpa [FileStep.paths] using hpath
  rcases hpath' with rfl | rfl
  · exact isChild_stagingPath_iff.mpr h
  · exact isChild_pathOf_iff.mpr h

theorem within_removeSteps {own key : String} {step : FileStep} (h : key ≠ "")
    (hstep : step ∈ removeSteps own key) : step.Within own := by
  obtain rfl := List.mem_singleton.mp hstep
  intro path hpath
  obtain rfl := List.mem_singleton.mp hpath
  exact isChild_pathOf_iff.mpr h

namespace Directory

theorem exists_placeAt {own path : String} (h : Path.IsChild own path) :
    ∃ name, placeAt own path = .inside name :=
  h.imp fun _ hname => placeAt_of_child hname

theorem beside_perform {own : String} {step : FileStep} (h : step.Within own) (d : Directory) :
    ((fileSystem own).perform d step).2.beside = d.beside := by
  cases step with
  | write path bytes =>
      obtain ⟨name, hname⟩ := exists_placeAt (h path List.mem_cons_self)
      simp only [fileSystem, hname, write_eq]
      split <;> rfl
  | rename source target =>
      obtain ⟨name, hname⟩ := exists_placeAt (h source List.mem_cons_self)
      obtain ⟨name', hname'⟩ := exists_placeAt (h target (by simp [FileStep.paths]))
      simp only [fileSystem, hname, hname', rename]
      split
      · rfl
      · split <;> rfl
  | delete path =>
      obtain ⟨name, hname⟩ := exists_placeAt (h path List.mem_cons_self)
      simp only [fileSystem, hname, delete_eq]
      split <;> rfl

end Directory

/-! ## The three operations -/

namespace FileStore

theorem beside_perform {s : FileStore} {steps : List FileStep}
    (h : ∀ step ∈ steps, step.Within s.own) :
    (s.perform steps).2.directory.beside = s.directory.beside :=
  (Directory.fileSystem s.own).rest_performAll Directory.beside
    (fun step hstep => Directory.beside_perform (h step hstep)) s.directory

/-- The paths that a store in a directory touches for a key are those of direct children exactly if
the key is not empty. If it is not, then every step of every operation touches direct children only:
in any file system, what no such step changes is as it was after an operation, successful or not, and
so is all that lies beside the directory. -/
theorem touches_only_children (s : FileStore) (key value : String) :
    (Path.IsChild s.own (pathOf s.own key) ↔ key ≠ "") ∧
      (Path.IsChild s.own (stagingPath s.own key) ↔ key ≠ "") ∧
      (key ≠ "" →
        (∀ step ∈ setSteps s.own key value ++ removeSteps s.own key, step.Within s.own) ∧
          (∀ (φ ρ : Type) (fs : FileSystem φ) (rest : φ → ρ),
            (∀ step, step.Within s.own → ∀ d, rest (fs.perform d step).2 = rest d) → ∀ d,
              rest (fs.performAll d (setSteps s.own key value)).2 = rest d ∧
                rest (fs.performAll d (removeSteps s.own key)).2 = rest d) ∧
          (KeyValueStore.set s key value).2.directory.beside = s.directory.beside ∧
            (KeyValueStore.remove s key).2.directory.beside = s.directory.beside) := by
  refine ⟨isChild_pathOf_iff, isChild_stagingPath_iff, fun hkey => ?_⟩
  have hset : ∀ step ∈ setSteps s.own key value, step.Within s.own :=
    fun _ => within_setSteps hkey
  have hremove : ∀ step ∈ removeSteps s.own key, step.Within s.own :=
    fun _ => within_removeSteps hkey
  refine ⟨fun step hstep => ?_, fun φ ρ fs rest hrest d => ⟨?_, ?_⟩, beside_perform hset,
    beside_perform hremove⟩
  · exact (List.mem_append.mp hstep).elim (hset step) (hremove step)
  · exact fs.rest_performAll rest (fun step hstep => hrest step (hset step hstep)) d
  · exact fs.rest_performAll rest (fun step hstep => hrest step (hremove step hstep)) d

/-- A directory that is written with a dot, and a key that would lead out of it as a name. -/
theorem touches_only_children_of_slashes :
    "../secrets" ≠ "" ∧ Path.IsChild "./cache.d" (pathOf "./cache.d" "../secrets") ∧
      (KeyValueStore.set ({ own := "./cache.d" } : FileStore) "../secrets"
        "v").2.directory.beside = [] :=
  have h := touches_only_children { own := "./cache.d" } "../secrets" "v"
  ⟨by decide, h.1.mpr (by decide), (h.2.2 (by decide)).2.2.1⟩

/-- What is written first for the empty key is a file beside the directory, and stays there. -/
theorem staged_beside :
    let s : FileStore := { own := "cache" }
    stagingPath s.own "" = "cache.tmp" ∧ ¬ Path.IsChild s.own (stagingPath s.own "") ∧
      ¬ Path.IsChild s.own (pathOf s.own "") ∧
        (KeyValueStore.set s "" "v").2.directory.beside.names = ["cache.tmp"] := by
  intro s
  refine ⟨by decide +kernel, ?_, ?_, by decide +kernel⟩
  · exact fun hchild => isChild_stagingPath_iff.mp hchild rfl
  · exact fun hchild => isChild_pathOf_iff.mp hchild rfl

end FileStore

end ScriptSandbox
