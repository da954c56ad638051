import ScriptSandbox.Cache.Files
import ScriptSandbox.Proofs.Data.Path

/-!
# The files of a key

The name of a file tells the bytes of its key (`fileName_inj`) and is twice as long
(`utf8ByteSize_fileName`). It is made of hexadecimal digits, so that there is no slash in it and no
dot: behind the path of the directory it is one name (`components_pathOf`), and the path to which a
value is written first is that name with an ending, in the same directory (`components_stagingPath`).
The empty key is the exception, since its name is empty: its path is that of the directory itself.
-/

namespace ScriptSandbox

/-! ## Names of files -/

theorem toList_loop (bytes : ByteArray) (i : Nat) (read : List UInt8) :
    ByteArray.toList.loop bytes i read = read.reverse ++ bytes.data.toList.drop i := by
  fun_induction ByteArray.toList.loop bytes i read with
  | case1 i read hi ih =>
      have hi' : i < bytes.data.toList.length := by simpa using hi
      have hget : bytes.get! i = bytes.data.toList[i] := by
        simp [ByteArray.get!, hi]
      rw [ih, List.drop_eq_getElem_cons hi', hget]
      simp
  | case2 i read hi =>
      have hlength : bytes.data.toList.length ≤ i := by simpa using hi
      rw [List.drop_eq_nil_of_le hlength, List.append_nil]

theorem toList_toUTF8 (key : String) : key.toUTF8.toList = key.toByteArray.data.toList := by
  rw [ByteArray.toList, toList_loop]
  rfl

theorem toList_toUTF8_inj {key key' : String} (h : key.toUTF8.toList = key'.toUTF8.toList) :
    key = key' := by
  rw [toList_toUTF8, toList_toUTF8] at h
  exact String.toByteArray_inj.mp (ByteArray.ext (Array.toList_inj.mp h))

theorem digitChar_inj : ∀ {m n : Fin 16}, Nat.digitChar m = Nat.digitChar n → m = n := by
  decide

theorem hexByte_inj {b b' : UInt8} (h : hexByte b = hexByte b') : b = b' := by
  have hb := b.toNat_lt
  have hb' := b'.toNat_lt
  obtain ⟨hhigh, hlow⟩ : Nat.digitChar (b.toNat / 16) = Nat.digitChar (b'.toNat / 16) ∧
      Nat.digitChar (b.toNat % 16) = Nat.digitChar (b'.toNat % 16) := by
    simpa [hexByte] using h
  have hdiv : b.toNat / 16 = b'.toNat / 16 :=
    Fin.mk.inj (digitChar_inj (m := ⟨_, by omega⟩) (n := ⟨_, by omega⟩) hhigh)
  have hmod : b.toNat % 16 = b'.toNat % 16 :=
    Fin.mk.inj (digitChar_inj (m := ⟨_, by omega⟩) (n := ⟨_, by omega⟩) hlow)
  exact UInt8.toNat_inj.mp (by omega)

theorem flatMap_hexByte_inj {bytes bytes' : List UInt8}
    (h : bytes.flatMap hexByte = bytes'.flatMap hexByte) : bytes = bytes' := by
  induction bytes generalizing bytes' with
  | nil =>
      cases bytes' with
      | nil => rfl
      | cons b bytes' => simp [hexByte] at h
  | cons b bytes ih =>
      cases bytes' with
      | nil => simp [hexByte] at h
      | cons b' bytes' =>
          have hlength : (hexByte b).length = (hexByte b').length := rfl
          rw [List.flatMap_cons, List.flatMap_cons] at h
          obtain ⟨hfirst, hrest⟩ := List.append_inj h hlength
          rw [hexByte_inj hfirst, ih hrest]

/-- Different keys have files of different names. -/
theorem fileName_inj {key key' : String} (h : fileName key = fileName key') : key = key' :=
  toList_toUTF8_inj (flatMap_hexByte_inj (String.ofList_injective h))

theorem utf8ByteSize_digitChars :
    ∀ m n : Fin 16, (String.ofList [Nat.digitChar m, Nat.digitChar n]).utf8ByteSize = 2 := by
  decide

theorem utf8ByteSize_hexByte (b : UInt8) : (String.ofList (hexByte b)).utf8ByteSize = 2 :=
  have hlt := b.toNat_lt
  utf8ByteSize_digitChars ⟨b.toNat / 16, by omega⟩ ⟨b.toNat % 16, by omega⟩

theorem utf8ByteSize_fileName (key : String) :
    (fileName key).utf8ByteSize = 2 * key.utf8ByteSize := by
  have hbytes (bytes : List UInt8) :
      (String.ofList (bytes.flatMap hexByte)).utf8ByteSize = 2 * bytes.length := by
    induction bytes with
    | nil => rfl
    | cons b bytes ih =>
        rw [List.flatMap_cons, String.ofList_append, String.utf8ByteSize_append,
          utf8ByteSize_hexByte, ih, List.length_cons]
        omega
  rw [fileName, hbytes, toList_toUTF8, Array.length_toList]
  rfl

theorem mem_fileName {key : String} {c : Char} (h : c ∈ (fileName key).toList) :
    ∃ n : Fin 16, c = Nat.digitChar n := by
  rw [fileName, String.toList_ofList, List.mem_flatMap] at h
  obtain ⟨b, -, hb⟩ := h
  have hlt := b.toNat_lt
  rcases List.mem_cons.mp hb with rfl | hlow
  · exact ⟨⟨b.toNat / 16, by omega⟩, rfl⟩
  · exact ⟨⟨b.toNat % 16, by omega⟩, List.mem_singleton.mp hlow⟩

theorem digitChar_ne : ∀ n : Fin 16, Nat.digitChar n ≠ '.' ∧ Nat.digitChar n ≠ '/' := by
  decide

theorem dot_not_mem_fileName (key : String) : '.' ∉ (fileName key).toList := by
  intro h
  obtain ⟨n, hn⟩ := mem_fileName h
  exact (digitChar_ne n).1 hn.symm

theorem slash_not_mem_fileName (key : String) : '/' ∉ (fileName key).toList := by
  intro h
  obtain ⟨n, hn⟩ := mem_fileName h
  exact (digitChar_ne n).2 hn.symm

theorem fileName_empty : fileName "" = "" := by decide +kernel

theorem fileName_ne_empty {key : String} (h : key ≠ "") : fileName key ≠ "" :=
  fun hname => h (fileName_inj (hname.trans fileName_empty.symm))

/-! ## Paths of keys -/

theorem component?_fileName {key : String} (h : key ≠ "") :
    Path.component? (fileName key).toList = some (.name (fileName key).toList) :=
  Path.component?_of_not_mem
    (fun hnil => fileName_ne_empty h (String.toList_eq_nil_iff.mp hnil)) (dot_not_mem_fileName key)

theorem components_pathOf (own : String) {key : String} (h : key ≠ "") :
    Path.components (pathOf own key) = Path.components own ++ [.name (fileName key).toList] := by
  have hdot : (fileName key).toList ≠ ['.'] := fun hdot =>
    dot_not_mem_fileName key (by rw [hdot]; exact List.mem_cons_self)
  rw [pathOf, Path.components_join (slash_not_mem_fileName key) hdot, component?_fileName h]
  rfl

/-- What is written first for a key is beside its file, in the same directory. -/
theorem stagingPath_eq (own : String) {key : String} (h : key ≠ "") :
    stagingPath own key = Path.join own (fileName key ++ ".tmp") := by
  have hname : Path.withExtension (Path.join own (fileName key)) "tmp" =
      Path.join own (fileName key ++ "." ++ "tmp") :=
    Path.withExtension_join own (slash_not_mem_fileName key) (dot_not_mem_fileName key)
      (fileName_ne_empty h) (by decide) (by decide)
  rw [stagingPath, pathOf, hname, String.append_assoc]
  rfl

theorem components_stagingPath (own : String) {key : String} (h : key ≠ "") :
    Path.components (stagingPath own key) =
      Path.components own ++ [.name (fileName key ++ ".tmp").toList] := by
  have hlength : 2 < (fileName key ++ ".tmp").toList.length := by
    rw [String.toList_append, List.length_append]
    exact Nat.lt_of_lt_of_le (by decide : 2 < 4) (Nat.le_add_left 4 _)
  have hslash : '/' ∉ (fileName key ++ ".tmp").toList := by
    rw [String.toList_append, List.mem_append, not_or]
    exact ⟨slash_not_mem_fileName key, by decide⟩
  have hdot : (fileName key ++ ".tmp").toList ≠ ['.'] := by
    intro hdot
    rw [hdot] at hlength
    exact absurd hlength (by decide)
  rw [stagingPath_eq own h, Path.components_join hslash hdot, Path.component?_of_length hlength]
  rfl

theorem components_pathOf_empty (own : String) :
    Path.components (pathOf own "") = Path.components own := by
  rw [pathOf, fileName_empty, Path.components_join (by decide) (by decide)]
  exact List.append_nil _

/-- The ending is put behind the name of the directory, if the directory has one. -/
theorem length_components_stagingPath_empty (own : String) :
    (Path.components (stagingPath own "")).length = (Path.components own).length := by
  rcases @Path.withExtension_cases "tmp" (pathOf own "") (by decide) (by decide) with
    hsame | ⟨parent, last, hhome, hnew⟩
  · rw [stagingPath, hsame, components_pathOf_empty]
  · rw [stagingPath, hnew, ← components_pathOf_empty own, hhome, List.length_append,
      List.length_append]
    rfl

/-! ## Steps -/

namespace FileSystem

variable {φ : Type} {fs : FileSystem φ} {d d' : φ} {steps : List FileStep}

/-- Steps fail at the first of them, or at a later one. -/
theorem performAll_cons_error {step : FileStep} {e : StoreError}
    (h : fs.performAll d (step :: steps) = (.error e, d')) :
    fs.perform d step = (.error e, d') ∨
      ∃ after, fs.perform d step = (.ok (), after) ∧ fs.performAll after steps = (.error e, d') := by
  rw [performAll] at h
  rcases hstep : fs.perform d step with ⟨_ | _, after⟩ <;> rw [hstep] at h
  · exact .inl h
  · exact .inr ⟨after, rfl, h⟩

/-- What none of the steps changes is as it was, whether they were all performed or one failed. -/
theorem rest_performAll {ρ : Type} (fs : FileSystem φ) (rest : φ → ρ)
    (hrest : ∀ step ∈ steps, ∀ d, rest (fs.perform d step).2 = rest d) (d : φ) :
    rest (fs.performAll d steps).2 = rest d := by
  induction steps generalizing d with
  | nil => rfl
  | cons step steps ih =>
      have hfirst := hrest step List.mem_cons_self d
      rw [performAll]
      rcases hstep : fs.perform d step with ⟨_ | _, after⟩ <;> rw [hstep] at hfirst
      · exact hfirst
      · exact (ih (fun step hmem => hrest step (List.mem_cons_of_mem _ hmem)) after).trans hfirst

end FileSystem

end ScriptSandbox
