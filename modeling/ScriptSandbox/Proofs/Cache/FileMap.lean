import ScriptSandbox.Proofs.Cache.Directory

/-!
# A directory as a map

A store in a directory that nobody else writes to is a map. Keys of 1 to 125 bytes have names that
are short enough, with the ending of what is written first as without it; so no call of such a key
fails, and no sequence of calls tells the directory from a store in memory
(`Mirrors.answers_eq`). What relates the two is that each key's file holds its value, and that no
directory stands where a value is to be written first (`Mirrors`).

A write that fails is as if it had not been made, whatever the key and whatever the directory holds.
That takes little of a file system (`Fallible`): a write may fail and leave anything at its own path,
but that is the path of no value, and a rename that fails leaves everything as it was
(`Fallible.read_of_set_error`).
-/

namespace ScriptSandbox

open Directory

/-! ## Calls -/

/-- A call of a store, or the end of one store and the start of the next. -/
inductive StoreCall where
  | get (key : String)
  | set (key value : String)
  | remove (key : String)
  | reopen
  deriving DecidableEq, Repr

def StoreCall.key? : StoreCall → Option String
  | .get key | .set key _ | .remove key => some key
  | .reopen => none

/-- What a call answers. -/
inductive StoreAnswer where
  | found (r : Except StoreError (Option String))
  | done (r : Except StoreError Unit)

namespace StoreCall

variable {σ : Type} [KeyValueStore σ]

/-- One call; `reopen` opens a store again. -/
def on (reopen : σ → σ) (s : σ) : StoreCall → StoreAnswer × σ
  | .get key => (.found (KeyValueStore.get s key), s)
  | .set key value => (.done (KeyValueStore.set s key value).1, (KeyValueStore.set s key value).2)
  | .remove key => (.done (KeyValueStore.remove s key).1, (KeyValueStore.remove s key).2)
  | .reopen => (.done (.ok ()), reopen s)

def answers (reopen : σ → σ) (s : σ) : List StoreCall → List StoreAnswer
  | [] => []
  | call :: calls => (call.on reopen s).1 :: answers reopen (call.on reopen s).2 calls

end StoreCall

/-! ## The map in a directory -/

/-- A directory holds what a store in memory holds: each key's file has its value, and no directory
stands where a value is to be written first. -/
structure Mirrors (s : FileStore) (m : MemoryStore) : Prop where
  value (key : String) (hkey : key ≠ "") : s.directory.entry? (placeOf s.own key) =
    (m.entries.get? key).map fun value => .file value.toUTF8
  staging (key : String) (hkey : key ≠ "") :
    s.directory.entry? (stagingOf s.own key) ≠ some .folder

namespace Mirrors

variable {s : FileStore} {m : MemoryStore} {key : String}

/-- A directory with nothing in it is the map with nothing in it. -/
theorem empty (own : String) (beside : Assoc Entry) :
    Mirrors { own, directory := { beside } } {} where
  value key hkey := by
    rw [placeOf_of_ne own hkey]
    rfl
  staging key hkey := by
    rw [stagingOf_of_ne own hkey]
    exact nofun

theorem ne_folder (h : Mirrors s m) (hkey : key ≠ "") :
    s.directory.entry? (placeOf s.own key) ≠ some .folder := by
  rw [h.value key hkey]
  cases m.entries.get? key <;> exact nofun

/-- Nothing stands in the way of a key that is not too long. -/
theorem not_blocked (h : Mirrors s m) (hkey : key ≠ "") (hsize : key.utf8ByteSize ≤ 125) :
    s.directory.blocked (placeOf s.own key) = false ∧
      s.directory.blocked (stagingOf s.own key) = false := by
  have hshort : tooLong (placeOf s.own key) = false :=
    (tooLong_placeOf s.own hkey).trans (decide_eq_false (by omega))
  have hshort' : tooLong (stagingOf s.own key) = false :=
    (tooLong_stagingOf s.own hkey).trans (decide_eq_false (by omega))
  have hplace : placeOf s.own key ≠ .nowhere := by simp [placeOf_of_ne s.own hkey]
  have hplace' : stagingOf s.own key ≠ .nowhere := by simp [stagingOf_of_ne s.own hkey]
  have hfree := h.ne_folder hkey
  have hfree' := h.staging key hkey
  constructor
  · rw [blocked, locked, hshort]
    grind
  · rw [blocked, locked, hshort']
    grind

/-! ### Operations -/

theorem get_eq (h : Mirrors s m) (hkey : key ≠ "") (hsize : key.utf8ByteSize ≤ 125) :
    KeyValueStore.get s key = .ok (m.entries.get? key) := by
  have hshort := tooLong_of_blocked (h.not_blocked hkey hsize).1
  rw [FileStore.get_eq, Directory.read, hshort, h.value key hkey]
  cases m.entries.get? key with
  | none => rfl
  | some value =>
      simp only [Option.map_some, FileStore.fromUTF8?_toUTF8]
      rfl

theorem set_eq (h : Mirrors s m) (hkey : key ≠ "") (hsize : key.utf8ByteSize ≤ 125)
    (value : String) :
    KeyValueStore.set s key value = (.ok (), { s with directory := s.replaced key value }) := by
  obtain ⟨hplace, hstaging⟩ := h.not_blocked hkey hsize
  rw [FileStore.set_eq, hplace, hstaging]
  rfl

theorem remove_eq (h : Mirrors s m) (hkey : key ≠ "") (hsize : key.utf8ByteSize ≤ 125) :
    KeyValueStore.remove s key =
      (.ok (), { s with directory := s.directory.erase (placeOf s.own key) }) := by
  rw [FileStore.remove_eq, locked_of_blocked (h.not_blocked hkey hsize).1]
  rfl

/-- A value that is written takes its place, and what was written first is gone. -/
theorem replaced (h : Mirrors s m) (hkey : key ≠ "") (value : String) :
    Mirrors { s with directory := s.replaced key value } ⟨m.entries.put key value⟩ := by
  have hplace : (placeOf s.own key).Holds := by simp [placeOf_of_ne s.own hkey, Place.Holds]
  have hstaging : (stagingOf s.own key).Holds := by simp [stagingOf_of_ne s.own hkey, Place.Holds]
  refine ⟨fun key' hkey' => ?_, fun key' hkey' => ?_⟩
  · show entry? (s.replaced key value) (placeOf s.own key') = _
    rw [FileStore.entry?_replaced hstaging hplace, if_neg (placeOf_ne_stagingOf (.inl hkey')),
      Assoc.get?_put, h.value key' hkey']
    by_cases hsame : key' = key
    · rw [if_pos hsame, if_pos (congrArg _ hsame)]
      rfl
    · rw [if_neg hsame, if_neg (mt placeOf_inj hsame)]
  · show entry? (s.replaced key value) (stagingOf s.own key') ≠ _
    rw [FileStore.entry?_replaced hstaging hplace, if_neg (placeOf_ne_stagingOf (.inl hkey)).symm]
    split
    · exact nofun
    · exact h.staging key' hkey'

theorem erased (h : Mirrors s m) (hkey : key ≠ "") :
    Mirrors { s with directory := s.directory.erase (placeOf s.own key) }
      ⟨m.entries.erase key⟩ := by
  have hplace : placeOf s.own key ≠ .itself := by simp [placeOf_of_ne s.own hkey]
  refine ⟨fun key' hkey' => ?_, fun key' hkey' => ?_⟩
  · show entry? (s.directory.erase (placeOf s.own key)) (placeOf s.own key') = _
    rw [entry?_erase hplace, Assoc.get?_erase, h.value key' hkey']
    by_cases hsame : key' = key
    · rw [if_pos hsame, if_pos (congrArg _ hsame)]
      rfl
    · rw [if_neg hsame, if_neg (mt placeOf_inj hsame)]
  · show entry? (s.directory.erase (placeOf s.own key)) (stagingOf s.own key') ≠ _
    rw [entry?_erase hplace, if_neg (placeOf_ne_stagingOf (.inl hkey)).symm]
    exact h.staging key' hkey'

/-! ### Runs -/

/-- A call with a key that is not too long is answered as in memory, and leaves the directory as the
map that is in memory then. -/
theorem on {call : StoreCall} (h : Mirrors s m)
    (hcall : ∀ key ∈ call.key?, 1 ≤ key.utf8ByteSize ∧ key.utf8ByteSize ≤ 125) :
    (call.on FileStore.reopen s).1 = (call.on id m).1 ∧
      Mirrors (call.on FileStore.reopen s).2 (call.on id m).2 := by
  have hkey : ∀ key ∈ call.key?, key ≠ "" ∧ key.utf8ByteSize ≤ 125 := by
    refine fun key hmem => ⟨?_, (hcall key hmem).2⟩
    rintro rfl
    exact absurd (hcall "" hmem).1 (by decide)
  cases call with
  | get key =>
      obtain ⟨hkey, hsize⟩ := hkey key rfl
      exact ⟨congrArg StoreAnswer.found (h.get_eq hkey hsize), h⟩
  | set key value =>
      obtain ⟨hkey, hsize⟩ := hkey key rfl
      rw [StoreCall.on, h.set_eq hkey hsize]
      exact ⟨rfl, h.replaced hkey value⟩
  | remove key =>
      obtain ⟨hkey, hsize⟩ := hkey key rfl
      rw [StoreCall.on, h.remove_eq hkey hsize]
      exact ⟨rfl, h.erased hkey⟩
  | reopen => exact ⟨rfl, h⟩

theorem answers_eq {calls : List StoreCall} (h : Mirrors s m)
    (hcalls : ∀ call ∈ calls, ∀ key ∈ call.key?, 1 ≤ key.utf8ByteSize ∧ key.utf8ByteSize ≤ 125) :
    StoreCall.answers FileStore.reopen s calls = StoreCall.answers id m calls := by
  induction calls generalizing s m with
  | nil => rfl
  | cons call calls ih =>
      obtain ⟨hanswer, hafter⟩ := h.on (hcalls call List.mem_cons_self)
      rw [StoreCall.answers, StoreCall.answers, hanswer]
      exact congrArg _ (ih hafter fun call hmem => hcalls call (List.mem_cons_of_mem _ hmem))

end Mirrors

/-! ## Writes that fail -/

/-- What is asked of a file system in which any step may fail. What is read at a path depends on what
is there; a write touches nothing but its own path, where it may leave anything if it fails; and a
rename that fails leaves everything as it was. The state of the file system may be more than the
directory, such as the room that is left. -/
structure Fallible {φ : Type} (own : String) (directory : φ → Directory) (fs : FileSystem φ) :
    Prop where
  read_congr {d d' : φ} {path : String} :
    entry? (directory d) (placeAt own path) = entry? (directory d') (placeAt own path) →
      fs.read d path = fs.read d' path
  write_ne {d d' : φ} {path : String} {bytes : ByteArray} {r : Except StoreError Unit} {p : Place} :
    fs.perform d (.write path bytes) = (r, d') → p ≠ placeAt own path →
      entry? (directory d') p = entry? (directory d) p
  rename_error {d d' : φ} {source target : String} {e : StoreError} (p : Place) :
    fs.perform d (.rename source target) = (.error e, d') →
      entry? (directory d') p = entry? (directory d) p

namespace Fallible

variable {φ : Type} {own : String} {directory : φ → Directory} {fs : FileSystem φ} {d d' : φ}
  {key value : String} {e : StoreError}

/-- What is written first is not in the place of a value. -/
theorem write_staging (h : Fallible own directory fs) {bytes : ByteArray}
    {r : Except StoreError Unit}
    (hwrite : fs.perform d (.write (stagingPath own key) bytes) = (r, d')) (key' : String) :
    entry? (directory d') (placeOf own key') = entry? (directory d) (placeOf own key') := by
  -- The two are the same for the empty key only, if at all, and no file is there then.
  by_cases hsame : placeOf own key' = stagingOf own key
  · refine entry?_of_not_holds (fun hholds => ?_) _ _
    rw [hsame] at hholds
    exact hholds.placeOf_ne key' hsame
  · rw [stagingOf_eq] at hsame
    exact h.write_ne hwrite hsame

/-- A value that is not kept changes nothing that can be read. -/
theorem read_of_set_error (h : Fallible own directory fs)
    (herror : fs.performAll d (setSteps own key value) = (.error e, d')) (key' : String) :
    fs.read d' (pathOf own key') = fs.read d (pathOf own key') := by
  refine h.read_congr ?_
  rw [← placeOf_eq]
  -- The write has failed, or the rename has behind a write that left its value.
  rcases FileSystem.performAll_cons_error herror with hwrite | ⟨staged, hwrite, herror⟩
  · exact h.write_staging hwrite key'
  · rcases FileSystem.performAll_cons_error herror with hrename | ⟨after, -, herror⟩
    · exact (h.rename_error _ hrename).trans (h.write_staging hwrite key')
    · cases herror

end Fallible

theorem fallible_fileSystem (own : String) : Fallible own id (fileSystem own) where
  read_congr h := read_congr h
  write_ne {d d' path bytes r p} h hne := by
    obtain rfl := (Prod.mk.inj h).2
    show entry? (outcome d (d.write (placeAt own path) bytes)).2 p = _
    rw [write_eq]
    cases hfree : d.blocked (placeAt own path) with
    | true => rfl
    | false => exact (entry?_put (holds_of_blocked hfree)).trans (if_neg hne)
  rename_error {d d' source target e} p h := by
    obtain ⟨hfails, rfl⟩ := Prod.mk.inj h
    cases hrename : d.rename (placeAt own source) (placeAt own target) with
    | error => rfl
    | ok => rw [hrename] at hfails; cases hfails

/-- A directory on a bad disk: of what is written to a file, no more than `room` bytes remain, and
perhaps nothing can be renamed. -/
def badDisk (own : String) (room : Nat) (renames : Bool) : FileSystem Directory where
  read := (fileSystem own).read
  perform d
    | .write path bytes =>
      let done := (fileSystem own).perform d (.write path (bytes.extract 0 room))
      (if room < bytes.size then .error .io else done.1, done.2)
    | .rename source target =>
      if renames then (fileSystem own).perform d (.rename source target) else (.error .io, d)
    | .delete path => (fileSystem own).perform d (.delete path)

theorem fallible_badDisk (own : String) (room : Nat) (renames : Bool) :
    Fallible own id (badDisk own room renames) where
  read_congr h := read_congr h
  write_ne h hne := (fallible_fileSystem own).write_ne (Prod.ext rfl (Prod.mk.inj h).2) hne
  rename_error p h := by
    cases renames with
    | true => exact (fallible_fileSystem own).rename_error p h
    | false =>
        obtain ⟨-, rfl⟩ := Prod.mk.inj h
        rfl

/-! ## The store -/

namespace FileStore

/-- A store in a directory is a map and fails as a whole. Its answers to any calls with keys of 1 to
125 bytes are those of a store in memory, wherever the directory lies and whatever lies beside it. And
in any file system in which steps may fail, if a value is not kept then every key is read as before,
however long the keys are and at whichever step it failed. -/
theorem map_and_atomic (own : String) :
    (∀ (beside : Assoc Entry) (calls : List StoreCall),
      (∀ call ∈ calls, ∀ key ∈ call.key?, 1 ≤ key.utf8ByteSize ∧ key.utf8ByteSize ≤ 125) →
        StoreCall.answers reopen { own, directory := { beside } } calls =
          StoreCall.answers id ({} : MemoryStore) calls) ∧
      ∀ (φ : Type) (directory : φ → Directory) (fs : FileSystem φ), Fallible own directory fs →
        ∀ (d : φ) (key value : String) (e : StoreError),
          (fs.performAll d (setSteps own key value)).1 = .error e → ∀ key',
            fs.read (fs.performAll d (setSteps own key value)).2 (pathOf own key') =
              fs.read d (pathOf own key') := by
  refine ⟨fun beside calls hcalls => (Mirrors.empty own beside).answers_eq hcalls, ?_⟩
  intro φ directory fs hfs d key value e herror
  exact hfs.read_of_set_error (Prod.ext herror rfl)

/-- A key of 125 bytes, a disk that is full in the middle of a value, and one on which the value
cannot take its place. -/
theorem map_and_atomic_bad :
    let longest := String.ofList (List.replicate 125 'k')
    let calls : List StoreCall :=
      [.set longest "v", .reopen, .get longest, .remove longest, .get longest]
    let d := (KeyValueStore.set ({} : FileStore) "k" "old").2.directory
    (∀ call ∈ calls, ∀ key ∈ call.key?, 1 ≤ key.utf8ByteSize ∧ key.utf8ByteSize ≤ 125) ∧
      StoreCall.answers reopen {} calls = StoreCall.answers id ({} : MemoryStore) calls ∧
        ∀ disk ∈ [badDisk "store" 2 true, badDisk "store" 100 false],
          (disk.performAll d (setSteps "store" "k" "new")).1 = .error .io ∧
            disk.read (disk.performAll d (setSteps "store" "k" "new")).2 (pathOf "store" "k") =
              .ok (some "old") := by
  intro longest calls d
  have hcalls : ∀ call ∈ calls, ∀ key ∈ call.key?,
      1 ≤ key.utf8ByteSize ∧ key.utf8ByteSize ≤ 125 := by
    decide +kernel
  refine ⟨hcalls, (map_and_atomic "store").1 [] calls hcalls, fun disk hdisk => ?_⟩
  have herror : (disk.performAll d (setSteps "store" "k" "new")).1 = .error .io := by
    revert disk
    decide +kernel
  have hold : disk.read d (pathOf "store" "k") = .ok (some "old") := by
    revert disk
    decide +kernel
  have hfallible : Fallible "store" id disk := by
    simp only [List.mem_cons, List.not_mem_nil, or_false] at hdisk
    rcases hdisk with rfl | rfl <;> exact fallible_badDisk "store" _ _
  have hread := (map_and_atomic "store").2 _ _ _ hfallible d "k" "new" .io herror "k"
  exact ⟨herror, hread.trans hold⟩

end FileStore

end ScriptSandbox
