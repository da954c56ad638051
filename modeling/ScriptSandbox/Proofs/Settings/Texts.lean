import ScriptSandbox.Proofs.Realm.Wire
import ScriptSandbox.Proofs.Settings.Overlay

/-!
# Texts of settings

A settings text gives any of the sections, and a section any of its fields, in any order and among
members with other names, whatever these hold. The settings that are read of it have what is given and
the defaults for everything else, and settings come back from the texts that they are written as
(`ofText_overlays`).
-/

namespace ScriptSandbox

open Json

/-- A natural number below `2^64` has one text. -/
def NaturalText (n : Nat) (text : List Char) : Prop :=
  n < Nat.pow 2 64 ∧ text = Decimal.digitChars n

/-! ## What is given -/

/-- What is given of a section; what is not given keeps its default. -/
structure InterpreterGiven where
  memoryLimit : Option Nat := none
  maxStackSize : Option Nat := none
  interruptBudget : Option Nat := none

/-- What is given of a section; what is not given keeps its default. -/
structure RealmGiven where
  responseTimeoutMs : Option Nat := none
  readyTimeoutMs : Option Nat := none
  memoryLimit : Option Nat := none
  maxStackSize : Option Nat := none

/-- What is given of a section; what is not given keeps its default. -/
structure ModuleGiven where
  cdnRoot : Option String := none
  fetchTimeoutMs : Option Nat := none
  maxModuleSize : Option Nat := none

/-- What is given of a section; what is not given keeps its default. -/
structure CacheGiven where
  capacity : Option Nat := none
  keyPrefix : Option String := none

/-- Which sections are given, and what of them. -/
structure SettingsGiven where
  interpreter : Option InterpreterGiven := none
  realm : Option RealmGiven := none
  modules : Option ModuleGiven := none
  cache : Option CacheGiven := none

/-- The section with the defaults for what is not given. -/
def InterpreterGiven.settings (g : InterpreterGiven) : InterpreterSettings where
  memoryLimit := g.memoryLimit.getD ({} : InterpreterSettings).memoryLimit
  maxStackSize := g.maxStackSize.getD ({} : InterpreterSettings).maxStackSize
  interruptBudget := g.interruptBudget.getD ({} : InterpreterSettings).interruptBudget

/-- The section with the defaults for what is not given. -/
def RealmGiven.settings (g : RealmGiven) : RealmSettings where
  responseTimeoutMs := g.responseTimeoutMs.getD ({} : RealmSettings).responseTimeoutMs
  readyTimeoutMs := g.readyTimeoutMs.getD ({} : RealmSettings).readyTimeoutMs
  memoryLimit := g.memoryLimit.getD ({} : RealmSettings).memoryLimit
  maxStackSize := g.maxStackSize.getD ({} : RealmSettings).maxStackSize

/-- The section with the defaults for what is not given. -/
def ModuleGiven.settings (g : ModuleGiven) : ModuleSettings where
  cdnRoot := g.cdnRoot.getD ({} : ModuleSettings).cdnRoot
  fetchTimeoutMs := g.fetchTimeoutMs.getD ({} : ModuleSettings).fetchTimeoutMs
  maxModuleSize := g.maxModuleSize.getD ({} : ModuleSettings).maxModuleSize

/-- The section with the defaults for what is not given. -/
def CacheGiven.settings (g : CacheGiven) : CacheSettings where
  capacity := g.capacity.getD ({} : CacheSettings).capacity
  keyPrefix := g.keyPrefix.getD ({} : CacheSettings).keyPrefix

def SettingsGiven.settings (g : SettingsGiven) : Settings where
  interpreter := (g.interpreter.getD {}).settings
  realm := (g.realm.getD {}).settings
  modules := (g.modules.getD {}).settings
  cache := (g.cache.getD {}).settings

/-! ## How it is given -/

/-- A text gives this of a section: each field under its name, and anything under other names. -/
def InterpreterGiven.In (g : InterpreterGiven) (text : List Char) : Prop :=
  ∃ ms, ObjectText ms text ∧
    GivenAs ms "memory_limit" NaturalText g.memoryLimit ∧
    GivenAs ms "max_stack_size" NaturalText g.maxStackSize ∧
    GivenAs ms "interrupt_budget" NaturalText g.interruptBudget ∧
    ∀ m ∈ ms, m.1 ∉ ["memory_limit", "max_stack_size", "interrupt_budget"] → JsonText m.2

/-- A text gives this of a section: each field under its name, and anything under other names. -/
def RealmGiven.In (g : RealmGiven) (text : List Char) : Prop :=
  ∃ ms, ObjectText ms text ∧
    GivenAs ms "response_timeout_ms" NaturalText g.responseTimeoutMs ∧
    GivenAs ms "ready_timeout_ms" NaturalText g.readyTimeoutMs ∧
    GivenAs ms "memory_limit" NaturalText g.memoryLimit ∧
    GivenAs ms "max_stack_size" NaturalText g.maxStackSize ∧
    ∀ m ∈ ms, m.1 ∉ ["response_timeout_ms", "ready_timeout_ms", "memory_limit", "max_stack_size"] →
      JsonText m.2

/-- A text gives this of a section: each field under its name, and anything under other names. -/
def ModuleGiven.In (g : ModuleGiven) (text : List Char) : Prop :=
  ∃ ms, ObjectText ms text ∧
    GivenAs ms "cdn_root" StringText g.cdnRoot ∧
    GivenAs ms "fetch_timeout_ms" NaturalText g.fetchTimeoutMs ∧
    GivenAs ms "max_module_size" NaturalText g.maxModuleSize ∧
    ∀ m ∈ ms, m.1 ∉ ["cdn_root", "fetch_timeout_ms", "max_module_size"] → JsonText m.2

/-- A text gives this of a section: each field under its name, and anything under other names. -/
def CacheGiven.In (g : CacheGiven) (text : List Char) : Prop :=
  ∃ ms, ObjectText ms text ∧
    GivenAs ms "capacity" NaturalText g.capacity ∧
    GivenAs ms "key_prefix" StringText g.keyPrefix ∧
    ∀ m ∈ ms, m.1 ∉ ["capacity", "key_prefix"] → JsonText m.2

/-- A text gives these sections: each under its name, and anything under other names. -/
def SettingsGiven.In (g : SettingsGiven) (text : List Char) : Prop :=
  ∃ ms, ObjectText ms text ∧
    GivenAs ms "interpreter" InterpreterGiven.In g.interpreter ∧
    GivenAs ms "realm" RealmGiven.In g.realm ∧
    GivenAs ms "modules" ModuleGiven.In g.modules ∧
    GivenAs ms "cache" CacheGiven.In g.cache ∧
    ∀ m ∈ ms, m.1 ∉ ["interpreter", "realm", "modules", "cache"] → JsonText m.2

/-! ## What is read -/

section Reading

variable {depth : Nat} {ms : List (String × List Char)} {name : String}

theorem GivenAs.natural {n? : Option Nat} (h : GivenAs ms name NaturalText n?) (kind : String) :
    GivenAs ms name (fun n text => Reads (Decoder.natural kind).read depth text n) n? :=
  h.imp fun _ _ htext => htext.2 ▸ natural_reads kind htext.1

theorem GivenAs.text {s? : Option String} (h : GivenAs ms name StringText s?) :
    GivenAs ms name (fun s text => Reads Decoder.text.read depth text s) s? :=
  h.imp fun _ _ => text_reads

namespace InterpreterGiven

/-- The fields of the section. -/
def slots (g : InterpreterGiven) : List (Slot InterpreterSettings) :=
  [⟨"memory_limit", .natural "usize", fun x s => { s with memoryLimit := x }, g.memoryLimit⟩,
    ⟨"max_stack_size", .natural "usize", fun x s => { s with maxStackSize := x }, g.maxStackSize⟩,
    ⟨"interrupt_budget", .natural "u64", fun x s => { s with interruptBudget := x },
      g.interruptBudget⟩]

theorem reads {g : InterpreterGiven} {text : List Char} (h : g.In text) (hdepth : 1 < depth) :
    Reads InterpreterSettings.decoder.read depth text g.settings := by
  obtain ⟨ms, htext, hlimit, hstack, hbudget, hother⟩ := h
  have hnames : (g.slots.map Slot.name).Nodup := by simp [slots]
  have happart : g.slots.Pairwise Slot.Apart := by simp [slots, Slot.Apart]
  have hgiven : ∀ p ∈ g.slots, p.Given (depth - 1) ms := by
    simp only [slots, List.forall_mem_cons]
    exact ⟨hlimit.natural _, hstack.natural _, hbudget.natural _, List.forall_mem_nil _⟩
  have hsettings : changed g.slots {} = g.settings := by
    rcases g with ⟨_ | _, _ | _, _ | _⟩ <;> rfl
  rw [← hsettings]
  exact overlay_reads htext hnames happart hgiven hother hdepth _ _

end InterpreterGiven

namespace RealmGiven

/-- The fields of the section. -/
def slots (g : RealmGiven) : List (Slot RealmSettings) :=
  [⟨"response_timeout_ms", .natural "u64", fun x s => { s with responseTimeoutMs := x },
      g.responseTimeoutMs⟩,
    ⟨"ready_timeout_ms", .natural "u64", fun x s => { s with readyTimeoutMs := x },
      g.readyTimeoutMs⟩,
    ⟨"memory_limit", .natural "usize", fun x s => { s with memoryLimit := x }, g.memoryLimit⟩,
    ⟨"max_stack_size", .natural "usize", fun x s => { s with maxStackSize := x }, g.maxStackSize⟩]

theorem reads {g : RealmGiven} {text : List Char} (h : g.In text) (hdepth : 1 < depth) :
    Reads RealmSettings.decoder.read depth text g.settings := by
  obtain ⟨ms, htext, hresponse, hready, hlimit, hstack, hother⟩ := h
  have hnames : (g.slots.map Slot.name).Nodup := by simp [slots]
  have happart : g.slots.Pairwise Slot.Apart := by simp [slots, Slot.Apart]
  have hgiven : ∀ p ∈ g.slots, p.Given (depth - 1) ms := by
    simp only [slots, List.forall_mem_cons]
    exact ⟨hresponse.natural _, hready.natural _, hlimit.natural _, hstack.natural _,
      List.forall_mem_nil _⟩
  have hsettings : changed g.slots {} = g.settings := by
    rcases g with ⟨_ | _, _ | _, _ | _, _ | _⟩ <;> rfl
  rw [← hsettings]
  exact overlay_reads htext hnames happart hgiven hother hdepth _ _

end RealmGiven

namespace ModuleGiven

/-- The fields of the section. -/
def slots (g : ModuleGiven) : List (Slot ModuleSettings) :=
  [⟨"cdn_root", .text, fun x s => { s with cdnRoot := x }, g.cdnRoot⟩,
    ⟨"fetch_timeout_ms", .natural "u64", fun x s => { s with fetchTimeoutMs := x },
      g.fetchTimeoutMs⟩,
    ⟨"max_module_size", .natural "u64", fun x s => { s with maxModuleSize := x }, g.maxModuleSize⟩]

theorem reads {g : ModuleGiven} {text : List Char} (h : g.In text) (hdepth : 1 < depth) :
    Reads ModuleSettings.decoder.read depth text g.settings := by
  obtain ⟨ms, htext, hroot, htimeout, hsize, hother⟩ := h
  have hnames : (g.slots.map Slot.name).Nodup := by simp [slots]
  have happart : g.slots.Pairwise Slot.Apart := by simp [slots, Slot.Apart]
  have hgiven : ∀ p ∈ g.slots, p.Given (depth - 1) ms := by
    simp only [slots, List.forall_mem_cons]
    exact ⟨hroot.text, htimeout.natural _, hsize.natural _, List.forall_mem_nil _⟩
  have hsettings : changed g.slots {} = g.settings := by
    rcases g with ⟨_ | _, _ | _, _ | _⟩ <;> rfl
  rw [← hsettings]
  exact overlay_reads htext hnames happart hgiven hother hdepth _ _

end ModuleGiven

namespace CacheGiven

/-- The fields of the section. -/
def slots (g : CacheGiven) : List (Slot CacheSettings) :=
  [⟨"capacity", .natural "usize", fun x s => { s with capacity := x }, g.capacity⟩,
    ⟨"key_prefix", .text, fun x s => { s with keyPrefix := x }, g.keyPrefix⟩]

theorem reads {g : CacheGiven} {text : List Char} (h : g.In text) (hdepth : 1 < depth) :
    Reads CacheSettings.decoder.read depth text g.settings := by
  obtain ⟨ms, htext, hcapacity, hprefix, hother⟩ := h
  have hnames : (g.slots.map Slot.name).Nodup := by simp [slots]
  have happart : g.slots.Pairwise Slot.Apart := by simp [slots, Slot.Apart]
  have hgiven : ∀ p ∈ g.slots, p.Given (depth - 1) ms := by
    simp only [slots, List.forall_mem_cons]
    exact ⟨hcapacity.natural _, hprefix.text, List.forall_mem_nil _⟩
  have hsettings : changed g.slots {} = g.settings := by
    rcases g with ⟨_ | _, _ | _⟩ <;> rfl
  rw [← hsettings]
  exact overlay_reads htext hnames happart hgiven hother hdepth _ _

end CacheGiven

namespace SettingsGiven

/-- The sections. -/
def slots (g : SettingsGiven) : List (Slot Settings) :=
  [⟨"interpreter", InterpreterSettings.decoder, fun x s => { s with interpreter := x },
      g.interpreter.map InterpreterGiven.settings⟩,
    ⟨"realm", RealmSettings.decoder, fun x s => { s with realm := x },
      g.realm.map RealmGiven.settings⟩,
    ⟨"modules", ModuleSettings.decoder, fun x s => { s with modules := x },
      g.modules.map ModuleGiven.settings⟩,
    ⟨"cache", CacheSettings.decoder, fun x s => { s with cache := x },
      g.cache.map CacheGiven.settings⟩]

theorem reads {g : SettingsGiven} {text : List Char} (h : g.In text) (hdepth : 2 < depth) :
    Reads Settings.decoder.read depth text g.settings := by
  obtain ⟨ms, htext, hinterpreter, hrealm, hmodules, hcache, hother⟩ := h
  have hsection : 1 < depth - 1 := by omega
  have hnames : (g.slots.map Slot.name).Nodup := by simp [slots]
  have happart : g.slots.Pairwise Slot.Apart := by simp [slots, Slot.Apart]
  have hgiven : ∀ p ∈ g.slots, p.Given (depth - 1) ms := by
    simp only [slots, List.forall_mem_cons]
    exact ⟨hinterpreter.map fun _ _ h => InterpreterGiven.reads h hsection,
      hrealm.map fun _ _ h => RealmGiven.reads h hsection,
      hmodules.map fun _ _ h => ModuleGiven.reads h hsection,
      hcache.map fun _ _ h => CacheGiven.reads h hsection, List.forall_mem_nil _⟩
  have hsettings : changed g.slots {} = g.settings := by
    rcases g with ⟨_ | _, _ | _, _ | _, _ | _⟩ <;> rfl
  rw [← hsettings]
  exact overlay_reads htext hnames happart hgiven hother (by omega) _ _

end SettingsGiven

end Reading

/-! ## Settings that are written -/

section Writing

variable (L : Layout) (indent : Nat)

theorem naturalText_chars {n : Nat} (hn : n < Nat.pow 2 64) :
    NaturalText n (L.chars indent (Value.number (.natural n)).written) :=
  ⟨hn, Numeral.magnitude_plain false n⟩

theorem stringText_chars (s : String) : StringText s (L.chars indent (Value.text s).written) :=
  stringText_quote s

/-- Where all members have one of the names, there is no other member. -/
theorem names_only {names : List String} {ms : List (String × List Char)}
    (h : ms.map Prod.fst ⊆ names) : ∀ m ∈ ms, m.1 ∉ names → JsonText m.2 :=
  fun _ hm hnot => absurd (h (List.mem_map_of_mem hm)) hnot

/-- All numbers of the section are below `2^64`. -/
def InterpreterSettings.Fits (s : InterpreterSettings) : Prop :=
  s.memoryLimit < Nat.pow 2 64 ∧ s.maxStackSize < Nat.pow 2 64 ∧ s.interruptBudget < Nat.pow 2 64

/-- All numbers of the section are below `2^64`. -/
def RealmSettings.Fits (s : RealmSettings) : Prop :=
  s.responseTimeoutMs < Nat.pow 2 64 ∧ s.readyTimeoutMs < Nat.pow 2 64 ∧
    s.memoryLimit < Nat.pow 2 64 ∧ s.maxStackSize < Nat.pow 2 64

/-- All numbers of the section are below `2^64`. -/
def ModuleSettings.Fits (s : ModuleSettings) : Prop :=
  s.fetchTimeoutMs < Nat.pow 2 64 ∧ s.maxModuleSize < Nat.pow 2 64

/-- All numbers of the section are below `2^64`. -/
def CacheSettings.Fits (s : CacheSettings) : Prop := s.capacity < Nat.pow 2 64

/-- All numbers are below `2^64`. -/
def Settings.Fits (s : Settings) : Prop :=
  s.interpreter.Fits ∧ s.realm.Fits ∧ s.modules.Fits ∧ s.cache.Fits

/-- Everything is given. -/
def InterpreterSettings.given (s : InterpreterSettings) : InterpreterGiven :=
  ⟨s.memoryLimit, s.maxStackSize, s.interruptBudget⟩

/-- Everything is given. -/
def RealmSettings.given (s : RealmSettings) : RealmGiven :=
  ⟨s.responseTimeoutMs, s.readyTimeoutMs, s.memoryLimit, s.maxStackSize⟩

/-- Everything is given. -/
def ModuleSettings.given (s : ModuleSettings) : ModuleGiven :=
  ⟨s.cdnRoot, s.fetchTimeoutMs, s.maxModuleSize⟩

/-- Everything is given. -/
def CacheSettings.given (s : CacheSettings) : CacheGiven := ⟨s.capacity, s.keyPrefix⟩

/-- Everything is given. -/
def Settings.given (s : Settings) : SettingsGiven :=
  ⟨s.interpreter.given, s.realm.given, s.modules.given, s.cache.given⟩

theorem InterpreterSettings.given_toJson {s : InterpreterSettings} (hs : s.Fits) :
    s.given.In (L.chars indent s.toJson.written) := by
  obtain ⟨hlimit, hstack, hbudget⟩ := hs
  have hnames : ["memory_limit", "max_stack_size", "interrupt_budget"].Nodup := by decide
  exact ⟨_, L.objectText indent _,
    .of_mem hnames (.head _) (naturalText_chars L _ hlimit),
    .of_mem hnames (.tail _ (.head _)) (naturalText_chars L _ hstack),
    .of_mem hnames (.tail _ (.tail _ (.head _))) (naturalText_chars L _ hbudget),
    names_only (List.Subset.refl _)⟩

theorem RealmSettings.given_toJson {s : RealmSettings} (hs : s.Fits) :
    s.given.In (L.chars indent s.toJson.written) := by
  obtain ⟨hresponse, hready, hlimit, hstack⟩ := hs
  have hnames :
      ["response_timeout_ms", "ready_timeout_ms", "memory_limit", "max_stack_size"].Nodup := by
    decide
  exact ⟨_, L.objectText indent _,
    .of_mem hnames (.head _) (naturalText_chars L _ hresponse),
    .of_mem hnames (.tail _ (.head _)) (naturalText_chars L _ hready),
    .of_mem hnames (.tail _ (.tail _ (.head _))) (naturalText_chars L _ hlimit),
    .of_mem hnames (.tail _ (.tail _ (.tail _ (.head _)))) (naturalText_chars L _ hstack),
    names_only (List.Subset.refl _)⟩

theorem ModuleSettings.given_toJson {s : ModuleSettings} (hs : s.Fits) :
    s.given.In (L.chars indent s.toJson.written) := by
  obtain ⟨htimeout, hsize⟩ := hs
  have hnames : ["cdn_root", "fetch_timeout_ms", "max_module_size"].Nodup := by decide
  exact ⟨_, L.objectText indent _,
    .of_mem hnames (.head _) (stringText_chars L _ s.cdnRoot),
    .of_mem hnames (.tail _ (.head _)) (naturalText_chars L _ htimeout),
    .of_mem hnames (.tail _ (.tail _ (.head _))) (naturalText_chars L _ hsize),
    names_only (List.Subset.refl _)⟩

theorem CacheSettings.given_toJson {s : CacheSettings} (hs : s.Fits) :
    s.given.In (L.chars indent s.toJson.written) := by
  have hnames : ["capacity", "key_prefix"].Nodup := by decide
  exact ⟨_, L.objectText indent _,
    .of_mem hnames (.head _) (naturalText_chars L _ hs),
    .of_mem hnames (.tail _ (.head _)) (stringText_chars L _ s.keyPrefix),
    names_only (List.Subset.refl _)⟩

theorem Settings.given_toJson {s : Settings} (hs : s.Fits) :
    s.given.In (L.chars indent s.toJson.written) := by
  obtain ⟨hinterpreter, hrealm, hmodules, hcache⟩ := hs
  have hnames : ["interpreter", "realm", "modules", "cache"].Nodup := by decide
  exact ⟨_, L.objectText indent _,
    .of_mem hnames (.head _) (InterpreterSettings.given_toJson L _ hinterpreter),
    .of_mem hnames (.tail _ (.head _)) (RealmSettings.given_toJson L _ hrealm),
    .of_mem hnames (.tail _ (.tail _ (.head _))) (ModuleSettings.given_toJson L _ hmodules),
    .of_mem hnames (.tail _ (.tail _ (.tail _ (.head _)))) (CacheSettings.given_toJson L _ hcache),
    names_only (List.Subset.refl _)⟩

end Writing

/-! ## Whole texts -/

/-- A whole text gives these sections, with blanks around the object. -/
def SettingsGiven.InText (g : SettingsGiven) (text : String) : Prop :=
  ∃ before inner after, Blank before ∧ Blank after ∧ g.In inner ∧
    text = String.ofList (before ++ (inner ++ after))

theorem Settings.ofText_given {g : SettingsGiven} {text : String} (h : g.InText text) :
    Settings.ofText text = .ok g.settings := by
  obtain ⟨before, inner, after, hbefore, hafter, hin, rfl⟩ := h
  rw [Settings.ofText, (SettingsGiven.reads hin (by decide)).run hbefore hafter]

/-- There are no real numbers in settings. -/
theorem Settings.whole_toJson (s : Settings) : s.toJson.Whole := by
  refine .object ?_
  simp only [List.forall_mem_cons]
  refine ⟨.object ?_, .object ?_, .object ?_, .object ?_, List.forall_mem_nil _⟩ <;>
    simp only [List.forall_mem_cons]
  · exact ⟨.natural _, .natural _, .natural _, List.forall_mem_nil _⟩
  · exact ⟨.natural _, .natural _, .natural _, .natural _, List.forall_mem_nil _⟩
  · exact ⟨.text _, .natural _, .natural _, List.forall_mem_nil _⟩
  · exact ⟨.natural _, .text _, List.forall_mem_nil _⟩

theorem Settings.ofText_texts {s : Settings} (hs : s.Fits) {text : String}
    (htext : text ∈ s.toJson.texts) : Settings.ofText text = .ok s := by
  obtain ⟨L, rfl⟩ := (Settings.whole_toJson s).mem_texts htext
  refine Settings.ofText_given (g := s.given) ⟨[], _, [], List.forall_mem_nil _, List.forall_mem_nil _,
    Settings.given_toJson L 0 hs, ?_⟩
  rw [Layout.text, List.append_nil, List.nil_append]

/-- Every text of an object that gives any fields of any sections, each at most once, in any order and
among any other members, is read as the settings that have what is given, and the defaults for the
rest. Settings come back from both of the texts that they are written as. -/
theorem Settings.ofText_overlays :
    (∀ (g : SettingsGiven) (text : String), g.InText text → Settings.ofText text = .ok g.settings) ∧
      ∀ s : Settings, s.Fits → ∀ text ∈ s.toJson.texts, Settings.ofText text = .ok s :=
  ⟨fun _ _ => Settings.ofText_given, fun _ hs _ => Settings.ofText_texts hs⟩

/-- One field of one section is given, behind a member that nobody asks for. -/
theorem Settings.ofText_realm_limit :
    (⟨none, some ⟨none, none, some 7, none⟩, none, none⟩ : SettingsGiven).InText
        "\x7b\"x\":[null],\"realm\":\x7b\"memory_limit\":7\x7d\x7d" ∧
      Settings.ofText "\x7b\"x\":[null],\"realm\":\x7b\"memory_limit\":7\x7d\x7d" =
        .ok { realm := { memoryLimit := 7 } } ∧
      Settings.Fits {} ∧ Settings.ofText ({} : Settings).toJson.compact = .ok {} := by
  obtain ⟨hgiven, hwritten⟩ := Settings.ofText_overlays
  have hrealm : (⟨none, none, some 7, none⟩ : RealmGiven).In
      (Layout.compact.chars 1 (.object [("memory_limit", .number (.plain false 7))])) :=
    ⟨_, Layout.compact.objectText 1 _, by simp [GivenAs], by simp [GivenAs],
      .of_mem (by simp) (.head _) (naturalText_chars _ 2 (by decide)), by simp [GivenAs],
      names_only (by simp)⟩
  have hin : (⟨none, some ⟨none, none, some 7, none⟩, none, none⟩ : SettingsGiven).InText
      "\x7b\"x\":[null],\"realm\":\x7b\"memory_limit\":7\x7d\x7d" := by
    refine ⟨[], _, [], List.forall_mem_nil _, List.forall_mem_nil _,
      ⟨_, Layout.compact.objectText 0 [("x", .list [.null]),
        ("realm", .object [("memory_limit", .number (.plain false 7))])], by simp [GivenAs],
        .of_mem (by simp) (.tail _ (.head _)) hrealm, by simp [GivenAs], by simp [GivenAs], ?_⟩, ?_⟩
    · intro m hm hnot
      rcases List.mem_cons.mp hm with rfl | hm
      · exact Layout.compact.jsonText 1 (.list [.null])
      · exact names_only (by simp) m hm hnot
    · decide
  have hfits : Settings.Fits {} := by
    refine ⟨⟨?_, ?_, ?_⟩, ⟨?_, ?_, ?_, ?_⟩, ⟨?_, ?_⟩, show 100 < Nat.pow 2 64 from ?_⟩ <;> decide
  exact ⟨hin, hgiven _ _ hin, hfits, hwritten _ hfits _ (.head _)⟩

end ScriptSandbox
