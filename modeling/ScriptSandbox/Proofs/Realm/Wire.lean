import ScriptSandbox.Modules.ImportMap
import ScriptSandbox.Proofs.Json.Steady
import ScriptSandbox.Realm.Message

/-!
# What goes over the wire

Host and realm exchange messages, log entries and outcomes as JSON, and an import map is a JSON document,
too. Each of these is a `WireFormat`: what is written comes back as it was, from the text without blanks
as well as from the indented one, and whatever object is read, it does not matter in which order its
members stand (`wire_formats`).

That the order does not matter is shown of decoders in general (`Decoder.Steady`); here it is left to
see that no field of a record has its value put in the place of another, and that what is written is
what the fields take.
-/

namespace ScriptSandbox

open Json (Decoder Layout Written)
open Json.Decoder

/-! ## Formats -/

/-- A format in which values are written as JSON and read again. -/
structure WireFormat {α : Type} (d : Decoder α) (write : α → Json.Value) (Fits : α → Prop) : Prop where
  /-- A value that fits the format comes back from either of its texts. -/
  round_trip : ∀ a, Fits a → ∀ s ∈ (write a).texts, d.run s = .ok a
  /-- An object is taken or refused, and taken for the same, in whatever order its members stand and
  wherever there are blanks. -/
  any_order : ∀ (L L' : Layout) (ms ns : List (String × Written)), ms.Perm ns →
    (d.run (L.text (.object ms))).toOption = (d.run (L'.text (.object ns))).toOption
  /-- So is a document, in whatever order the members of the objects in it stand. -/
  any_depth : ∀ (L L' : Layout) (v w : Written), Json.Reordered v w →
    (d.run (L.text v)).toOption = (d.run (L'.text w)).toOption

theorem WireFormat.of_alone {α : Type} {d : Decoder α} {write : α → Json.Value} {Fits : α → Prop}
    (hlocal : d.Local) (horderless : Json.Orderless Eq (d.alone 128))
    (hunordered : Json.Unordered Eq (d.alone 128)) (hwhole : ∀ a, (write a).Whole)
    (hwrite : ∀ a, Fits a → d.alone 128 (write a).written = some a) : WireFormat d write Fits where
  round_trip a ha _ hs := hlocal.run_eq (hwhole a) (hwrite a ha) hs
  any_order L L' ms ns h := by
    rw [hlocal.run_text, hlocal.run_text]
    exact Json.eq_of_rel (hunordered ms ns h)
  any_depth L L' v w h := by
    rw [hlocal.run_text, hlocal.run_text]
    exact Json.eq_of_rel (horderless v w h)

theorem samePut_of_eq {α σ : Type} (place : α → σ → σ) (a b : α) (h : a = b) :
    SamePut Eq (place a) (place b) := by
  rintro s s' rfl
  rw [h]

/-! ## Log entries -/

namespace LogEntry

theorem apart_fields : Apart Eq fields := by
  refine .of_pairwise ?_ ?_
  · simp only [fields, List.forall_mem_cons]
    exact ⟨Field.given_of fun _ _ => rfl, Field.given_of fun _ _ => rfl,
      Field.given_of fun _ _ => rfl, List.forall_mem_nil _⟩
  · simp only [fields, List.pairwise_cons, List.forall_mem_cons]
    exact ⟨⟨Field.foreign_of (fun _ _ => rfl) (fun _ _ => rfl) fun _ _ _ => rfl,
        Field.foreign_of (fun _ _ => rfl) (fun _ _ => rfl) fun _ _ _ => rfl, List.forall_mem_nil _⟩,
      ⟨Field.foreign_of (fun _ _ => rfl) (fun _ _ => rfl) fun _ _ _ => rfl, List.forall_mem_nil _⟩,
      List.forall_mem_nil _, .nil⟩

theorem steady_fields : ∀ f ∈ fields, f.value.Steady (SamePut Eq) := by
  simp only [fields, List.forall_mem_cons]
  exact ⟨Steady.field (.oneOfNames _) _ (samePut_of_eq _) ..,
    Steady.field .text _ (samePut_of_eq _) .., Steady.field (.natural _) _ (samePut_of_eq _) ..,
    List.forall_mem_nil _⟩

theorem steady_decoder : decoder.Steady Eq :=
  .record apart_fields steady_fields _ _ fun _ _ h => congrArg ofDraft h

/-- The time of an entry is a number of 64 bits. -/
def Fits (e : LogEntry) : Prop := e.timestamp < Nat.pow 2 64

variable {e : LogEntry}

theorem whole_toJson (e : LogEntry) : e.toJson.Whole := by
  refine .object ?_
  simp only [List.forall_mem_cons]
  exact ⟨.text _, .text _, .natural _, List.forall_mem_nil _⟩

theorem alone_level (depth : Nat) (l : LogLevel) :
    LogLevel.decoder.alone depth l.toJson.written = some l := by
  rw [LogLevel.decoder, LogLevel.toJson, Json.Value.written, names_alone]
  cases l <;> rfl

theorem alone_toJson (he : e.Fits) {depth : Nat} (hdepth : 1 < depth) :
    decoder.alone depth e.toJson.written = some e := by
  rw [decoder, record_alone (fun f hf => (steady_fields f hf).isLocal) _ _ _ _ hdepth]
  simp [toJson, Json.Value.written, draftOf, memberStep, fieldNamed?, fields,
    Field.of, alone_map, alone_level, text_alone, natural_alone "u64" _ he, complete, missing?,
    ofDraft]

/-- An entry comes back from what is kept of it. -/
theorem kept_toJson (he : e.Fits) (depth : Nat) :
    ∃ v, Json.anyOf (depth + 2) e.toJson.written = some v ∧ decoder.ofValue v.value = .ok e := by
  refine ⟨.object [("type", .text e.level.name), ("content", .text e.content),
    ("timestamp", .number (.natural e.timestamp))], ?_, ?_⟩
  · simp [toJson, LogLevel.toJson, Json.Value.written, Json.anyOf, Json.entriesOf, Json.within,
      Json.number?_plain he]
  · rcases e with ⟨_ | _ | _ | _, content, timestamp⟩ <;> rfl

theorem kept_list {es : List LogEntry} (hes : ∀ e ∈ es, e.Fits) (depth : Nat) :
    ∃ vs, (es.mapM fun e => Json.anyOf (depth + 2) e.toJson.written) = some vs ∧
      decoder.list.ofValue (.list (vs.map Json.Document.value)) = .ok es := by
  induction es with
  | nil => exact ⟨[], rfl, rfl⟩
  | cons e es ih =>
      rw [List.forall_mem_cons] at hes
      obtain ⟨vs, hvs, hlist⟩ := ih hes.2
      obtain ⟨v, hv, he⟩ := kept_toJson hes.1 depth
      refine ⟨v :: vs, by simp [hv, hvs], ?_⟩
      simp only [Decoder.list] at hlist ⊢
      rw [List.map_cons, List.mapM_cons, he, hlist]
      rfl

theorem wireFormat : WireFormat decoder toJson Fits :=
  .of_alone steady_decoder.isLocal (steady_decoder.alone 128)
    (record_unordered apart_fields steady_fields _ _ (fun _ _ h => congrArg ofDraft h) 128)
    whole_toJson fun _ h => alone_toJson h (by decide)

end LogEntry

/-! ## Outcomes -/

namespace Outcome

theorem apart_fields : Apart Eq fields := by
  refine .of_pairwise ?_ ?_
  · simp only [fields, List.forall_mem_cons]
    exact ⟨Field.given_of fun _ _ => rfl, Field.given_of fun _ _ => rfl,
      Field.given_of fun _ _ => rfl, List.forall_mem_nil _⟩
  · simp only [fields, List.pairwise_cons, List.forall_mem_cons]
    exact ⟨⟨Field.foreign_of (fun _ _ => rfl) (fun _ _ => rfl) fun _ _ _ => rfl,
        Field.foreign_of (fun _ _ => rfl) (fun _ _ => rfl) fun _ _ _ => rfl, List.forall_mem_nil _⟩,
      ⟨Field.foreign_of (fun _ _ => rfl) (fun _ _ => rfl) fun _ _ _ => rfl, List.forall_mem_nil _⟩,
      List.forall_mem_nil _, .nil⟩

theorem steady_fields : ∀ f ∈ fields, f.value.Steady (SamePut Eq) := by
  simp only [fields, List.forall_mem_cons]
  exact ⟨Steady.field (.list LogEntry.steady_decoder) _ (samePut_of_eq _) ..,
    Steady.field (.option .text) _ (samePut_of_eq _) ..,
    Steady.field (.option .text) _ (samePut_of_eq _) .., List.forall_mem_nil _⟩

theorem steady_decoder : decoder.Steady Eq :=
  .record apart_fields steady_fields _ _ fun _ _ h => congrArg ofDraft h

/-- The times of all entries are numbers of 64 bits. -/
def Fits (o : Outcome) : Prop := ∀ e ∈ o.logs, e.Fits

variable {o : Outcome}

theorem whole_toJson (o : Outcome) : o.toJson.Whole := by
  refine .object fun m hm => ?_
  simp only [List.mem_append, List.mem_singleton, Option.mem_toList, Option.map_eq_some_iff] at hm
  rcases hm with (rfl | ⟨s, -, rfl⟩) | ⟨s, -, rfl⟩
  · exact .list (List.forall_mem_map.mpr fun e _ => e.whole_toJson)
  · exact .text s
  · exact .text s

theorem alone_toJson (ho : o.Fits) {depth : Nat} (hdepth : 3 < depth) :
    decoder.alone depth o.toJson.written = some o := by
  have hlogs : (LogEntry.decoder.list).alone (depth - 1)
      (.list (o.logs.map fun e => e.toJson.written)) = some o.logs :=
    list_alone _ LogEntry.steady_decoder.isLocal
      (fun e he => e.alone_toJson (ho e he) (by omega)) (by omega)
  rw [decoder, record_alone (fun f hf => (steady_fields f hf).isLocal) _ _ _ _ (by omega)]
  rcases o with ⟨logs, _ | value, _ | error⟩ <;>
    simp [toJson, Json.Value.written, Function.comp_def, draftOf, memberStep,
      fieldNamed?, fields, Field.of, alone_map, hlogs, option_alone_text, complete, missing?, ofDraft]

/-- An outcome comes back from what is kept of it. -/
theorem kept_toJson (ho : o.Fits) (depth : Nat) :
    ∃ v, Json.anyOf (depth + 4) o.toJson.written = some v ∧
      (decoder.ofValue v.value).toOption = some o := by
  obtain ⟨vs, hvs, hlogs⟩ := LogEntry.kept_list ho depth
  refine ⟨.object ([("logs", .list vs)] ++ (o.returnValue.map fun s => ("returnValue", .text s)).toList
    ++ (o.error.map fun s => ("error", .text s)).toList), ?_, ?_⟩
  · rcases o with ⟨logs, _ | value, _ | error⟩ <;>
      simp [toJson, Json.Value.written, Function.comp_def, Json.anyOf, Json.entriesOf, Json.within, hvs]
  · refine (toOption_variantRecord "struct ExecutionResult" {} ofDraft _).trans ?_
    have hlist : (LogEntry.decoder.list.ofValue (Json.Document.list vs).value).toOption =
        some o.logs := by rw [Json.Document.value_list, hlogs]; rfl
    have htext (s : String) : (text.option.ofValue (Json.Document.text s).value).toOption =
        some (some s) := rfl
    rcases o with ⟨logs, _ | value, _ | error⟩ <;>
      simp [draftOf, memberStep, fieldNamed?, fields, Field.of, keptOf, toOption_ofValue_map, hlist,
        htext, complete, missing?, ofDraft]

theorem wireFormat : WireFormat decoder toJson Fits :=
  .of_alone steady_decoder.isLocal (steady_decoder.alone 128)
    (record_unordered apart_fields steady_fields _ _ (fun _ _ h => congrArg ofDraft h) 128)
    whole_toJson fun _ h => alone_toJson h (by decide)

end Outcome

/-! ## Messages -/

/-- A record with one field is as indifferent to order as the field. -/
theorem apart_singleton {α : Type} (name : String) (required : Bool) (d : Decoder α) :
    Apart Eq [Field.of name required d id fun x (_ : Option α) => some x] :=
  .singleton eq_equivalence (fun _ _ h => by rw [h]) (Field.given_of fun _ _ => rfl)

namespace HostMessage

def codeVariant : Variant HostMessage :=
  .record "struct variant HostMessage::ExecuteCode" [.of "code" true .text id fun x _ => some x] none
    fun d => .executeCode (d.getD "")

def variants : List (String × Variant HostMessage) :=
  [("execute-code", codeVariant), ("shutdown", .bare .shutdown)]

theorem decoder_eq : decoder = .tagged "HostMessage" "type" variants := rfl

theorem steady_variants : ∀ e ∈ variants, e.2.Steady := by
  simp only [variants, List.forall_mem_cons]
  have hfield := Steady.field .text _ (samePut_of_eq fun x (_ : Option String) => some x) "code" true id
  exact ⟨Variant.steady_record (apart_singleton ..) (List.forall_mem_singleton.mpr hfield) _ _
    fun _ _ h => by rw [h], Variant.steady_bare _, List.forall_mem_nil _⟩

theorem whole_toJson (m : HostMessage) : m.toJson.Whole := by
  cases m with
  | executeCode code =>
      refine .object ?_
      simp only [List.forall_mem_cons]
      exact ⟨.text _, .text _, List.forall_mem_nil _⟩
  | shutdown => exact .object (List.forall_mem_singleton.mpr (.text _))

theorem alone_toJson (m : HostMessage) {depth : Nat} (hdepth : 1 < depth) :
    decoder.alone depth m.toJson.written = some m := by
  obtain ⟨depth, rfl⟩ : ∃ n, depth = n + 2 := ⟨depth - 2, by omega⟩
  rw [decoder_eq, tagged_alone _ _ hdepth]
  cases m with
  | executeCode code =>
      have hname : pick variants "execute-code" = .ok codeVariant := rfl
      have hothers : ∀ m ∈ [("code", (.text code : Written))], m.1 ≠ "type" :=
        List.forall_mem_singleton.mpr (show "code" ≠ "type" by decide)
      have hcode : (text.ofValue (Json.Document.text code).value).toOption = some code := rfl
      refine (taggedOf_tag hname (depth + 1) hothers).trans ?_
      have hentries : Json.entriesOf (Json.anyOf (depth + 1)) [("code", .text code)] =
          some [("code", .text code)] := rfl
      rw [hentries, Option.bind_some, codeVariant]
      exact toOption_onlyField _ _ hcode
  | shutdown =>
      have hname : pick variants "shutdown" = .ok (.bare .shutdown) := rfl
      exact taggedOf_tag hname (depth + 1) (List.forall_mem_nil _)

theorem wireFormat : WireFormat decoder toJson fun _ => True :=
  .of_alone (tagged_local _) (tagged_orderless steady_variants _ 128)
    (tagged_unordered steady_variants _ 128) whole_toJson fun m _ => m.alone_toJson (by decide)

end HostMessage

namespace RealmMessage

def resultVariant : Variant RealmMessage :=
  .record "struct variant RealmMessage::ExecutionResult"
    [.of "result" true Outcome.decoder id fun x _ => some x] none fun d => .executionResult (d.getD {})

def variants : List (String × Variant RealmMessage) :=
  [("execution-result", resultVariant), ("iframe-ready", .bare .ready)]

theorem decoder_eq : decoder = .tagged "RealmMessage" "type" variants := rfl

theorem steady_variants : ∀ e ∈ variants, e.2.Steady := by
  simp only [variants, List.forall_mem_cons]
  have hfield := Steady.field Outcome.steady_decoder _
    (samePut_of_eq fun x (_ : Option Outcome) => some x) "result" true id
  exact ⟨Variant.steady_record (apart_singleton ..) (List.forall_mem_singleton.mpr hfield) _ _
    fun _ _ h => by rw [h], Variant.steady_bare _, List.forall_mem_nil _⟩

/-- The times in a message are numbers of 64 bits. -/
def Fits : RealmMessage → Prop
  | .executionResult o => o.Fits
  | .ready => True

theorem whole_toJson (m : RealmMessage) : m.toJson.Whole := by
  cases m with
  | executionResult o =>
      refine .object ?_
      simp only [List.forall_mem_cons]
      exact ⟨.text _, o.whole_toJson, List.forall_mem_nil _⟩
  | ready => exact .object (List.forall_mem_singleton.mpr (.text _))

theorem alone_toJson {m : RealmMessage} (hm : m.Fits) {depth : Nat} (hdepth : 4 < depth) :
    decoder.alone depth m.toJson.written = some m := by
  obtain ⟨depth, rfl⟩ : ∃ n, depth = n + 5 := ⟨depth - 5, by omega⟩
  rw [decoder_eq, tagged_alone _ _ (by omega)]
  cases m with
  | executionResult o =>
      have hname : pick variants "execution-result" = .ok resultVariant := rfl
      have hothers : ∀ m ∈ [("result", o.toJson.written)], m.1 ≠ "type" :=
        List.forall_mem_singleton.mpr (show "result" ≠ "type" by decide)
      refine (taggedOf_tag hname (depth + 4) hothers).trans ?_
      obtain ⟨v, hv, hvalue⟩ := Outcome.kept_toJson hm depth
      have hentries : Json.entriesOf (Json.anyOf (depth + 4)) [("result", o.toJson.written)] =
          some [("result", v)] := by simp [Json.entriesOf, hv]
      rw [hentries]
      exact toOption_onlyField _ _ hvalue
  | ready =>
      have hname : pick variants "iframe-ready" = .ok (.bare .ready) := rfl
      exact taggedOf_tag hname (depth + 4) (List.forall_mem_nil _)

theorem wireFormat : WireFormat decoder toJson Fits :=
  .of_alone (tagged_local _) (tagged_orderless steady_variants _ 128)
    (tagged_unordered steady_variants _ 128) whole_toJson fun _ hm => alone_toJson hm (by decide)

end RealmMessage

/-! ## Import maps -/

namespace ImportMap

/-- Drafts of an import map are the same if they make the same map. -/
def SameMap (d d' : Option (List (String × String))) : Prop :=
  d.map Assoc.ofPairs = d'.map Assoc.ofPairs

theorem apart_fields : Apart SameMap [Field.of "imports" true text.members id
    fun pairs (_ : Option (List (String × String))) => some pairs] := by
  refine .singleton ⟨fun _ => rfl, Eq.symm, Eq.trans⟩ (fun d d' h => ?_) (Field.given_of fun _ _ => rfl)
  have hsome := congrArg Option.isSome h
  rwa [Option.isSome_map, Option.isSome_map] at hsome

theorem steady_fields : ∀ f ∈ [Field.of "imports" true text.members id
    fun pairs (_ : Option (List (String × String))) => some pairs],
    f.value.Steady (SamePut SameMap) := by
  have hplace (ps qs : List (String × String)) (h : Assoc.ofPairs ps = Assoc.ofPairs qs) :
      SamePut SameMap (fun _ => some ps) fun _ => some qs := fun _ _ _ => congrArg some h
  exact List.forall_mem_singleton.mpr
    (Steady.field (.members .text) (fun pairs _ => some pairs) hplace "imports" true id)

theorem ofDraft_eq {d d' : Option (List (String × String))} (h : SameMap d d') :
    (⟨.ofPairs (d.getD [])⟩ : ImportMap) = ⟨.ofPairs (d'.getD [])⟩ := by
  have hmap (d : Option (List (String × String))) :
      Assoc.ofPairs (d.getD []) = (d.map Assoc.ofPairs).getD [] := by
    cases d <;> rfl
  rw [hmap d, hmap d', h]

theorem whole_toJson (m : ImportMap) : m.toJson.Whole :=
  .object (List.forall_mem_singleton.mpr
    (.object (List.forall_mem_map.mpr fun e _ => .text e.2)))

theorem alone_toJson {m : ImportMap} (hm : m.imports.Sorted) {depth : Nat} (hdepth : 2 < depth) :
    decoder.alone depth m.toJson.written = some m := by
  have hmembers : text.members.alone (depth - 1)
      (.object (m.imports.map fun e => (e.1, .text e.2))) = some m.imports :=
    members_alone .text text_local (fun e _ => text_alone _ e.2) (by omega)
  rw [decoder, record_alone (fun f hf => (steady_fields f hf).isLocal) _ _ _ _ (by omega)]
  simp [toJson, Json.Value.written, Function.comp_def, draftOf, memberStep, fieldNamed?, Field.of,
    alone_map, hmembers, complete, missing?, Assoc.ofPairs_of_sorted hm]

theorem wireFormat : WireFormat decoder toJson fun m => m.imports.Sorted := by
  have hsteady : decoder.Steady Eq := .record apart_fields steady_fields _ _ fun _ _ => ofDraft_eq
  exact .of_alone hsteady.isLocal (hsteady.alone 128)
    (record_unordered apart_fields steady_fields _ _ (fun _ _ => ofDraft_eq) 128) whole_toJson
    fun _ hm => alone_toJson hm (by decide)

end ImportMap

/-- What host and realm exchange goes over the wire unharmed: every message, log entry and outcome
whose times are numbers of 64 bits, and every import map. -/
theorem wire_formats :
    WireFormat HostMessage.decoder HostMessage.toJson (fun _ => True) ∧
      WireFormat RealmMessage.decoder RealmMessage.toJson RealmMessage.Fits ∧
      WireFormat LogEntry.decoder LogEntry.toJson LogEntry.Fits ∧
      WireFormat Outcome.decoder Outcome.toJson Outcome.Fits ∧
      WireFormat ImportMap.decoder ImportMap.toJson fun m => m.imports.Sorted :=
  ⟨HostMessage.wireFormat, RealmMessage.wireFormat, LogEntry.wireFormat, Outcome.wireFormat,
    ImportMap.wireFormat⟩

end ScriptSandbox
