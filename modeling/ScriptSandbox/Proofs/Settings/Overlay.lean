import Mathlib.Data.List.Nodup
import ScriptSandbox.Proofs.Json.Objects
import ScriptSandbox.Settings

/-!
# Sections that overlay their defaults

A section is read of the members of an object. Each of its fields is given by one member or by none,
and members with other names are passed over. As the fields do not touch each other, the section is its
default with what is given put into it, in whatever order the members stand (`overlay_reads`).
-/

namespace ScriptSandbox

open Json

variable {α β : Type}

/-! ## What members give -/

/-- Under a name, the members of an object give what a text `means`, once; or nothing. -/
def GivenAs (ms : List (String × List Char)) (name : String) (means : α → List Char → Prop) :
    Option α → Prop
  | none => ∀ m ∈ ms, m.1 ≠ name
  | some a => ∃ before text after, ms = before ++ (name, text) :: after ∧ means a text ∧
      ∀ m ∈ before ++ after, m.1 ≠ name

namespace GivenAs

variable {ms : List (String × List Char)} {name k : String} {text : List Char}
  {means : α → List Char → Prop} {a? : Option α}

theorem map {means' : β → List Char → Prop} {f : α → β} (h : GivenAs ms name means a?)
    (hmeans : ∀ a text, means a text → means' (f a) text) : GivenAs ms name means' (a?.map f) := by
  cases a? with
  | none => exact h
  | some a =>
      obtain ⟨before, text, after, hms, ha, hother⟩ := h
      exact ⟨before, text, after, hms, hmeans a text ha, hother⟩

theorem imp {means' : α → List Char → Prop} (h : GivenAs ms name means a?)
    (hmeans : ∀ a text, means a text → means' a text) : GivenAs ms name means' a? := by
  have hmap := h.map (f := id) hmeans
  rwa [Option.map_id] at hmap

theorem of_mem {a : α} (hnames : (ms.map Prod.fst).Nodup) (hmem : (name, text) ∈ ms)
    (ha : means a text) : GivenAs ms name means (some a) := by
  obtain ⟨before, after, rfl⟩ := List.append_of_mem hmem
  rw [List.map_append, List.map_cons, List.nodup_middle, ← List.map_append] at hnames
  refine ⟨before, text, after, rfl, ha, fun m hm hname => (List.nodup_cons.mp hnames).1 ?_⟩
  exact List.mem_map.mpr ⟨m, hm, hname⟩

/-- A member gives what its text says, and no member behind it gives anything under its name. -/
theorem head (h : GivenAs ((name, text) :: ms) name means a?) :
    (∃ a, a? = some a ∧ means a text) ∧ ∀ m ∈ ms, m.1 ≠ name := by
  cases a? with
  | none => exact absurd rfl (h _ (List.mem_cons_self ..))
  | some a =>
      obtain ⟨_ | ⟨first, before⟩, text', after, hms, ha, hother⟩ := h
      · obtain ⟨hfirst, rfl⟩ := List.cons.inj hms
        obtain ⟨-, rfl⟩ := Prod.mk.inj hfirst
        exact ⟨⟨a, rfl, ha⟩, hother⟩
      · obtain ⟨rfl, -⟩ := List.cons.inj hms
        exact absurd rfl (hother _ (List.mem_cons_self ..))

/-- A member gives nothing under the names that it does not have. -/
theorem tail (h : GivenAs ((k, text) :: ms) name means a?) (hk : k ≠ name) :
    GivenAs ms name means a? := by
  cases a? with
  | none => exact fun m hm => h m (List.mem_cons_of_mem _ hm)
  | some a =>
      obtain ⟨_ | ⟨first, before⟩, text', after, hms, ha, hother⟩ := h
      · obtain ⟨hfirst, -⟩ := List.cons.inj hms
        exact absurd (Prod.mk.inj hfirst).1 hk
      · obtain ⟨rfl, rfl⟩ := List.cons.inj hms
        exact ⟨before, text', after, rfl, ha, fun m hm => hother m (List.mem_cons_of_mem _ hm)⟩

end GivenAs

/-! ## Fields and what is given for them -/

/-- A field of a section, with the value that is given for it. -/
structure Slot (α : Type) where
  {β : Type}
  name : String
  decoder : Decoder β
  put : β → α → α
  value : Option β

namespace Slot

variable (p : Slot α)

def field : Decoder.Field (Overlay α) := overlayField p.name p.decoder p.put

/-- The section with the value put into it, if one is given. -/
def change (s : α) : α :=
  match p.value with
  | none => s
  | some b => p.put b s

/-- The field with nothing given for it. -/
def cleared : Slot α := { p with value := none }

/-- The value is given by one of these members, or there is none. -/
def Given (depth : Nat) (ms : List (String × List Char)) : Prop :=
  GivenAs ms p.name (fun b text => Reads p.decoder.read depth text b) p.value

/-- Two fields do not touch each other. -/
def Apart (p q : Slot α) : Prop := ∀ b c s, p.put b (q.put c s) = q.put c (p.put b s)

end Slot

/-- A section with all that is given put into it. -/
def changed (slots : List (Slot α)) (s : α) : α := slots.foldl (fun s p => p.change s) s

section Overlays

variable {depth : Nat} {slots before after : List (Slot α)} {p : Slot α}

theorem changed_put (happart : ∀ q ∈ before, q.Apart p) (b : p.β) (s : α) :
    changed before (p.put b s) = p.put b (changed before s) := by
  induction before generalizing s with
  | nil => rfl
  | cons q before ih =>
      have hchange : q.change (p.put b s) = p.put b (q.change s) := by
        rw [Slot.change, Slot.change]
        cases q.value with
        | none => rfl
        | some c => exact happart q (List.mem_cons_self ..) c b s
      have hrest := ih (fun q hq => happart q (List.mem_cons_of_mem _ hq)) (q.change s)
      rw [← hchange] at hrest
      exact hrest

/-- What is given for a field may be put first. -/
theorem changed_cleared (happart : ∀ q ∈ before, q.Apart p) {b : p.β} (hb : p.value = some b) (s : α) :
    changed (before ++ p.cleared :: after) (p.put b s) = changed (before ++ p :: after) s := by
  have hchange : p.change (changed before s) = p.put b (changed before s) := by
    rw [Slot.change, hb]
  simp only [changed, List.foldl_append, List.foldl_cons] at hchange ⊢
  rw [hchange]
  exact congrArg (changed after) (changed_put happart b s)

theorem map_field_cleared : (before ++ p.cleared :: after).map Slot.field =
    (before ++ p :: after).map Slot.field := by
  rw [List.map_append, List.map_append]
  rfl

theorem name_ne_of_nodup (hnames : ((before ++ p :: after).map Slot.name).Nodup) {q : Slot α}
    (hq : q ∈ before ++ after) : q.name ≠ p.name := by
  rw [List.map_append, List.map_cons, List.nodup_middle, ← List.map_append] at hnames
  intro h
  exact (List.nodup_cons.mp hnames).1 (h ▸ List.mem_map_of_mem hq)

theorem apart_cleared (h : (before ++ p :: after).Pairwise Slot.Apart) :
    (before ++ p.cleared :: after).Pairwise Slot.Apart := by
  obtain ⟨hbefore, hbehind, hacross⟩ := List.pairwise_append.mp h
  obtain ⟨hfirst, hafter⟩ := List.pairwise_cons.mp hbehind
  refine List.pairwise_append.mpr ⟨hbefore, List.pairwise_cons.mpr ⟨hfirst, hafter⟩, ?_⟩
  intro q hq q' hq'
  rcases List.mem_cons.mp hq' with rfl | hq'
  · exact hacross q hq p (List.mem_cons_self ..)
  · exact hacross q hq q' (List.mem_cons_of_mem _ hq')

/-- Where nothing is given, nothing changes. -/
theorem changed_of_none (h : ∀ p ∈ slots, p.value = none) (s : α) : changed slots s = s := by
  induction slots with
  | nil => rfl
  | cons p slots ih =>
      have hchange : p.change s = s := by
        rw [Slot.change, h p (List.mem_cons_self ..)]
      have hrest := ih fun q hq => h q (List.mem_cons_of_mem _ hq)
      rw [changed, List.foldl_cons, hchange]
      exact hrest

theorem fieldNamed?_slot (hnames : ((before ++ p :: after).map Slot.name).Nodup) :
    Decoder.fieldNamed? ((before ++ p :: after).map Slot.field) p.name = some p.field := by
  have hbefore : ∀ q ∈ before, q.name ≠ p.name := fun q hq =>
    name_ne_of_nodup hnames (List.mem_append_left _ hq)
  have hnone : (before.map Slot.field).find? (·.name == p.name) = none := by
    refine List.find?_eq_none.mpr fun f hf => ?_
    obtain ⟨q, hq, rfl⟩ := List.mem_map.mp hf
    exact fun h => hbefore q hq (eq_of_beq h)
  have hself : ((p :: after).map Slot.field).find? (·.name == p.name) = some p.field :=
    List.find?_cons_of_pos (beq_self_eq_true p.name)
  rw [Decoder.fieldNamed?, List.map_append, List.find?_append, hnone, hself]
  rfl

theorem fieldNamed?_other {k : String} (hk : k ∉ slots.map Slot.name) :
    Decoder.fieldNamed? (slots.map Slot.field) k = none := by
  refine List.find?_eq_none.mpr fun f hf => ?_
  obtain ⟨q, hq, rfl⟩ := List.mem_map.mp hf
  exact fun h => hk (eq_of_beq h ▸ List.mem_map_of_mem hq)

theorem Slot.Given.tail {k : String} {text : List Char} {ms : List (String × List Char)}
    (h : p.Given depth ((k, text) :: ms)) (hk : k ≠ p.name) : p.Given depth ms :=
  GivenAs.tail h hk

/-- Members that give each field at most once fill the draft of a section, and the section then has
all that is given put into it. -/
theorem fills_slots {ms : List (String × List Char)} (hnames : (slots.map Slot.name).Nodup)
    (happart : slots.Pairwise Slot.Apart) (hgiven : ∀ p ∈ slots, p.Given depth ms)
    (hother : ∀ m ∈ ms, m.1 ∉ slots.map Slot.name → JsonText m.2) (o : Overlay α)
    (hfresh : ∀ m ∈ ms, m.1 ∉ o.names) :
    ∃ o', Fills (slots.map Slot.field) depth o ms o' ∧ o'.value = changed slots o.value := by
  induction ms generalizing slots o with
  | nil =>
      refine ⟨o, .nil o, (changed_of_none (fun p hp => ?_) o.value).symm⟩
      cases hvalue : p.value with
      | none => rfl
      | some b =>
          have hsome := hgiven p hp
          rw [Slot.Given, hvalue] at hsome
          obtain ⟨before, text, after, hnil, -⟩ := hsome
          exact absurd hnil (by simp)
  | cons m ms ih =>
      obtain ⟨k, text⟩ := m
      have hfresh' : ∀ m ∈ ms, m.1 ∉ o.names := fun m hm => hfresh m (List.mem_cons_of_mem _ hm)
      by_cases hk : k ∈ slots.map Slot.name
      · obtain ⟨p, hp, rfl⟩ := List.mem_map.mp hk
        obtain ⟨before, after, rfl⟩ := List.append_of_mem hp
        obtain ⟨⟨b, hb, hread⟩, hlast⟩ := GivenAs.head (hgiven p hp)
        have hbefore : ∀ q ∈ before, q.Apart p := fun q hq =>
          (List.pairwise_append.mp happart).2.2 q hq p (List.mem_cons_self ..)
        have hnames' : (before ++ p.cleared :: after).map Slot.name =
            (before ++ p :: after).map Slot.name := by
          rw [List.map_append, List.map_append]
          rfl
        have hfree : o.names.contains p.name = false := by
          simpa using hfresh _ (List.mem_cons_self ..)
        -- What the member gives is taken, and nothing is left to give for its field.
        have hgiven' : ∀ q ∈ before ++ p.cleared :: after, q.Given depth ms := by
          intro q hq
          rcases List.mem_append.mp hq with hq | hq
          · exact Slot.Given.tail (hgiven q (List.mem_append_left _ hq))
              (name_ne_of_nodup hnames (List.mem_append_left _ hq)).symm
          · rcases List.mem_cons.mp hq with rfl | hq
            · exact hlast
            · exact Slot.Given.tail (hgiven q (List.mem_append_right _ (List.mem_cons_of_mem _ hq)))
                (name_ne_of_nodup hnames (List.mem_append_right _ hq)).symm
        have hfresh'' : ∀ m ∈ ms, m.1 ∉ p.name :: o.names := fun m hm =>
          List.not_mem_cons_of_ne_of_not_mem (hlast m hm) (hfresh' m hm)
        obtain ⟨o', hfills, hvalue⟩ := ih (hnames'.symm ▸ hnames) (apart_cleared happart) hgiven'
          (fun m hm hnot => hother m (List.mem_cons_of_mem _ hm) (hnames' ▸ hnot))
          ⟨p.put b o.value, p.name :: o.names⟩ hfresh''
        rw [map_field_cleared] at hfills
        exact ⟨o', .field (fieldNamed?_slot hnames) hfree (hread.map _) hfills,
          hvalue.trans (changed_cleared hbefore hb o.value)⟩
      · obtain ⟨o', hfills, hvalue⟩ := ih hnames happart
          (fun p hp => Slot.Given.tail (hgiven p hp) fun h => hk (h ▸ List.mem_map_of_mem hp))
          (fun m hm => hother m (List.mem_cons_of_mem _ hm)) o hfresh'
        exact ⟨o', .other (fieldNamed?_other hk) (hother _ (List.mem_cons_self ..) hk) hfills, hvalue⟩

/-- A section is read of the text of an object, in whatever order its members stand. -/
theorem overlay_reads {ms : List (String × List Char)} {text : List Char} (htext : ObjectText ms text)
    (hnames : (slots.map Slot.name).Nodup) (happart : slots.Pairwise Slot.Apart)
    (hgiven : ∀ p ∈ slots, p.Given (depth - 1) ms)
    (hother : ∀ m ∈ ms, m.1 ∉ slots.map Slot.name → JsonText m.2) (hdepth : 1 < depth)
    (title : String) (default : α) :
    Reads (overlay title default (slots.map Slot.field)).read depth text (changed slots default) := by
  obtain ⟨o, hfills, hvalue⟩ := fills_slots hnames happart hgiven hother ⟨default, []⟩
    fun _ _ => List.not_mem_nil
  have hmissing : Decoder.missing? (slots.map Slot.field) o = none := by
    have hnone : (slots.map Slot.field).find? (fun f => f.required && !f.given o) = none := by
      refine List.find?_eq_none.mpr fun f hf => ?_
      obtain ⟨p, -, rfl⟩ := List.mem_map.mp hf
      exact Bool.false_ne_true
    rw [Decoder.missing?, hnone]
    rfl
  rw [← show o.value = changed slots default from hvalue]
  exact record_reads htext title (·.value) hfills hmissing hdepth

end Overlays

end ScriptSandbox
