import PlanChart.Proofs.Json.Keeping

/-!
# The written forms of records

A record can be written in many ways. Its members stand in any order, one whose field has its
default value may be left out, and others may stand among them, under names that no field has. A
text is flawed when an object in it leaves out a member that must be written, or has a known one
twice.

Forms say this without a reader. A reader that belongs to a form reads each value from all of its
texts, and none from a flawed text.
-/

namespace PlanChart.Json

/-! ### Forms -/

/-- How the values of a type are written. -/
structure Form (α : Type) where
  /-- The texts of a value, from the first character to the last one. -/
  Spells : α → List Char → Prop
  /-- The texts in which some object cannot be that of a record. -/
  Flawed : List Char → Prop

/-- A text has a property but for the blank space around it. -/
def StandsAlone (P : List Char → Prop) (text : String) : Prop :=
  ∃ gap piece gap', AllBlank gap ∧ P piece ∧ AllBlank gap' ∧ text.toList = gap ++ (piece ++ gap')

namespace Form

/-- Texts in double quotes. -/
def text : Form String where
  Spells := SpellsText
  Flawed := fun _ => False

/-- The words for the truth values. -/
def bool : Form Bool where
  Spells := fun value text => text = (toString value).toList
  Flawed := fun _ => False

/-- What may be null. -/
def optional {α : Type} (form : Form α) : Form (Option α) where
  Spells := fun value text =>
    match value with
    | none => text = "null".toList
    | some a => form.Spells a text
  Flawed := form.Flawed

/-- Arrays of what has one form. -/
def list {α : Type} (form : Form α) : Form (List α) where
  Spells := fun elements text =>
    ∃ pieces, IsArray pieces text ∧ List.Forall₂ form.Spells elements pieces
  Flawed := fun text => ∃ pieces, IsArray pieces text ∧ (∀ piece ∈ pieces, Valid piece) ∧
    ∃ piece ∈ pieces, form.Flawed piece

/-- Objects whose members are texts, in any order. Of members with the same name the last one
counts. -/
def map : Form (Std.ExtTreeMap String String) where
  Spells := fun map text => ∃ members entries, IsObject members text ∧
    List.Forall₂ SpellsEntry members entries ∧ map = .ofList entries
  Flawed := fun _ => False

end Form

/-- A member that a record may have, and the field that it holds. -/
structure Slot (α : Type) where
  name : String
  {Value : Type}
  form : Form Value
  get : α → Value
  /-- The value of the field when the member is left out, unless it must be written. -/
  default? : Option Value

/-- What stands under a name, in order. -/
def under {β : Type} (name : String) (members : List (String × β)) : List β :=
  (members.filter (·.1 = name)).map (·.2)

section

variable {α : Type}

/-- The texts under the name of a slot are as a record needs them: either the member is left out and
the field has its default value, or the member stands there once. -/
inductive Slot.Fits (slot : Slot α) (a : α) : List (List Char) → Prop
  | omitted (h : slot.default? = some (slot.get a)) : Fits slot a []
  | written {piece : List Char} (h : slot.form.Spells (slot.get a) piece) : Fits slot a [piece]

/-- The texts under the name of a slot are those of no record. -/
inductive Slot.Spoilt (slot : Slot α) : List (List Char) → Prop
  | missing (h : slot.default? = none) : Spoilt slot []
  | repeated (piece piece' : List Char) (pieces : List (List Char)) :
      Spoilt slot (piece :: piece' :: pieces)
  | flawed {piece : List Char} (h : slot.form.Flawed piece) : Spoilt slot [piece]

/-- A name that no slot has. -/
def IsUnknown (slots : List (Slot α)) (name : String) : Prop :=
  ∀ slot ∈ slots, slot.name ≠ name

/-- Objects with a member for each slot, and with any other members. -/
def Form.record (slots : List (Slot α)) : Form α where
  Spells := fun a text => ∃ members, IsObject members text ∧
    (∀ slot ∈ slots, slot.Fits a (under slot.name members)) ∧
    ∀ member ∈ members, IsUnknown slots member.1 → Valid member.2
  Flawed := fun text => ∃ members, IsObject members text ∧ (∀ member ∈ members, Valid member.2) ∧
    ∃ slot ∈ slots, slot.Spoilt (under slot.name members)

end

section

variable {β : Type} {name : String} {b : β} {members : List (String × β)}

lemma under_cons_self : under name ((name, b) :: members) = b :: under name members := by
  simp [under]

lemma under_cons_of_ne {other : String} (h : other ≠ name) :
    under name ((other, b) :: members) = under name members := by
  simp [under, h]

lemma mem_under : b ∈ under name members ↔ (name, b) ∈ members := by
  simp [under]

end

/-! ### Readers of a form -/

/-- A reader belongs to a form. -/
structure Form.IsReadBy {α : Type} (form : Form α) (read : Reader α) : Prop where
  valid {a : α} {text : List Char} (h : form.Spells a text) : Valid text
  reads {a : α} {text : List Char} (h : form.Spells a text) : Reads read text a
  keeps : Keeps read
  refuses {text : List Char} (h : form.Flawed text) : ¬ Accepts read text

namespace Form

lemma isReadBy_text : text.IsReadBy readText where
  valid h := .string h.isString
  reads h := h.reads
  keeps := keeps_text
  refuses h := h.elim

lemma isReadBy_bool : bool.IsReadBy readBool where
  valid {value text} h := by
    subst h
    cases value with
    | false => exact .word (by decide)
    | true => exact .word (by decide)
  reads {value text} h := by
    subst h
    exact reads_bool value
  keeps := keeps_bool
  refuses h := h.elim

section

variable {α : Type} {form : Form α} {read : Reader α}

/-- No text of the form starts like null. -/
def NeverNull (form : Form α) : Prop :=
  ∀ text, (form.Flawed text ∨ ∃ a, form.Spells a text) →
    ∃ c chars, text = c :: chars ∧ isBlank c = false ∧ c ≠ 'n'

lemma neverNull_text : text.NeverNull := by
  rintro spelling (hflawed | ⟨text, h⟩)
  · exact hflawed.elim
  · obtain ⟨chars, rfl, -⟩ := h.exists_scanString
    exact ⟨_, _, rfl, by decide, by decide⟩

lemma neverNull_record (slots : List (Slot α)) : (record slots).NeverNull := by
  rintro text (⟨members, ⟨-⟩, -⟩ | ⟨a, members, ⟨-⟩, -⟩)
  · exact ⟨_, _, rfl, by decide, by decide⟩
  · exact ⟨_, _, rfl, by decide, by decide⟩

lemma IsReadBy.optional (h : form.IsReadBy read) (hnull : form.NeverNull) :
    form.optional.IsReadBy (readOptional read) where
  valid {a text} htext := by
    cases a with
    | none =>
      obtain rfl : text = "null".toList := htext
      exact .word (by decide)
    | some a => exact h.valid htext
  reads {a text} htext := by
    cases a with
    | none =>
      obtain rfl : text = "null".toList := htext
      exact reads_none read
    | some a =>
      obtain ⟨c, chars, rfl, hblank, hc⟩ := hnull text (.inr ⟨a, htext⟩)
      exact (h.reads htext).some hblank hc
  keeps := keeps_optional h.keeps
  refuses {text} htext := by
    rintro ⟨rest, left, hsucceeds⟩
    obtain ⟨c, chars, rfl, hblank, hc⟩ := hnull text (.inl htext)
    exact h.refuses htext ⟨rest, left, succeeds_of_optional hblank hc hsucceeds⟩

lemma isReadBy_optionalText : (optional text).IsReadBy (readOptional readText) :=
  isReadBy_text.optional neverNull_text

lemma IsReadBy.list (h : form.IsReadBy read) : form.list.IsReadBy (readList read) where
  valid {elements text} htext := by
    obtain ⟨pieces, harray, hpieces⟩ := htext
    refine harray.valid fun piece hmem => ?_
    obtain ⟨element, -, hspells⟩ := exists_of_forall₂ hpieces hmem
    exact h.valid hspells
  reads {elements text} htext := by
    obtain ⟨pieces, harray, hpieces⟩ := htext
    refine harray.reads (hpieces.flip.imp fun _ _ => h.reads) fun piece hmem => ?_
    obtain ⟨element, -, hspells⟩ := exists_of_forall₂ hpieces hmem
    exact (h.valid hspells).exists_cons
  keeps := keeps_list h.keeps
  refuses {text} htext := by
    obtain ⟨pieces, ⟨harray⟩, hvalid, piece, hmem, hflawed⟩ := htext
    rintro ⟨rest, left, hsucceeds⟩
    exact h.refuses hflawed ((harray.succeeds h.keeps hvalid hsucceeds).2 piece hmem)

lemma isReadBy_map : map.IsReadBy readMap where
  valid {map text} htext := by
    obtain ⟨members, entries, hobject, hentries, -⟩ := htext
    refine hobject.valid fun member hmem => ?_
    obtain ⟨entry, -, hentry⟩ := exists_of_forall₂ hentries.flip hmem
    exact .string hentry.2.isString
  reads {map text} htext := by
    obtain ⟨members, entries, hobject, hentries, rfl⟩ := htext
    rw [Std.ExtTreeMap.ofList_eq_foldl]
    exact hobject.reads_map hentries
  keeps := keeps_map
  refuses h := h.elim

end

end Form

/-! ### Fields and slots -/

section

variable {α : Type} {slots : List (Slot α)} {shape : Shape α}

/-- A field is that of a slot: its value goes to the place where the slot finds it, and what other
slots find stays as it is. -/
inductive Slot.Serves (slots : List (Slot α)) (slot : Slot α) : Field α → Prop
  | intro {read : Reader slot.Value} {put : α → slot.Value → α} (hread : slot.form.IsReadBy read)
      (hput : ∀ record value, slot.get (put record value) = value)
      (hothers : ∀ other ∈ slots, other.name ≠ slot.name →
        ∀ record value, other.get (put record value) = other.get record) :
      Serves slots slot (.of slot.name slot.default?.isNone read put)

/-- Slots describe the form of a record. -/
structure Describes (slots : List (Slot α)) (shape : Shape α) : Prop where
  serves : List.Forall₂ (Slot.Serves slots) slots shape.fields
  nodup : (slots.map (·.name)).Nodup
  blank : ∀ slot ∈ slots, ∀ value, slot.default? = some value → slot.get shape.blank = value
  ext : ∀ a b, (∀ slot ∈ slots, slot.get a = slot.get b) → a = b

variable {slot : Slot α} {field : Field α} {name : String}

lemma Slot.Serves.name_eq (h : slot.Serves slots field) : field.name = slot.name := by
  cases h
  rfl

lemma Slot.Serves.required_eq (h : slot.Serves slots field) :
    field.required = slot.default?.isNone := by
  cases h
  rfl

lemma Slot.Serves.keeps (h : slot.Serves slots field) (record : α) : Keeps (field.read record) := by
  cases h with
  | intro hread _ _ =>
    exact fun text rest left hvalid h => hread.keeps _ _ _ hvalid (succeeds_of_field h)

lemma Slot.Serves.not_accepts (h : slot.Serves slots field) {piece : List Char}
    (hflawed : slot.form.Flawed piece) (record : α) : ¬ Accepts (field.read record) piece := by
  rintro ⟨rest, left, hsucceeds⟩
  cases h with
  | intro hread _ _ => exact hread.refuses hflawed ⟨rest, left, succeeds_of_field hsucceeds⟩

lemma Slot.Serves.valid (h : slot.Serves slots field) {value : slot.Value} {piece : List Char}
    (hspells : slot.form.Spells value piece) : Valid piece := by
  cases h with
  | intro hread _ _ => exact hread.valid hspells

namespace Describes

lemma fieldsKeep (h : Describes slots shape) : shape.FieldsKeep := by
  intro field hfield record
  obtain ⟨slot, -, hserves⟩ := exists_of_forall₂ h.serves hfield
  exact hserves.keeps record

/-- A field that is found under a name is that of the slot with the name. -/
lemma exists_slot (h : Describes slots shape)
    (hfield : shape.fields.find? (·.name = name) = some field) :
    ∃ slot ∈ slots, slot.Serves slots field ∧ slot.name = name := by
  obtain ⟨slot, hslot, hserves⟩ := exists_of_forall₂ h.serves (List.mem_of_find?_eq_some hfield)
  have hname : field.name = name := by simpa using List.find?_some hfield
  exact ⟨slot, hslot, hserves, hserves.name_eq.symm.trans hname⟩

lemma eq_of_name (h : Describes slots shape) {other : Slot α} (hslot : slot ∈ slots)
    (hother : other ∈ slots) (hname : other.name = slot.name) : other = slot :=
  List.inj_on_of_nodup_map h.nodup hother hslot hname

lemma isUnknown (h : Describes slots shape) (hfield : shape.fields.find? (·.name = name) = none) :
    IsUnknown slots name := by
  intro slot hslot hname
  obtain ⟨field, hmem, hserves⟩ := exists_of_forall₂ h.serves.flip hslot
  have hne := List.find?_eq_none.mp hfield field hmem
  exact hne (by simpa using hserves.name_eq.trans hname)

/-- A field is found under the name of each slot. -/
lemma exists_find (h : Describes slots shape) (hslot : slot ∈ slots) :
    ∃ field, shape.fields.find? (·.name = slot.name) = some field ∧ slot.Serves slots field := by
  cases hfield : shape.fields.find? (·.name = slot.name) with
  | none => exact absurd rfl (h.isUnknown hfield slot hslot)
  | some field =>
    obtain ⟨other, hother, hserves, hname⟩ := h.exists_slot hfield
    obtain rfl := h.eq_of_name hslot hother hname
    exact ⟨field, rfl, hserves⟩

end Describes

/-! ### Records are read -/

/-- Once the members with the names seen have been put into a record, those that are left make the
field of a slot what it is in a value. -/
inductive Slot.Completes (slot : Slot α) (a record : α) (seen : List String)
    (members : List (String × List Char)) : Prop
  | done (hseen : slot.name ∈ seen) (hnone : under slot.name members = [])
      (hget : slot.get record = slot.get a)
  | ahead (hnew : slot.name ∉ seen) (hfits : slot.Fits a (under slot.name members))
      (hblank : ∀ value, slot.default? = some value → slot.get record = value)

variable {a record : α} {seen : List String} {piece : List Char}
  {members : List (String × List Char)}

lemma Slot.Completes.nil (h : slot.Completes a record seen []) :
    slot.get record = slot.get a ∧ (slot.default?.isNone = true → slot.name ∈ seen) := by
  cases h with
  | done hseen _ hget => exact ⟨hget, fun _ => hseen⟩
  | ahead _ hfits hblank =>
    cases hfits with
    | omitted h => exact ⟨hblank _ h, by simp [h]⟩

/-- The member of another name changes nothing about a slot. -/
lemma Slot.Completes.of_ne (hname : name ≠ slot.name)
    (h : slot.Completes a record seen ((name, piece) :: members)) {record' : α}
    (hget : slot.get record' = slot.get record) :
    slot.Completes a record' seen members ∧ slot.Completes a record' (name :: seen) members := by
  cases h with
  | done hseen hnone hrecord =>
    rw [under_cons_of_ne hname] at hnone
    exact ⟨.done hseen hnone (hget.trans hrecord),
      .done (List.mem_cons_of_mem _ hseen) hnone (hget.trans hrecord)⟩
  | ahead hnew hfits hblank =>
    rw [under_cons_of_ne hname] at hfits
    have hvalue (value : slot.Value) (h : slot.default? = some value) : slot.get record' = value :=
      hget.trans (hblank value h)
    exact ⟨.ahead hnew hfits hvalue, .ahead (by simp [hnew, hname.symm]) hfits hvalue⟩

/-- The member of a slot is the only one, and spells the value of the field. -/
lemma Slot.Completes.spells (h : slot.Completes a record seen ((slot.name, piece) :: members)) :
    slot.name ∉ seen ∧ slot.form.Spells (slot.get a) piece ∧ under slot.name members = [] := by
  cases h with
  | done _ hnone _ =>
    rw [under_cons_self] at hnone
    cases hnone
  | ahead hnew hfits _ =>
    rw [under_cons_self] at hfits
    generalize under slot.name members = pieces at hfits
    cases hfits with
    | written h => exact ⟨hnew, h, rfl⟩

/-- Members are collected into a value when they make every field what it is there. -/
lemma Describes.collects (h : Describes slots shape)
    (hslots : ∀ slot ∈ slots, slot.Completes a record seen members)
    (hunknown : ∀ member ∈ members, IsUnknown slots member.1 → Valid member.2) :
    shape.Collects seen record members a := by
  induction members generalizing seen record with
  | nil =>
    -- All fields have their values now, and the fields make up the record.
    obtain rfl : record = a := h.ext _ _ fun slot hslot => (hslots slot hslot).nil.1
    refine .nil (List.find?_eq_none.mpr fun field hfield => ?_)
    obtain ⟨slot, hslot, hserves⟩ := exists_of_forall₂ h.serves hfield
    have hseen := (hslots slot hslot).nil.2
    simpa [hserves.name_eq, hserves.required_eq] using hseen
  | cons member members ih =>
    obtain ⟨name, piece⟩ := member
    obtain ⟨hmember, hmembers⟩ := List.forall_mem_cons.mp hunknown
    cases hfield : shape.fields.find? (·.name = name) with
    | none =>
      have hname := h.isUnknown hfield
      refine .unknown hfield (hmember hname) (ih (fun slot hslot => ?_) hmembers)
      exact ((hslots slot hslot).of_ne (hname slot hslot).symm rfl).1
    | some field =>
      obtain ⟨slot, hslot, hserves, rfl⟩ := h.exists_slot hfield
      obtain ⟨hnew, hspells, hnone⟩ := (hslots slot hslot).spells
      cases hserves with
      | intro hread hput hothers =>
        refine .known hfield hnew (hread.reads hspells).field (ih (fun other hother => ?_) hmembers)
        by_cases hname : other.name = slot.name
        · obtain rfl := h.eq_of_name hslot hother hname
          exact .done List.mem_cons_self hnone (hput _ _)
        · exact ((hslots other hother).of_ne (Ne.symm hname) (hothers other hother hname _ _)).2

/-! ### Flawed texts are refused -/

/-- The member of a field that is admitted is the only one, and its text is accepted. -/
lemma Shape.Admits.under (h : shape.Admits seen members)
    (hfield : shape.fields.find? (·.name = name) = some field) :
    (Json.under name members = [] ∧ (field.required = true → name ∈ seen)) ∨
      name ∉ seen ∧ ∃ piece record, Json.under name members = [piece] ∧
        Accepts (field.read record) piece := by
  induction h with
  | @nil seen hmissing =>
    have hnone := List.find?_eq_none.mp hmissing field (List.mem_of_find?_eq_some hfield)
    have hname : field.name = name := by simpa using List.find?_some hfield
    exact .inl ⟨rfl, by simpa [hname] using hnone⟩
  | @known seen other piece members field' record hfield' hnew hpiece hmembers ih =>
    by_cases hname : other = name
    · subst hname
      obtain rfl : field' = field := by simpa [hfield'] using hfield
      -- The name has been seen from here on, and so it cannot stand there again.
      obtain ⟨hnone, -⟩ | ⟨hother, -⟩ := ih
      · exact .inr ⟨hnew, piece, record, by rw [under_cons_self, hnone], hpiece⟩
      · exact absurd List.mem_cons_self hother
    · rw [under_cons_of_ne hname]
      obtain ⟨hnone, hrequired⟩ | ⟨hother, hwritten⟩ := ih
      · refine .inl ⟨hnone, fun h => ?_⟩
        simpa [Ne.symm hname] using hrequired h
      · exact .inr ⟨fun h => hother (List.mem_cons_of_mem _ h), hwritten⟩
  | @unknown seen other piece members hother hmembers ih =>
    have hname : other ≠ name := by
      rintro rfl
      rw [hother] at hfield
      cases hfield
    rwa [under_cons_of_ne hname]

/-- No object is read as a record when the texts under the name of a slot are those of no record. -/
lemma Describes.not_accepts (h : Describes slots shape) {text : List Char}
    (htext : IsObject members text) (hvalid : ∀ member ∈ members, Valid member.2)
    (hslot : slot ∈ slots) (hspoilt : slot.Spoilt (under slot.name members)) :
    ¬ Accepts shape.read text := by
  intro haccepts
  obtain ⟨field, hfield, hserves⟩ := h.exists_find hslot
  have hadmits := Shape.admits_of_isObject htext h.fieldsKeep hvalid haccepts
  obtain ⟨hnone, hrequired⟩ | ⟨-, piece, record, hone, hpiece⟩ := hadmits.under hfield
  · rw [hnone] at hspoilt
    cases hspoilt with
    | missing hdefault =>
      rw [hserves.required_eq, hdefault] at hrequired
      exact absurd (hrequired rfl) List.not_mem_nil
  · rw [hone] at hspoilt
    cases hspoilt with
    | flawed hflawed => exact hserves.not_accepts hflawed record hpiece

lemma Slot.Fits.valid (h : slot.Fits a (under slot.name members))
    (hserves : slot.Serves slots field) {member : String × List Char} (hmem : member ∈ members)
    (hname : slot.name = member.1) : Valid member.2 := by
  have hpiece : member.2 ∈ under slot.name members := mem_under.mpr (hname ▸ hmem)
  generalize under slot.name members = pieces at h hpiece
  cases h with
  | omitted => cases hpiece
  | written hspells =>
    obtain rfl := List.mem_singleton.mp hpiece
    exact hserves.valid hspells

/-- A record is read from its form. -/
lemma Describes.isReadBy (h : Describes slots shape) : (Form.record slots).IsReadBy shape.read where
  valid {a text} htext := by
    obtain ⟨members, hobject, hslots, hunknown⟩ := htext
    refine hobject.valid fun member hmem => ?_
    by_cases hname : IsUnknown slots member.1
    · exact hunknown member hmem hname
    · simp only [IsUnknown, ne_eq, not_forall, not_not] at hname
      obtain ⟨slot, hslot, hname⟩ := hname
      obtain ⟨field, -, hserves⟩ := h.exists_find hslot
      exact (hslots slot hslot).valid hserves hmem hname
  reads {a text} htext := by
    obtain ⟨members, hobject, hslots, hunknown⟩ := htext
    refine (h.collects (fun slot hslot => ?_) hunknown).reads hobject
    exact .ahead List.not_mem_nil (hslots slot hslot) (h.blank slot hslot)
  keeps := Shape.keeps_record h.fieldsKeep
  refuses {text} htext := by
    obtain ⟨members, hobject, hvalid, slot, hslot, hspoilt⟩ := htext
    exact h.not_accepts hobject hvalid hslot hspoilt

end

/-! ### Whole texts -/

namespace Form.IsReadBy

variable {α : Type} {form : Form α} {read : Reader α} {text : String}

/-- A value is read from its texts, with any blank space around them. -/
lemma readWhole (h : form.IsReadBy read) {a : α} (htext : StandsAlone (form.Spells a) text) :
    readWhole read text = .ok a := by
  obtain ⟨gap, piece, gap', hgap, hpiece, hgap', heq⟩ := htext
  exact (h.reads hpiece).readWhole hgap hgap' heq

/-- Nothing is read from a flawed text. -/
lemma exists_error (h : form.IsReadBy read) (htext : StandsAlone form.Flawed text) :
    ∃ error, Json.readWhole read text = .error error := by
  obtain ⟨gap, piece, gap', hgap, hpiece, hgap', heq⟩ := htext
  cases hread : Json.readWhole read text with
  | error error => exact ⟨error, rfl⟩
  | ok a => exact absurd (accepts_of_readWhole hgap hgap' heq hread) (h.refuses hpiece)

end Form.IsReadBy

end PlanChart.Json
