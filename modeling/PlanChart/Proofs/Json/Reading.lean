import PlanChart.Proofs.Json.Pieces

/-!
# Values are read from all of their texts

A reader decodes a value when it reads the same from every text of the value, whatever stands around
it. Readers of lists, maps and records decode an array or an object when the readers of their parts
decode the parts.
-/

namespace PlanChart.Json

section

variable {α β : Type} {read : Reader α} {value : Json} {a : α}

/-- A reader reads something from every text of a value. -/
def Decodes (read : Reader α) (value : Json) (a : α) : Prop :=
  ∀ text, Spells value text → Reads read text a

/-- What is decoded from a value is read from a text that holds the value. -/
lemma Decodes.readWhole {text : String} (h : Decodes read value a) (htext : IsText value text) :
    readWhole read text = .ok a := by
  obtain ⟨gap, piece, gap', hgap, hpiece, hgap', heq⟩ := htext
  exact (h piece hpiece).readWhole hgap hgap' heq

/-! ### Scalars -/

lemma decodes_text (text : String) : Decodes readText (.string text) text := by
  intro spelling h
  cases h with
  | string h => exact h.reads

lemma decodes_bool (value : Bool) : Decodes readBool (.bool value) value := by
  intro text h
  cases h with
  | bool => exact reads_bool value

lemma decodes_none (read : Reader α) : Decodes (readOptional read) .null none := by
  intro text h
  cases h with
  | null => exact reads_none read

lemma Decodes.some (h : Decodes read value a) (hvalue : value ≠ .null) :
    Decodes (readOptional read) value (some a) := by
  intro text htext
  obtain ⟨c, chars, rfl, hblank, -, hnull⟩ := htext.exists_cons
  exact (h _ htext).some hblank fun heq => hvalue (hnull heq)

lemma decodes_ofText? (text : Option String) :
    Decodes (readOptional readText) (.ofText? text) text := by
  cases text with
  | none => exact decodes_none readText
  | some text => exact (decodes_text text).some (by simp)

/-! ### Lists -/

/-- The elements of an array are spelled by its pieces. -/
lemma Spells.exists_isArray {values : List Json} {text : List Char} (h : Spells (.array values) text) :
    ∃ pieces, List.Forall₂ Spells values pieces ∧ IsArray pieces text := by
  cases h with
  | array h =>
    obtain ⟨pieces, hpieces, htext⟩ := h.exists_items fun _ piece hpiece => ⟨piece, hpiece, rfl⟩
    exact ⟨pieces, hpieces, .mk htext⟩

lemma decodes_list {values : List Json} {elements : List α}
    (h : List.Forall₂ (Decodes read) values elements) :
    Decodes (readList read) (.array values) elements := by
  intro text htext
  obtain ⟨pieces, hpieces, harray⟩ := htext.exists_isArray
  clear htext
  refine harray.reads ?_ fun piece hmem => ?_
  · clear harray
    induction h generalizing pieces with
    | nil =>
      cases hpieces
      exact .nil
    | cons hvalue _ ih =>
      cases hpieces with
      | cons hpiece hpieces => exact .cons (hvalue _ hpiece) (ih _ hpieces)
  · obtain ⟨value, -, hspells⟩ := exists_of_forall₂ hpieces hmem
    obtain ⟨c, chars, rfl, hblank, hclose, -⟩ := hspells.exists_cons
    exact ⟨c, chars, rfl, hblank, hclose⟩

lemma decodes_map_list {write : α → Json} (h : ∀ item, Decodes read (write item) item)
    (items : List α) : Decodes (readList read) (.array (items.map write)) items := by
  refine decodes_list ?_
  rw [List.forall₂_map_left_iff, List.forall₂_same]
  exact fun item _ => h item

end

/-! ### Members -/

/-- A member spells another one when the names are equal and the value is spelled. -/
def SpellsMember (member : String × Json) (piece : String × List Char) : Prop :=
  member.1 = piece.1 ∧ Spells member.2 piece.2

/-- The members of an object are spelled by its pieces. -/
lemma Spells.exists_isObject {members : List (String × Json)} {text : List Char}
    (h : Spells (.object members) text) :
    ∃ pieces, List.Forall₂ SpellsMember members pieces ∧ IsObject pieces text := by
  cases h with
  | object h =>
    obtain ⟨pieces, hpieces, htext⟩ := h.exists_items (R := SpellsMember) (Q := Member (· = ·))
      fun _ _ hmember => by
        obtain ⟨hname, hgap, hgap', hvalue⟩ := hmember
        exact ⟨(_, _), ⟨rfl, hvalue⟩, .mk hname hgap hgap' rfl⟩
    exact ⟨pieces, hpieces, .mk htext⟩

/-- The value of an entry of a map. -/
def entry (pair : String × String) : String × Json :=
  (pair.1, .string pair.2)

/-- A map is put together again from its entries. -/
lemma ofList_toList (map : Std.ExtTreeMap String String) :
    Std.ExtTreeMap.ofList map.toList = map := by
  refine Std.ExtTreeMap.ext_getElem? fun name => ?_
  cases hname : map[name]? with
  | none =>
    refine Std.ExtTreeMap.getElem?_ofList_of_contains_eq_false ?_
    simpa [Std.ExtTreeMap.mem_toList_iff_getElem?_eq_some] using hname
  | some value =>
    have hmem := Std.ExtTreeMap.mem_toList_iff_getElem?_eq_some.mpr hname
    exact Std.ExtTreeMap.getElem?_ofList_of_mem Std.ReflCmp.compare_self
      Std.ExtTreeMap.distinct_keys_toList hmem

/-- The entries of a map are spelled by the members of its object. -/
lemma forall₂_spellsEntry {entries : List (String × String)} {pieces : List (String × List Char)}
    (h : List.Forall₂ SpellsMember (entries.map entry) pieces) :
    List.Forall₂ SpellsEntry pieces entries := by
  rw [List.forall₂_map_left_iff] at h
  refine (h.imp fun pair piece hmember => ?_).flip
  obtain ⟨hname, hvalue⟩ := hmember
  cases hvalue with
  | string h => exact ⟨hname.symm, h⟩

lemma decodes_map (map : Std.ExtTreeMap String String) :
    Decodes readMap (.object (map.toList.map entry)) map := by
  intro text htext
  obtain ⟨pieces, hpieces, htext⟩ := htext.exists_isObject
  have hread := htext.reads_map (forall₂_spellsEntry hpieces)
  rwa [← Std.ExtTreeMap.ofList_eq_foldl, ofList_toList] at hread

/-! ### Records -/

namespace Shape

variable {α : Type} {shape : Shape α}

/-- Members fill a record that has been filled so far: each of them is a field that has not been
seen, and whose reader decodes the value. At the end no field that must be written is missing. -/
inductive Fills (shape : Shape α) : List String → α → List (String × Json) → α → Prop
  | nil {seen : List String} {record : α} (h : shape.missing? seen = none) :
      Fills shape seen record [] record
  | cons {seen : List String} {record record' filled : α} {name : String} {value : Json}
      {members : List (String × Json)} {field : Field α}
      (hfield : shape.fields.find? (·.name = name) = some field) (hnew : name ∉ seen)
      (hvalue : Decodes (field.read record) value record')
      (hmembers : Fills shape (name :: seen) record' members filled) :
      Fills shape seen record ((name, value) :: members) filled

lemma Fills.collects {seen : List String} {record filled : α} {members : List (String × Json)}
    (h : Fills shape seen record members filled) {pieces : List (String × List Char)}
    (hpieces : List.Forall₂ SpellsMember members pieces) :
    Collects shape seen record pieces filled := by
  induction h generalizing pieces with
  | nil hmissing =>
    cases hpieces
    exact .nil hmissing
  | cons hfield hnew hvalue _ ih =>
    cases hpieces with
    | @cons _ piece _ _ hpiece hpieces =>
      obtain ⟨name, piece⟩ := piece
      obtain ⟨rfl, hpiece⟩ := hpiece
      exact .known hfield hnew (hvalue piece hpiece) (ih hpieces)

/-- A record is decoded from members that fill it. -/
lemma Fills.decodes {members : List (String × Json)} {filled : α}
    (h : Fills shape [] shape.blank members filled) :
    Decodes shape.read (.object members) filled := by
  intro text htext
  obtain ⟨pieces, hpieces, htext⟩ := htext.exists_isObject
  exact (h.collects hpieces).reads htext

end Shape

/-- A field is decoded when its value is. -/
lemma Decodes.field {α β : Type} {read : Reader β} {value : Json} {b : β}
    (h : Decodes read value b) {name : String} {required : Bool} {put : α → β → α} {record : α} :
    Decodes ((Field.of name required read put).read record) value (put record b) :=
  fun text htext => (h text htext).field

end PlanChart.Json
