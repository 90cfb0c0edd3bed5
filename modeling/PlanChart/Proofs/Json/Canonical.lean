import PlanChart.Proofs.Json.Form
import PlanChart.Proofs.Json.Reading

/-!
# What is written has a form

When things are written as values, the texts of the values are among those that a form allows. An
object has one order of its members; the form allows any.
-/

namespace PlanChart.Json

/-- The texts of the values that are written are those of a form. -/
def Form.Covers {α : Type} (form : Form α) (write : α → Json) : Prop :=
  ∀ a text, Json.Spells (write a) text → form.Spells a text

namespace Form

lemma covers_text : text.Covers .string := by
  intro text spelling h
  cases h with
  | string h => exact h

lemma covers_bool : bool.Covers .bool := by
  intro value text h
  cases h with
  | bool => rfl

lemma covers_map : map.Covers fun map => .object (map.toList.map entry) := by
  intro map text h
  obtain ⟨pieces, hpieces, htext⟩ := h.exists_isObject
  exact ⟨pieces, map.toList, htext, forall₂_spellsEntry hpieces, (ofList_toList map).symm⟩

section

variable {α : Type} {form : Form α} {write : α → Json}

lemma Covers.optional (h : form.Covers write) :
    form.optional.Covers fun a => (a.map write).getD .null := by
  intro a text htext
  cases a with
  | none =>
    cases htext with
    | null => rfl
  | some a => exact h a text htext

lemma Covers.list (h : form.Covers write) :
    form.list.Covers fun elements => .array (elements.map write) := by
  intro elements text htext
  obtain ⟨pieces, hpieces, harray⟩ := htext.exists_isArray
  rw [List.forall₂_map_left_iff] at hpieces
  exact ⟨pieces, harray, hpieces.imp h⟩

end

end Form

section

variable {α : Type} {slots : List (Slot α)}

/-- The values under the name of a slot are as a record needs them. -/
inductive Slot.Holds (slot : Slot α) (a : α) : List Json → Prop
  | omitted (h : slot.default? = some (slot.get a)) : Holds slot a []
  | written {write : slot.Value → Json} {values : List Json} (h : slot.form.Covers write)
      (hvalues : values = [write (slot.get a)]) : Holds slot a values

lemma under_forall₂ {members : List (String × Json)} {pieces : List (String × List Char)}
    (h : List.Forall₂ SpellsMember members pieces) (name : String) :
    List.Forall₂ Spells (under name members) (under name pieces) := by
  induction h with
  | nil => exact .nil
  | @cons member piece members pieces hmember _ ih =>
    obtain ⟨other, value⟩ := member
    obtain ⟨_, piece⟩ := piece
    obtain ⟨rfl, hvalue⟩ := hmember
    by_cases hname : other = name
    · subst hname
      rw [under_cons_self, under_cons_self]
      exact .cons hvalue ih
    · rwa [under_cons_of_ne hname, under_cons_of_ne hname]

lemma Slot.Holds.fits {slot : Slot α} {a : α} {values : List Json} (h : slot.Holds a values)
    {pieces : List (List Char)} (hpieces : List.Forall₂ Spells values pieces) :
    slot.Fits a pieces := by
  cases h with
  | omitted h =>
    cases hpieces
    exact .omitted h
  | written h hvalues =>
    subst hvalues
    cases hpieces with
    | cons hpiece hpieces =>
      cases hpieces
      exact .written (h _ _ hpiece)

/-- A record has a form when the slots have the members that are written, and no others are. -/
lemma Form.covers_record {write : α → List (String × Json)}
    (hholds : ∀ a, ∀ slot ∈ slots, slot.Holds a (under slot.name (write a)))
    (hknown : ∀ a, ∀ member ∈ write a, ∃ slot ∈ slots, slot.name = member.1) :
    (Form.record slots).Covers fun a => .object (write a) := by
  intro a text htext
  obtain ⟨pieces, hpieces, hobject⟩ := htext.exists_isObject
  refine ⟨pieces, hobject, fun slot hslot => ?_, fun piece hmem hunknown => ?_⟩
  · exact (hholds a slot hslot).fits (under_forall₂ hpieces slot.name)
  · obtain ⟨member, hmember, heq, -⟩ := exists_of_forall₂ hpieces hmem
    obtain ⟨slot, hslot, hname⟩ := hknown a member hmember
    exact absurd (hname.trans heq) (hunknown slot hslot)

end

end PlanChart.Json
