import Mathlib

/-!
# The order of texts

Texts are ordered by the code points of their characters. This is also the order of the bytes by
which they are written in UTF-8. The bytes of two characters differ at some place, the first such
place decides for the smaller character, and nothing that follows can change that.
-/

namespace PlanChart

/-- The bytes of a text in UTF-8. -/
def utf8Bytes (text : String) : List UInt8 :=
  text.toUTF8.data.toList

lemma utf8Bytes_eq_flatMap (text : String) :
    utf8Bytes text = text.toList.flatMap String.utf8EncodeChar := by
  obtain ⟨chars, rfl⟩ : ∃ chars, text = String.ofList chars := ⟨text.toList, by simp⟩
  simp [utf8Bytes, List.utf8Encode]

/-- Bytes are compared by the first one, and then by the others if that is the same. -/
lemma ofNat_cons_lt_iff {m n : Nat} (hm : m < 256) (hn : n < 256) {bytes others : List UInt8} :
    UInt8.ofNat m :: bytes < UInt8.ofNat n :: others ↔ m < n ∨ m = n ∧ bytes < others := by
  have hm' : (UInt8.ofNat m).toNat = m := by simpa using hm
  have hn' : (UInt8.ofNat n).toNat = n := by simpa using hn
  rw [List.cons_lt_cons_iff, UInt8.lt_iff_toNat_lt, ← UInt8.toNat_inj, hm', hn']

/-- The bytes of a smaller character are smaller, whatever follows. -/
lemma utf8EncodeChar_append_lt {c d : Char} (h : c < d) (bytes others : List UInt8) :
    String.utf8EncodeChar c ++ bytes < String.utf8EncodeChar d ++ others := by
  have hlt : c.val.toNat < d.val.toNat := h
  have hmax : d.val.toNat < 0x110000 := by
    rcases d.valid with hvalid | ⟨-, hvalid⟩
    · exact hvalid.trans (by decide)
    · exact hvalid
  -- The bytes behind the first one hold six bits each, so that each division is by 64.
  have hdiv (n : Nat) : n / 4096 = n / 64 / 64 ∧ n / 262144 = n / 64 / 64 / 64 := by omega
  unfold String.utf8EncodeChar
  dsimp only
  simp only [hdiv]
  generalize c.val.toNat = m at hlt
  generalize d.val.toNat = n at hlt hmax
  split_ifs <;>
    simp (disch := omega) only [List.cons_append, List.nil_append, ofNat_cons_lt_iff] <;>
    omega

lemma flatMap_utf8EncodeChar_lt {chars others : List Char} (h : chars < others) :
    chars.flatMap String.utf8EncodeChar < others.flatMap String.utf8EncodeChar := by
  induction h with
  | nil =>
    rename_i c rest
    rw [List.flatMap_nil, List.flatMap_cons]
    cases hbytes : String.utf8EncodeChar c with
    | nil => exact absurd hbytes String.utf8EncodeChar_ne_nil
    | cons byte bytes => exact List.nil_lt_cons _ _
  | rel hlt => exact utf8EncodeChar_append_lt hlt _ _
  | cons _ ih =>
    rw [List.flatMap_cons, List.flatMap_cons]
    exact List.append_left_lt ih

/-- Of two texts the smaller one has the smaller bytes. -/
lemma utf8Bytes_lt {text other : String} (h : text < other) : utf8Bytes text < utf8Bytes other := by
  rw [utf8Bytes_eq_flatMap, utf8Bytes_eq_flatMap]
  exact flatMap_utf8EncodeChar_lt h

end PlanChart
