import PlanChart.Files.Tree
import PlanChart.Proofs.Buildable

/-!
# Written files are read back

A text that is written to a path is what the file there holds afterwards, and nothing else changes.
The way along the path stays the same, because it goes through directories and what is written is
none. Only a device may lose what is written to it.
-/

namespace PlanChart.FileTree

variable {tree next : FileTree} {path text : String}

/-- A path leads to a device. -/
def IsDevice (tree : FileTree) (path : String) : Prop :=
  ∃ place content refusal, tree.locate path = .ok place ∧
    tree.entry? place = some (.device content refusal)

lemma entry?_put_self {place : List String} (hplace : place ≠ []) (entry : FileEntry) :
    entry? (tree.put place entry) place = some entry := by
  simp [ entry?, put, hplace]

lemma entry?_put_of_ne {place other : List String} (hne : other ≠ place) (entry : FileEntry) :
    entry? (tree.put place entry) other = tree.entry? other := by
  have hlookup : (tree.entries.filter fun entry => entry.1 != place).lookup other =
      tree.entries.lookup other := by
    induction tree.entries with
    | nil => rfl
    | cons first entries ih =>
      obtain ⟨key, value⟩ := first
      by_cases hkey : key = place
      · have hother : (other == key) = false := beq_eq_false_iff_ne.mpr (hkey ▸ hne)
        rw [List.filter_cons_of_neg (by simp [hkey]), List.lookup_cons, hother, ih]
      · rw [List.filter_cons_of_pos (by simp [hkey]), List.lookup_cons, List.lookup_cons, ih]
  simp only [ entry?, put, clear, List.lookup_cons, beq_eq_false_iff_ne.mpr hne, hlookup]

/-- What takes the place of no directory is not on the way to any place. -/
lemma follow_put {place : List String} (hplace : tree.entry? place ≠ some .directory)
    (entry : FileEntry) {start target : List String} {parts : List String}
    (h : tree.follow start parts = .ok target) :
    (tree.put place entry).follow start parts = .ok target := by
  induction parts generalizing start with
  | nil => exact h
  | cons part parts ih =>
    rw [follow] at h ⊢
    cases hentry : tree.entry? start with
    | none => simp [hentry] at h
    | some found =>
      cases found with
      | directory =>
        have hne : start ≠ place := fun heq => hplace (heq ▸ hentry)
        rw [entry?_put_of_ne hne, hentry]
        rw [hentry] at h
        dsimp only at h ⊢
        split at h
        · cases h
        · rename_i hlong
          rw [if_neg hlong]
          exact ih h
      | file content => simp [hentry] at h
      | device content refusal => simp [hentry] at h

lemma locate_put {place target : List String} (hplace : tree.entry? place ≠ some .directory)
    (entry : FileEntry) (h : tree.locate path = .ok target) :
    (tree.put place entry).locate path = .ok target := by
  unfold locate locateParts at h ⊢
  split_ifs at h ⊢
  exact follow_put hplace entry h

/-- Where a text has been written to: to a file that may have been there before, or to a device. -/
lemma exists_of_writeText (h : tree.writeText path text = .ok next) :
    ∃ place, tree.locate path = .ok place ∧
      (tree.IsDevice path ∧ next = tree ∨
        tree.entry? place ≠ some .directory ∧ next = tree.put place (.file text.toUTF8)) := by
  unfold writeText writeBytes at h
  split at h
  · obtain ⟨_, -, herror⟩ := bind_eq_ok_iff.mp h
    cases herror
  · obtain ⟨place, hlocate, hwrite⟩ := bind_eq_ok_iff.mp h
    refine ⟨place, hlocate, ?_⟩
    -- A directory and a refusing device are the entries that cannot be written to.
    cases hentry : tree.entry? place with
    | none =>
      simp only [hentry, Except.ok.injEq] at hwrite
      exact Or.inr ⟨by simp, hwrite.symm⟩
    | some found =>
      cases found with
      | directory => simp [hentry] at hwrite
      | file content =>
        simp only [hentry, Except.ok.injEq] at hwrite
        exact Or.inr ⟨by simp, hwrite.symm⟩
      | device content refusal =>
        cases refusal with
        | some refusal => simp [hentry] at hwrite
        | none =>
          simp only [hentry, Except.ok.injEq] at hwrite
          exact Or.inl ⟨⟨place, content, none, hlocate, hentry⟩, hwrite.symm⟩

lemma fromUTF8?_toUTF8 (text : String) : String.fromUTF8? text.toUTF8 = some text :=
  dif_pos text.isValidUTF8

lemma readText_of_entry {place : List String} (hlocate : tree.locate path = .ok place)
    (hentry : tree.entry? place = some (.file text.toUTF8)) : tree.readText path = .ok text := by
  have hbytes : tree.readBytes path = .ok text.toUTF8 := by
    unfold readBytes
    simp only [hlocate, bind, Except.bind, hentry]
  unfold readText
  simp only [hbytes, bind, Except.bind, fromUTF8?_toUTF8]

/-- After a text is written, the file holds it, unless it is a device. -/
theorem readText_of_writeText (h : tree.writeText path text = .ok next)
    (hdevice : ¬ tree.IsDevice path) : next.readText path = .ok text := by
  obtain ⟨place, hlocate, hwritten⟩ := exists_of_writeText h
  obtain ⟨hplace, rfl⟩ := hwritten.resolve_left fun h => hdevice h.1
  have hroot : place ≠ [] := by
    rintro rfl
    exact hplace rfl
  exact readText_of_entry (locate_put hplace _ hlocate)
    (entry?_put_self hroot (.file text.toUTF8))

/-- What is written to a device that does not refuse it is lost. -/
lemma writeText_of_device (hslash : path.endsWith "/" = false) {place : List String}
    (hlocate : tree.locate path = .ok place) {content : ByteArray}
    (hentry : tree.entry? place = some (.device content none)) (text : String) :
    tree.writeText path text = .ok tree := by
  unfold writeText writeBytes
  simp only [hslash, Bool.false_eq_true, if_false, hlocate, bind, Except.bind, hentry]

/-- A file that is there already gets the text as its content. -/
lemma writeText_of_file (hslash : path.endsWith "/" = false) {place : List String}
    (hlocate : tree.locate path = .ok place) {content : ByteArray}
    (hentry : tree.entry? place = some (.file content)) (text : String) :
    tree.writeText path text = .ok (tree.put place (.file text.toUTF8)) := by
  unfold writeText writeBytes
  simp only [hslash, Bool.false_eq_true, if_false, hlocate, bind, Except.bind, hentry]

/-- A text is written to a single place. -/
theorem entry?_of_writeText (h : tree.writeText path text = .ok next) {place : List String}
    (hplace : tree.locate path ≠ .ok place) : next.entry? place = tree.entry? place := by
  obtain ⟨target, hlocate, ⟨-, rfl⟩ | ⟨-, rfl⟩⟩ := exists_of_writeText h
  · rfl
  · refine entry?_put_of_ne ?_ _
    rintro rfl
    exact hplace hlocate

end PlanChart.FileTree
