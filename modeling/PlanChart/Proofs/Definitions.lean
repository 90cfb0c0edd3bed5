import Mathlib
import PlanChart.Directory
import PlanChart.Proofs.ByteOrder

/-!
# What a directory defines

A directory is made by one definition after the other. A definition takes the place of an earlier
one of the same id, so a look-up finds the last definition of an id. The categories are listed by
their ids, and it does not show in which order different ids have been defined.
-/

namespace PlanChart

/-- When entries are put into a map one after the other, the last entry of a key stays. -/
lemma getElem?_foldl_insert {α β : Type} (key : α → String) (value : α → β) (entries : List α)
    (map : Std.ExtTreeMap String β) (id : String) :
    (entries.foldl (fun map entry => map.insert (key entry) (value entry)) map)[id]? =
      (((entries.filter (key · = id)).getLast?).map value).or map[id]? := by
  induction entries generalizing map with
  | nil => rfl
  | cons entry entries ih =>
    rw [List.foldl_cons, ih, Std.ExtTreeMap.getElem?_insert]
    by_cases h : key entry = id
    · simp only [h, Std.ReflCmp.compare_self, if_true, decide_true, List.filter_cons_of_pos,
        List.getLast?_cons]
      cases (entries.filter (key · = id)).getLast? <;> rfl
    · simp [h]

namespace Directory

/-! ### Look-ups -/

lemma users_foldl_insertUser (directory : Directory) (users : List User) :
    (users.foldl insertUser directory).users =
      users.foldl (fun map user => map.insert user.id user.fullName) directory.users :=
  (List.foldl_hom Directory.users fun _ _ => rfl).symm

lemma categories_foldl_insertCategory (directory : Directory) (categories : List Category) :
    (categories.foldl insertCategory directory).categories =
      categories.foldl (fun map category => map.insert category.id category)
        directory.categories :=
  (List.foldl_hom Directory.categories fun _ _ => rfl).symm

lemma categories_foldl_insertUser (directory : Directory) (users : List User) :
    (users.foldl insertUser directory).categories = directory.categories := by
  induction users generalizing directory with
  | nil => rfl
  | cons user users ih => exact ih (directory.insertUser user)

lemma users_foldl_insertCategory (directory : Directory) (categories : List Category) :
    (categories.foldl insertCategory directory).users = directory.users := by
  induction categories generalizing directory with
  | nil => rfl
  | cons category categories ih => exact ih (directory.insertCategory category)

@[simp] lemma category?_empty (id : String) : empty.category? id = none := by
  simp [category?, empty]

lemma category?_insertCategory (directory : Directory) (category : Category) (id : String) :
    (directory.insertCategory category).category? id =
      if category.id = id then some category else directory.category? id := by
  rw [category?, insertCategory, Std.ExtTreeMap.getElem?_insert]
  simp [category?]

/-- The category with an id is the last one of the list that has it. -/
lemma category?_ofLists_eq_getLast? (users : List User) (categories : List Category) (id : String) :
    (ofLists users categories).category? id = (categories.filter (·.id = id)).getLast? := by
  rw [category?, ofLists, categories_foldl_insertCategory, categories_foldl_insertUser,
    getElem?_foldl_insert]
  simp [empty]

/-- The category with an id is found from behind. -/
lemma category?_ofLists (users : List User) (categories : List Category) (id : String) :
    (ofLists users categories).category? id = categories.reverse.find? (·.id = id) := by
  rw [category?_ofLists_eq_getLast?, ← List.head?_reverse, ← List.filter_reverse, List.head?_filter]

/-- The name of the user with an id is that of the last one of the list that has it. -/
lemma userName?_ofLists (users : List User) (categories : List Category) (id : String) :
    (ofLists users categories).userName? id =
      ((users.filter (·.id = id)).getLast?).map User.fullName := by
  rw [userName?, ofLists, users_foldl_insertCategory, users_foldl_insertUser,
    getElem?_foldl_insert]
  simp [empty]

/-! ### Definitions one after the other -/

/-- Define a user or a category. -/
def define (directory : Directory) : User ⊕ Category → Directory
  | .inl user => directory.insertUser user
  | .inr category => directory.insertCategory category

lemma foldl_insertUser_insertCategory (directory : Directory) (category : Category)
    (users : List User) :
    users.foldl insertUser (directory.insertCategory category) =
      (users.foldl insertUser directory).insertCategory category := by
  induction users generalizing directory with
  | nil => rfl
  | cons user users ih => exact ih (directory.insertUser user)

/-- Users and categories do not get into each other's way, so all users may as well be defined
first. -/
lemma foldl_define (directory : Directory) (definitions : List (User ⊕ Category)) :
    definitions.foldl define directory =
      (definitions.filterMap Sum.getRight?).foldl insertCategory
        ((definitions.filterMap Sum.getLeft?).foldl insertUser directory) := by
  induction definitions generalizing directory with
  | nil => rfl
  | cons definition definitions ih =>
    cases definition with
    | inl user => exact ih (directory.insertUser user)
    | inr category =>
      rw [List.foldl_cons, ih, define, foldl_insertUser_insertCategory]
      rfl

/-! ### The list of categories -/

lemma mem_categoryList_iff {directory : Directory} {category : Category} :
    category ∈ directory.categoryList ↔ ∃ id, directory.category? id = some category := by
  simp [categoryList, category?, Std.ExtTreeMap.mem_toList_iff_getElem?_eq_some]

section

variable (users : List User) (categories : List Category)

lemma id_of_category?_ofLists {id : String} {category : Category}
    (h : (ofLists users categories).category? id = some category) : category.id = id := by
  rw [category?_ofLists] at h
  simpa using List.find?_some h

/-- A category is in the list if it is the one with its id. -/
lemma mem_categoryList_ofLists_iff {category : Category} :
    category ∈ (ofLists users categories).categoryList ↔
      (ofLists users categories).category? category.id = some category := by
  rw [mem_categoryList_iff]
  refine ⟨?_, fun h => ⟨category.id, h⟩⟩
  rintro ⟨id, h⟩
  rwa [id_of_category?_ofLists users categories h]

/-- Just the ids that have been defined are in the list. -/
lemma exists_mem_categoryList_ofLists_iff (id : String) :
    (∃ category ∈ (ofLists users categories).categoryList, category.id = id) ↔
      ∃ category ∈ categories, category.id = id := by
  constructor
  · rintro ⟨category, hcategory, hid⟩
    rw [mem_categoryList_ofLists_iff, category?_ofLists] at hcategory
    exact ⟨category, List.mem_reverse.mp (List.mem_of_find?_eq_some hcategory), hid⟩
  · rintro ⟨category, hcategory, rfl⟩
    have hfound : (categories.reverse.find? (·.id = category.id)).isSome := by
      rw [List.find?_isSome]
      exact ⟨category, List.mem_reverse.mpr hcategory, by simp⟩
    obtain ⟨last, hlast⟩ := Option.isSome_iff_exists.mp hfound
    rw [← category?_ofLists users] at hlast
    exact ⟨last, mem_categoryList_iff.mpr ⟨_, hlast⟩, id_of_category?_ofLists _ _ hlast⟩

/-- Every category is stored under its own id, by which the map is ordered. -/
lemma pairwise_categoryList_ofLists :
    (ofLists users categories).categoryList.Pairwise fun category other =>
      category.id < other.id := by
  rw [categoryList, List.pairwise_map]
  refine (Std.ExtTreeMap.ordered_keys_toList.imp_of_mem ?_)
  rintro ⟨id, category⟩ ⟨otherId, other⟩ hmem hother hlt
  have hid : category.id = id := id_of_category?_ofLists users categories
    (Std.ExtTreeMap.mem_toList_iff_getElem?_eq_some.mp hmem)
  have hotherId : other.id = otherId := id_of_category?_ofLists users categories
    (Std.ExtTreeMap.mem_toList_iff_getElem?_eq_some.mp hother)
  dsimp only
  rw [hid, hotherId]
  exact compare_lt_iff_lt.mp hlt

/-- Categories of different ids may be defined in any order. -/
lemma categoryList_ofLists_congr {others : List Category}
    (h : ∀ id : String, others.filter (·.id = id) = categories.filter (·.id = id))
    (otherUsers : List User) :
    (ofLists otherUsers others).categoryList = (ofLists users categories).categoryList := by
  have hmaps : (ofLists otherUsers others).categories = (ofLists users categories).categories := by
    refine Std.ExtTreeMap.ext_getElem? fun id => ?_
    change (ofLists otherUsers others).category? id = (ofLists users categories).category? id
    rw [category?_ofLists_eq_getLast?, category?_ofLists_eq_getLast?, h]
  rw [categoryList, hmaps, categoryList]

/-- Whether users and categories are given as lists or are defined one after the other, a directory
answers with the last definition of an id. It lists the category of each id once, by the bytes of
the ids, and the list does not depend on the order in which different ids are defined. -/
theorem holds_last_definitions :
    let directory := ofLists users categories
    (∀ definitions : List (User ⊕ Category), definitions.filterMap Sum.getLeft? = users →
        definitions.filterMap Sum.getRight? = categories →
          definitions.foldl define empty = directory) ∧
      (∀ id, directory.userName? id =
        ((users.filter (·.id = id)).getLast?).map User.fullName) ∧
      (∀ id, directory.category? id = (categories.filter (·.id = id)).getLast?) ∧
      (directory.categoryList.map fun category => utf8Bytes category.id).Pairwise (· < ·) ∧
      (∀ category, category ∈ directory.categoryList ↔
        directory.category? category.id = some category) ∧
      (∀ id, (∃ category ∈ directory.categoryList, category.id = id) ↔
        ∃ category ∈ categories, category.id = id) ∧
      ∀ (otherUsers : List User) (others : List Category),
        (∀ id, others.filter (·.id = id) = categories.filter (·.id = id)) →
          (ofLists otherUsers others).categoryList = directory.categoryList := by
  intro directory
  refine ⟨?_, userName?_ofLists users categories, category?_ofLists_eq_getLast? users categories, ?_,
    fun _ => mem_categoryList_ofLists_iff users categories,
    exists_mem_categoryList_ofLists_iff users categories,
    fun otherUsers others h => categoryList_ofLists_congr users categories h otherUsers⟩
  · -- Users and categories are kept apart, so only the order within each kind matters.
    rintro definitions rfl rfl
    exact foldl_define empty definitions
  · rw [List.pairwise_map]
    exact (pairwise_categoryList_ofLists users categories).imp utf8Bytes_lt

end

/-- Of two definitions of an id the later one holds, whatever is defined in between. -/
theorem holds_last_definitions_redefined :
    let anna : User := ⟨"u", "Anna"⟩
    let bea : User := ⟨"u", "Bea"⟩
    let old : Category := { id := "z", name := "old" }
    let foreign : Category := { id := "ü" }
    let new : Category := { id := "z", name := "new" }
    let directory := [.inr old, .inl anna, .inr foreign, .inr new, .inl bea].foldl define empty
    directory = ofLists [anna, bea] [old, foreign, new] ∧
      directory.userName? "u" = some "Bea" ∧ directory.category? "z" = some new ∧
      directory.category? "y" = none ∧
      (ofLists [] [foreign, old, new]).categoryList = directory.categoryList := by
  intro anna bea old foreign new directory
  obtain ⟨hdefine, huser, hcategory, -, -, -, horder⟩ :=
    holds_last_definitions [anna, bea] [old, foreign, new]
  have hdirectory : directory = ofLists [anna, bea] [old, foreign, new] := hdefine _ rfl rfl
  have hfilter (id : String) : [foreign, old, new].filter (·.id = id) =
      [old, foreign, new].filter (·.id = id) := by
    by_cases h : foreign.id = id
    · subst h
      rfl
    · simp [List.filter_cons, h]
  rw [hdirectory]
  exact ⟨rfl, huser "u", hcategory "z", hcategory "y", horder [] _ hfilter⟩

end Directory

end PlanChart
