import PlanChart.Category
import Std.Data.ExtTreeMap

/-!
# Directories

A directory answers what a reference to a user or to a category stands for. When an id is defined
more than once, its last definition holds.
-/

namespace PlanChart

/-- A person issues are assigned to. -/
structure User where
  id : String
  fullName : String
  deriving DecidableEq, Repr, Inhabited

/-- The users' names and the categories, by id. -/
structure Directory where
  users : Std.ExtTreeMap String String := ∅
  categories : Std.ExtTreeMap String Category := ∅
  deriving Inhabited

namespace Directory

/-- The directory with no entry. -/
def empty : Directory := {}

/-- Define a user, in place of an earlier one of the same id. -/
def insertUser (directory : Directory) (user : User) : Directory :=
  { directory with users := directory.users.insert user.id user.fullName }

/-- Define a category, in place of an earlier one of the same id. -/
def insertCategory (directory : Directory) (category : Category) : Directory :=
  { directory with categories := directory.categories.insert category.id category }

/-- The directory of a list of users and a list of categories. -/
def ofLists (users : List User) (categories : List Category) : Directory :=
  categories.foldl insertCategory (users.foldl insertUser empty)

/-- The name of the user with an id. -/
def userName? (directory : Directory) (id : String) : Option String :=
  directory.users[id]?

/-- The category with an id. -/
def category? (directory : Directory) (id : String) : Option Category :=
  directory.categories[id]?

/-- All categories, in the order of their ids. -/
def categoryList (directory : Directory) : List Category :=
  directory.categories.toList.map Prod.snd

end Directory

end PlanChart
