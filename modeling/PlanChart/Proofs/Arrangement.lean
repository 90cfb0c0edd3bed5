import PlanChart.Plan.Reader
import PlanChart.Plan.Writer
import PlanChart.Proofs.Json.Canonical
import PlanChart.Proofs.Storing

/-!
# Plans are read however they are arranged

Whoever writes a plan by hand need not keep to the order in which plans are printed. The form of a
plan says what is left open: the order of members, whether a default value is written, and whatever
stands under unknown names, which a reader passes over.
-/

namespace PlanChart

open Json

/-! ### Forms -/

/-- The members of a user. -/
def User.slots : List (Slot User) := [
  { name := "id", form := .text, get := User.id, default? := none },
  { name := "full_name", form := .text, get := User.fullName, default? := none }]

/-- The members of a pair of colours. -/
def ColorPair.slots : List (Slot ColorPair) := [
  { name := "foreground", form := .optional .text, get := ColorPair.foreground,
    default? := some none },
  { name := "background", form := .optional .text, get := ColorPair.background,
    default? := some none }]

/-- The members of a category. -/
def Category.slots : List (Slot Category) := [
  { name := "id", form := .text, get := Category.id, default? := none },
  { name := "name", form := .text, get := Category.name, default? := some "" },
  { name := "color", form := .optional (.record ColorPair.slots), get := Category.colors,
    default? := some none }]

/-- The members of an issue. -/
def Issue.slots : List (Slot Issue) := [
  { name := "id", form := .text, get := Issue.id, default? := none },
  { name := "summary", form := .text, get := Issue.summary, default? := some "" },
  { name := "resolved", form := .bool, get := Issue.resolved, default? := some false },
  { name := "assignee", form := .optional .text, get := Issue.assignee, default? := some none },
  { name := "category", form := .optional .text, get := Issue.category, default? := some none },
  { name := "parent", form := .optional .text, get := Issue.parent, default? := some none },
  { name := "custom_fields", form := .map, get := Issue.customFields, default? := some ∅ },
  { name := "dependencies", form := .list .text, get := Issue.dependencies, default? := some [] }]

/-- The members of a plan. -/
def Plan.slots : List (Slot Plan) := [
  { name := "base_url", form := .optional .text, get := Plan.baseUrl, default? := some none },
  { name := "users", form := .list (.record User.slots), get := Plan.users, default? := some [] },
  { name := "categories", form := .list (.record Category.slots), get := Plan.categories,
    default? := some [] },
  { name := "issues", form := .list (.record Issue.slots), get := Plan.issues, default? := some [] }]

/-- The texts of plans. -/
def Plan.form : Form Plan :=
  .record Plan.slots

/-! ### Readers -/

lemma User.describes : Describes User.slots User.shape where
  serves := by
    refine .cons (.intro Form.isReadBy_text (fun _ _ => rfl) (by simp [User.slots])) ?_
    refine .cons (.intro Form.isReadBy_text (fun _ _ => rfl) (by simp [User.slots])) ?_
    exact .nil
  nodup := by decide
  blank := by simp [User.slots, User.shape]
  ext := by
    rintro ⟨⟩ ⟨⟩ h
    simpa [User.slots] using h

lemma ColorPair.describes : Describes ColorPair.slots ColorPair.shape where
  serves := by
    refine .cons (.intro Form.isReadBy_optionalText (fun _ _ => rfl) (by simp [ColorPair.slots])) ?_
    refine .cons (.intro Form.isReadBy_optionalText (fun _ _ => rfl) (by simp [ColorPair.slots])) ?_
    exact .nil
  nodup := by decide
  blank := by simp [ColorPair.slots, ColorPair.shape]
  ext := by
    rintro ⟨⟩ ⟨⟩ h
    simpa [ColorPair.slots] using h

lemma Category.describes : Describes Category.slots Category.shape where
  serves := by
    have hcolors := ColorPair.describes.isReadBy.optional (Form.neverNull_record _)
    refine .cons (.intro Form.isReadBy_text (fun _ _ => rfl) (by simp [Category.slots])) ?_
    refine .cons (.intro Form.isReadBy_text (fun _ _ => rfl) (by simp [Category.slots])) ?_
    refine .cons (.intro hcolors (fun _ _ => rfl) (by simp [Category.slots])) ?_
    exact .nil
  nodup := by decide
  blank := by simp [Category.slots, Category.shape]
  ext := by
    rintro ⟨⟩ ⟨⟩ h
    simpa [Category.slots] using h

lemma Issue.describes : Describes Issue.slots Issue.shape where
  serves := by
    refine .cons (.intro Form.isReadBy_text (fun _ _ => rfl) (by simp [Issue.slots])) ?_
    refine .cons (.intro Form.isReadBy_text (fun _ _ => rfl) (by simp [Issue.slots])) ?_
    refine .cons (.intro Form.isReadBy_bool (fun _ _ => rfl) (by simp [Issue.slots])) ?_
    refine .cons (.intro Form.isReadBy_optionalText (fun _ _ => rfl) (by simp [Issue.slots])) ?_
    refine .cons (.intro Form.isReadBy_optionalText (fun _ _ => rfl) (by simp [Issue.slots])) ?_
    refine .cons (.intro Form.isReadBy_optionalText (fun _ _ => rfl) (by simp [Issue.slots])) ?_
    refine .cons (.intro Form.isReadBy_map (fun _ _ => rfl) (by simp [Issue.slots])) ?_
    refine .cons (.intro Form.isReadBy_text.list (fun _ _ => rfl) (by simp [Issue.slots])) ?_
    exact .nil
  nodup := by decide
  blank := by simp [Issue.slots, Issue.shape]
  ext := by
    rintro ⟨⟩ ⟨⟩ h
    simpa [Issue.slots] using h

lemma Plan.describes : Describes Plan.slots Plan.shape where
  serves := by
    refine .cons (.intro Form.isReadBy_optionalText (fun _ _ => rfl) (by simp [Plan.slots])) ?_
    refine .cons (.intro User.describes.isReadBy.list (fun _ _ => rfl) (by simp [Plan.slots])) ?_
    refine .cons (.intro Category.describes.isReadBy.list (fun _ _ => rfl) (by simp [Plan.slots])) ?_
    refine .cons (.intro Issue.describes.isReadBy.list (fun _ _ => rfl) (by simp [Plan.slots])) ?_
    exact .nil
  nodup := by decide
  blank := by simp [Plan.slots, Plan.shape]
  ext := by
    rintro ⟨⟩ ⟨⟩ h
    simpa [Plan.slots] using h

/-! ### Written plans have the form -/

lemma User.covers : (Form.record User.slots).Covers User.toJson := by
  refine Form.covers_record (fun user => ?_) (by simp [User.slots])
  simp only [User.slots, List.forall_mem_cons]
  exact ⟨.written Form.covers_text rfl, .written Form.covers_text rfl, by simp⟩

lemma ColorPair.covers : (Form.record ColorPair.slots).Covers ColorPair.toJson := by
  refine Form.covers_record (fun colors => ?_) (by simp [ColorPair.slots])
  simp only [ColorPair.slots, List.forall_mem_cons]
  exact ⟨.written Form.covers_text.optional rfl, .written Form.covers_text.optional rfl, by simp⟩

lemma Category.covers : (Form.record Category.slots).Covers Category.toJson := by
  refine Form.covers_record (fun category => ?_) (by simp [Category.slots])
  simp only [Category.slots, List.forall_mem_cons]
  exact ⟨.written Form.covers_text rfl, .written Form.covers_text rfl,
    .written ColorPair.covers.optional rfl, by simp⟩

lemma Issue.covers : (Form.record Issue.slots).Covers Issue.toJson := by
  have htext := Form.covers_text
  have hoptional := htext.optional
  refine Form.covers_record (fun issue => ?_) fun issue => ?_
  · simp only [Issue.slots, List.forall_mem_cons]
    obtain ⟨hempty, hnone⟩ | hsome := issue.customMember_cases
    · rw [hnone]
      exact ⟨.written htext rfl, .written htext rfl, .written Form.covers_bool rfl,
        .written hoptional rfl, .written hoptional rfl, .written hoptional rfl,
        .omitted (congrArg some hempty.symm), .written htext.list rfl, by simp⟩
    · rw [hsome]
      exact ⟨.written htext rfl, .written htext rfl, .written Form.covers_bool rfl,
        .written hoptional rfl, .written hoptional rfl, .written hoptional rfl,
        .written Form.covers_map rfl, .written htext.list rfl, by simp⟩
  · obtain ⟨-, hnone⟩ | hsome := issue.customMember_cases
    · simp [Issue.slots, hnone]
    · simp [Issue.slots, hsome]

lemma Plan.covers : Plan.form.Covers Plan.toJson := by
  refine Form.covers_record (fun plan => ?_) (by simp [Plan.slots])
  simp only [Plan.slots, List.forall_mem_cons]
  exact ⟨.written Form.covers_text.optional rfl, .written User.covers.list rfl,
    .written Category.covers.list rfl, .written Issue.covers.list rfl, by simp⟩

/-! ### All arrangements -/

/-- A plan is read from every text of its form: the members of the plan, of its users, categories
and issues, and of pairs of colours stand in any order, those with a default value may be left out
or written, and unknown members with any values may stand among them. Nothing is read from a text in
which an object leaves out a member without a default or has a known one twice. Every text of what
is written of a plan has the form. -/
theorem Plan.read_of_form :
    (∀ (plan : Plan) (text : String), StandsAlone (Plan.form.Spells plan) text →
      Plan.read text = .ok plan) ∧
    (∀ text : String, StandsAlone Plan.form.Flawed text →
      ∃ error, Plan.read text = .error error) ∧
    ∀ (plan : Plan) (text : String), IsText plan.toJson text →
      StandsAlone (Plan.form.Spells plan) text := by
  have hread := Plan.describes.isReadBy
  refine ⟨fun plan text => hread.readWhole, fun text => hread.exists_error, fun plan text htext => ?_⟩
  obtain ⟨gap, piece, gap', hgap, hpiece, hgap', heq⟩ := htext
  exact ⟨gap, piece, gap', hgap, Plan.covers plan piece hpiece, hgap', heq⟩

/-! ### An example -/

/-- Pieces with commas between them, up to a closing bracket. -/
def joined (close : Char) : List (List Char) → List Char
  | [] => [close]
  | piece :: pieces => piece ++ (pieces.flatMap (',' :: ·) ++ [close])

lemma listed_joined {α : Type} {close : Char} {P : α → List Char → Prop} {write : α → List Char}
    {items : List α} (h : ∀ item ∈ items, P item (write item)) :
    Listed close P items (joined close (items.map write)) := by
  cases items with
  | nil => exact .nil allBlank_nil
  | cons item items =>
    obtain ⟨hitem, hitems⟩ := List.forall_mem_cons.mp h
    have hothers : Continued close P items _ := continued_flatMap hitems allBlank_nil allBlank_nil
    have hlisted := Listed.cons allBlank_nil hitem hothers
    simpa [joined, List.flatMap_map] using hlisted

/-- An array without blank space. -/
def compactArray (pieces : List (List Char)) : List Char :=
  '[' :: joined ']' pieces

lemma isArray_compactArray (pieces : List (List Char)) : IsArray pieces (compactArray pieces) := by
  have hlisted : Listed ']' (· = ·) pieces (joined ']' (pieces.map id)) :=
    listed_joined fun _ _ => rfl
  rw [List.map_id] at hlisted
  exact .mk hlisted

/-- An object without blank space. -/
def compactObject (members : List (String × List Char)) : List Char :=
  '\x7b' :: joined '\x7d' (members.map fun member => (quote member.1).toList ++ ':' :: member.2)

lemma isObject_compactObject (members : List (String × List Char)) :
    IsObject members (compactObject members) := by
  refine .mk (listed_joined fun member _ => ?_)
  simpa using Member.mk (P := (· = ·)) (spellsText_quote member.1) allBlank_nil allBlank_nil rfl

lemma standsAlone_ofList {P : List Char → Prop} {piece : List Char} (h : P piece) :
    StandsAlone P (String.ofList piece) :=
  ⟨[], piece, [], allBlank_nil, h, allBlank_nil, by simp⟩

/-- An issue without most of its members, with the others in another order, and with one that is
unknown. -/
def Issue.shuffled : List (String × List Char) := [
  ("dependencies", compactArray [(quote "A-1").toList]),
  ("estimate", compactArray ["-1.5e3".toList]),
  ("id", (quote "A-2").toList)]

/-- The plan that has only this issue. -/
def Plan.shuffled : Plan where
  issues := [{ id := "A-2", dependencies := ["A-1"] }]

/-- The members of a plan with issues that are given by their members. -/
def Plan.ofIssues (issues : List (List (String × List Char))) : List (String × List Char) := [
  ("issues", compactArray (issues.map compactObject)),
  ("users", compactArray [])]

lemma valid_estimate : Valid (compactArray ["-1.5e3".toList]) := by
  have hnumber : IsNumber "-1.5e3".toList :=
    IsNumber.mk (.inr rfl) (.digits rfl (by decide) (List.forall_mem_nil _))
      (.digits rfl (List.forall_mem_nil _))
      (.digits (.inl rfl) (.inl rfl) rfl (List.forall_mem_nil _))
  exact (isArray_compactArray _).valid (List.forall_mem_singleton.mpr (.number hnumber))

lemma Issue.spells_shuffled :
    (Form.record Issue.slots).Spells { id := "A-2", dependencies := ["A-1"] }
      (compactObject Issue.shuffled) := by
  have hdependencies : (Form.list .text).Spells ["A-1"] (compactArray [(quote "A-1").toList]) :=
    ⟨_, isArray_compactArray _, .cons (spellsText_quote _) .nil⟩
  refine ⟨_, isObject_compactObject _, ?_, ?_⟩
  · simp only [Issue.slots, List.forall_mem_cons]
    exact ⟨.written (spellsText_quote _), .omitted rfl, .omitted rfl, .omitted rfl, .omitted rfl,
      .omitted rfl, .omitted rfl, .written hdependencies, by simp⟩
  · simpa [Issue.shuffled, IsUnknown, Issue.slots] using valid_estimate

lemma Plan.spells_ofIssues :
    Plan.form.Spells Plan.shuffled (compactObject (Plan.ofIssues [Issue.shuffled])) := by
  refine ⟨_, isObject_compactObject _, ?_, ?_⟩
  · simp only [Plan.slots, List.forall_mem_cons]
    exact ⟨.omitted rfl, .written ⟨_, isArray_compactArray _, .nil⟩, .omitted rfl,
      .written ⟨_, isArray_compactArray _, .cons Issue.spells_shuffled .nil⟩, by simp⟩
  · simp [Plan.ofIssues, IsUnknown, Plan.slots]

/-- The text of a plan is flawed when an issue has no id. -/
lemma Plan.flawed_ofIssues :
    Plan.form.Flawed
      (compactObject (Plan.ofIssues [[("estimate", compactArray ["-1.5e3".toList])]])) := by
  have hmembers : ∀ member ∈ [("estimate", compactArray ["-1.5e3".toList])], Valid member.2 :=
    List.forall_mem_singleton.mpr valid_estimate
  have hissue : (Form.record Issue.slots).Flawed
      (compactObject [("estimate", compactArray ["-1.5e3".toList])]) :=
    ⟨_, isObject_compactObject _, hmembers, _, .head _, .missing rfl⟩
  have hpieces := List.forall_mem_singleton.mpr ((isObject_compactObject _).valid hmembers)
  have hissues := (isArray_compactArray _).valid hpieces
  have husers := (isArray_compactArray []).valid (List.forall_mem_nil _)
  refine ⟨_, isObject_compactObject _, ?_, _, .tail _ (.tail _ (.tail _ (.head _))),
    .flawed ⟨_, isArray_compactArray _, hpieces, _, .head _, hissue⟩⟩
  exact List.forall_mem_cons.mpr ⟨hissues, List.forall_mem_singleton.mpr husers⟩

/-- The text of a plan is flawed when it has its users twice. -/
lemma Plan.flawed_users :
    Plan.form.Flawed (compactObject [("users", compactArray []), ("users", compactArray [])]) := by
  have husers := (isArray_compactArray []).valid (List.forall_mem_nil _)
  refine ⟨_, isObject_compactObject _, ?_, _, .tail _ (.head _), .repeated _ _ []⟩
  exact List.forall_mem_cons.mpr ⟨husers, List.forall_mem_singleton.mpr husers⟩

/-- The text of the plan with these members. -/
def Plan.shuffledText : String :=
  "\x7b\"issues\":[\x7b\"dependencies\":[\"A-1\"],\"estimate\":[-1.5e3],\"id\":\"A-2\"\x7d]," ++
    "\"users\":[]\x7d"

/-- A plan is read although the members of its issue are in another order, among them an unknown
one; texts without an id and with members that are repeated are refused. What is written of the plan
has the form too. -/
theorem Plan.read_of_form_shuffledText :
    (StandsAlone (Plan.form.Spells Plan.shuffled) Plan.shuffledText ∧
      Plan.read Plan.shuffledText = .ok Plan.shuffled) ∧
    (StandsAlone Plan.form.Flawed
        "\x7b\"issues\":[\x7b\"estimate\":[-1.5e3]\x7d],\"users\":[]\x7d" ∧
      ∃ error, Plan.read "\x7b\"issues\":[\x7b\"estimate\":[-1.5e3]\x7d],\"users\":[]\x7d" =
        .error error) ∧
    (StandsAlone Plan.form.Flawed "\x7b\"users\":[],\"users\":[]\x7d" ∧
      ∃ error, Plan.read "\x7b\"users\":[],\"users\":[]\x7d" = .error error) ∧
    IsText Plan.shuffled.toJson Plan.shuffled.write ∧
      StandsAlone (Plan.form.Spells Plan.shuffled) Plan.shuffled.write :=
  have hread := standsAlone_ofList Plan.spells_ofIssues
  have hmissing := standsAlone_ofList Plan.flawed_ofIssues
  have hrepeated := standsAlone_ofList Plan.flawed_users
  have htext := Plan.shuffled.plain_toJson.isText_print
  ⟨⟨hread, Plan.read_of_form.1 _ _ hread⟩, ⟨hmissing, Plan.read_of_form.2.1 _ hmissing⟩,
    ⟨hrepeated, Plan.read_of_form.2.1 _ hrepeated⟩, htext, Plan.read_of_form.2.2 _ _ htext⟩

end PlanChart
