import PlanChart.Plan.Reader
import PlanChart.Plan.Writer
import PlanChart.Proofs.Json.Reading

/-!
# Plans survive being written and read

What is written of a plan holds everything there is to it. A text that is empty is kept apart from
one that is missing, and a pair of colours without either from a pair that is missing; the custom
fields that are left out when there are none come back as none. So a plan is read from every text of
its value, however it is laid out.
-/

namespace PlanChart

open Json

/-! ### No number is written -/

lemma User.plain_toJson (user : User) : user.toJson.Plain := by
  refine .object ?_
  simp [Plain.string]

lemma ColorPair.plain_toJson (colors : ColorPair) : colors.toJson.Plain := by
  refine .object ?_
  simp [plain_ofText?]

lemma Category.plain_toJson (category : Category) : category.toJson.Plain := by
  have hcolors : ((category.colors.map ColorPair.toJson).getD .null).Plain := by
    cases category.colors with
    | none => exact .null
    | some colors => exact colors.plain_toJson
  refine .object ?_
  simp [Plain.string, hcolors]

/-- The member for custom fields is left out just when there are none. -/
lemma Issue.customMember_cases (issue : Issue) :
    (issue.customFields = ∅ ∧ issue.customMember = []) ∨
      issue.customMember = [("custom_fields", .object (issue.customFields.toList.map entry))] := by
  by_cases hempty : issue.customFields.toList = []
  · exact .inl ⟨Std.ExtTreeMap.toList_eq_nil_iff.mp hempty, by simp [customMember, hempty]⟩
  · right
    rw [customMember, if_neg (by simpa using hempty)]
    rfl

lemma Issue.plain_toJson (issue : Issue) : issue.toJson.Plain := by
  have hcustom : ∀ member ∈ issue.customMember, member.2.Plain := by
    obtain ⟨-, hnone⟩ | hsome := issue.customMember_cases
    · simp [hnone]
    · rw [hsome, List.forall_mem_singleton]
      refine .object fun member hmember => ?_
      obtain ⟨pair, -, rfl⟩ := List.mem_map.mp hmember
      exact .string pair.2
  refine .object ?_
  simp only [List.forall_mem_append]
  refine ⟨⟨?_, hcustom⟩, ?_⟩
  · simp [Plain.string, Plain.bool, plain_ofText?]
  · simp [plain_ofTexts]

lemma Plan.plain_toJson (plan : Plan) : plan.toJson.Plain := by
  refine .object ?_
  simp [plain_ofText?, plain_map User.plain_toJson, plain_map Category.plain_toJson,
    plain_map Issue.plain_toJson]

/-! ### What has been written is read -/

lemma User.decodes (user : User) : Decodes User.shape.read user.toJson user := by
  refine Shape.Fills.decodes ?_
  refine .cons rfl (by simp) (decodes_text _).field ?_
  refine .cons rfl (by simp) (decodes_text _).field ?_
  exact .nil rfl

lemma ColorPair.decodes (colors : ColorPair) :
    Decodes ColorPair.shape.read colors.toJson colors := by
  refine Shape.Fills.decodes ?_
  refine .cons rfl (by simp) (decodes_ofText? _).field ?_
  refine .cons rfl (by simp) (decodes_ofText? _).field ?_
  exact .nil rfl

lemma Category.decodes (category : Category) :
    Decodes Category.shape.read category.toJson category := by
  have hcolors : Decodes (readOptional ColorPair.shape.read)
      ((category.colors.map ColorPair.toJson).getD .null) category.colors := by
    cases category.colors with
    | none => exact decodes_none _
    | some colors => exact colors.decodes.some (by simp [ColorPair.toJson])
  refine Shape.Fills.decodes ?_
  refine .cons rfl (by simp) (decodes_text _).field ?_
  refine .cons rfl (by simp) (decodes_text _).field ?_
  refine .cons rfl (by simp) hcolors.field ?_
  exact .nil rfl

/-- The custom fields come back as none when their member is left out. -/
lemma Issue.fills_customMember (issue : Issue) {record : Issue} (h : record.customFields = ∅) :
    Issue.shape.Fills ["parent", "category", "assignee", "resolved", "summary", "id"] record
      (issue.customMember ++ [("dependencies", .ofTexts issue.dependencies)])
      { record with customFields := issue.customFields, dependencies := issue.dependencies } := by
  have hdependencies := decodes_map_list decodes_text issue.dependencies
  obtain ⟨hempty, hnone⟩ | hsome := issue.customMember_cases
  · rw [hnone, hempty, ← h]
    refine .cons rfl (by simp) hdependencies.field ?_
    exact .nil rfl
  · rw [hsome]
    refine .cons rfl (by simp) (decodes_map _).field ?_
    refine .cons rfl (by simp) hdependencies.field ?_
    exact .nil rfl

lemma Issue.decodes (issue : Issue) : Decodes Issue.shape.read issue.toJson issue := by
  refine Shape.Fills.decodes ?_
  refine .cons rfl (by simp) (decodes_text _).field ?_
  refine .cons rfl (by simp) (decodes_text _).field ?_
  refine .cons rfl (by simp) (decodes_bool _).field ?_
  refine .cons rfl (by simp) (decodes_ofText? _).field ?_
  refine .cons rfl (by simp) (decodes_ofText? _).field ?_
  refine .cons rfl (by simp) (decodes_ofText? _).field ?_
  exact issue.fills_customMember rfl

lemma Plan.decodes (plan : Plan) : Decodes Plan.shape.read plan.toJson plan := by
  refine Shape.Fills.decodes ?_
  refine .cons rfl (by simp) (decodes_ofText? _).field ?_
  refine .cons rfl (by simp) (decodes_map_list User.decodes _).field ?_
  refine .cons rfl (by simp) (decodes_map_list Category.decodes _).field ?_
  refine .cons rfl (by simp) (decodes_map_list Issue.decodes _).field ?_
  exact .nil rfl

/-- Every plan survives being written and read: from what is written of it, and from every other
text of its value, with or without blank space between the parts, the plan itself is read. -/
theorem Plan.survives_writing :
    (∀ plan : Plan, Plan.read plan.write = .ok plan) ∧
    (∀ plan : Plan, Plan.read plan.toJson.printFlat = .ok plan) ∧
    ∀ (plan : Plan) (text : String), IsText plan.toJson text → Plan.read text = .ok plan := by
  have hread (plan : Plan) (text : String) (htext : IsText plan.toJson text) :
      Plan.read text = .ok plan := plan.decodes.readWhole htext
  exact ⟨fun plan => hread plan _ plan.plain_toJson.isText_print,
    fun plan => hread plan _ plan.plain_toJson.isText_printFlat, hread⟩

/-! ### An example -/

/-- A plan with a pair of colours without either, and with texts that are empty or hold what has to
be escaped. -/
def Plan.sparse : Plan where
  baseUrl := some ""
  categories := [{ id := "\"\x01", colors := some {} }]

/-- The plan comes back from its text without blank space. -/
theorem Plan.sparse_survives_writing :
    IsText Plan.sparse.toJson Plan.sparse.toJson.printFlat ∧
      Plan.sparse.toJson.printFlat =
        "\x7b\"base_url\":\"\",\"users\":[],\"categories\":[\x7b\"id\":\"\\\"\\u0001\",\"name\":\"\"," ++
          "\"color\":\x7b\"foreground\":null,\"background\":null\x7d\x7d],\"issues\":[]\x7d" ∧
      Plan.read Plan.sparse.toJson.printFlat = .ok Plan.sparse :=
  have htext := Plan.sparse.plain_toJson.isText_printFlat
  ⟨htext, by decide +kernel, Plan.survives_writing.2.2 Plan.sparse _ htext⟩

end PlanChart
