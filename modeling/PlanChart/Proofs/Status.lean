import PlanChart.Proofs.Checking
import PlanChart.Proofs.Loading

/-!
# Checking and drawing end alike

The status of a run tells whether the plan can be drawn. A check and a drawing without an output
file come to the same status in every surroundings: they load the same, and where one reports an
error the other one fails.
-/

namespace PlanChart

namespace ExitStatus

lemma ofCode_planError (error : PlanError) : ofCode error.code = .validationFailed := by
  cases error <;> rfl

lemma ofCode_accessCode_ne (error : FileError) :
    ofCode (Failure.accessCode error) ≠ .validationFailed := by
  unfold Failure.accessCode
  split <;> decide

/-- What is wrong with files is not taken for what is wrong with a plan. -/
lemma ofCode_ne_of_isLoading {failure : Failure} (h : failure.IsLoading) :
    ofCode failure.code ≠ .validationFailed := by
  cases failure with
  | configAccess path error => exact ofCode_accessCode_ne error
  | configContent path fault => exact show ofCode "PARSE_ERROR" ≠ .validationFailed by decide
  | planAccess path error => exact ofCode_accessCode_ne error
  | planContent path error => exact show ofCode "PARSE_ERROR" ≠ .validationFailed by decide
  | plan error => exact h.elim
  | outputAccess path error => exact h.elim

lemma number_eq_four_iff (status : ExitStatus) : status.number = 4 ↔ status = .validationFailed := by
  cases status <;> decide

end ExitStatus

lemma Failure.code_report (failure : Failure) (path : String) (planExists : Bool) :
    (failure.report path planExists).1.code = failure.code := by
  cases failure with
  | plan error => rfl
  | _ =>
    unfold report
    dsimp only
    split <;> rfl

namespace Invocation

section

variable (invocation : Invocation) (surroundings : Surroundings) (tree : FileTree)

lemma status_fail (notes : String) (failure : Failure) :
    ((invocation.fail FileTree.access surroundings notes failure).run tree).1.status =
      .ofCode failure.code := by
  rw [run_fail, failed, ErrorNote.exitStatus, failure.code_report]

/-- The status of a run that loads its files and draws or checks the plan. -/
def drawStatus (layers : Layers) (plan : Plan) : ExitStatus :=
  match draw plan.issues plan.directory (invocation.drawOptions layers plan) with
  | .error _ => .validationFailed
  | .ok _ => .success

lemma status_runRender (layers : Layers) (plan : Plan) :
    ((invocation.runRender FileTree.access surroundings none layers plan).run tree).1.status =
      invocation.drawStatus layers plan := by
  unfold drawStatus
  cases hdraw : draw plan.issues plan.directory (invocation.drawOptions layers plan) with
  | error error =>
    rw [run_runRender_of_error hdraw, failed]
    exact ExitStatus.ofCode_planError error
  | ok document =>
    obtain ⟨forest, -, -, hrun⟩ := run_runRender_of_ok hdraw tree
    rw [hrun]
    rfl

lemma status_runCheck (layers : Layers) (plan : Plan) :
    (invocation.runCheck surroundings layers plan).status = invocation.drawStatus layers plan := by
  have hbuilt : plan.directory.Built := Directory.built_ofLists plan.users plan.categories
  have herrors := Check.hasErrors_iff_not_drawable plan.issues hbuilt
    (invocation.drawOptions layers plan)
  rw [← exists_draw_error_iff] at herrors
  unfold drawStatus
  cases hdraw : draw plan.issues plan.directory (invocation.drawOptions layers plan) with
  | error error => exact if_pos (herrors.mpr ⟨error, hdraw⟩)
  | ok document =>
    refine if_neg fun h => ?_
    obtain ⟨error, herror⟩ := herrors.mp h
    rw [hdraw] at herror
    cases herror

/-- The status of a check, and of a drawing without an output file. -/
def loadedStatus : ExitStatus :=
  match tree.loaded surroundings invocation with
  | .error failure => .ofCode failure.code
  | .ok (layers, plan) => invocation.drawStatus layers plan

lemma status_of_check (h : invocation.action = .check) :
    (invocation.runOn surroundings tree).1.status =
      invocation.loadedStatus surroundings tree := by
  rw [runOn_eq, loadedStatus]
  cases tree.loaded surroundings invocation with
  | error failure => exact status_fail invocation surroundings tree "" failure
  | ok found =>
    simp only [h]
    exact status_runCheck invocation surroundings found.1 found.2

lemma status_of_render {baseUrl : Option String} (h : invocation.action = .render baseUrl none) :
    (invocation.runOn surroundings tree).1.status =
      invocation.loadedStatus surroundings tree := by
  rw [runOn_eq, loadedStatus]
  cases tree.loaded surroundings invocation with
  | error failure => exact status_fail invocation surroundings tree "" failure
  | ok found =>
    simp only [h]
    exact status_runRender invocation surroundings tree found.1 found.2

lemma number_loadedStatus_eq_four_iff :
    (invocation.loadedStatus surroundings tree).number = 4 ↔
      ∃ layers plan, tree.loaded surroundings invocation = .ok (layers, plan) ∧
        ∃ error, draw plan.issues plan.directory (invocation.drawOptions layers plan) =
          .error error := by
  rw [ExitStatus.number_eq_four_iff, loadedStatus]
  cases hloaded : tree.loaded surroundings invocation with
  | error failure =>
    have hloading := FileTree.isLoading_of_loaded hloaded
    simpa using ExitStatus.ofCode_ne_of_isLoading hloading
  | ok found =>
    obtain ⟨layers, plan⟩ := found
    simp only [drawStatus, Except.ok.injEq, Prod.mk.injEq]
    cases hdraw : draw plan.issues plan.directory (invocation.drawOptions layers plan) <;>
      simp [hdraw]

end

/-- The same invocation, but of a drawing to the output. -/
def drawing (invocation : Invocation) (baseUrl : Option String) : Invocation :=
  { invocation with action := .render baseUrl none }

/-- The same invocation, but of a check. -/
def checking (invocation : Invocation) : Invocation :=
  { invocation with action := .check }

/-- Whether a plan can be drawn does not depend on the base URL. -/
lemma drawStatus_drawing (invocation : Invocation) (baseUrl : Option String) (layers : Layers)
    (plan : Plan) :
    (invocation.drawing baseUrl).drawStatus layers plan =
      invocation.checking.drawStatus layers plan := by
  have hdrawable : Drawable plan.issues plan.directory
        ((invocation.drawing baseUrl).drawOptions layers plan) ↔
      Drawable plan.issues plan.directory (invocation.checking.drawOptions layers plan) :=
    ⟨fun h => ⟨h.buildable, h.wellColored⟩, fun h => ⟨h.buildable, h.wellColored⟩⟩
  rw [← exists_draw_iff, ← exists_draw_iff] at hdrawable
  unfold drawStatus
  cases hdraw : draw plan.issues plan.directory
      ((invocation.drawing baseUrl).drawOptions layers plan) <;>
    cases hcheck : draw plan.issues plan.directory
        (invocation.checking.drawOptions layers plan) <;>
      simp [hdraw, hcheck] at hdrawable ⊢

/-- A check and a drawing to the output, of one plan with one configuration, end with the same
number, whenever each of them takes place. It is the number for a faulty plan just when everything
is loaded and the plan cannot be drawn. -/
theorem number_drawing_eq_number_checking (invocation : Invocation) (surroundings : Surroundings)
    (tree : FileTree) (time : String) (baseUrl : Option String) :
    ((invocation.drawing baseUrl).runOn surroundings tree).1.status.number =
        (invocation.checking.runOn { surroundings with time } tree).1.status.number ∧
      (((invocation.drawing baseUrl).runOn surroundings tree).1.status.number = 4 ↔
        ∃ layers plan, tree.loaded surroundings invocation = .ok (layers, plan) ∧
          ∃ error, draw plan.issues plan.directory
            ((invocation.drawing baseUrl).drawOptions layers plan) = .error error) := by
  have hloaded : tree.loaded surroundings (invocation.drawing baseUrl) =
      tree.loaded surroundings invocation := rfl
  have hchecked : tree.loaded { surroundings with time } invocation.checking =
      tree.loaded surroundings invocation := rfl
  have hdrawing := status_of_render (invocation.drawing baseUrl) surroundings tree rfl
  have hchecking := status_of_check invocation.checking { surroundings with time } tree rfl
  constructor
  · rw [hdrawing, hchecking, loadedStatus, loadedStatus, hloaded, hchecked]
    cases tree.loaded surroundings invocation with
    | error failure => rfl
    | ok found =>
      exact congrArg ExitStatus.number (drawStatus_drawing invocation baseUrl found.1 found.2)
  · rw [hdrawing, number_loadedStatus_eq_four_iff, hloaded]

end Invocation

end PlanChart
