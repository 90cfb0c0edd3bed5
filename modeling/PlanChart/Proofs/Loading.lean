import PlanChart.Command.Run
import PlanChart.Files.Tree
import PlanChart.Proofs.Reporting

/-!
# Runs on a tree of files

A run starts by reading files. This leaves them as they are, whatever is found in them, and when it
fails then not for what the plan says. So a run on a tree of files comes down to what is loaded
from the tree, which is the same for all commands.
-/

namespace PlanChart

/-! ### Loading -/

/-- The failures that can end the reading of files. -/
def Failure.IsLoading : Failure → Prop
  | .plan _ => False
  | .outputAccess .. => False
  | _ => True

lemma map_eq_ok_iff {ε α β : Type} {x : Except ε α} {f : α → β} {b : β} :
    x.map f = .ok b ↔ ∃ a, x = .ok a ∧ f a = b := by
  cases x <;> simp [Except.map]

lemma mapError_eq_ok_iff {ε ε' α : Type} {f : ε → ε'} {x : Except ε α} {a : α} :
    x.mapError f = .ok a ↔ x = .ok a := by
  cases x <;> simp [Except.mapError]

lemma mapError_eq_error_iff {ε ε' α : Type} {f : ε → ε'} {x : Except ε α} {e : ε'} :
    x.mapError f = .error e ↔ ∃ error, x = .error error ∧ f error = e := by
  cases x <;> simp [Except.mapError]

/-- A step that succeeds is followed by the next one. -/
lemma run_bind_of_ok {α β : Type} {step : ExceptT Failure (StateM FileTree) α}
    {next : α → ExceptT Failure (StateM FileTree) β} {tree tree' : FileTree} {a : α}
    (h : step.run.run tree = (.ok a, tree')) :
    (step >>= next).run.run tree = (next a).run.run tree' := by
  rw [ExceptT.run_bind, StateT.run_bind, h]
  rfl

/-- A step of a run on a tree of files comes to a result and leaves the tree as it is. -/
def Finds {α : Type} (tree : FileTree) (step : ExceptT Failure (StateM FileTree) α)
    (result : Except Failure α) : Prop :=
  step.run.run tree = (result, tree)

namespace Finds

variable {α β : Type} {tree : FileTree}

lemma pure (a : α) : Finds tree (Pure.pure a) (.ok a) := rfl

lemma throw (failure : Failure) :
    Finds (α := α) tree (MonadExcept.throw failure) (.error failure) := rfl

/-- What does not change the tree may be done without failing. -/
lemma lift {step : StateM FileTree α} {a : α} (h : step.run tree = (a, tree)) :
    Finds tree (liftM step) (.ok a) := by
  rw [Finds, ExceptT.run_liftM, StateT.run_map, h]
  rfl

/-- A step is followed by the next one, unless it fails. -/
lemma bind {step : ExceptT Failure (StateM FileTree) α}
    {next : α → ExceptT Failure (StateM FileTree) β} {result : Except Failure α}
    {nextResult : α → Except Failure β} (h : Finds tree step result)
    (hnext : ∀ a, result = .ok a → Finds tree (next a) (nextResult a)) :
    Finds tree (step >>= next) (result >>= nextResult) := by
  cases result with
  | error failure =>
    rw [Finds, ExceptT.run_bind, StateT.run_bind, h]
    rfl
  | ok a => exact (run_bind_of_ok h).trans (hnext a rfl)

end Finds

namespace FileTree

variable {tree : FileTree} {path : String}

/-- Nothing that could be read is at a path. -/
def Lacks (tree : FileTree) (path : String) : Prop :=
  ∃ error, tree.readText path = .error error ∧ error.isAbsence = true

lemma not_lacks_of_readText {text : String} (h : tree.readText path = .ok text) :
    ¬ tree.Lacks path := by
  rintro ⟨error, herror, -⟩
  rw [h] at herror
  cases herror

lemma run_holds_eq (path : String) (tree : FileTree) :
    (access.holds path).run tree =
      (match tree.readText path with
        | .error error => !error.isAbsence
        | .ok _ => true, tree) := by
  unfold FileAccess.holds
  rw [StateT.run_bind]
  change (match tree.readText path with
    | .error error => Pure.pure (!error.isAbsence)
    | .ok _ => Pure.pure true : StateM FileTree Bool).run tree = _
  cases tree.readText path <;> rfl

lemma run_holds (path : String) (tree : FileTree) : ((access.holds path).run tree).2 = tree := by
  rw [run_holds_eq]

/-- Something is at a path unless the tree lacks it. -/
lemma run_holds_eq_false_iff : ((access.holds path).run tree).1 = false ↔ tree.Lacks path := by
  rw [run_holds_eq, Lacks]
  cases tree.readText path <;> simp

section

variable {ε α : Type}

/-- What a file holds, or why that cannot be found out. -/
def fileAt (tree : FileTree) (path : String) (read : String → Except ε α)
    (access : FileError → Failure) (content : ε → Failure) : Except Failure α := do
  let text ← (tree.readText path).mapError access
  (read text).mapError content

variable {read : String → Except ε α} {access : FileError → Failure} {content : ε → Failure}

lemma fileAt_eq_ok_iff {a : α} :
    tree.fileAt path read access content = .ok a ↔
      ∃ text, tree.readText path = .ok text ∧ read text = .ok a := by
  simp only [fileAt, bind_eq_ok_iff, mapError_eq_ok_iff]

lemma fileAt_eq_error_iff {failure : Failure} :
    tree.fileAt path read access content = .error failure ↔
      (∃ error, tree.readText path = .error error ∧ access error = failure) ∨
        ∃ text, tree.readText path = .ok text ∧ ∃ fault, read text = .error fault ∧
          content fault = failure := by
  simp only [fileAt, bind_eq_error_iff, mapError_eq_error_iff, mapError_eq_ok_iff]

/-- A file is read as a text, and then the text is read. -/
lemma finds_fileAt {next : Except FileError String → ExceptT Failure (StateM FileTree) α}
    (herror : ∀ error, Finds tree (next (.error error)) (.error (access error)))
    (hok : ∀ text, Finds tree (next (.ok text)) ((read text).mapError content)) :
    Finds tree (liftM (FileTree.access.read path) >>= next)
      (tree.fileAt path read access content) := by
  have hread : Finds tree (liftM (FileTree.access.read path)) (.ok (tree.readText path)) := .lift rfl
  refine (run_bind_of_ok hread).trans ?_
  unfold fileAt
  cases tree.readText path with
  | error error => exact herror error
  | ok text => exact hok text

end

/-- The layer that a configuration file sets. -/
def layerAt (tree : FileTree) (path : String) : Except Failure Layer :=
  tree.fileAt path Layer.read (.configAccess path) (.configContent path)

/-- The layer that a configuration file sets if there is one. -/
def optionalLayerAt (tree : FileTree) (path : String) : Except Failure Layer :=
  if ((access.holds path).run tree).1 then tree.layerAt path else .ok {}

/-- The layers of all sources. -/
def layersAt (tree : FileTree) (surroundings : Surroundings) (named : Option String) :
    Except Failure Layers := do
  let user ← (surroundings.userConfig?.map tree.optionalLayerAt).getD (.ok {})
  let project ← tree.optionalLayerAt surroundings.projectConfig
  let named ← (named.map tree.layerAt).getD (.ok {})
  return { user, project, named }

/-- The plan that a plan file holds. -/
def planAt (tree : FileTree) (path : String) : Except Failure Plan :=
  tree.fileAt path Plan.read (.planAccess path) (.planContent path)

lemma finds_loadLayer (path : String) : Finds tree (access.loadLayer path) (tree.layerAt path) := by
  refine finds_fileAt (fun error => .throw _) fun text => ?_
  dsimp only
  cases Layer.read text with
  | error fault => exact .throw _
  | ok layer => exact .pure layer

lemma finds_loadPlan (path : String) : Finds tree (access.loadPlan path) (tree.planAt path) := by
  refine finds_fileAt (fun error => .throw _) fun text => ?_
  dsimp only
  cases Plan.read text with
  | error error => exact .throw _
  | ok plan => exact .pure plan

lemma finds_loadOptionalLayer (path : String) :
    Finds tree (access.loadOptionalLayer path) (tree.optionalLayerAt path) := by
  have hholds : Finds tree (liftM (access.holds path)) (.ok ((access.holds path).run tree).1) :=
    .lift (Prod.ext rfl (run_holds path tree))
  refine (run_bind_of_ok hholds).trans ?_
  unfold optionalLayerAt
  cases ((access.holds path).run tree).1 with
  | false => rfl
  | true => exact finds_loadLayer path

lemma finds_loadLayers (surroundings : Surroundings) (named : Option String) :
    Finds tree (access.loadLayers surroundings named) (tree.layersAt surroundings named) := by
  have hlayers (user project : Layer) {step : ExceptT Failure (StateM FileTree) Layer}
      {result : Except Failure Layer} (h : Finds tree step result) :
      Finds tree (do return { user, project, named := ← step : Layers })
        (do return { user, project, named := ← result : Layers }) :=
    h.bind fun named _ => .pure (Layers.mk user project named)
  have hproject : Finds tree (access.loadOptionalLayer surroundings.projectConfig)
      (tree.optionalLayerAt surroundings.projectConfig) :=
    finds_loadOptionalLayer surroundings.projectConfig
  unfold FileAccess.loadLayers layersAt
  cases named with
  | none =>
    -- The user layer comes first, and what follows it is the same whether there is one or not.
    have hrest := fun user => hproject.bind fun project _ =>
      hlayers user project (.pure ({} : Layer))
    cases surroundings.userConfig? with
    | none => exact (Finds.pure _).bind fun user _ => hrest user
    | some path => exact (finds_loadOptionalLayer path).bind fun user _ => hrest user
  | some named =>
    have hrest := fun user => hproject.bind fun project _ =>
      hlayers user project (finds_loadLayer named)
    cases surroundings.userConfig? with
    | none => exact (Finds.pure _).bind fun user _ => hrest user
    | some path => exact (finds_loadOptionalLayer path).bind fun user _ => hrest user

/-- What an invocation finds in a tree of files. -/
def loaded (tree : FileTree) (surroundings : Surroundings) (invocation : Invocation) :
    Except Failure (Layers × Plan) :=
  ((access.load surroundings invocation).run.run tree).1

lemma finds_load (tree : FileTree) (surroundings : Surroundings) (invocation : Invocation) :
    Finds tree (access.load surroundings invocation) (do
      let layers ← tree.layersAt surroundings invocation.config
      let plan ← tree.planAt invocation.plan
      return (layers, plan)) :=
  (finds_loadLayers surroundings invocation.config).bind fun _ _ =>
    (finds_loadPlan invocation.plan).bind fun _ _ => .pure _

/-- The configurations are loaded first, and then the plan. -/
lemma loaded_eq (tree : FileTree) (surroundings : Surroundings) (invocation : Invocation) :
    tree.loaded surroundings invocation = (do
      let layers ← tree.layersAt surroundings invocation.config
      let plan ← tree.planAt invocation.plan
      return (layers, plan)) := by
  rw [loaded, finds_load tree surroundings invocation]

lemma run_load (tree : FileTree) (surroundings : Surroundings) (invocation : Invocation) :
    (access.load surroundings invocation).run.run tree =
      (tree.loaded surroundings invocation, tree) := by
  rw [loaded_eq]
  exact finds_load tree surroundings invocation

/-! ### What is found -/

/-- A configuration file that does not exist sets nothing. -/
lemma optionalLayerAt_of_lacks (h : tree.Lacks path) : tree.optionalLayerAt path = .ok {} := by
  rw [optionalLayerAt, run_holds_eq_false_iff.mpr h]
  rfl

lemma optionalLayerAt_of_not_lacks (h : ¬ tree.Lacks path) :
    tree.optionalLayerAt path = tree.layerAt path := by
  rw [← run_holds_eq_false_iff, Bool.not_eq_false] at h
  rw [optionalLayerAt, h]
  rfl

/-- Where there are no configuration files, the plan is all that is loaded. -/
lemma loaded_of_read {surroundings : Surroundings} {invocation : Invocation}
    (huser : surroundings.configDirectory = none) {error : FileError}
    (hproject : tree.readText surroundings.projectConfig = .error error)
    (habsence : error.isAbsence = true) (hnamed : invocation.config = none) {text : String}
    (htext : tree.readText invocation.plan = .ok text) {plan : Plan}
    (hplan : Plan.read text = .ok plan) :
    tree.loaded surroundings invocation = .ok ({}, plan) := by
  have hlayers : tree.layersAt surroundings invocation.config = .ok {} := by
    unfold layersAt
    rw [hnamed, Surroundings.userConfig?, huser,
      optionalLayerAt_of_lacks ⟨error, hproject, habsence⟩]
    rfl
  rw [loaded_eq, hlayers, planAt, fileAt_eq_ok_iff.mpr ⟨text, htext, hplan⟩]
  rfl

/-- Why nothing is loaded. A configuration file that does not exist is a reason only if it is named.
-/
inductive LoadFails (tree : FileTree) (invocation : Invocation) : Failure → Prop
  | layerAccess {path : String} {error : FileError} (hread : tree.readText path = .error error)
      (hnamed : error.isAbsence = true → invocation.config = some path) :
      LoadFails tree invocation (.configAccess path error)
  | layerContent {path : String} {fault : Layer.Fault} :
      LoadFails tree invocation (.configContent path fault)
  | planAccess {error : FileError} (hread : tree.readText invocation.plan = .error error) :
      LoadFails tree invocation (.planAccess invocation.plan error)
  | planContent {error : Json.ReadError} :
      LoadFails tree invocation (.planContent invocation.plan error)

section

variable {surroundings : Surroundings} {invocation : Invocation} {failure : Failure}

lemma loadFails_of_layerAt (h : tree.layerAt path = .error failure)
    (hnamed : tree.Lacks path → invocation.config = some path) : LoadFails tree invocation failure := by
  rcases fileAt_eq_error_iff.mp h with ⟨error, hread, rfl⟩ | ⟨_, -, _, -, rfl⟩
  · exact .layerAccess hread fun habsence => hnamed ⟨error, hread, habsence⟩
  · exact .layerContent

lemma loadFails_of_optionalLayerAt (h : tree.optionalLayerAt path = .error failure) :
    LoadFails tree invocation failure := by
  by_cases hlacks : tree.Lacks path
  · rw [optionalLayerAt_of_lacks hlacks] at h
    cases h
  · rw [optionalLayerAt_of_not_lacks hlacks] at h
    exact loadFails_of_layerAt h fun hlacks' => absurd hlacks' hlacks

lemma loadFails_of_layersAt (h : tree.layersAt surroundings invocation.config = .error failure) :
    LoadFails tree invocation failure := by
  rcases bind_eq_error_iff.mp h with huser | ⟨user, -, h⟩
  · cases hpath : surroundings.userConfig? with
    | none =>
      rw [hpath] at huser
      cases huser
    | some path =>
      rw [hpath] at huser
      exact loadFails_of_optionalLayerAt huser
  rcases bind_eq_error_iff.mp h with hproject | ⟨project, -, h⟩
  · exact loadFails_of_optionalLayerAt hproject
  rcases bind_eq_error_iff.mp h with hnamed | ⟨named, -, h⟩
  · cases hpath : invocation.config with
    | none =>
      rw [hpath] at hnamed
      cases hnamed
    | some path =>
      rw [hpath] at hnamed
      exact loadFails_of_layerAt hnamed fun _ => hpath
  · cases h

lemma loadFails_of_planAt (h : tree.planAt invocation.plan = .error failure) :
    LoadFails tree invocation failure := by
  rcases fileAt_eq_error_iff.mp h with ⟨error, hread, rfl⟩ | ⟨_, -, _, -, rfl⟩
  · exact .planAccess hread
  · exact .planContent

lemma loadFails_of_loaded (h : tree.loaded surroundings invocation = .error failure) :
    LoadFails tree invocation failure := by
  rw [loaded_eq] at h
  rcases bind_eq_error_iff.mp h with hlayers | ⟨layers, -, h⟩
  · exact loadFails_of_layersAt hlayers
  rcases bind_eq_error_iff.mp h with hplan | ⟨plan, -, h⟩
  · exact loadFails_of_planAt hplan
  · cases h

lemma isLoading_of_loaded (h : tree.loaded surroundings invocation = .error failure) :
    failure.IsLoading := by
  cases loadFails_of_loaded h <;> trivial

end

lemma run_write (path text : String) (tree : FileTree) :
    (access.write path text).run tree =
      match tree.writeText path text with
      | .error error => (.error error, tree)
      | .ok next => (.ok (), next) := by
  change StateT.run (match tree.writeText path text with
    | .error error => Pure.pure (.error error)
    | .ok next => do set next; return .ok () : StateM FileTree (Except FileError Unit)) tree = _
  cases tree.writeText path text <;> rfl

end FileTree

/-! ### Runs -/

namespace Invocation

/-- The result of a run that fails, given the note and the text about the failure. -/
def failed (invocation : Invocation) (surroundings : Surroundings) (notes : String)
    (report : ErrorNote × String) : RunResult where
  status := report.1.exitStatus
  stdout := if invocation.json then invocation.envelope surroundings (.failure report.1) else ""
  stderr := if invocation.json then notes else notes ++ report.2

/-- Run on a tree of files. -/
def runOn (invocation : Invocation) (surroundings : Surroundings) (tree : FileTree) :
    RunResult × FileTree :=
  (invocation.run FileTree.access surroundings).run tree

/-- Whether the plan file is there, as far as that matters for a failure. -/
def planExists (invocation : Invocation) (tree : FileTree) (failure : Failure) : Bool :=
  if failure.code = "FILE_NOT_FOUND" then ((FileTree.access.holds invocation.plan).run tree).1
  else true

lemma run_fail (invocation : Invocation) (surroundings : Surroundings) (notes : String)
    (failure : Failure) (tree : FileTree) :
    (invocation.fail FileTree.access surroundings notes failure).run tree =
      (invocation.failed surroundings notes
        (failure.report invocation.plan (invocation.planExists tree failure)), tree) := by
  unfold fail planExists
  by_cases hcode : failure.code = "FILE_NOT_FOUND"
  · have hholds : (FileTree.access.holds invocation.plan).run tree =
        (((FileTree.access.holds invocation.plan).run tree).1, tree) :=
      Prod.ext rfl (FileTree.run_holds invocation.plan tree)
    rw [if_pos hcode, if_pos hcode]
    dsimp only
    rw [StateT.run_bind, hholds]
    cases hjson : invocation.json <;> simp only [failed, hjson] <;> rfl
  · rw [if_neg hcode, if_neg hcode]
    cases hjson : invocation.json <;> simp only [failed, hjson] <;> rfl

/-- A run on a tree of files does what it is to do with what is loaded from the tree. -/
lemma runOn_eq (invocation : Invocation) (surroundings : Surroundings) (tree : FileTree) :
    invocation.runOn surroundings tree =
      match tree.loaded surroundings invocation with
      | .error failure => (invocation.fail FileTree.access surroundings "" failure).run tree
      | .ok (layers, plan) =>
        match invocation.action with
        | .render _ output =>
          (invocation.runRender FileTree.access surroundings output layers plan).run tree
        | .check => (invocation.runCheck surroundings layers plan, tree) := by
  rw [runOn, run, StateT.run_bind, FileTree.run_load]
  cases tree.loaded surroundings invocation with
  | error failure => rfl
  | ok found => cases invocation.action <;> rfl

/-! ### Drawing -/

/-- How an invocation draws a plan. -/
def drawOptions (invocation : Invocation) (layers : Layers) (plan : Plan) : DrawOptions where
  baseUrl := BaseUrl.normalize (invocation.baseUrl layers plan)
  categoryField := invocation.categoryField? layers
  missingDependencies := invocation.policy layers

section

variable {invocation : Invocation} {surroundings : Surroundings} {output : Option String}
  {layers : Layers} {plan : Plan}

/-- The notes of a run that has come to a document. -/
def drawnNotes (invocation : Invocation) (surroundings : Surroundings) (layers : Layers)
    (plan : Plan) : String :=
  invocation.linkNote layers plan ++
    droppedLog surroundings (invocation.policy layers) plan.issues

/-- The notes of a run that fails after its files have been loaded. The dependencies that are
dropped are noted once the forest is built. -/
def failureNotes (invocation : Invocation) (surroundings : Surroundings) (layers : Layers)
    (plan : Plan) : String :=
  match Forest.build plan.issues plan.directory (invocation.categoryField? layers)
      (invocation.policy layers) with
  | .error _ => invocation.linkNote layers plan
  | .ok _ => invocation.drawnNotes surroundings layers plan

/-- A run that cannot draw its plan leaves the files as they are and tells why. -/
lemma run_runRender_of_error {error : PlanError}
    (h : draw plan.issues plan.directory (invocation.drawOptions layers plan) = .error error)
    (tree : FileTree) :
    (invocation.runRender FileTree.access surroundings output layers plan).run tree =
      (invocation.failed surroundings (invocation.failureNotes surroundings layers plan)
        (error.note, error.advice.text), tree) := by
  unfold runRender failureNotes
  dsimp only
  rcases bind_eq_error_iff.mp h with hbuild | ⟨forest, hbuild, hdocument⟩
  · simp only [drawOptions] at hbuild
    rw [hbuild]
    exact run_fail invocation surroundings _ (.plan error) tree
  · simp only [drawOptions] at hbuild hdocument
    rw [hbuild]
    dsimp only
    rw [hdocument]
    exact run_fail invocation surroundings _ (.plan error) tree

/-- A document is printed or written to a file. -/
lemma run_deliver (notes document : String) (forest : Forest) (tree : FileTree) :
    (invocation.deliver FileTree.access surroundings output notes document forest).run tree =
      match output with
      | none => (invocation.drawn surroundings none notes document forest, tree)
      | some path =>
        match tree.writeText path document with
        | .error error => (invocation.fail FileTree.access surroundings notes
            (.outputAccess path error)).run tree
        | .ok next => (invocation.drawn surroundings (some path) notes document forest, next) := by
  unfold deliver
  cases output with
  | none => rfl
  | some path =>
    dsimp only
    rw [StateT.run_bind, FileTree.run_write]
    cases tree.writeText path document <;> rfl

/-- A run that draws its plan delivers the document. -/
lemma run_runRender_of_ok {document : String}
    (h : draw plan.issues plan.directory (invocation.drawOptions layers plan) = .ok document)
    (tree : FileTree) :
    ∃ forest, Forest.build plan.issues plan.directory (invocation.categoryField? layers)
        (invocation.policy layers) = .ok forest ∧
      Document.ofForest forest (invocation.drawOptions layers plan).baseUrl = .ok document ∧
      (invocation.runRender FileTree.access surroundings output layers plan).run tree =
        (invocation.deliver FileTree.access surroundings output
          (invocation.drawnNotes surroundings layers plan) document forest).run tree := by
  obtain ⟨forest, hbuild, hdocument⟩ := bind_eq_ok_iff.mp h
  refine ⟨forest, hbuild, hdocument, ?_⟩
  simp only [drawOptions] at hbuild hdocument
  unfold runRender
  dsimp only
  rw [hbuild]
  dsimp only
  rw [hdocument]
  rfl

end

end Invocation

end PlanChart
