import PlanChart.Proofs.Console

/-!
# Which file is blamed

A run that fails reports one message, which tells what the run was about to do and the path of the
file that this is about. A missing plan file is reported in words of its own. These words are also
chosen when a configuration file is missing that the command line names, as long as the plan file is
missing too. The run has not come to the plan file then, and nothing is said about the file that has
made it fail.
-/

namespace PlanChart

/-! ### Messages -/

namespace Failure

/-- What is said of a failure when the file that is missing is not mistaken for another one. -/
def ownMessage : Failure → String
  | .planAccess path .notFound => (Advice.planNotFound path).message
  | failure => failure.message

lemma accessCode_eq_iff {error : FileError} :
    accessCode error = "FILE_NOT_FOUND" ↔ error = .notFound := by
  unfold accessCode
  split <;> simp_all

lemma message_report (failure : Failure) (planPath : String) (planExists : Bool) :
    (failure.report planPath planExists).1.message =
      if failure.code = "FILE_NOT_FOUND" ∧ planExists = false
        then (Advice.planNotFound planPath).message else failure.message := by
  cases failure with
  | plan error =>
    have hcode : (Failure.plan error).code ≠ "FILE_NOT_FOUND" := by
      cases error <;> simp [code, PlanError.code]
    rw [if_neg fun h => hcode h.1]
    rfl
  | _ =>
    unfold report
    simp only [Bool.not_eq_true']
    split <;> rfl

/-- The text of a report starts with its message. -/
lemma text_report (failure : Failure) (planPath : String) (planExists : Bool) :
    ∃ rest, (failure.report planPath planExists).2 =
      "Error: " ++ (failure.report planPath planExists).1.message ++ "\n" ++ rest := by
  have hadvice (advice : Advice) :
      ∃ rest, advice.text = "Error: " ++ advice.message ++ "\n" ++ rest :=
    ⟨_, String.append_assoc ..⟩
  cases failure with
  | plan error => exact hadvice error.advice
  | _ =>
    unfold report
    dsimp only
    split
    · exact hadvice (.planNotFound planPath)
    · exact ⟨"", (String.append_empty).symm⟩

/-- How the message about a missing plan file starts. -/
def planNotFound : String := "Plan file not found"

lemma planNotFound_isPrefix (path : String) :
    planNotFound.toList <+: (Advice.planNotFound path).message.toList := by
  unfold planNotFound Advice.planNotFound
  simp

/-- No other message starts like this. -/
lemma not_planNotFound_isPrefix (failure : Failure) (rest : String) :
    ¬ planNotFound.toList <+: (failure.message ++ rest).toList := by
  unfold planNotFound message cause? context
  cases failure with
  | plan error =>
    unfold PlanError.message
    cases error <;> simp
  | configContent path fault => cases fault <;> simp
  | _ => simp

end Failure

/-! ### Reports -/

/-- An error is reported by a message, either in an envelope or behind the notes of the run. -/
structure Reports (json : Bool) (notes : String) (result : RunResult) (message : String) : Prop where
  enclosed : json = true → ∃ envelope, Json.decode result.stdout = .ok envelope ∧
    envelope.at? ["error", "message"] = some (.string message)
  printed : json = false → ∃ rest, result.stderr = notes ++ ("Error: " ++ message ++ "\n" ++ rest)

namespace Reports

variable {json : Bool} {notes message other : String} {result : RunResult}

/-- All messages by which an error is reported start alike. -/
lemma isPrefix (h : Reports json notes result message) (h' : Reports json notes result other)
    {start : List Char} (hstart : start <+: message.toList) :
    ∃ rest, start <+: (other ++ rest).toList := by
  cases json with
  | true =>
    obtain ⟨envelope, hdecode, hmessage⟩ := h.enclosed rfl
    obtain ⟨envelope', hdecode', hother⟩ := h'.enclosed rfl
    obtain rfl : envelope = envelope' := Except.ok.inj (hdecode.symm.trans hdecode')
    obtain rfl : message = other := by simpa using hmessage.symm.trans hother
    exact ⟨"", by simpa using hstart⟩
  | false =>
    obtain ⟨rest, hrest⟩ := h.printed rfl
    obtain ⟨rest', hrest'⟩ := h'.printed rfl
    have heq : message.toList ++ ("\n" ++ rest).toList = (other ++ ("\n" ++ rest')).toList := by
      have hlists := congrArg String.toList (hrest.symm.trans hrest')
      simpa [List.append_assoc] using hlists
    exact ⟨"\n" ++ rest', heq ▸ hstart.trans (List.prefix_append _ _)⟩

end Reports

namespace Invocation

section

variable {invocation : Invocation} {surroundings : Surroundings} {tree : FileTree}
  {attempt : Except Failure Unit} {result : RunResult × FileTree} {failure : Failure}

lemma reports_failed (notes : String) (planExists : Bool) :
    Reports invocation.json notes (invocation.failed surroundings notes
        (failure.report invocation.plan planExists))
      (failure.report invocation.plan planExists).1.message where
  enclosed hjson := by
    have hplain : (Outcome.failure (failure.report invocation.plan planExists).1).IsPlain :=
      failure.isPlain_report invocation.plan planExists
    rw [failed, if_pos hjson]
    exact ⟨_, decode_envelope invocation surroundings hplain, rfl⟩
  printed hjson := by
    obtain ⟨rest, hrest⟩ := failure.text_report invocation.plan planExists
    refine ⟨rest, ?_⟩
    simp only [failed, hjson, Bool.false_eq_true, if_false]
    exact congrArg (notes ++ ·) hrest

/-- A note at the end of a run is no error. -/
lemma note_ne_error {text : String} (h : ¬ "Error".toList <+: (text ++ "\n").toList)
    (rest : String) : invocation.note text ≠ "Error" ++ rest := by
  intro heq
  have hlist := congrArg String.toList heq
  rw [String.toList_append] at hlist
  unfold Invocation.note at hlist
  split at hlist
  · exact h ⟨rest.toList, hlist.symm⟩
  · simp at hlist

lemma stderr_drawn_ne_error (output : Option String) (notes document rest : String)
    (forest : Forest) :
    (invocation.drawn surroundings output notes document forest).stderr ≠
      notes ++ ("Error" ++ rest) := by
  cases output with
  | none =>
    intro heq
    have hlength := congrArg String.length heq
    have herror : 0 < "Error".length := by decide
    simp only [drawn, String.length_append] at hlength
    omega
  | some path =>
    intro heq
    have hnote : invocation.note ("Rendered " ++ toString forest.size ++ " issues to: " ++ path) =
        "Error" ++ rest := (String.append_right_inj notes).mp heq
    exact note_ne_error (by simp) rest hnote

lemma TellsOf.no_message {result : RunResult}
    (h : invocation.TellsOf surroundings (.ok ()) result) {envelope : Json}
    (hdecode : Json.decode result.stdout = .ok envelope) :
    envelope.at? ["error", "message"] = none := by
  obtain ⟨outcome, hconcludes, hstdout⟩ := h
  generalize result.status = status at hconcludes
  cases hconcludes with
  | @result data _ hplain =>
    have houtcome : (Outcome.result data).IsPlain := hplain
    rw [hstdout, decode_envelope invocation surroundings houtcome] at hdecode
    obtain rfl := Except.ok.inj hdecode
    rfl

/-- A run that does what it is asked to do reports no error. -/
lemma Ends.not_reports (h : invocation.Ends surroundings tree (.ok ()) result) (message : String) :
    ¬ Reports invocation.json (invocation.finalNotes surroundings tree) result.1 message := by
  intro hreports
  -- In an envelope a message is a member; otherwise the word in front of it tells it from notes.
  cases hjson : invocation.json with
  | true =>
    obtain ⟨envelope, hdecode, hmessage⟩ := hreports.enclosed hjson
    rw [(h.tellsOf hjson).no_message hdecode] at hmessage
    cases hmessage
  | false =>
    obtain ⟨rest, hrest⟩ := hreports.printed hjson
    have hstderr : result.1.stderr = invocation.finalNotes surroundings tree ++
        ("Error" ++ (": " ++ message ++ "\n" ++ rest)) := by
      rw [hrest]
      simp [String.ext_iff]
    cases h with
    | checked layers plan haction =>
      rw [finalNotes_of_check haction, String.empty_append] at hstderr
      exact note_ne_error (by simp) _ hstderr
    | drawn haction hloaded document forest =>
      exact stderr_drawn_ne_error _ _ document _ forest hstderr

/-! ### The step that fails -/

lemma not_lacks_of_loaded {found : Layers × Plan}
    (h : tree.loaded surroundings invocation = .ok found) : ¬ tree.Lacks invocation.plan := by
  rw [FileTree.loaded_eq] at h
  obtain ⟨layers, -, h⟩ := bind_eq_ok_iff.mp h
  obtain ⟨plan, hplan, -⟩ := bind_eq_ok_iff.mp h
  obtain ⟨text, htext, -⟩ := FileTree.fileAt_eq_ok_iff.mp hplan
  exact FileTree.not_lacks_of_readText htext

/-- An attempt fails while its files are loaded, or when the plan file has been read already. -/
lemma loadFails_or_not_lacks (h : invocation.attempt surroundings tree = .error failure) :
    tree.LoadFails invocation failure ∨ ¬ failure.IsLoading ∧ ¬ tree.Lacks invocation.plan := by
  cases hloaded : tree.loaded surroundings invocation with
  | error other =>
    obtain rfl : other = failure :=
      Except.error.inj ((attempt_of_loaded_error hloaded).symm.trans h)
    exact .inl (FileTree.loadFails_of_loaded hloaded)
  | ok found =>
    refine .inr ⟨?_, not_lacks_of_loaded hloaded⟩
    -- What is left to fail is the drawing of the plan and the writing of the document.
    cases haction : invocation.action with
    | check => simp [attempt, haction, hloaded, Except.map] at h
    | render baseUrl output =>
      simp only [attempt, haction, document, hloaded] at h
      rcases bind_eq_error_iff.mp h with hdocument | ⟨document, -, houtput⟩
      · rcases bind_eq_error_iff.mp hdocument with hfound | ⟨found, -, hdraw⟩
        · cases hfound
        · obtain ⟨error, -, rfl⟩ := mapError_eq_error_iff.mp hdraw
          exact id
      · cases output with
        | none => cases houtput
        | some path =>
          obtain ⟨error, -, rfl⟩ := mapError_eq_error_iff.mp houtput
          exact id

/-- A configuration file that is named and the plan file are both missing, and the run fails for
lack of the former. -/
structure LacksBoth (invocation : Invocation) (surroundings : Surroundings) (tree : FileTree)
    (config : String) : Prop where
  named : invocation.config = some config
  failed : invocation.attempt surroundings tree = .error (.configAccess config .notFound)
  plan : tree.Lacks invocation.plan

/-- A configuration file that is named must be there, once the other ones have been loaded. -/
lemma loaded_of_config_error {config : String} {error : FileError} {lower : Layers}
    (hnamed : invocation.config = some config) (hread : tree.readText config = .error error)
    (hlower : tree.layersAt surroundings none = .ok lower) :
    tree.loaded surroundings invocation = .error (.configAccess config error) := by
  have hlayer : tree.layerAt config = .error (.configAccess config error) :=
    FileTree.fileAt_eq_error_iff.mpr (.inl ⟨error, hread, rfl⟩)
  obtain ⟨user, huser, hlower⟩ := bind_eq_ok_iff.mp hlower
  obtain ⟨project, hproject, -⟩ := bind_eq_ok_iff.mp hlower
  rw [FileTree.loaded_eq, FileTree.layersAt, huser, hnamed]
  simp only [bind, Except.bind, hproject, Option.map_some, Option.getD_some, hlayer]

lemma planExists_eq_false_iff (hcode : failure.code = "FILE_NOT_FOUND") :
    invocation.planExists tree failure = false ↔ tree.Lacks invocation.plan := by
  rw [planExists, if_pos hcode]
  exact FileTree.run_holds_eq_false_iff

/-- When a missing file makes a run fail while the plan file is missing too, then it is the plan
file itself or a configuration file that is named. -/
lemma eq_of_lacks (h : invocation.attempt surroundings tree = .error failure)
    (hcode : failure.code = "FILE_NOT_FOUND") (hlacks : tree.Lacks invocation.plan) :
    failure = .planAccess invocation.plan .notFound ∨
      ∃ config, failure = .configAccess config .notFound ∧
        invocation.LacksBoth surroundings tree config := by
  rcases loadFails_or_not_lacks h with hloading | ⟨-, hnot⟩
  · cases hloading with
    | layerAccess hread hnamed =>
      obtain rfl := Failure.accessCode_eq_iff.mp hcode
      exact .inr ⟨_, rfl, hnamed rfl, h, hlacks⟩
    | planAccess hread =>
      obtain rfl := Failure.accessCode_eq_iff.mp hcode
      exact .inl rfl
    | layerContent => simp [Failure.code] at hcode
    | planContent => simp [Failure.code] at hcode
  · exact absurd hlacks hnot

/-- A plan file that cannot be found is missing. -/
lemma lacks_of_planAccess {path : String}
    (h : invocation.attempt surroundings tree = .error (.planAccess path .notFound)) :
    path = invocation.plan ∧ tree.Lacks invocation.plan := by
  rcases loadFails_or_not_lacks h with hloading | ⟨hnot, -⟩
  · cases hloading with
    | planAccess hread => exact ⟨rfl, .notFound, hread, rfl⟩
  · exact absurd trivial hnot

/-- What a run reports of an attempt that fails. -/
def reportedMessage (invocation : Invocation) (tree : FileTree) (failure : Failure) : String :=
  (failure.report invocation.plan (invocation.planExists tree failure)).1.message

lemma reportedMessage_of_lacks (hcode : failure.code = "FILE_NOT_FOUND")
    (hlacks : tree.Lacks invocation.plan) :
    invocation.reportedMessage tree failure = (Advice.planNotFound invocation.plan).message := by
  have hexists := (planExists_eq_false_iff hcode).mpr hlacks
  rw [reportedMessage, Failure.message_report, if_pos ⟨hcode, hexists⟩]

lemma reportedMessage_of_not_lacks
    (h : failure.code = "FILE_NOT_FOUND" → ¬ tree.Lacks invocation.plan) :
    invocation.reportedMessage tree failure = failure.message := by
  rw [reportedMessage, Failure.message_report, if_neg]
  rintro ⟨hcode, hexists⟩
  exact h hcode ((planExists_eq_false_iff hcode).mp hexists)

/-- A failure is reported as what it is, unless both files are missing. -/
lemma reportedMessage_of_attempt (h : invocation.attempt surroundings tree = .error failure)
    (hboth : ∀ config, ¬ invocation.LacksBoth surroundings tree config) :
    invocation.reportedMessage tree failure = failure.ownMessage := by
  by_cases hmissing : failure.code = "FILE_NOT_FOUND" ∧ tree.Lacks invocation.plan
  · rcases eq_of_lacks h hmissing.1 hmissing.2 with rfl | ⟨config, -, hconfig⟩
    · exact reportedMessage_of_lacks hmissing.1 hmissing.2
    · exact absurd hconfig (hboth config)
  · rw [reportedMessage_of_not_lacks (not_and.mp hmissing)]
    unfold Failure.ownMessage
    split
    · exact absurd ⟨rfl, (lacks_of_planAccess h).2⟩ hmissing
    · rfl

lemma Ends.reports (h : invocation.Ends surroundings tree (.error failure) result) :
    Reports invocation.json (invocation.finalNotes surroundings tree) result.1
      (invocation.reportedMessage tree failure) := by
  cases h
  exact reports_failed _ _

lemma reports_reportedMessage (h : invocation.attempt surroundings tree = .error failure) :
    Reports invocation.json (invocation.finalNotes surroundings tree)
      (invocation.runOn surroundings tree).1 (invocation.reportedMessage tree failure) := by
  have hends : invocation.Ends surroundings tree (invocation.attempt surroundings tree)
      (invocation.runOn surroundings tree) := ends_runOn
  rw [h] at hends
  exact hends.reports

/-- Where a missing plan file is reported, it is missing indeed, though it need not be what the run
has failed for. -/
lemma eq_of_reportedMessage (h : invocation.attempt surroundings tree = .error failure) {rest : String}
    (hstart : Failure.planNotFound.toList <+:
      (invocation.reportedMessage tree failure ++ rest).toList) :
    failure = .planAccess invocation.plan .notFound ∨
      ∃ config, failure = .configAccess config .notFound ∧
        invocation.LacksBoth surroundings tree config := by
  by_cases hmissing : failure.code = "FILE_NOT_FOUND" ∧ tree.Lacks invocation.plan
  · exact eq_of_lacks h hmissing.1 hmissing.2
  · rw [reportedMessage_of_not_lacks (not_and.mp hmissing)] at hstart
    exact absurd hstart (failure.not_planNotFound_isPrefix rest)

lemma LacksBoth.reports {config : String} (h : invocation.LacksBoth surroundings tree config) :
    Reports invocation.json (invocation.finalNotes surroundings tree)
      (invocation.runOn surroundings tree).1 (Advice.planNotFound invocation.plan).message := by
  have hcode : (Failure.configAccess config .notFound).code = "FILE_NOT_FOUND" := rfl
  rw [← reportedMessage_of_lacks hcode h.plan]
  exact reports_reportedMessage h.failed

lemma LacksBoth.not_reports {config : String} (h : invocation.LacksBoth surroundings tree config)
    (other : Failure) : ¬ Reports invocation.json (invocation.finalNotes surroundings tree)
      (invocation.runOn surroundings tree).1 other.message := by
  intro hother
  obtain ⟨rest, hrest⟩ := h.reports.isPrefix hother (Failure.planNotFound_isPrefix _)
  exact other.not_planNotFound_isPrefix rest hrest

end

/-- A run reports why it fails by a message about the file that it could not use. Once the other
configuration files have been loaded, a named one that cannot be read makes it fail. That is what
the run reports, unless the named file and the plan file are both missing: then it reports nothing
but the missing plan file. So a missing plan file is reported when it makes the run fail, and in
this case. -/
theorem run_reports_failure_unless_lacksBoth (invocation : Invocation) (surroundings : Surroundings)
    (tree : FileTree) :
    let attempt := invocation.attempt surroundings tree
    let reports := Reports invocation.json (invocation.finalNotes surroundings tree)
      (invocation.runOn surroundings tree).1
    let lacksBoth := invocation.LacksBoth surroundings tree
    (∀ config error lower, invocation.config = some config → tree.readText config = .error error →
      tree.layersAt surroundings none = .ok lower →
        attempt = .error (.configAccess config error) ∧
          (¬ lacksBoth config →
            reports ("Failed to read config file " ++ config ++ ": " ++ error.message))) ∧
      (∀ failure, attempt = .error failure → (∀ config, ¬ lacksBoth config) →
        reports failure.ownMessage) ∧
      (∀ config, lacksBoth config → reports ("Plan file not found: " ++ invocation.plan) ∧
        ∀ failure : Failure, ¬ reports failure.message) ∧
      ((∃ message, "Plan file not found".toList <+: message.toList ∧ reports message) ↔
        attempt = .error (.planAccess invocation.plan .notFound) ∨ ∃ config, lacksBoth config) := by
  intro attempt reports lacksBoth
  have hown (failure : Failure) (hfailure : attempt = .error failure)
      (hboth : ∀ config, ¬ lacksBoth config) : reports failure.ownMessage := by
    rw [← reportedMessage_of_attempt hfailure hboth]
    exact reports_reportedMessage hfailure
  refine ⟨fun config error lower hnamed hread hlower => ?_, hown,
    fun config hboth => ⟨hboth.reports, hboth.not_reports⟩, ?_, ?_⟩
  · have hattempt := attempt_of_loaded_error (loaded_of_config_error hnamed hread hlower)
    -- The run fails for lack of this file, so it can lack no other one besides the plan file.
    refine ⟨hattempt, fun hnot => hown _ hattempt fun other hother => ?_⟩
    obtain rfl : config = other := Option.some.inj (hnamed.symm.trans hother.named)
    exact hnot hother
  · rintro ⟨message, hstart, hmessage⟩
    cases hattempt : attempt with
    | ok =>
      have hends : invocation.Ends surroundings tree attempt (invocation.runOn surroundings tree) :=
        ends_runOn
      rw [hattempt] at hends
      exact absurd hmessage (hends.not_reports message)
    | error failure =>
      -- What is reported starts as all messages of the run do, hence as that of this failure.
      obtain ⟨rest, hrest⟩ := hmessage.isPrefix (reports_reportedMessage hattempt) hstart
      rcases eq_of_reportedMessage hattempt hrest with rfl | ⟨config, -, hconfig⟩
      · exact .inl rfl
      · exact .inr ⟨config, hconfig⟩
  · rintro (hattempt | ⟨config, hboth⟩)
    · have hcode : (Failure.planAccess invocation.plan .notFound).code = "FILE_NOT_FOUND" := rfl
      refine ⟨_, Failure.planNotFound_isPrefix invocation.plan, ?_⟩
      rw [← reportedMessage_of_lacks hcode (lacks_of_planAccess hattempt).2]
      exact reports_reportedMessage hattempt
    · exact ⟨_, Failure.planNotFound_isPrefix invocation.plan, hboth.reports⟩

/-! ### An example -/

/-- An invocation that names a configuration file which is not in the tree. -/
def strayInvocation (plan : String) : Invocation :=
  { action := .render none none, plan, config := some "nope.toml" }

lemma readText_nope : looseTree.readText "nope.toml" = .error .notFound := by
  decide +kernel

lemma layersAt_looseTree : looseTree.layersAt looseSurroundings none = .ok {} := by
  have hproject : looseTree.readText looseSurroundings.projectConfig = .error .notFound := by
    decide +kernel
  unfold FileTree.layersAt
  rw [FileTree.optionalLayerAt_of_lacks ⟨.notFound, hproject, rfl⟩]
  rfl

lemma loaded_strayInvocation (plan : String) :
    looseTree.loaded looseSurroundings (strayInvocation plan) =
      .error (.configAccess "nope.toml" .notFound) :=
  loaded_of_config_error rfl readText_nope layersAt_looseTree

/-- The plan file is there, so that the missing configuration file is reported. -/
theorem run_strayInvocation_reports_config :
    ∃ rest, ((strayInvocation "plan.json").runOn looseSurroundings looseTree).1.stderr =
      "Error: Failed to read config file nope.toml: No such file or directory (os error 2)\n" ++
        rest := by
  have hplan : looseTree.readText "plan.json" = .ok looseText := by decide +kernel
  have hthere : ¬ (strayInvocation "plan.json").LacksBoth looseSurroundings looseTree "nope.toml" :=
    fun hboth => FileTree.not_lacks_of_readText hplan hboth.plan
  obtain ⟨hconfig, -⟩ :=
    run_reports_failure_unless_lacksBoth (strayInvocation "plan.json") looseSurroundings looseTree
  obtain ⟨-, hreports⟩ := hconfig "nope.toml" .notFound {} rfl readText_nope layersAt_looseTree
  obtain ⟨rest, hrest⟩ := (hreports hthere).printed rfl
  refine ⟨rest, hrest.trans ?_⟩
  rw [finalNotes_of_loaded_error (loaded_strayInvocation "plan.json"), String.empty_append]
  rfl

/-- The plan file is missing too, and the run does not report the file for lack of which it fails.
-/
theorem run_strayInvocation_reports_plan :
    looseTree.readText "nope.toml" = .error .notFound ∧
      looseTree.layersAt looseSurroundings none = .ok {} ∧
      let reports := Reports false
        ((strayInvocation "missing.json").finalNotes looseSurroundings looseTree)
        ((strayInvocation "missing.json").runOn looseSurroundings looseTree).1
      reports "Plan file not found: missing.json" ∧
        ¬ reports "Failed to read config file nope.toml: No such file or directory (os error 2)" := by
  have hattempt : (strayInvocation "missing.json").attempt looseSurroundings looseTree =
      .error (.configAccess "nope.toml" .notFound) :=
    attempt_of_loaded_error (loaded_strayInvocation "missing.json")
  have hplan : looseTree.readText "missing.json" = .error .notFound := by decide +kernel
  have hboth : (strayInvocation "missing.json").LacksBoth looseSurroundings looseTree "nope.toml" :=
    ⟨rfl, hattempt, .notFound, hplan, rfl⟩
  exact ⟨readText_nope, layersAt_looseTree, hboth.reports,
    hboth.not_reports (.configAccess "nope.toml" .notFound)⟩

end Invocation

end PlanChart
