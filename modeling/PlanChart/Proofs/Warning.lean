import PlanChart.Proofs.Console
import PlanChart.Proofs.Layering

/-!
# When a run warns of relative links

A drawing for a person warns that its links are relative when the base URL is empty as it is given.
What stands in front of the links is the base URL without the blank characters around it. So the
warning is missing when there is nothing but blank characters in it. Apart from the warning, a
drawing says which dependencies it leaves out, and in the end what has made it fail or where its
document is.
-/

namespace PlanChart

/-! ### Blank base URLs -/

lemma Blank.trim_eq_empty_iff {text : String} :
    trim text = "" ↔ ∀ c ∈ text.toList, isBlank c = true := by
  have hchars : trim text = "" ↔ ∀ c ∈ text.toList.dropWhile isBlank, isBlank c = true := by
    rw [trim, ← String.toList_inj]
    simp
  rw [hchars]
  constructor
  · intro h c hc
    rw [← List.takeWhile_append_dropWhile (p := isBlank) (l := text.toList), List.mem_append] at hc
    exact hc.elim List.mem_takeWhile_imp (h c)
  · exact fun h c hc => h c (List.dropWhile_subset _ hc)

/-- Nothing stands in front of the links when a base URL is blank. -/
lemma BaseUrl.normalize_eq_empty_iff {url : String} :
    normalize url = "" ↔ ∀ c ∈ url.toList, Blank.isBlank c = true := by
  rw [← Blank.trim_eq_empty_iff]
  unfold normalize
  dsimp only
  split
  · rfl
  · rename_i hne
    have htrimmed : Blank.trim url ≠ "" := by
      rintro heq
      simp [heq] at hne
    simp [htrimmed]

/-! ### What a drawing says -/

/-- The line that warns of relative links. -/
def relativeWarning : String :=
  "Warning: No base URL configured; issue links are relative\n"

namespace Invocation

/-- What a drawing says of the dependencies that it leaves out, one line for each. It does not come
to them when it cannot build a forest. -/
def dropped (invocation : Invocation) (surroundings : Surroundings) (layers : Layers) (plan : Plan) :
    String :=
  match Forest.build plan.issues plan.directory (invocation.categoryField? layers)
      (invocation.policy layers), invocation.policy layers with
  | .ok _, .drop =>
    String.join (plan.issues.flatMap fun issue =>
      (issue.dependencies.filter (· ∉ plan.issues.map Issue.id)).map fun dependency =>
        surroundings.time ++ "  WARN dropping dependency on unknown issue item=" ++ issue.id ++
          " dependency=" ++ dependency ++ "\n")
  | _, _ => ""

/-- What a drawing says in the end: what has made it fail, or in which file its document is. -/
def closing (invocation : Invocation) (tree : FileTree) (output : Option String) (plan : Plan) :
    Except Failure Unit → String
  | .error failure => (failure.report invocation.plan (invocation.planExists tree failure)).2
  | .ok () =>
    match output with
    | none => ""
    | some path => "Rendered " ++ toString plan.issues.length ++ " issues to: " ++ path ++ "\n"

section

variable {invocation : Invocation} {surroundings : Surroundings} {tree : FileTree}
  {layers : Layers} {plan : Plan} {baseUrl output : Option String}

lemma json_eq_false (hchatty : invocation.isChatty = true) : invocation.json = false := by
  cases hjson : invocation.json
  · rfl
  · simp [isChatty, hjson] at hchatty

/-- Before a drawing ends, it has said whether its links are relative and what it leaves out. -/
lemma failureNotes_eq (hchatty : invocation.isChatty = true) :
    invocation.failureNotes surroundings layers plan =
      (if invocation.baseUrl layers plan = "" then relativeWarning else "") ++
        invocation.dropped surroundings layers plan := by
  have hlink : invocation.linkNote layers plan =
      if invocation.baseUrl layers plan = "" then relativeWarning else "" := by
    simp only [linkNote, note, hchatty, if_true, String.isEmpty_iff]
    rfl
  rw [failureNotes, drawnNotes, dropped, ← hlink]
  cases Forest.build plan.issues plan.directory (invocation.categoryField? layers)
      (invocation.policy layers) with
  | error error => exact String.append_empty.symm
  | ok forest =>
    cases invocation.policy layers with
    | reject => rfl
    | drop =>
      simp only [droppedLog, DependencyGraph.unresolved_ofIssues, List.map_flatMap, List.map_map,
        Function.comp_def]

/-- All that a drawing says. -/
lemma stderr_runOn (hchatty : invocation.isChatty = true)
    (haction : invocation.action = .render baseUrl output)
    (hloaded : tree.loaded surroundings invocation = .ok (layers, plan)) :
    (invocation.runOn surroundings tree).1.stderr =
      (if invocation.baseUrl layers plan = "" then relativeWarning else "") ++
        (invocation.dropped surroundings layers plan ++
          invocation.closing tree output plan (invocation.attempt surroundings tree)) := by
  have hends : invocation.Ends surroundings tree (invocation.attempt surroundings tree)
      (invocation.runOn surroundings tree) := ends_runOn
  rw [← String.append_assoc, ← failureNotes_eq hchatty, ← finalNotes_of_loaded haction hloaded]
  generalize invocation.attempt surroundings tree = attempt at hends
  generalize invocation.runOn surroundings tree = result at hends
  cases hends with
  | failed failure => simp [failed, json_eq_false hchatty, closing]
  | checked _ _ hcheck => cases hcheck.symm.trans haction
  | drawn hrender hfound document forest hsize next =>
    obtain ⟨rfl, rfl⟩ := Action.render.inj (haction.symm.trans hrender)
    obtain ⟨rfl, rfl⟩ := Prod.mk.inj (Except.ok.inj (hloaded.symm.trans hfound))
    simp only [drawn, closing, hsize]
    cases output with
    | none => exact String.append_empty.symm
    | some path =>
      dsimp only
      rw [note, if_pos hchatty]

/-- Nothing stands in front of the links just when the base URL is blank. -/
lemma linksRelative_iff :
    (invocation.drawOptions layers plan).baseUrl = "" ↔
      ∀ c ∈ (invocation.baseUrl layers plan).toList, Blank.isBlank c = true := by
  simp only [drawOptions, BaseUrl.normalize_eq_empty_iff]

end

/-- The base URL of a run is the first one that is set. A drawing for a person warns that its links
are relative just when this is empty as it is given, or when there is none. Besides it says nothing
but which dependencies it leaves out, and in the end what has made it fail or in which file its
document is. The links in the document are relative just when the base URL is blank. So the warning
is given when the links are relative, unless the base URL is blank without being empty. -/
theorem warns_iff_given_empty (invocation : Invocation) (hchatty : invocation.isChatty = true)
    (baseUrl output : Option String) (haction : invocation.action = .render baseUrl output)
    (surroundings : Surroundings) (tree : FileTree) (layers : Layers) (plan : Plan)
    (hloaded : tree.loaded surroundings invocation = .ok (layers, plan)) :
    let options := invocation.drawOptions layers plan
    let stderr := (invocation.runOn surroundings tree).1.stderr
    let others := invocation.dropped surroundings layers plan ++
      invocation.closing tree output plan (invocation.attempt surroundings tree)
    ∃ given, FirstSet (baseUrl :: (layers.byRank.map Layer.baseUrl ++ [plan.baseUrl])) given ∧
      let url := given.getD ""
      stderr = (if url = "" then relativeWarning else "") ++ others ∧
        (stderr = relativeWarning ++ others ↔ url = "") ∧
        invocation.DrawsBy surroundings tree output plan options ∧
        (options.baseUrl = "" ↔ ∀ c ∈ url.toList, Blank.isBlank c = true) ∧
        ((stderr = relativeWarning ++ others ↔ options.baseUrl = "") ↔
          ¬ (url ≠ "" ∧ ∀ c ∈ url.toList, Blank.isBlank c = true)) := by
  intro options stderr others
  refine ⟨baseUrl <|> layers.baseUrl? <|> plan.baseUrl, firstSet_layers_append _ _ _ layers, ?_⟩
  -- What stands in for the given URL is not trimmed yet: the warning is decided on this text.
  intro url
  have hurl : invocation.baseUrl layers plan = url := by
    rw [Invocation.baseUrl, baseUrl?, haction]
  have hstderr : stderr = (if url = "" then relativeWarning else "") ++ others :=
    hurl ▸ stderr_runOn hchatty haction hloaded
  have hlinks : options.baseUrl = "" ↔ ∀ c ∈ url.toList, Blank.isBlank c = true :=
    hurl ▸ linksRelative_iff
  have hwarns : stderr = relativeWarning ++ others ↔ url = "" := by
    rw [hstderr, String.append_left_inj]
    split
    · rename_i hempty
      simp [hempty]
    · rename_i hempty
      exact iff_of_false (by decide) hempty
  have hdraws : invocation.DrawsBy surroundings tree output plan options :=
    drawsBy_of_loaded haction hloaded
  refine ⟨hstderr, hwarns, hdraws, hlinks, ?_⟩
  -- Only one direction is left: an empty URL is blank, a blank one need not be empty.
  have hblank : url = "" → ∀ c ∈ url.toList, Blank.isBlank c = true := by
    intro hempty
    simp [hempty]
  rw [hwarns, hlinks]
  exact ⟨fun hsame hodd => hodd.1 (hsame.mpr hodd.2),
    fun hodd => ⟨hblank, fun h => by_contra fun hne => hodd ⟨hne, h⟩⟩⟩

end Invocation

/-! ### An example -/

/-- A plan with a single issue. -/
def solePlan : Plan :=
  { issues := [{ id := "A-1" }] }

/-- The text of the plan file. -/
def soleText : String :=
  "\x7b\"issues\":[\x7b\"id\":\"A-1\"\x7d]\x7d"

/-- A tree with nothing but the plan file. -/
def soleTree : FileTree where
  entries := [(["plan.json"], .file soleText.toUTF8)]

lemma draw_solePlan :
    draw solePlan.issues solePlan.directory {} = .ok (soleDocument "issue/A-1" "#ffffff") :=
  draw_singleton rfl (by decide) (fun _ => rfl) rfl (by decide +kernel)

namespace Invocation

/-- An invocation that draws the plan. -/
def drawingSole (baseUrl : Option String) : Invocation :=
  { action := .render baseUrl none, plan := "plan.json" }

lemma loaded_soleTree (baseUrl : Option String) :
    soleTree.loaded looseSurroundings (drawingSole baseUrl) = .ok ({}, solePlan) := by
  have hproject : soleTree.readText looseSurroundings.projectConfig = .error .notFound := by
    decide +kernel
  have hplace : soleTree.locate "plan.json" = .ok ["plan.json"] := by decide +kernel
  have hread : Plan.read soleText = .ok solePlan := by cbv
  exact FileTree.loaded_of_read rfl hproject rfl rfl (FileTree.readText_of_entry hplace rfl) hread

section

variable {baseUrl : Option String}
  (hblank : ∀ c ∈ (baseUrl.getD "").toList, Blank.isBlank c = true)

include hblank

lemma draw_drawingSole :
    draw solePlan.issues solePlan.directory ((drawingSole baseUrl).drawOptions {} solePlan) =
      .ok (soleDocument "issue/A-1" "#ffffff") := by
  have hurl : (drawingSole baseUrl).baseUrl {} solePlan = baseUrl.getD "" := by
    cases baseUrl <;> rfl
  have hoptions : (drawingSole baseUrl).drawOptions {} solePlan = {} := by
    rw [drawOptions, hurl, BaseUrl.normalize_eq_empty_iff.mpr hblank]
    rfl
  rw [hoptions, draw_solePlan]

/-- Apart from the warning nothing is said when the document is printed. -/
lemma others_drawingSole :
    (drawingSole baseUrl).dropped looseSurroundings {} solePlan ++
      (drawingSole baseUrl).closing soleTree none solePlan
        ((drawingSole baseUrl).attempt looseSurroundings soleTree) = "" := by
  have hattempt : (drawingSole baseUrl).attempt looseSurroundings soleTree = .ok () := by
    simp only [attempt, drawingSole, document]
    rw [← drawingSole, loaded_soleTree]
    simp only [bind, Except.bind, draw_drawingSole hblank, Except.mapError]
  have hdropped : (drawingSole baseUrl).dropped looseSurroundings {} solePlan = "" := by
    unfold dropped
    split <;> rfl
  rw [hattempt, hdropped]
  rfl

end

/-- Without a base URL the link in the document is relative, and the run warns of it. -/
theorem warns_drawingSole :
    let result := ((drawingSole none).runOn looseSurroundings soleTree).1
    ((drawingSole none).drawOptions {} solePlan).baseUrl = "" ∧
      result.stdout = soleDocument "issue/A-1" "#ffffff" ∧ result.stderr = relativeWarning := by
  have hblank : ∀ c ∈ ((none : Option String).getD "").toList, Blank.isBlank c = true := by simp
  obtain ⟨given, hgiven, hstderr, -, hdraws, hlinks, -⟩ := warns_iff_given_empty (drawingSole none)
    rfl none none rfl looseSurroundings soleTree _ _ (loaded_soleTree none)
  obtain rfl : none = given := firstSet_iff.mp hgiven
  rw [others_drawingSole hblank, String.append_empty] at hstderr
  exact ⟨hlinks.mpr hblank, (hdraws.delivered (draw_drawingSole hblank)).printed rfl, hstderr⟩

/-- With a blank as the base URL the link in the document is relative just the same, but the run
does not say anything. -/
theorem not_warns_drawingSole_blank :
    let result := ((drawingSole " ").runOn looseSurroundings soleTree).1
    ((drawingSole " ").drawOptions {} solePlan).baseUrl = "" ∧
      result.stdout = soleDocument "issue/A-1" "#ffffff" ∧ result.stderr = "" := by
  have hblank : ∀ c ∈ ((some " ").getD "").toList, Blank.isBlank c = true := by simp [Blank.isBlank]
  have hdraws := drawsBy_of_loaded rfl (loaded_soleTree " ")
  have hdelivered := hdraws.delivered (draw_drawingSole hblank)
  refine ⟨linksRelative_iff.mpr hblank, hdelivered.printed rfl, ?_⟩
  rw [stderr_runOn rfl rfl (loaded_soleTree " "), others_drawingSole hblank]
  rfl

end Invocation

end PlanChart
