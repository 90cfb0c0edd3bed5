import PlanChart.Proofs.Envelopes
import PlanChart.Proofs.RoundTrip
import PlanChart.Proofs.Status
import PlanChart.Proofs.Writing

/-!
# Where a drawn document is

A run that draws a plan comes to a document, or to none, whatever is to be done with it. In the end
the document is in one place: it is what the run prints, or a text inside the envelope, or the
content of a file. A run that fails leaves no document anywhere.
-/

namespace PlanChart

open Dot (Block Edge outline?)

/-! ### What a document declares -/

/-- The dependencies of all nodes are counted. -/
lemma Forest.edgeCount_eq (forest : Forest) :
    forest.edgeCount =
      ((List.range forest.size).map fun i => (forest.node i).dependencies.size).sum := by
  rw [edgeCount, ← Array.foldl_toList, ← map_node_range, List.foldl_map, List.sum_eq_foldl,
    List.foldl_map]

/-- How many nodes and clusters blocks declare, also inside of each other. -/
def Dot.declared (blocks : Grove Block) : Nat :=
  blocks.preorder.countP (·.kind = .node) + blocks.preorder.countP (·.kind = .subgraph)

namespace Document

lemma declared_blocks (forest : Forest) (baseUrl : String) (grove : Grove Nat) :
    Dot.declared (grove.map (block forest baseUrl)) = grove.preorder.length := by
  have hkind : ∀ i, decide ((block forest baseUrl i).kind = .subgraph) =
      decide ¬ decide ((block forest baseUrl i).kind = .node) = true := by
    intro i
    cases hgroup : (forest.node i).isGroup <;> simp [block, hgroup]
  rw [Dot.declared, Grove.preorder_map, List.countP_map, List.countP_map,
    List.length_eq_countP_add_countP fun i => decide ((block forest baseUrl i).kind = .node)]
  congr 2
  exact funext hkind

/-- A document declares as many nodes and clusters as a forest has nodes, and as many edges as there
are dependencies between these. -/
def Tallies (document : String) (forest : Forest) : Prop :=
  ∃ (blocks : Grove Block) (edges : List Edge), outline? document = some (blocks, edges) ∧
    Dot.declared blocks = forest.size ∧ edges.length = forest.edgeCount

lemma tallies_ofForest {issues : List Issue} {directory : Directory}
    {categoryField : Option String} {policy : MissingPolicy} {forest : Forest}
    (hbuild : Forest.build issues directory categoryField policy = .ok forest)
    {baseUrl document : String} (h : ofForest forest baseUrl = .ok document) :
    Tallies document forest := by
  obtain ⟨hbuildable, rfl⟩ := Forest.build_eq_ok_iff.mp hbuild
  have hsound := hbuildable.sound directory categoryField
  obtain ⟨grove, hgrove⟩ := hsound.exists_unfolds
  have hperm := hsound.preorder_perm hgrove
  have hlegible : ∀ i < (Forest.ofIssues issues directory categoryField).size,
      ((Forest.ofIssues issues directory categoryField).node i).Legible := fun i hi =>
    hbuildable.legible directory categoryField (Forest.size_ofIssues issues _ _ ▸ hi)
  refine ⟨_, _, outline?_ofForest hsound hgrove hlegible h, ?_, ?_⟩
  · rw [declared_blocks, hperm.length_eq, List.length_range]
  · rw [List.length_map, dependencyPairs, List.length_flatMap, Forest.edgeCount_eq,
      ((hperm.map _).sum_eq)]
    simp

/-- What holds of a text can be found by evaluation, from its characters. -/
lemma toList_of_eval (shape : List Char → Prop) {text : String} {chars : List Char}
    (htext : text = String.ofList chars) (h : shape chars) : shape text.toList := by
  rw [htext, String.toList_ofList]
  exact h

set_option maxRecDepth 4000 in
lemma head?_preamble : preamble.toList.head? = some 'd' :=
  toList_of_eval (fun chars => chars.head? = some 'd') rfl (by decide +kernel)

set_option maxRecDepth 4000 in
lemma isSuffix_preamble : ['\n', '\n'] <:+ preamble.toList :=
  toList_of_eval (fun chars => ['\n', '\n'] <:+ chars) rfl (by decide +kernel)

/-- All documents start alike. -/
lemma preamble_isPrefix {forest : Forest} {baseUrl document : String}
    (h : ofForest forest baseUrl = .ok document) : preamble.toList <+: document.toList := by
  obtain ⟨walk, -, hwalk⟩ := bind_eq_ok_iff.mp h
  obtain rfl : assemble walk.nodes walk.edges = document := by simpa [pure, Except.pure] using hwalk
  simp only [assemble, String.toList_append, List.append_assoc]
  exact List.prefix_append _ _

/-- There is a blank line in every document. -/
lemma blank_line_of_ofForest {forest : Forest} {baseUrl document : String}
    (h : ofForest forest baseUrl = .ok document) : ['\n', '\n'] <:+: document.toList :=
  isSuffix_preamble.isInfix.trans (preamble_isPrefix h).isInfix

end Document

/-- A text that is drawn for a plan. -/
def IsDocument (text : String) : Prop :=
  ∃ issues directory options, draw issues directory options = .ok text

lemma IsDocument.not_isInfix {document text : String} (h : IsDocument document)
    (htext : ¬ ['\n', '\n'] <:+: text.toList) : ¬ document.toList <:+: text.toList := by
  obtain ⟨issues, directory, options, hdraw⟩ := h
  obtain ⟨-, hdocument⟩ := draw_eq_ok_iff.mp hdraw
  exact fun hinfix => htext ((Document.blank_line_of_ofForest hdocument).trans hinfix)

/-! ### Places of a document -/

/-- An envelope tells that a document has been drawn. It holds the document, or the path of the file
that does, and the numbers of what the document declares. -/
structure Announces (envelope : Json) (document : String) (output : Option String) : Prop where
  success : envelope.at? ["success"] = some (.bool true)
  file : envelope.at? ["data", "output"] = output.map .string
  text : envelope.at? ["data", "dot"] =
    if output.isNone then some (.string document) else none
  counts : ∃ (blocks : Grove Block) (edges : List Edge),
    outline? document = some (blocks, edges) ∧
      envelope.at? ["data", "issues"] = some (.integer (Dot.declared blocks)) ∧
      envelope.at? ["data", "edges"] = some (.integer edges.length)

/-- What a run leaves that has delivered a document. The document is in one place. -/
structure Delivered (document : String) (json : Bool) (output : Option String) (tree : FileTree)
    (result : RunResult × FileTree) : Prop where
  success : result.1.status = .success
  printed : json = false → result.1.stdout = if output.isNone then document else ""
  enclosed : json = true →
    ∃ envelope, Json.decode result.1.stdout = .ok envelope ∧ Announces envelope document output
  untouched : output = none → result.2 = tree
  written : ∀ path, output = some path → tree.writeText path document = .ok result.2
  stored : ∀ path, output = some path → ¬ tree.IsDevice path →
    result.2.readText path = .ok document
  elsewhere : ∀ path, output = some path → ∀ place, tree.locate path ≠ .ok place →
    FileTree.entry? result.2 place = tree.entry? place
  absent : output ≠ none → ¬ document.toList <:+: result.1.stdout.toList

/-- What a run leaves that has failed. It prints nothing but an envelope about the failure. -/
structure Undelivered (failure : Failure) (json : Bool) (tree : FileTree)
    (result : RunResult × FileTree) : Prop where
  failed : result.1.status ≠ .success
  untouched : result.2 = tree
  silent : json = false → result.1.stdout = ""
  reported : json = true → ∃ envelope, Json.decode result.1.stdout = .ok envelope ∧
    envelope.at? ["success"] = some (.bool false) ∧
    envelope.at? ["error", "code"] = some (.string failure.code) ∧
    envelope.at? ["data"] = none
  absent : ∀ document, IsDocument document → ¬ document.toList <:+: result.1.stdout.toList

lemma ExitStatus.ofCode_ne_success (code : String) : ofCode code ≠ .success := by
  unfold ofCode
  split <;> decide

namespace Invocation

/-- The document that an invocation comes to, or why it comes to none. -/
def document (invocation : Invocation) (surroundings : Surroundings) (tree : FileTree) :
    Except Failure String := do
  let (layers, plan) ← tree.loaded surroundings invocation
  (draw plan.issues plan.directory (invocation.drawOptions layers plan)).mapError Failure.plan

section

variable {invocation : Invocation} {surroundings : Surroundings} {tree next : FileTree}
  {notes document : String} {forest : Forest} {output : Option String}

lemma undelivered_failed (failure : Failure) (planExists : Bool) :
    Undelivered failure invocation.json tree (invocation.failed surroundings notes
      (failure.report invocation.plan planExists), tree) where
  failed := ExitStatus.ofCode_ne_success _
  untouched := rfl
  silent hjson := by simp [failed, hjson]
  reported hjson := by
    have hplain : (Outcome.failure (failure.report invocation.plan planExists).1).IsPlain :=
      failure.isPlain_report invocation.plan planExists
    have hcode := failure.code_report invocation.plan planExists
    have hdecode := decode_envelope invocation surroundings hplain
    rw [failed, if_pos hjson]
    exact ⟨_, hdecode, rfl, hcode ▸ rfl, rfl⟩
  absent document hdocument := by
    refine hdocument.not_isInfix ?_
    unfold failed
    split
    · exact envelope_not_blank_line invocation surroundings
        (failure.isPlain_report invocation.plan planExists)
    · simp

lemma undelivered_fail (failure : Failure) :
    Undelivered failure invocation.json tree
      ((invocation.fail FileTree.access surroundings notes failure).run tree) := by
  rw [run_fail]
  exact undelivered_failed failure _

/-- What an envelope tells of a drawing. -/
def drawingOf (document : String) (output : Option String) (forest : Forest) : Drawing where
  output := output
  document := if output.isNone then some document else none
  issues := forest.size
  edges := forest.edgeCount

lemma announces_drawingOf (h : Document.Tallies document forest) (time command : String) :
    Announces (Envelope.toJson ⟨.result (drawingOf document output forest).toJson, time, command⟩)
      document output := by
  obtain ⟨blocks, edges, houtline, hissues, hedges⟩ := h
  cases output <;>
    exact {
      success := rfl
      file := rfl
      text := rfl
      counts := ⟨blocks, edges, houtline, hissues ▸ rfl, hedges ▸ rfl⟩ }

/-- A run that has drawn its plan leaves the document in one place. -/
lemma delivered_drawn (hdocument : IsDocument document) (htallies : Document.Tallies document forest)
    (hnone : output = none → next = tree)
    (hsome : ∀ path, output = some path → tree.writeText path document = .ok next) :
    Delivered document invocation.json output tree
      (invocation.drawn surroundings output notes document forest, next) where
  success := rfl
  printed hjson := by simp [drawn, hjson]
  enclosed hjson := by
    have hplain : (Outcome.result (drawingOf document output forest).toJson).IsPlain :=
      Drawing.plain_toJson _
    simp only [drawn, hjson, if_true]
    exact ⟨_, decode_envelope invocation surroundings hplain, announces_drawingOf htallies _ _⟩
  untouched := hnone
  written := hsome
  stored path houtput hdevice := FileTree.readText_of_writeText (hsome path houtput) hdevice
  elsewhere path houtput place hplace := FileTree.entry?_of_writeText (hsome path houtput) hplace
  absent houtput := by
    -- A document has a blank line, which an envelope has not; otherwise nothing is printed.
    refine hdocument.not_isInfix ?_
    unfold drawn
    dsimp only
    split
    · exact envelope_not_blank_line invocation surroundings (Drawing.plain_toJson _)
    · rw [if_neg (by simpa using houtput)]
      simp

/-- A run that comes to a document delivers it, unless the file cannot be written. -/
lemma runOn_of_document {baseUrl : Option String}
    (haction : invocation.action = .render baseUrl output)
    (h : invocation.document surroundings tree = .ok document) :
    Delivered document invocation.json output tree (invocation.runOn surroundings tree) ∨
      ∃ path error, output = some path ∧ tree.writeText path document = .error error ∧
        Undelivered (.outputAccess path error) invocation.json tree
          (invocation.runOn surroundings tree) := by
  -- To come to a document everything must have been loaded, and the plan drawn.
  obtain ⟨⟨layers, plan⟩, hloaded, hmapped⟩ := bind_eq_ok_iff.mp h
  have hdraw := mapError_eq_ok_iff.mp hmapped
  have hdocument : IsDocument document := ⟨_, _, _, hdraw⟩
  obtain ⟨forest, hbuild, hforest, hrun⟩ := run_runRender_of_ok hdraw tree
  have htallies := Document.tallies_ofForest hbuild hforest
  rw [runOn_eq, hloaded]
  simp only [haction]
  rw [hrun, run_deliver]
  cases output with
  | none =>
    exact Or.inl (delivered_drawn hdocument htallies (fun _ => rfl) (by simp))
  | some path =>
    dsimp only
    cases hwrite : tree.writeText path document with
    | error error =>
      exact Or.inr ⟨path, error, rfl, hwrite, undelivered_fail (.outputAccess path error)⟩
    | ok next =>
      refine Or.inl (delivered_drawn hdocument htallies nofun fun other hother => ?_)
      obtain rfl : path = other := by simpa using hother
      exact hwrite

/-- A run that comes to no document fails for the reason of that. -/
lemma runOn_of_document_error {baseUrl : Option String} {failure : Failure}
    (haction : invocation.action = .render baseUrl output)
    (h : invocation.document surroundings tree = .error failure) :
    Undelivered failure invocation.json tree (invocation.runOn surroundings tree) := by
  rw [runOn_eq]
  rcases bind_eq_error_iff.mp h with hloaded | ⟨⟨layers, plan⟩, hloaded, hmapped⟩
  · rw [hloaded]
    exact undelivered_fail failure
  · obtain ⟨error, hdraw, rfl⟩ := mapError_eq_error_iff.mp hmapped
    rw [hloaded]
    simp only [haction]
    rw [run_runRender_of_error hdraw]
    exact undelivered_failed (.plan error) true

end

/-- A drawing comes to the same document whatever is done with it. A run either delivers this
document in one place, or fails to write it and leaves none. When there is no document, the run
tells why and leaves all files as they are. -/
theorem render_delivers_once (invocation : Invocation) (surroundings : Surroundings)
    (tree : FileTree) (baseUrl : Option String) :
    (∀ document, (invocation.drawing baseUrl).document surroundings tree = .ok document →
      ∀ output quiet json time,
        let result := runOn { invocation with action := .render baseUrl output, quiet, json }
          { surroundings with time } tree
        Delivered document json output tree result ∨
          ∃ path error, output = some path ∧ tree.writeText path document = .error error ∧
            Undelivered (.outputAccess path error) json tree result) ∧
    ∀ failure, (invocation.drawing baseUrl).document surroundings tree = .error failure →
      ∀ output quiet json time,
        Undelivered failure json tree
          (runOn { invocation with action := .render baseUrl output, quiet, json }
            { surroundings with time } tree) := by
  -- The document depends on none of the ways of delivering it.
  have hsame : ∀ output quiet json time,
      document { invocation with action := .render baseUrl output, quiet, json }
        { surroundings with time } tree =
      (invocation.drawing baseUrl).document surroundings tree := fun _ _ _ _ => rfl
  constructor
  · intro document hdocument output quiet json time
    exact runOn_of_document rfl ((hsame output quiet json time).trans hdocument)
  · intro failure hfailure output quiet json time
    exact runOn_of_document_error rfl ((hsame output quiet json time).trans hfailure)

end Invocation

/-! ### An example -/

/-- A plan with a group, a dependency on it from inside, and one that leads out of the plan. -/
def looseIssues : List Issue :=
  [{ id := "A-1" }, { id := "A-2", parent := some "A-1", dependencies := ["A-1", "B-1"] }]

/-- The text of the plan file. -/
def looseText : String :=
  "\x7b\"issues\":[\x7b\"id\":\"A-1\"\x7d,\x7b\"id\":\"A-2\",\"parent\":\"A-1\"," ++
    "\"dependencies\":[\"A-1\",\"B-1\"]\x7d]\x7d"

/-- A tree with the plan file and a device that loses what is written to it. -/
def looseTree : FileTree where
  entries := [
    (["dev"], .directory),
    (["dev", "null"], .device .empty none),
    (["plan.json"], .file looseText.toUTF8)]

/-- Surroundings without a directory for the user's configurations. -/
def looseSurroundings : Surroundings :=
  { workingDirectory := "/", configDirectory := none, time := "" }

/-- An invocation for the plan file. -/
def looseInvocation (policy : MissingPolicy) : Invocation :=
  { action := .check, plan := "plan.json", missingDependencies := some policy }

lemma read_looseText : Plan.read looseText = .ok { issues := looseIssues } := by
  cbv

lemma loaded_looseTree (policy : MissingPolicy) :
    looseTree.loaded looseSurroundings (looseInvocation policy) =
      .ok ({}, { issues := looseIssues }) := by
  have hproject : looseTree.readText looseSurroundings.projectConfig = .error .notFound := by
    decide +kernel
  have hplace : looseTree.locate "plan.json" = .ok ["plan.json"] := by decide +kernel
  exact FileTree.loaded_of_read rfl hproject rfl rfl (FileTree.readText_of_entry hplace rfl)
    read_looseText

lemma drawable_looseIssues (options : DrawOptions) (h : options.missingDependencies = .drop) :
    Drawable looseIssues (Directory.ofLists [] []) options where
  buildable := {
    ids_nodup := by decide
    identifiers_nodup := by decide
    not_keyword := by decide
    no_cycle := by
      have htable : parentTable looseIssues = #[none, some 0] := by
        rw [parentTable_eq]
        rfl
      rw [htable]
      decide +kernel
    known := by simp [h] }
  wellColored := by
    intro issue _ category hcategory
    obtain ⟨id, -, hfound⟩ := Option.bind_eq_some_iff.mp hcategory
    rw [Directory.category?_ofLists] at hfound
    cases hfound

namespace Invocation

/-- There is a document of the plan if its unknown dependency is dropped. -/
lemma exists_document_of_loaded {invocation : Invocation} {tree : FileTree}
    (hpolicy : invocation.missingDependencies = some .drop)
    (hloaded : tree.loaded looseSurroundings invocation = .ok ({}, { issues := looseIssues })) :
    ∃ document, invocation.document looseSurroundings tree = .ok document := by
  have hoptions : (invocation.drawOptions {} { issues := looseIssues }).missingDependencies =
      .drop := by
    simp [drawOptions, policy, hpolicy]
  obtain ⟨document, hdraw⟩ := exists_draw_iff.mpr (drawable_looseIssues _ hoptions)
  exact ⟨document, bind_eq_ok_iff.mpr ⟨_, hloaded, mapError_eq_ok_iff.mpr hdraw⟩⟩

lemma exists_document_looseTree :
    ∃ document, ((looseInvocation .drop).drawing none).document looseSurroundings looseTree =
      .ok document :=
  exists_document_of_loaded rfl (loaded_looseTree .drop)

/-- Under the other policy the plan has no document. -/
lemma exists_failure_looseTree :
    ∃ failure, ((looseInvocation .reject).drawing none).document looseSurroundings looseTree =
      .error failure := by
  have hloaded : looseTree.loaded looseSurroundings ((looseInvocation .reject).drawing none) =
      .ok ({}, { issues := looseIssues }) := loaded_looseTree .reject
  cases hdocument :
    ((looseInvocation .reject).drawing none).document looseSurroundings looseTree with
  | error failure => exact ⟨failure, rfl⟩
  | ok document =>
    obtain ⟨found, hfound, hmapped⟩ := bind_eq_ok_iff.mp hdocument
    rw [hloaded] at hfound
    cases hfound
    obtain ⟨hbuildable, -⟩ := draw_eq_ok_iff.mp (mapError_eq_ok_iff.mp hmapped)
    have hknown := hbuildable.known rfl looseIssues[1] (List.getElem_mem _) "B-1"
      (by simp [looseIssues])
    exact absurd hknown (by decide)

/-- The plan is drawn into an envelope. Under the policy that rejects it, not even the plan file
itself is overwritten. -/
theorem render_looseTree_delivers_once :
    (∃ document,
      ((looseInvocation .drop).drawing none).document looseSurroundings looseTree = .ok document ∧
        Delivered document true none looseTree
          (runOn { looseInvocation .drop with action := .render none none, json := true }
            looseSurroundings looseTree)) ∧
      ∃ failure,
        ((looseInvocation .reject).drawing none).document looseSurroundings looseTree =
            .error failure ∧
          Undelivered failure false looseTree
            (runOn { looseInvocation .reject with action := .render none (some "plan.json") }
              looseSurroundings looseTree) := by
  obtain ⟨document, hdocument⟩ := exists_document_looseTree
  obtain ⟨failure, hfailure⟩ := exists_failure_looseTree
  obtain ⟨hdelivered, -⟩ :=
    render_delivers_once (looseInvocation .drop) looseSurroundings looseTree none
  obtain ⟨-, hundelivered⟩ :=
    render_delivers_once (looseInvocation .reject) looseSurroundings looseTree none
  refine ⟨⟨document, hdocument, ?_⟩, failure, hfailure, ?_⟩
  · rcases hdelivered document hdocument none false true "" with h | ⟨path, _, houtput, _⟩
    · exact h
    · cases houtput
  · exact hundelivered failure hfailure (some "plan.json") false false ""

/-- A device can lose the document of a run that succeeds, so that it is nowhere. -/
theorem render_to_null_keeps_nothing :
    ∃ document,
      ((looseInvocation .drop).drawing none).document looseSurroundings looseTree = .ok document ∧
        ∃ result,
          runOn { looseInvocation .drop with action := .render none (some "/dev/null") }
            looseSurroundings looseTree = result ∧
          result.1.status = .success ∧ ¬ document.toList <:+: result.1.stdout.toList ∧
          result.2.readText "/dev/null" ≠ .ok document := by
  obtain ⟨document, hdrawing⟩ := exists_document_looseTree
  have hdocument : Invocation.document
      { looseInvocation .drop with action := .render none (some "/dev/null") }
      looseSurroundings looseTree = .ok document := hdrawing
  have hplace : looseTree.locate "/dev/null" = .ok ["dev", "null"] := by decide +kernel
  have hread : looseTree.readText "/dev/null" = .ok "" := by decide +kernel
  have hwrite : looseTree.writeText "/dev/null" document = .ok looseTree :=
    FileTree.writeText_of_device (by decide +kernel) hplace rfl document
  refine ⟨document, hdrawing, _, rfl, ?_⟩
  rcases runOn_of_document rfl hdocument with h | ⟨path, error, houtput, herror, -⟩
  · -- The device is empty, and an empty document would be a part of every output.
    have habsent := h.absent (by simp)
    refine ⟨h.success, habsent, ?_⟩
    rw [← Except.ok.inj (hwrite.symm.trans (h.written "/dev/null" rfl)), hread]
    rintro heq
    rw [← Except.ok.inj heq] at habsent
    exact habsent List.nil_infix
  · cases houtput
    rw [hwrite] at herror
    cases herror

end Invocation

end PlanChart
