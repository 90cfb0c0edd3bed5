import PlanChart.Proofs.Delivery

/-!
# Other programs get one envelope

A run for other programs prints one JSON object and a line break, whatever becomes of it. The object
tells whether the run has done what it was asked to do, and if not, by which status it ends. There
is one way to get something else in front of the object: to have the document written to the very
place at which the output of the run appears.
-/

namespace PlanChart

open Json (Plain)

lemma Report.plain_toJson (report : Report) : report.toJson.Plain := by
  have hdiagnostic (diagnostic : Diagnostic) : diagnostic.toJson.Plain := by
    refine .object ?_
    cases diagnostic.item <;> simp [Plain.string]
  refine .object ?_
  simp [Plain.integer, Json.plain_map hdiagnostic]

namespace FileTree

/-- The text of the file at a place. It is empty if there is no file with a text. -/
def textAt (tree : FileTree) (place : List String) : String :=
  match tree.entry? place with
  | some (.file content) => (String.fromUTF8? content).getD ""
  | _ => ""

variable {tree next : FileTree} {path text : String} {place : List String}

lemma textAt_of_writeText (h : tree.writeText path text = .ok next)
    (hplace : tree.locate path ≠ .ok place) : next.textAt place = tree.textAt place := by
  rw [textAt, textAt, entry?_of_writeText h hplace]

lemma textAt_put {place : List String} (hplace : tree.entry? place ≠ some .directory) (text : String) :
    (tree.put place (.file text.toUTF8)).textAt place = text := by
  have hroot : place ≠ [] := by
    rintro rfl
    exact hplace rfl
  simp only [textAt, entry?_put_self hroot, fromUTF8?_toUTF8, Option.getD_some]

/-- A text is found at the place to which it is written, unless the place loses it. -/
lemma textAt_of_locate (h : tree.writeText path text = .ok next)
    (hplace : tree.locate path = .ok place) : next = tree ∨ next.textAt place = text := by
  obtain ⟨target, htarget, ⟨-, rfl⟩ | ⟨hentry, rfl⟩⟩ := exists_of_writeText h
  · exact .inl rfl
  · obtain rfl : target = place := Except.ok.inj (htarget.symm.trans hplace)
    exact .inr (textAt_put hentry text)

end FileTree

/-- What others read of the output of a run: what the run has written to the console, which is the
place where its output appears, and then what it prints. -/
def shown (console : List String) (result : RunResult × FileTree) : String :=
  result.2.textAt console ++ result.1.stdout

namespace Invocation

/-- Whether an invocation can be carried out, and why not. -/
def attempt (invocation : Invocation) (surroundings : Surroundings) (tree : FileTree) :
    Except Failure Unit :=
  match invocation.action with
  | .check => (tree.loaded surroundings invocation).map fun _ => ()
  | .render _ output => do
    let document ← invocation.document surroundings tree
    match output with
    | none => .ok ()
    | some path => ((tree.writeText path document).map fun _ => ()).mapError (.outputAccess path)

/-- What a run has to tell about an attempt, and the status by which it ends. -/
inductive Concludes : Except Failure Unit → Outcome → ExitStatus → Prop
  | result {data : Json} {status : ExitStatus} (hplain : data.Plain) :
      Concludes (.ok ()) (.result data) status
  | failure {failure : Failure} {note : ErrorNote} (hplain : note.IsPlain)
      (hcode : note.code = failure.code) :
      Concludes (.error failure) (.failure note) (.ofCode failure.code)

section

variable {invocation : Invocation} {surroundings : Surroundings} {tree : FileTree}

/-- A run prints one envelope about an attempt. -/
def TellsOf (invocation : Invocation) (surroundings : Surroundings) (attempt : Except Failure Unit)
    (result : RunResult) : Prop :=
  ∃ outcome, Concludes attempt outcome result.status ∧
    result.stdout = invocation.envelope surroundings outcome

lemma tellsOf_failed (hjson : invocation.json = true) (failure : Failure) (notes : String)
    (planExists : Bool) :
    invocation.TellsOf surroundings (.error failure)
      (invocation.failed surroundings notes (failure.report invocation.plan planExists)) := by
  have hcode := failure.code_report invocation.plan planExists
  refine ⟨.failure (failure.report invocation.plan planExists).1, ?_, by simp [failed, hjson]⟩
  rw [failed, ErrorNote.exitStatus, hcode]
  exact .failure (failure.isPlain_report invocation.plan planExists) hcode

lemma tellsOf_drawn (hjson : invocation.json = true) (output : Option String)
    (notes document : String) (forest : Forest) :
    invocation.TellsOf surroundings (.ok ())
      (invocation.drawn surroundings output notes document forest) :=
  ⟨_, .result (Drawing.plain_toJson (drawingOf document output forest)), if_pos hjson⟩

lemma tellsOf_runCheck (hjson : invocation.json = true) (layers : Layers) (plan : Plan) :
    invocation.TellsOf surroundings (.ok ()) (invocation.runCheck surroundings layers plan) :=
  ⟨_, .result (Report.plain_toJson _), if_pos hjson⟩

/-- What a run has noted by the time at which it ends. -/
def finalNotes (invocation : Invocation) (surroundings : Surroundings) (tree : FileTree) : String :=
  match invocation.action, tree.loaded surroundings invocation with
  | .render .., .ok (layers, plan) => invocation.failureNotes surroundings layers plan
  | _, _ => ""

/-- How a run ends: it fails, it has checked the plan, or it has drawn it. -/
inductive Ends (invocation : Invocation) (surroundings : Surroundings) (tree : FileTree) :
    Except Failure Unit → RunResult × FileTree → Prop
  | failed (failure : Failure) : Ends invocation surroundings tree (.error failure)
      (invocation.failed surroundings (invocation.finalNotes surroundings tree)
        (failure.report invocation.plan (invocation.planExists tree failure)), tree)
  | checked (layers : Layers) (plan : Plan) (haction : invocation.action = .check) :
      Ends invocation surroundings tree (.ok ())
        (invocation.runCheck surroundings layers plan, tree)
  | drawn {baseUrl output : Option String} {layers : Layers} {plan : Plan}
      (haction : invocation.action = .render baseUrl output)
      (hloaded : tree.loaded surroundings invocation = .ok (layers, plan))
      (document : String) (forest : Forest) (hsize : forest.size = plan.issues.length)
      (next : FileTree) :
      Ends invocation surroundings tree (.ok ())
        (invocation.drawn surroundings output (invocation.finalNotes surroundings tree) document
          forest, next)

lemma finalNotes_of_check (haction : invocation.action = .check) :
    invocation.finalNotes surroundings tree = "" := by
  rw [finalNotes, haction]

lemma finalNotes_of_loaded_error {failure : Failure}
    (hloaded : tree.loaded surroundings invocation = .error failure) :
    invocation.finalNotes surroundings tree = "" := by
  rw [finalNotes, hloaded]
  cases invocation.action <;> rfl

lemma finalNotes_of_loaded {baseUrl output : Option String} {layers : Layers} {plan : Plan}
    (haction : invocation.action = .render baseUrl output)
    (hloaded : tree.loaded surroundings invocation = .ok (layers, plan)) :
    invocation.finalNotes surroundings tree = invocation.failureNotes surroundings layers plan := by
  rw [finalNotes, haction, hloaded]

lemma attempt_of_loaded_error {failure : Failure}
    (hloaded : tree.loaded surroundings invocation = .error failure) :
    invocation.attempt surroundings tree = .error failure := by
  cases haction : invocation.action <;>
    simp [attempt, haction, document, hloaded, bind, Except.bind, Except.map]

lemma ends_of_loaded_error {failure : Failure}
    (hloaded : tree.loaded surroundings invocation = .error failure) :
    invocation.Ends surroundings tree (.error failure) (invocation.runOn surroundings tree) := by
  have hnotes := finalNotes_of_loaded_error hloaded
  rw [runOn_eq, hloaded]
  dsimp only
  rw [run_fail, ← hnotes]
  exact .failed failure

lemma ends_of_loaded {baseUrl output : Option String} {layers : Layers} {plan : Plan}
    (haction : invocation.action = .render baseUrl output)
    (hloaded : tree.loaded surroundings invocation = .ok (layers, plan)) :
    invocation.Ends surroundings tree (invocation.attempt surroundings tree)
      (invocation.runOn surroundings tree) := by
  have hnotes := finalNotes_of_loaded haction hloaded
  rw [runOn_eq, hloaded]
  simp only [attempt, haction, document, hloaded, bind, Except.bind]
  cases hdraw : draw plan.issues plan.directory (invocation.drawOptions layers plan) with
  | error error =>
    rw [run_runRender_of_error hdraw, ← hnotes]
    exact .failed (.plan error)
  | ok document =>
    obtain ⟨forest, hbuild, -, hrun⟩ := run_runRender_of_ok hdraw tree
    have hsize : forest.size = plan.issues.length := by
      obtain ⟨-, rfl⟩ := Forest.build_eq_ok_iff.mp hbuild
      exact Forest.size_ofIssues ..
    -- The forest is built, so the notes hold what is dropped whether the writing fails or not.
    rw [failureNotes, hbuild] at hnotes
    dsimp only at hnotes
    rw [hrun, run_deliver, ← hnotes]
    cases output with
    | none => exact .drawn haction hloaded document forest hsize tree
    | some path =>
      dsimp only [Except.mapError]
      cases tree.writeText path document with
      | error error =>
        dsimp only
        rw [run_fail]
        exact .failed (.outputAccess path error)
      | ok next => exact .drawn haction hloaded document forest hsize next

/-- A run ends as the attempt does. -/
lemma ends_runOn :
    invocation.Ends surroundings tree (invocation.attempt surroundings tree)
      (invocation.runOn surroundings tree) := by
  cases hloaded : tree.loaded surroundings invocation with
  | error failure =>
    rw [attempt_of_loaded_error hloaded]
    exact ends_of_loaded_error hloaded
  | ok found =>
    cases haction : invocation.action with
    | check =>
      rw [runOn_eq, hloaded]
      simp only [attempt, haction, hloaded, Except.map]
      exact .checked found.1 found.2 haction
    | render baseUrl output => exact ends_of_loaded haction hloaded

lemma Ends.tellsOf {attempt : Except Failure Unit} {result : RunResult × FileTree}
    (h : invocation.Ends surroundings tree attempt result) (hjson : invocation.json = true) :
    invocation.TellsOf surroundings attempt result.1 := by
  cases h with
  | failed failure => exact tellsOf_failed hjson failure _ _
  | checked layers plan => exact tellsOf_runCheck hjson layers plan
  | drawn haction hloaded document forest => exact tellsOf_drawn hjson _ _ document forest

lemma tellsOf_runOn (hjson : invocation.json = true) :
    invocation.TellsOf surroundings (invocation.attempt surroundings tree)
      (invocation.runOn surroundings tree).1 :=
  ends_runOn.tellsOf hjson

/-- A run leaves the files as they are, unless it writes its document to one. -/
lemma tree_runOn :
    (invocation.runOn surroundings tree).2 = tree ∨ ∃ baseUrl path document,
      invocation.action = .render baseUrl (some path) ∧
      invocation.document surroundings tree = .ok document ∧
      tree.writeText path document = .ok (invocation.runOn surroundings tree).2 := by
  cases haction : invocation.action with
  | check =>
    rw [runOn_eq]
    cases tree.loaded surroundings invocation with
    | error failure => exact .inl (undelivered_fail failure).untouched
    | ok found => simp [haction]
  | render baseUrl output =>
    cases hdocument : invocation.document surroundings tree with
    | error failure => exact .inl (runOn_of_document_error haction hdocument).untouched
    | ok document =>
      rcases runOn_of_document haction hdocument with h | ⟨path, error, -, -, h⟩
      · cases output with
        | none => exact .inl (h.untouched rfl)
        | some path => exact .inr ⟨baseUrl, path, document, rfl, rfl, h.written path rfl⟩
      · exact .inl h.untouched

end

end Invocation

/-- The text of an envelope on a line of its own tells how an attempt has ended, and so does the
status. -/
structure Tells (attempt : Except Failure Unit) (result : RunResult) (envelope : Json) : Prop where
  object : ∃ members, envelope = .object members
  line : result.stdout = envelope.print ++ "\n"
  decoded : Json.decode result.stdout = .ok envelope
  success : envelope.at? ["success"] = some (.bool attempt.isOk)
  status : ∀ failure, attempt = .error failure →
    envelope.at? ["error", "code"] = some (.string failure.code) ∧
      result.status = .ofCode failure.code

namespace Invocation

lemma TellsOf.exists_tells {invocation : Invocation} {surroundings : Surroundings}
    {attempt : Except Failure Unit} {result : RunResult}
    (h : invocation.TellsOf surroundings attempt result) :
    ∃ envelope, Tells attempt result envelope := by
  obtain ⟨outcome, hconcludes, hstdout⟩ := h
  generalize hstatus : result.status = status at hconcludes
  refine ⟨(Envelope.mk outcome surroundings.time invocation.action.name).toJson, ?_⟩
  cases hconcludes with
  | @result data _ hplain =>
    have houtcome : (Outcome.result data).IsPlain := hplain
    exact {
      object := ⟨_, rfl⟩
      line := hstdout
      decoded := hstdout ▸ decode_envelope invocation surroundings houtcome
      success := rfl
      status := nofun }
  | @failure failure note hplain hcode =>
    have houtcome : (Outcome.failure note).IsPlain := hplain
    exact {
      object := ⟨_, rfl⟩
      line := hstdout
      decoded := hstdout ▸ decode_envelope invocation surroundings houtcome
      success := rfl
      status := by
        rintro other heq
        obtain rfl : failure = other := by simpa using heq
        exact ⟨hcode ▸ rfl, hstatus⟩ }

/-- A run for other programs prints one envelope and a line break. The envelope tells whether the
invocation has been carried out; if not, it tells the code to which the status belongs. Nothing else
is read of the output of the run, except that a document which the run writes to the console stands
in front. -/
theorem run_tells_by_envelope (invocation : Invocation) (hjson : invocation.json = true)
    (surroundings : Surroundings) (tree : FileTree) (console : List String)
    (hconsole : tree.textAt console = "") :
    let result := invocation.runOn surroundings tree
    (∃ envelope, Tells (invocation.attempt surroundings tree) result.1 envelope) ∧
      (shown console result = result.1.stdout ∨ ∃ baseUrl path document,
        invocation.action = .render baseUrl (some path) ∧ tree.locate path = .ok console ∧
          invocation.document surroundings tree = .ok document ∧
          invocation.attempt surroundings tree = .ok () ∧
          shown console result = document ++ result.1.stdout) := by
  intro result
  refine ⟨(tellsOf_runOn hjson).exists_tells, ?_⟩
  rcases tree_runOn with hsame | ⟨baseUrl, path, document, haction, hdocument, hwrite⟩
  · left
    rw [shown, hsame, hconsole, String.empty_append]
  · -- Only a document that is written to the console itself can come between the envelope and it.
    by_cases hplace : tree.locate path = .ok console
    · rcases FileTree.textAt_of_locate hwrite hplace with hsame | htext
      · left
        rw [shown, hsame, hconsole, String.empty_append]
      · refine .inr ⟨baseUrl, path, document, haction, hplace, hdocument, ?_, ?_⟩
        · simp [attempt, haction, hdocument, hwrite, bind, Except.bind, Except.map, Except.mapError]
        · rw [shown, htext]
    · left
      rw [shown, FileTree.textAt_of_writeText hwrite hplace, hconsole, String.empty_append]

end Invocation

/-! ### Objects and documents -/

lemma head?_print_object (members : List (String × Json)) :
    (Json.object members).print.toList.head? = some '\x7b' := by
  cases members <;> simp [Json.print, Json.printAt]

/-- No value starts with the letter with which a document starts. -/
lemma exists_decode_error {text : String} (h : text.toList.head? = some 'd') :
    ∃ error, Json.decode text = .error error := by
  obtain ⟨chars, hchars⟩ := List.head?_eq_some_iff.mp h
  have hblank : Json.skipBlank ('d' :: chars) = 'd' :: chars := rfl
  have hdigits : ('d' :: chars).takeWhile Char.isDigit = [] := by simp
  -- The reader takes it for an integer, but no integer is written without digits.
  have hread (bound : Nat) :
      Json.readValue (bound + 1) ('d' :: chars) = .error (.here .invalidNumber ('d' :: chars)) := by
    simp [Json.readValue, hblank, Json.readInteger, Json.readDigits, hdigits, Except.map]
  rw [Json.decode, Json.readWhole, hchars]
  dsimp only [List.length_cons]
  rw [hread]
  exact ⟨_, rfl⟩

/-- A document starts like no value, whatever is printed behind it. -/
lemma IsDocument.head?_append {document : String} (h : IsDocument document) (printed : String) :
    (document ++ printed).toList.head? = some 'd' := by
  obtain ⟨issues, directory, options, hdraw⟩ := h
  obtain ⟨-, hdocument⟩ := draw_eq_ok_iff.mp hdraw
  obtain ⟨rest, hrest⟩ := Document.preamble_isPrefix hdocument
  simp [← hrest, Document.head?_preamble]

/-! ### An example -/

/-- The place of the console. -/
def devStdout : List String := ["dev", "stdout"]

/-- The tree with the plan file in which the output of a run appears as the content of a file. -/
def consoleTree : FileTree :=
  looseTree.put devStdout (.file .empty)

namespace Invocation

/-- An invocation for other programs that draws the plan of the tree. -/
def toConsole (output : Option String) : Invocation :=
  { looseInvocation .drop with action := .render none output, json := true }

lemma loaded_consoleTree (output : Option String) :
    consoleTree.loaded looseSurroundings (toConsole output) = .ok ({}, { issues := looseIssues }) := by
  have hproject : consoleTree.readText looseSurroundings.projectConfig = .error .notFound := by
    decide +kernel
  have hplace : consoleTree.locate "plan.json" = .ok ["plan.json"] := by decide +kernel
  exact FileTree.loaded_of_read rfl hproject rfl rfl (FileTree.readText_of_entry hplace rfl)
    read_looseText

lemma textAt_consoleTree : consoleTree.textAt devStdout = "" := by
  decide +kernel

/-- The plan is drawn into an envelope, and this is all there is to read. -/
theorem run_toConsole_tells_by_envelope :
    ∃ envelope,
      Tells (.ok ()) ((toConsole none).runOn looseSurroundings consoleTree).1 envelope ∧
        shown devStdout ((toConsole none).runOn looseSurroundings consoleTree) =
          envelope.print ++ "\n" := by
  obtain ⟨document, hdocument⟩ := exists_document_of_loaded rfl (loaded_consoleTree none)
  have hattempt : (toConsole none).attempt looseSurroundings consoleTree = .ok () := by
    change (do let _ ← (toConsole none).document looseSurroundings consoleTree; .ok ()) = _
    rw [hdocument]
    rfl
  obtain ⟨⟨envelope, htells⟩, hshown⟩ := run_tells_by_envelope (toConsole none) rfl
    looseSurroundings consoleTree devStdout textAt_consoleTree
  rw [hattempt] at htells
  refine ⟨envelope, htells, ?_⟩
  rcases hshown with hshown | ⟨baseUrl, path, _, haction, -⟩
  · exact hshown.trans htells.line
  · cases haction

/-- A document that is written to the console stands in front of the envelope, so that what is read
is not a value at all, let alone the text of an object. -/
theorem run_toConsole_shows_document :
    let read := shown devStdout
      ((toConsole (some "/dev/stdout")).runOn looseSurroundings consoleTree)
    (∃ error, Json.decode read = .error error) ∧
      ¬ ∃ members, read = (Json.object members).print ++ "\n" := by
  intro read
  obtain ⟨document, hdocument⟩ := exists_document_of_loaded rfl (loaded_consoleTree "/dev/stdout")
  obtain ⟨_, _, hmapped⟩ := bind_eq_ok_iff.mp hdocument
  have hdrawn : IsDocument document := ⟨_, _, _, mapError_eq_ok_iff.mp hmapped⟩
  have hplace : consoleTree.locate "/dev/stdout" = .ok devStdout := by decide +kernel
  have hentry : consoleTree.entry? devStdout = some (.file .empty) := rfl
  have hfile : consoleTree.entry? devStdout ≠ some .directory := by simp [hentry]
  have hwrite := FileTree.writeText_of_file (by decide +kernel) hplace hentry document
  have hread : read.toList.head? = some 'd' := by
    rcases runOn_of_document rfl hdocument with h | ⟨path, error, houtput, herror, -⟩
    · have hnext := Except.ok.inj (hwrite.symm.trans (h.written "/dev/stdout" rfl))
      have htext : (consoleTree.put devStdout (.file document.toUTF8)).textAt devStdout = document :=
        FileTree.textAt_put hfile document
      rw [hnext] at htext
      change (shown devStdout _).toList.head? = some 'd'
      rw [shown, htext]
      exact hdrawn.head?_append _
    · obtain rfl : "/dev/stdout" = path := by simpa using houtput
      rw [hwrite] at herror
      cases herror
  refine ⟨exists_decode_error hread, ?_⟩
  rintro ⟨members, hobject⟩
  rw [hobject] at hread
  simp [head?_print_object] at hread

end Invocation

end PlanChart
