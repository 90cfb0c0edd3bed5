import PlanChart.Proofs.Envelopes
import PlanChart.Proofs.Status

/-!
# Errors are told in full

The envelope of a plan's error tells other programs everything there is to know about the error.
They find the code, the message and the advice, and the details give them back what the error names,
even where two errors have the same message.
-/

namespace PlanChart

namespace Json

/-- The text that a value is. -/
def text? : Json → Option String
  | .string text => some text
  | _ => none

/-- The texts that a value lists. -/
def texts? : Json → Option (List String)
  | .array elements => elements.mapM text?
  | _ => none

@[simp] lemma text?_string (text : String) : (string text).text? = some text :=
  rfl

@[simp] lemma texts?_ofTexts (texts : List String) : (ofTexts texts).texts? = some texts := by
  rw [ofTexts, texts?, List.mapM_map]
  induction texts with
  | nil => rfl
  | cons text texts ih => simp [List.mapM_cons, text?, ih]

section

variable {members : List (String × Json)} {name : String} {value : Json}

lemma lookup_eq_some_iff (h : members.Pairwise fun member other => member.1 ≠ other.1) :
    members.lookup name = some value ↔ (name, value) ∈ members := by
  induction h with
  | nil => simp
  | @cons member members hmember _ ih =>
    obtain ⟨other, found⟩ := member
    by_cases hname : name = other
    · subst hname
      have hnew : (name, value) ∉ members := fun hmem => hmember _ hmem rfl
      simp [hnew, eq_comm]
    · simp [List.lookup_cons, beq_false_of_ne hname, ih, hname]

lemma lookup_toList (map : Std.ExtTreeMap String Json) : map.toList.lookup name = map[name]? := by
  have hdistinct : map.toList.Pairwise fun member other => member.1 ≠ other.1 :=
    Std.ExtTreeMap.distinct_keys_toList.imp fun h => by simpa using h
  refine Option.ext fun value => ?_
  rw [lookup_eq_some_iff hdistinct, Std.ExtTreeMap.mem_toList_iff_getElem?_eq_some]

/-- Members with different names are found under their names. -/
lemma at?_ofMembers (h : members.Pairwise fun member other => member.1 ≠ other.1) :
    (ofMembers members).at? [name] = members.lookup name := by
  have hmap : (Std.ExtTreeMap.ofList members)[name]? = members.lookup name := by
    cases hlookup : members.lookup name with
    | none =>
      have hnew (value : Json) : (name, value) ∉ members := fun hmem => by
        simpa using List.lookup_eq_none_iff.mp hlookup _ hmem
      refine Std.ExtTreeMap.getElem?_ofList_of_contains_eq_false ?_
      simpa using hnew
    | some value =>
      have hmem := (lookup_eq_some_iff h).mp hlookup
      exact Std.ExtTreeMap.getElem?_ofList_of_mem Std.ReflCmp.compare_self
        (h.imp fun h => by simpa using h) hmem
  rw [Std.ExtTreeMap.ofList_eq_foldl] at hmap
  rw [ofMembers, at?, lookup_toList]
  simp [hmap, at?]

end

end Json

/-- The role that has a name. -/
def ColorRole.ofName? : String → Option ColorRole
  | "foreground" => some .foreground
  | "background" => some .background
  | _ => none

lemma ColorRole.ofName?_name (role : ColorRole) : ofName? role.name = some role := by
  cases role <;> rfl

namespace PlanError

/-- The error with a code and with details. -/
def ofDetails? (code : String) (details : Json) : Option PlanError :=
  let text? (name : String) := (details.at? [name]).bind Json.text?
  match code with
  | "INVALID_COLOR" => do
    let role ← ColorRole.ofName? (← text? "field")
    return .invalidColor (← text? "category") role (← text? "value")
  | "UNRESOLVED_DEPENDENCY" => do
    return .unresolvedDependency (← text? "item") (← text? "dependency")
  | "PARENT_CYCLE" => do
    return .parentCycle (← (details.at? ["cycle"]).bind Json.texts?)
  | "DUPLICATE_ITEM" => do
    return .duplicateItem (← text? "id")
  | "IDENTIFIER_COLLISION" => do
    return .identifierCollision (← text? "first") (← text? "second") (← text? "identifier")
  | "RESERVED_IDENTIFIER" => do
    return .reservedIdentifier (← text? "id") (← text? "identifier")
  | _ => none

/-- What an error is about can be told from its code and its details. -/
lemma ofDetails?_details (error : PlanError) : ofDetails? error.code error.details = some error := by
  cases error <;>
    simp [code, details, ofDetails?, ColorRole.ofName?_name, Json.at?_ofMembers, List.lookup_cons]

/-- There is advice on every error. -/
lemma isEmpty_suggestions (error : PlanError) : error.note.suggestions.isEmpty = false := by
  cases error <;> rfl

/-- From the envelope of an error other programs get its code, its message, its causes and then the
remedies, and details by which the code tells which error it is. So errors that have the code and
the details in common are the same. Every error ends a run with the status for faulty plans. -/
theorem told_in_full :
    (∀ (error : PlanError) (time command : String), ∃ value details,
      Json.decode (Envelope.mk (.failure error.note) time command).text = .ok value ∧
      value.at? ["success"] = some (.bool false) ∧
      value.at? ["error", "code"] = some (.string error.code) ∧
      value.at? ["error", "message"] = some (.string error.message) ∧
      value.at? ["error", "suggestions"] =
        some (.ofTexts (error.advice.causes ++ error.advice.remedies)) ∧
      value.at? ["error", "details"] = some details ∧
      ofDetails? error.code details = some error ∧
      error.note.exitStatus.number = 4) ∧
    Function.Injective fun error : PlanError => (error.code, error.details) := by
  constructor
  · intro error time command
    have hplain : (Envelope.mk (.failure error.note) time command).toJson.Plain :=
      Envelope.plain_toJson error.isPlain_note
    have hdecode := hplain.decode_print_append Json.allBlank_nil
    have hstatus : error.note.exitStatus.number = 4 :=
      (ExitStatus.number_eq_four_iff _).mpr (ExitStatus.ofCode_planError error)
    refine ⟨_, error.details, by simpa [Envelope.text] using hdecode, rfl, rfl, rfl, ?_, rfl,
      error.ofDetails?_details, hstatus⟩
    simp only [Envelope.toJson, ErrorNote.toJson, isEmpty_suggestions, Bool.false_eq_true, if_false]
    rfl
  · intro error other h
    obtain ⟨hcode, hdetails⟩ := Prod.mk.inj h
    -- Both errors are read back from the same code and the same details.
    have hother := other.ofDetails?_details
    rw [← hcode, ← hdetails, error.ofDetails?_details] at hother
    exact Option.some.inj hother

/-- Two cycles that are told in the same words are told apart by their details. -/
theorem told_in_full_parentCycle :
    (parentCycle ["A", "B", "A"]).message = (parentCycle ["A -> B", "A"]).message ∧
      (parentCycle ["A", "B", "A"]).details ≠ (parentCycle ["A -> B", "A"]).details :=
  have hne : parentCycle ["A", "B", "A"] ≠ parentCycle ["A -> B", "A"] := by decide
  ⟨by decide, fun h => hne (told_in_full.2 (Prod.ext rfl h))⟩

end PlanError

end PlanChart
