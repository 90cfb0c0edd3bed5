import PlanChart.Command.Run
import PlanChart.Proofs.Json.Layout

/-!
# Envelopes are read by other programs

The envelope of a run is a plain value, whatever the run has to tell. So other programs get this
value back from the line that is printed, and there is no blank line in what is printed.
-/

namespace PlanChart

namespace Json

/-- What stands at the end of a way through objects. The way is given by the names of members. -/
def at? : List String → Json → Option Json
  | [], value => some value
  | name :: names, .object members => (members.lookup name).bind (at? names)
  | _ :: _, _ => none

/-- Inserting plain values one after another leaves only plain values in a map. -/
lemma plain_of_insert {members : List (String × Json)} (h : ∀ member ∈ members, Plain member.2)
    {map : Std.ExtTreeMap String Json}
    (hmap : ∀ (name : String) (value : Json), map[name]? = some value → Plain value)
    {name : String} {value : Json}
    (hvalue : (members.foldl (fun (map : Std.ExtTreeMap String Json) (name, value) =>
      map.insert name value) map)[name]? = some value) : Plain value := by
  induction members generalizing map with
  | nil => exact hmap name value hvalue
  | cons member members ih =>
    obtain ⟨hmember, hmembers⟩ := List.forall_mem_cons.mp h
    refine ih hmembers (fun other found hfound => ?_) hvalue
    rw [Std.ExtTreeMap.getElem?_insert] at hfound
    split at hfound
    · obtain rfl : member.2 = found := by simpa using hfound
      exact hmember
    · exact hmap other found hfound

lemma plain_ofMembers {members : List (String × Json)} (h : ∀ member ∈ members, Plain member.2) :
    (ofMembers members).Plain := by
  refine .object fun member hmember => ?_
  exact plain_of_insert h (by simp) (Std.ExtTreeMap.mem_toList_iff_getElem?_eq_some.mp hmember)

end Json

open Json (Plain plain_ofTexts plain_ofMembers)

/-! ### Plain values -/

lemma PlanError.plain_details (error : PlanError) : error.details.Plain := by
  cases error with
  | parentCycle cycle => exact plain_ofMembers (by simp [plain_ofTexts])
  | _ => exact plain_ofMembers (by simp [Plain.string])

/-- An error without details that are not plain. -/
def ErrorNote.IsPlain (note : ErrorNote) : Prop :=
  ∀ details ∈ note.details, details.Plain

lemma PlanError.isPlain_note (error : PlanError) : error.note.IsPlain := by
  intro details hdetails
  obtain rfl : error.details = details := by simpa [note] using hdetails
  exact error.plain_details

lemma Failure.isPlain_report (failure : Failure) (path : String) (planExists : Bool) :
    (failure.report path planExists).1.IsPlain := by
  cases failure with
  | plan error => exact error.isPlain_note
  | _ =>
    unfold report
    dsimp only
    split <;> simp [ErrorNote.IsPlain]

lemma ErrorNote.IsPlain.plain_toJson {note : ErrorNote} (h : note.IsPlain) : note.toJson.Plain := by
  refine .object fun member hmember => ?_
  simp only [List.mem_append, List.mem_cons, List.not_mem_nil, or_false, Option.mem_toList,
    Option.map_eq_some_iff] at hmember
  rcases hmember with ((rfl | rfl) | ⟨details, hdetails, rfl⟩) | hsuggestions
  · exact .string _
  · exact .string _
  · exact h details hdetails
  · split at hsuggestions
    · cases hsuggestions
    · obtain rfl := List.mem_singleton.mp hsuggestions
      exact plain_ofTexts note.suggestions

lemma Drawing.plain_toJson (drawing : Drawing) : drawing.toJson.Plain := by
  refine .object fun member hmember => ?_
  simp only [List.mem_append, List.mem_cons, List.not_mem_nil, or_false, Option.mem_toList,
    Option.map_eq_some_iff] at hmember
  rcases hmember with (⟨path, -, rfl⟩ | ⟨text, -, rfl⟩) | rfl | rfl
  · exact .string path
  · exact .string text
  · exact .integer _
  · exact .integer _

/-- What a run has to tell is plain. -/
def Outcome.IsPlain : Outcome → Prop
  | .result data => data.Plain
  | .failure note => note.IsPlain

lemma Envelope.plain_toJson {envelope : Envelope} (h : envelope.outcome.IsPlain) :
    envelope.toJson.Plain := by
  have hmetadata : envelope.metadata.Plain := .object (by simp [Plain.string])
  unfold toJson
  cases houtcome : envelope.outcome with
  | result data =>
    have hdata : data.Plain := by rwa [houtcome] at h
    exact .object (by simp [Plain.bool, hdata, hmetadata])
  | failure note =>
    have hnote : note.IsPlain := by rwa [houtcome] at h
    exact .object (by simp [Plain.bool, hnote.plain_toJson, hmetadata])

/-! ### Lines -/

namespace Invocation

variable {outcome : Outcome}

/-- The value of an envelope is read back from the line that holds it. -/
theorem decode_envelope (invocation : Invocation) (surroundings : Surroundings)
    (h : outcome.IsPlain) :
    Json.decode (invocation.envelope surroundings outcome) =
      .ok (Envelope.mk outcome surroundings.time invocation.action.name).toJson := by
  have hplain : (Envelope.mk outcome surroundings.time invocation.action.name).toJson.Plain :=
    Envelope.plain_toJson h
  exact hplain.decode_print

lemma envelope_not_blank_line (invocation : Invocation) (surroundings : Surroundings)
    (h : outcome.IsPlain) :
    ¬ ['\n', '\n'] <:+: (invocation.envelope surroundings outcome).toList := by
  have hplain : (Envelope.mk outcome surroundings.time invocation.action.name).toJson.Plain :=
    Envelope.plain_toJson h
  exact hplain.not_blank_line

end Invocation

end PlanChart
