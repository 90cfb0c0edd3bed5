import PlanChart.Proofs.Delivery

/-!
# Settings are layered one by one

A configuration sets what it has an entry for. For each setting of its own, the first source that
sets it counts: the command line, then the configuration file that is named, that of the working
directory and that of the user, and then for the base URL the plan. So nothing that a source sets
hides another setting of a source behind it.
-/

namespace PlanChart

/-! ### The first source -/

/-- The value of the first source that has one. -/
inductive FirstSet {α : Type} : List (Option α) → Option α → Prop
  | unset : FirstSet [] none
  | here {a : α} {sources : List (Option α)} : FirstSet (some a :: sources) (some a)
  | later {sources : List (Option α)} {value : Option α} (h : FirstSet sources value) :
      FirstSet (none :: sources) value

lemma firstSet_iff {α : Type} {sources : List (Option α)} {value : Option α} :
    FirstSet sources value ↔ sources.findSome? id = value := by
  induction sources with
  | nil =>
    constructor
    · rintro ⟨⟩
      rfl
    · rintro rfl
      exact .unset
  | cons source sources ih =>
    cases source with
    | none =>
      rw [List.findSome?_cons, id, ← ih]
      exact ⟨fun h => by cases h; assumption, .later⟩
    | some a =>
      constructor
      · rintro ⟨⟩
        rfl
      · rintro rfl
        exact .here

/-! ### What a configuration sets -/

namespace Layer

/-- The text that a value is. -/
def text? : Toml → Option String
  | .string text => some text
  | _ => none

/-- The policy with a name. -/
def policyNamed? (name : String) : Option MissingPolicy :=
  if name = "reject" then some .reject else if name = "drop" then some .drop else none

/-- The policy that a value names, either by itself or as a table with the name as its one key. -/
def policy? : Toml → Option MissingPolicy
  | .string name => policyNamed? name
  | .table _ [(name, _)] => policyNamed? name
  | _ => none

lemma text?_of_textOf {value : Toml} {text : String} (h : textOf value = .ok text) :
    text? value = some text := by
  cases value with
  | string other =>
    obtain rfl : other = text := Except.ok.inj h
    rfl
  | _ => cases h

lemma policyNamed?_of_policyOfWord {word : String} {policy : MissingPolicy}
    (h : policyOfWord word = .ok policy) : policyNamed? word = some policy := by
  unfold policyOfWord MissingPolicy.ofWord? at h
  split at h
  · rename_i heq
    split at heq
    · cases heq
      cases h
      rfl
    · cases heq
      cases h
      rfl
    · cases heq
  · cases h

lemma policy?_of_policyOf {value : Toml} {policy : MissingPolicy}
    (h : policyOf value = .ok policy) : policy? value = some policy := by
  unfold policyOf at h
  split at h
  · exact policyNamed?_of_policyOfWord h
  · obtain ⟨other, hword, h⟩ := bind_eq_ok_iff.mp h
    obtain ⟨-, -, h⟩ := bind_eq_ok_iff.mp h
    obtain rfl : other = policy := Except.ok.inj h
    exact policyNamed?_of_policyOfWord hword
  · cases h
  · cases h
  · cases h

/-- A setting as a configuration gives it: under a key, by a value that stands for something. -/
structure Setting (α : Type) where
  key : String
  value? : Toml → Option α
  get : Layer → Option α

namespace Setting

/-- What stands in front of the links. -/
def baseUrl : Setting String := ⟨"base_url", text?, Layer.baseUrl⟩

/-- What becomes of dependencies on unknown issues. -/
def missingDependencies : Setting MissingPolicy :=
  ⟨"missing_dependencies", policy?, Layer.missingDependencies⟩

/-- The custom field for categories. -/
def categoryField : Setting String := ⟨"category_field", text?, Layer.categoryField⟩

variable {α : Type}

/-- An entry sets the setting of its key and leaves the others as they are. -/
structure Lawful (setting : Setting α) : Prop where
  get_empty : setting.get {} = none
  get_put_self {layer next : Layer} {value : Toml}
    (h : layer.putEntry setting.key value = .ok next) :
    setting.value? value = setting.get next
  get_put_of_ne {layer next : Layer} {key : String} {value : Toml} (hkey : key ≠ setting.key)
    (h : layer.putEntry key value = .ok next) : setting.get next = setting.get layer

/-- An entry with another key than that of a setting passes the setting by. -/
lemma get_of_putEntry {setting : Setting α} {layer next : Layer} {key : String} {value : Toml}
    (h : layer.putEntry key value = .ok next)
    (hurl : key = "base_url" → ∀ url, setting.get { layer with baseUrl := some url } = setting.get layer)
    (hpolicy : key = "missing_dependencies" → ∀ policy,
      setting.get { layer with missingDependencies := some policy } = setting.get layer)
    (hfield : key = "category_field" → ∀ field,
      setting.get { layer with categoryField := some field } = setting.get layer) :
    setting.get next = setting.get layer := by
  unfold putEntry at h
  split at h
  · obtain ⟨url, -, rfl⟩ := map_eq_ok_iff.mp h
    exact hurl rfl url
  · obtain ⟨policy, -, rfl⟩ := map_eq_ok_iff.mp h
    exact hpolicy rfl policy
  · obtain ⟨field, -, rfl⟩ := map_eq_ok_iff.mp h
    exact hfield rfl field
  · rw [Except.ok.inj h]

lemma lawful_baseUrl : baseUrl.Lawful where
  get_empty := rfl
  get_put_self h := by
    obtain ⟨url, hurl, rfl⟩ := map_eq_ok_iff.mp h
    exact text?_of_textOf hurl
  get_put_of_ne hkey h :=
    get_of_putEntry h (fun heq => absurd heq hkey) (fun _ _ => rfl) (fun _ _ => rfl)

lemma lawful_missingDependencies : missingDependencies.Lawful where
  get_empty := rfl
  get_put_self h := by
    obtain ⟨policy, hpolicy, rfl⟩ := map_eq_ok_iff.mp h
    exact policy?_of_policyOf hpolicy
  get_put_of_ne hkey h :=
    get_of_putEntry h (fun _ _ => rfl) (fun heq => absurd heq hkey) (fun _ _ => rfl)

lemma lawful_categoryField : categoryField.Lawful where
  get_empty := rfl
  get_put_self h := by
    obtain ⟨field, hfield, rfl⟩ := map_eq_ok_iff.mp h
    exact text?_of_textOf hfield
  get_put_of_ne hkey h :=
    get_of_putEntry h (fun _ _ => rfl) (fun _ _ => rfl) (fun heq => absurd heq hkey)

end Setting

/-- The entries of a configuration's settings, when their table is given in either way. -/
def entriesOf : Toml → Toml.Entries
  | .table _ entries => entries
  | .array elements => keys.zip elements
  | .tables elements => keys.zip (elements.map (.table .header))
  | _ => []

/-- The entries of the settings in a configuration. -/
def entriesIn (text : String) : Toml.Entries :=
  (((Toml.read? text).bind (·.value? "render")).map entriesOf).getD []

namespace Setting

variable {α : Type} {setting : Setting α}

/-- What a configuration sets, if it has an entry for that. Of entries with the same key the last
one would count. -/
def valueIn (setting : Setting α) (text : String) : Option α :=
  ((entriesIn text).reverse.lookup setting.key).bind setting.value?

/-- A layer of entries has the value of the last entry with the key of a setting. -/
lemma Lawful.get_ofEntries (h : setting.Lawful) {entries : Toml.Entries} {layer : Layer}
    (hlayer : ofEntries entries = .ok layer) :
    (entries.reverse.lookup setting.key).bind setting.value? = setting.get layer := by
  -- The entry that is put last is the first one to be found from behind.
  induction entries using List.reverseRecOn generalizing layer with
  | nil =>
    obtain rfl : {} = layer := Except.ok.inj hlayer
    exact h.get_empty.symm
  | append_singleton entries entry ih =>
    obtain ⟨key, value⟩ := entry
    rw [ofEntries, List.foldlM_append] at hlayer
    obtain ⟨before, hbefore, hlast⟩ := bind_eq_ok_iff.mp hlayer
    have hput : before.putEntry key value = .ok layer := by simpa using hlast
    rw [List.reverse_append, List.reverse_singleton, List.singleton_append]
    by_cases hkey : key = setting.key
    · subst hkey
      rw [List.lookup_cons_self]
      exact h.get_put_self hput
    · have hbeq : (setting.key == key) = false := by simpa using Ne.symm hkey
      rw [h.get_put_of_ne hkey hput, ← ih hbefore, List.lookup_cons, hbeq]

lemma ofEntries_of_ofRender {render : Toml} {layer : Layer} (h : ofRender render = .ok layer) :
    ofEntries (entriesOf render) = .ok layer := by
  have helements {elements : List Toml} (h : ofElements elements = .ok layer) :
      ofEntries (keys.zip elements) = .ok layer := by
    obtain ⟨other, hother, hlength⟩ := bind_eq_ok_iff.mp h
    split at hlength
    · cases hlength
    · obtain rfl := Except.ok.inj hlength
      exact hother
  cases render with
  | table origin entries => exact h
  | moment => exact h
  | array elements => exact helements h
  | tables elements => exact helements h
  | _ => cases h

/-- A configuration is read as what its entries set. -/
lemma ofEntries_of_read {text : String} {layer : Layer} (h : Layer.read text = .ok layer) :
    ofEntries (entriesIn text) = .ok layer := by
  unfold Layer.read at h
  unfold entriesIn
  split at h
  · cases h
  · rename_i entries hentries
    rw [hentries]
    split at h
    · rename_i hrender
      obtain rfl := Except.ok.inj h
      rw [Option.bind_some, hrender]
      rfl
    · rename_i render hrender
      rw [Option.bind_some, hrender]
      exact ofEntries_of_ofRender (mapError_eq_ok_iff.mp h)

/-- A layer has for each setting the value that its configuration sets. -/
lemma Lawful.valueIn_eq (h : setting.Lawful) {text : String} {layer : Layer}
    (hread : Layer.read text = .ok layer) : setting.valueIn text = setting.get layer :=
  h.get_ofEntries (ofEntries_of_read hread)

end Setting

end Layer

/-! ### The layers of a run -/

/-- The texts of the configurations from all sources, as far as there are any. -/
structure Configurations where
  named : Option String
  project : Option String
  user : Option String

namespace Configurations

/-- The texts, those that count first in front. -/
def byRank (configurations : Configurations) : List (Option String) :=
  [configurations.named, configurations.project, configurations.user]

/-- What the configurations set. -/
def valuesOf {α : Type} (configurations : Configurations) (setting : Layer.Setting α) :
    List (Option α) :=
  configurations.byRank.map (·.bind setting.valueIn)

end Configurations

namespace FileTree

/-- The text at a path, if there is something. -/
inductive HasText (tree : FileTree) (path : String) : Option String → Prop
  | missing (h : tree.Lacks path) : HasText tree path none
  | text {text : String} (h : tree.readText path = .ok text) : HasText tree path (some text)

/-- The configurations that a run finds. There is one at each path that is named, and all of them
can be read. -/
structure Configures (tree : FileTree) (surroundings : Surroundings) (config : Option String)
    (configurations : Configurations) : Prop where
  named : config.map tree.readText = configurations.named.map .ok
  project : tree.HasText surroundings.projectConfig configurations.project
  user : surroundings.userConfig?.elim (configurations.user = none)
    (tree.HasText · configurations.user)
  readable : ∀ text, some text ∈ configurations.byRank → ∃ layer, Layer.read text = .ok layer

/-- A layer is what a configuration sets. Without one nothing is set. -/
def Layered (text : Option String) (layer : Layer) : Prop :=
  text.elim (layer = {}) (Layer.read · = .ok layer)

section

variable {tree : FileTree} {path : String} {text : Option String} {layer : Layer}

lemma exists_layered (h : ∀ read, some read = text → ∃ layer, Layer.read read = .ok layer) :
    ∃ layer, Layered text layer := by
  cases text with
  | none => exact ⟨{}, rfl⟩
  | some text => exact h text rfl

lemma Layered.bind_valueIn (h : Layered text layer) {α : Type} {setting : Layer.Setting α}
    (hsetting : setting.Lawful) : text.bind setting.valueIn = setting.get layer := by
  cases text with
  | none =>
    obtain rfl : layer = {} := h
    exact hsetting.get_empty.symm
  | some text => exact hsetting.valueIn_eq h

lemma layerAt_of_readText {read : String} (htext : tree.readText path = .ok read)
    (hread : Layer.read read = .ok layer) : tree.layerAt path = .ok layer :=
  fileAt_eq_ok_iff.mpr ⟨read, htext, hread⟩

lemma HasText.optionalLayerAt_eq (htext : tree.HasText path text) (h : Layered text layer) :
    tree.optionalLayerAt path = .ok layer := by
  cases htext with
  | missing hlacks =>
    obtain rfl : layer = {} := h
    exact optionalLayerAt_of_lacks hlacks
  | text hread =>
    rw [optionalLayerAt_of_not_lacks (not_lacks_of_readText hread)]
    exact layerAt_of_readText hread h

/-- The layer of a named configuration file. -/
lemma layerAt_eq_of_layered {config : Option String} (h : config.map tree.readText = text.map .ok)
    (hlayer : Layered text layer) : (config.map tree.layerAt).getD (.ok {}) = .ok layer := by
  cases config with
  | none =>
    obtain rfl : text = none := by simpa using h.symm
    obtain rfl : layer = {} := hlayer
    rfl
  | some path =>
    obtain ⟨read, rfl, hread⟩ := Option.map_eq_some_iff.mp h.symm
    exact layerAt_of_readText hread.symm hlayer

/-- The layer of a configuration file for which there need not be a path. -/
lemma optionalLayerAt_eq_of_layered {path? : Option String}
    (h : path?.elim (text = none) (tree.HasText · text)) (hlayer : Layered text layer) :
    (path?.map tree.optionalLayerAt).getD (.ok {}) = .ok layer := by
  cases path? with
  | none =>
    obtain rfl : text = none := h
    obtain rfl : layer = {} := hlayer
    rfl
  | some path => exact HasText.optionalLayerAt_eq h hlayer

end

/-- The layers of a run are those of its configurations. -/
lemma Configures.exists_layersAt {tree : FileTree} {surroundings : Surroundings}
    {config : Option String} {configurations : Configurations}
    (h : tree.Configures surroundings config configurations) :
    ∃ layers, tree.layersAt surroundings config = .ok layers ∧
      ∀ {α : Type} {setting : Layer.Setting α}, setting.Lawful →
        configurations.valuesOf setting = layers.byRank.map setting.get := by
  have hlayered (text : Option String) (hmem : text ∈ configurations.byRank) :
      ∃ layer, Layered text layer :=
    exists_layered fun read hread => h.readable read (hread ▸ hmem)
  obtain ⟨named, hnamed⟩ := hlayered configurations.named (by simp [Configurations.byRank])
  obtain ⟨project, hproject⟩ := hlayered configurations.project (by simp [Configurations.byRank])
  obtain ⟨user, huser⟩ := hlayered configurations.user (by simp [Configurations.byRank])
  refine ⟨{ user, project, named }, ?_, fun hsetting => ?_⟩
  · rw [layersAt, layerAt_eq_of_layered h.named hnamed, optionalLayerAt_eq_of_layered h.user huser,
      h.project.optionalLayerAt_eq hproject]
    rfl
  · simp only [Configurations.valuesOf, Configurations.byRank, Layers.byRank, List.map_cons,
      List.map_nil, hnamed.bind_valueIn hsetting, hproject.bind_valueIn hsetting,
      huser.bind_valueIn hsetting]

end FileTree

/-! ### The settings of a run -/

namespace Invocation

/-- A run draws a plan by the given options. It delivers the document that these give, unless this
cannot be written; if they give none, it fails for the reason of that. -/
structure DrawsBy (invocation : Invocation) (surroundings : Surroundings) (tree : FileTree)
    (output : Option String) (plan : Plan) (options : DrawOptions) : Prop where
  delivers : ∀ document, draw plan.issues plan.directory options = .ok document →
    Delivered document invocation.json output tree (invocation.runOn surroundings tree) ∨
      ∃ path error, output = some path ∧ tree.writeText path document = .error error ∧
        Undelivered (.outputAccess path error) invocation.json tree
          (invocation.runOn surroundings tree)
  fails : ∀ error, draw plan.issues plan.directory options = .error error →
    ∃ notes, invocation.runOn surroundings tree =
      (invocation.failed surroundings notes (error.note, error.advice.text), tree)

section

variable {invocation : Invocation} {surroundings : Surroundings} {tree : FileTree}
  {layers : Layers} {plan : Plan}

/-- A run draws what it has loaded. -/
lemma drawsBy_of_loaded {baseUrl output : Option String}
    (haction : invocation.action = .render baseUrl output)
    (hloaded : tree.loaded surroundings invocation = .ok (layers, plan)) :
    invocation.DrawsBy surroundings tree output plan (invocation.drawOptions layers plan) where
  delivers document hdraw :=
    runOn_of_document haction (bind_eq_ok_iff.mpr ⟨_, hloaded, mapError_eq_ok_iff.mpr hdraw⟩)
  fails error hdraw := by
    refine ⟨invocation.failureNotes surroundings layers plan, ?_⟩
    rw [runOn_eq, hloaded]
    simp only [haction]
    exact run_runRender_of_error hdraw tree

/-- A document that goes into no file is delivered. -/
lemma DrawsBy.delivered {options : DrawOptions} {document : String}
    (h : invocation.DrawsBy surroundings tree none plan options)
    (hdraw : draw plan.issues plan.directory options = .ok document) :
    Delivered document invocation.json none tree (invocation.runOn surroundings tree) := by
  rcases h.delivers document hdraw with h | ⟨path, _, houtput, _⟩
  · exact h
  · cases houtput

lemma runOn_of_check (haction : invocation.action = .check)
    (hloaded : tree.loaded surroundings invocation = .ok (layers, plan)) :
    invocation.runOn surroundings tree = (invocation.checked surroundings
      (check plan.issues plan.directory (invocation.categoryField? layers)
        (invocation.policy layers)), tree) := by
  rw [runOn_eq, hloaded]
  simp only [haction]
  rfl

/-- The command line counts before the layers. -/
lemma firstSet_layers {α : Type} (flag : Option α) (get : Layer → Option α) (layers : Layers) :
    FirstSet (flag :: layers.byRank.map get) (flag <|> layers.byRank.findSome? get) := by
  rw [firstSet_iff, List.findSome?_cons, List.findSome?_map]
  cases flag <;> rfl

/-- The command line counts before the layers, and they count before the plan. -/
lemma firstSet_layers_append {α : Type} (flag last : Option α) (get : Layer → Option α)
    (layers : Layers) :
    FirstSet (flag :: (layers.byRank.map get ++ [last]))
      (flag <|> layers.byRank.findSome? get <|> last) := by
  rw [firstSet_iff, List.findSome?_cons, List.findSome?_append, List.findSome?_map,
    Function.id_comp]
  cases flag with
  | some a => rfl
  | none => cases last <;> cases layers.byRank.findSome? get <;> rfl

end

/-- Each setting of a run is the first one that is set, counted from the command line over the
configurations to the plan, whichever of the other settings the sources set. A drawing and a check
take the same policy and category field; where nothing is set, missing dependencies are rejected. -/
theorem run_uses_first_set (invocation : Invocation) (surroundings : Surroundings) (tree : FileTree)
    (configurations : Configurations)
    (hconfigurations : tree.Configures surroundings invocation.config configurations)
    (text : String) (htext : tree.readText invocation.plan = .ok text)
    (plan : Plan) (hplan : Plan.read text = .ok plan) :
    ∃ policy field,
      FirstSet (invocation.missingDependencies :: configurations.valuesOf .missingDependencies)
        policy ∧
      FirstSet (invocation.categoryField :: configurations.valuesOf .categoryField) field ∧
      (∀ baseUrl output, invocation.action = .render baseUrl output →
        ∃ url, FirstSet (baseUrl :: (configurations.valuesOf .baseUrl ++ [plan.baseUrl])) url ∧
          invocation.DrawsBy surroundings tree output plan {
            baseUrl := BaseUrl.normalize (url.getD "")
            categoryField := field
            missingDependencies := policy.getD .reject }) ∧
      (invocation.action = .check → invocation.runOn surroundings tree =
        (invocation.checked surroundings
          (check plan.issues plan.directory field (policy.getD .reject)), tree)) := by
  -- All settings are found in the same layers, but each by a search of its own.
  obtain ⟨layers, hlayers, hvalues⟩ := hconfigurations.exists_layersAt
  have hloaded : tree.loaded surroundings invocation = .ok (layers, plan) := by
    rw [FileTree.loaded_eq, hlayers, FileTree.planAt,
      FileTree.fileAt_eq_ok_iff.mpr ⟨text, htext, hplan⟩]
    rfl
  have hpolicy : (invocation.missingDependencies <|>
      layers.byRank.findSome? Layer.missingDependencies).getD .reject = invocation.policy layers := by
    cases hflag : invocation.missingDependencies <;>
      simp [policy, hflag, Layers.missingDependencies]
  refine ⟨invocation.missingDependencies <|> layers.byRank.findSome? Layer.missingDependencies,
    invocation.categoryField? layers, ?_, ?_, fun baseUrl output haction => ?_, fun haction => ?_⟩
  · rw [hvalues Layer.Setting.lawful_missingDependencies]
    exact firstSet_layers _ _ layers
  · rw [hvalues Layer.Setting.lawful_categoryField]
    exact firstSet_layers _ _ layers
  · refine ⟨baseUrl <|> layers.baseUrl? <|> plan.baseUrl, ?_, ?_⟩
    · rw [hvalues Layer.Setting.lawful_baseUrl]
      exact firstSet_layers_append _ _ _ layers
    · have hurl : invocation.baseUrl layers plan =
          (baseUrl <|> layers.baseUrl? <|> plan.baseUrl).getD "" := by
        rw [Invocation.baseUrl, baseUrl?, haction]
      have hdraws := drawsBy_of_loaded haction hloaded
      rw [drawOptions, hurl] at hdraws
      rw [hpolicy]
      exact hdraws
  · rw [hpolicy]
    exact runOn_of_check haction hloaded

end Invocation

/-! ### An example -/

/-- The forest of one issue, without a link to another one. -/
def soleForest (category : Option Category) : Forest where
  nodes := #[{
    id := "A_1"
    externalId := "A-1"
    label := ""
    resolved := false
    assigneeName := none
    category := category
    parent := none
    children := #[]
    dependencies := #[] }]
  roots := #[0]

/-- The text of its node. -/
def soleNode (link filling : String) : String :=
  "  A_1 [
    label = <A-1: >;
    href = \"" ++ link ++ "\";
    fillcolor = \"" ++ filling ++ "\";
    fontcolor = \"#000000\";
    color = \"#000000\";
  ]
"

/-- The document of the forest. -/
def soleDocument (link filling : String) : String :=
  Document.preamble ++ soleNode link filling ++ "\x7d\n"

lemma parentTable_singleton {issue : Issue} (h : issue.parentId? = none) :
    parentTable [issue] = #[none] := by
  rw [parentTable_eq]
  simp [h]

/-- A plan with one issue is drawn as its node is. -/
lemma draw_singleton {issue : Issue} {directory : Directory} {options : DrawOptions}
    {category : Option Category} {link filling : String} (hparent : issue.parentId? = none)
    (hkeyword : Identifier.isKeyword issue.identifier = false)
    (hknown : options.missingDependencies = .reject → issue.dependencies = [])
    (hnode : Forest.nodeOf directory options.categoryField (Index.ofIds [issue.id]) issue none #[] =
      (soleForest category).node 0)
    (hwalk : Document.Walk.whole (soleForest category) options.baseUrl =
      .ok { cursors := [], nodes := soleNode link filling }) :
    draw [issue] directory options = .ok (soleDocument link filling) := by
  have hforest : Forest.ofIssues [issue] directory options.categoryField = soleForest category := by
    rw [Forest.ofIssues, parentTable_singleton hparent]
    exact congrArg (fun node => (⟨#[node], #[0]⟩ : Forest)) hnode
  refine draw_eq_ok_iff.mpr ⟨?_, ?_⟩
  · exact {
      ids_nodup := by simp
      identifiers_nodup := by simp
      not_keyword := by simpa using hkeyword
      no_cycle := by
        rw [parentTable_singleton hparent]
        decide +kernel
      known := by
        intro hpolicy other hother
        rw [List.mem_singleton.mp hother, hknown hpolicy]
        simp }
  · rw [hforest, Document.ofForest, hwalk]
    simp [Document.assemble, soleDocument, bind, Except.bind, pure, Except.pure]

/-- A category with a colour of its own. -/
def coreCategory : Category :=
  { id := "core", colors := some { background := some "#1a2" } }

/-- An issue that has its category in a custom field and depends on an issue that is not in the
plan. -/
def teamIssue : Issue :=
  { id := "A-1", customFields := .ofList [("Team", "core")], dependencies := ["B-1"] }

/-- The plan of the category and the issue. -/
def teamPlan : Plan :=
  { categories := [coreCategory], issues := [teamIssue] }

/-- The text of the plan file. -/
def teamText : String :=
  "\x7b\"categories\":[\x7b\"id\":\"core\",\"color\":\x7b\"background\":\"#1a2\"\x7d\x7d]," ++
    "\"issues\":[\x7b\"id\":\"A-1\",\"custom_fields\":\x7b\"Team\":\"core\"\x7d," ++
    "\"dependencies\":[\"B-1\"]\x7d]\x7d"

/-- How the plan is to be drawn. None of this is a default. -/
def teamOptions : DrawOptions :=
  { baseUrl := "https://a/", categoryField := some "Team", missingDependencies := .drop }

lemma read_teamText : Plan.read teamText = .ok teamPlan := by
  cbv

/-- The document has links to the server and the colour of the category. -/
lemma draw_teamPlan :
    draw teamPlan.issues teamPlan.directory teamOptions =
      .ok (soleDocument "https://a/issue/A-1" "#11aa22") := by
  have hcategory : teamIssue.categoryId? (some "Team") = some "core" := by decide +kernel
  have hcore : teamPlan.directory.category? "core" = some coreCategory := by
    rw [Plan.directory, Directory.category?_ofLists]
    rfl
  have hunknown : (Index.ofIds ["A-1"])["B-1"]? = none := by
    rw [Index.getElem?_ofIds]
    rfl
  -- What is looked up in the directory and in the index is known; the rest can be evaluated.
  have hnode : Forest.nodeOf teamPlan.directory (some "Team") (Index.ofIds [teamIssue.id]) teamIssue
      none #[] = (soleForest coreCategory).node 0 := by
    rw [Forest.nodeOf, hcategory, Option.bind_some, hcore]
    simp only [teamIssue, List.filterMap_cons, hunknown]
    decide +kernel
  have hdrops : teamOptions.missingDependencies = .reject → teamIssue.dependencies = [] := by
    intro hreject
    cases hreject
  exact draw_singleton rfl (by decide) hdrops hnode (by decide +kernel)

/-- A configuration that sets the policy only. -/
def droppingText : String := "[render]\nmissing_dependencies = \"drop\"\n"

/-- A configuration that sets the base URL only. -/
def linkingText : String := "[render]\nbase_url = \"https://a\"\n"

/-- A configuration that sets everything. -/
def fullText : String :=
  "[render]\nbase_url = \"https://b\"\nmissing_dependencies = \"reject\"\ncategory_field = \"Team\"\n"

/-- A tree with the plan file and a configuration file of each kind. -/
def layeredTree : FileTree where
  entries := [
    (["home"], .directory),
    (["home", "planviz"], .directory),
    (["home", "planviz", "config.toml"], .file fullText.toUTF8),
    (["planviz.toml"], .file droppingText.toUTF8),
    (["links.toml"], .file linkingText.toUTF8),
    (["plan.json"], .file teamText.toUTF8)]

/-- Surroundings with the directory for the user's configurations. -/
def homeSurroundings : Surroundings :=
  { workingDirectory := "/", configDirectory := some "/home", time := "" }

namespace Invocation

/-- An invocation that sets nothing itself. -/
def layeredInvocation : Invocation :=
  { action := .render none none, plan := "plan.json", config := some "links.toml" }

lemma read_configurations :
    Layer.read linkingText = .ok { baseUrl := some "https://a" } ∧
      Layer.read droppingText = .ok { missingDependencies := some .drop } ∧
      Layer.read fullText = .ok {
        baseUrl := some "https://b"
        missingDependencies := some .reject
        categoryField := some "Team" } := by
  refine ⟨?_, ?_, ?_⟩ <;> cbv

/-- The configurations in the tree. -/
def layeredConfigurations : Configurations :=
  { named := linkingText, project := droppingText, user := fullText }

lemma valuesOf_layeredConfigurations {α : Type} {setting : Layer.Setting α} (h : setting.Lawful) :
    layeredConfigurations.valuesOf setting = [
      setting.get { baseUrl := some "https://a" },
      setting.get { missingDependencies := some .drop },
      setting.get {
        baseUrl := some "https://b"
        missingDependencies := some .reject
        categoryField := some "Team" }] := by
  obtain ⟨hlinking, hdropping, hfull⟩ := read_configurations
  simp only [layeredConfigurations, Configurations.valuesOf, Configurations.byRank, List.map_cons,
    List.map_nil, Option.bind_some, h.valueIn_eq hlinking, h.valueIn_eq hdropping,
    h.valueIn_eq hfull]

lemma configures_layeredTree :
    layeredTree.Configures homeSurroundings layeredInvocation.config layeredConfigurations where
  named := by
    have hplace : layeredTree.locate "links.toml" = .ok ["links.toml"] := by decide +kernel
    exact congrArg some (FileTree.readText_of_entry hplace rfl)
  project := by
    have hplace : layeredTree.locate homeSurroundings.projectConfig = .ok ["planviz.toml"] := by
      decide +kernel
    exact .text (FileTree.readText_of_entry hplace rfl)
  user := by
    have hplace : layeredTree.locate "/home/planviz/config.toml" =
        .ok ["home", "planviz", "config.toml"] := by decide +kernel
    exact FileTree.HasText.text (FileTree.readText_of_entry hplace rfl)
  readable text hmem := by
    obtain ⟨hlinking, hdropping, hfull⟩ := read_configurations
    simp only [layeredConfigurations, Configurations.byRank, List.mem_cons, List.not_mem_nil, or_false,
      Option.some.injEq] at hmem
    rcases hmem with rfl | rfl | rfl
    · exact ⟨_, hlinking⟩
    · exact ⟨_, hdropping⟩
    · exact ⟨_, hfull⟩

/-- Each of the three configurations gives one setting: the first one the base URL, the second one
the policy, and the last one the category field, though it sets the other two as well. The document
shows all of them: it has links to the server, the colour of the category, and no dependency. -/
theorem run_layeredTree_uses_first_set :
    let document := soleDocument "https://a/issue/A-1" "#11aa22"
    draw teamPlan.issues teamPlan.directory teamOptions = .ok document ∧
      Delivered document false none layeredTree
        (layeredInvocation.runOn homeSurroundings layeredTree) := by
  have hplace : layeredTree.locate "plan.json" = .ok ["plan.json"] := by decide +kernel
  have htext := FileTree.readText_of_entry hplace rfl
  obtain ⟨policy, field, hpolicy, hfield, hrender, -⟩ := run_uses_first_set layeredInvocation
    homeSurroundings layeredTree layeredConfigurations configures_layeredTree _ htext _
    read_teamText
  obtain ⟨url, hurl, hdraws⟩ := hrender none none rfl
  rw [valuesOf_layeredConfigurations Layer.Setting.lawful_missingDependencies, firstSet_iff] at hpolicy
  rw [valuesOf_layeredConfigurations Layer.Setting.lawful_categoryField, firstSet_iff] at hfield
  rw [valuesOf_layeredConfigurations Layer.Setting.lawful_baseUrl, firstSet_iff] at hurl
  obtain rfl : some MissingPolicy.drop = policy := hpolicy
  obtain rfl : some "Team" = field := hfield
  obtain rfl : some "https://a" = url := hurl
  have hnormal : BaseUrl.normalize "https://a" = "https://a/" := by decide +kernel
  rw [Option.getD_some, Option.getD_some, hnormal] at hdraws
  exact ⟨draw_teamPlan, hdraws.delivered draw_teamPlan⟩

end Invocation

end PlanChart
