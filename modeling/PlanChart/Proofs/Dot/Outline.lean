import PlanChart.Proofs.Dot.Lexer
import PlanChart.Proofs.Grove

/-!
# The outline of a document

The words of a document form statements, and the statements a nested structure: graphs that hold
graphs and nodes. The edges stand apart from it. Statements are read in two passes. The first takes
them one after the other, with the start and the end of a graph as statements of their own. The
second keeps the graphs that have been entered and not been left, and puts every node and every
graph into the one around it.
-/

namespace PlanChart.Dot

/-! ### Statements -/

/-- The value of an attribute. An HTML string is not the same as a text with these characters. -/
inductive Value
  | text (text : String)
  | html (text : String)
  deriving DecidableEq, Repr

/-- A value that is set for an attribute. -/
structure Setting where
  name : String
  value : Value
  deriving DecidableEq, Repr

inductive Kind
  | digraph | subgraph | node
  deriving DecidableEq, Repr

inductive Statement
  | enter (kind : Kind) (name : String)
  | leave
  | assign (setting : Setting)
  | node (name : String) (settings : List Setting)
  | edge (tail head : String) (settings : List Setting)
  /-- What holds for all nodes, edges or graphs that do not say otherwise. -/
  | defaults (keyword : Keyword) (settings : List Setting)
  deriving DecidableEq, Repr

def Token.value? : Token → Option Value
  | .name text | .number text | .quoted text => some (.text text)
  | .html text => some (.html text)
  | _ => none

/-- What the settings in a pair of brackets belong to. -/
inductive Subject
  | node (name : String)
  | edge (tail head : String)
  | defaults (keyword : Keyword)
  deriving DecidableEq, Repr

def Subject.statement (settings : List Setting) : Subject → Statement
  | node name => .node name settings
  | edge tail head => .edge tail head settings
  | defaults keyword => .defaults keyword settings

/-- A pair of brackets that is open: the subject and the settings so far. -/
structure Brackets where
  subject : Subject
  settings : List Setting := []
  deriving DecidableEq, Repr

/-- The statements that tokens form, of which the first stand inside the given brackets, if any. -/
def parse : Option Brackets → List Token → Option (List Statement)
  | none, [] => some []
  | none, .semicolon :: tokens => parse none tokens
  | none, .closeBrace :: tokens => (parse none tokens).map (.leave :: ·)
  | none, .keyword .digraph :: .name name :: .openBrace :: tokens =>
    (parse none tokens).map (.enter .digraph name :: ·)
  | none, .keyword .subgraph :: .name name :: .openBrace :: tokens =>
    (parse none tokens).map (.enter .subgraph name :: ·)
  | none, .keyword keyword :: .openBracket :: tokens =>
    parse (some { subject := .defaults keyword }) tokens
  | none, .name name :: .equals :: token :: tokens =>
    token.value?.bind fun value => (parse none tokens).map (.assign ⟨name, value⟩ :: ·)
  | none, .name name :: .openBracket :: tokens => parse (some { subject := .node name }) tokens
  | none, .name tail :: .arrow :: .name head :: .openBracket :: tokens =>
    parse (some { subject := .edge tail head }) tokens
  | none, .name tail :: .arrow :: .name head :: tokens =>
    (parse none tokens).map (.edge tail head [] :: ·)
  | some brackets, .semicolon :: tokens => parse (some brackets) tokens
  | some brackets, .closeBracket :: tokens =>
    (parse none tokens).map (brackets.subject.statement brackets.settings :: ·)
  | some brackets, .name name :: .equals :: token :: tokens =>
    token.value?.bind fun value =>
      parse (some { brackets with settings := brackets.settings ++ [⟨name, value⟩] }) tokens
  | _, _ => none

/-! ### Blocks -/

/-- A graph or a node with the settings of its attributes. -/
structure Block where
  kind : Kind
  name : String
  settings : List Setting := []
  deriving DecidableEq, Repr

structure Edge where
  tail : String
  head : String
  settings : List Setting := []
  deriving DecidableEq, Repr

/-- A graph that has been entered, with the blocks inside it so far. -/
structure Level where
  block : Block
  inside : Grove Block := .nil
  deriving DecidableEq, Repr

/-- How far the reading of statements has come: the levels, the innermost first, what stands outside
of all levels, and the edges. -/
structure Outline where
  levels : List Level := []
  outside : Grove Block := .nil
  edges : List Edge := []
  deriving DecidableEq, Repr

namespace Outline

/-- Put blocks behind those that stand in the same graph. -/
def place (outline : Outline) (blocks : Grove Block) : Outline :=
  match outline.levels with
  | [] => { outline with outside := outline.outside ++ blocks }
  | level :: outer =>
    { outline with levels := { level with inside := level.inside ++ blocks } :: outer }

def add (outline : Outline) : Statement → Option Outline
  | .enter kind name =>
    some { outline with levels := { block := { kind := kind, name := name } } :: outline.levels }
  | .leave =>
    match outline.levels with
    | [] => none
    | level :: outer =>
      some ({ outline with levels := outer }.place (.cons level.block level.inside .nil))
  | .assign setting =>
    match outline.levels with
    | [] => none
    | level :: outer =>
      let block := { level.block with settings := level.block.settings ++ [setting] }
      some { outline with levels := { level with block := block } :: outer }
  | .node name settings =>
    some (outline.place (.cons { kind := .node, name := name, settings := settings } .nil .nil))
  | .edge tail head settings =>
    some { outline with
      edges := outline.edges ++ [{ tail := tail, head := head, settings := settings }] }
  | .defaults _ _ => some outline

end Outline

/-- The blocks inside the one graph that a document consists of, and the edges. -/
def outline? (document : String) : Option (Grove Block × List Edge) := do
  let tokens ← lex document
  let statements ← parse none tokens
  let outline ← statements.foldlM Outline.add {}
  match outline with
  | ⟨[], .cons ⟨.digraph, _, _⟩ blocks .nil, edges⟩ => some (blocks, edges)
  | _ => none

/-! ### The rules of statements -/

/-- The rules by which tokens form statements, of which the first stand inside the given brackets,
if any. An edge has its brackets if there are any. -/
inductive Forms : Option Brackets → List Token → List Statement → Prop
  | nothing : Forms none [] []
  | semicolon {brackets : Option Brackets} {tokens : List Token} {statements : List Statement}
      (h : Forms brackets tokens statements) : Forms brackets (.semicolon :: tokens) statements
  | leave {tokens : List Token} {statements : List Statement} (h : Forms none tokens statements) :
      Forms none (.closeBrace :: tokens) (.leave :: statements)
  | digraph (name : String) {tokens : List Token} {statements : List Statement}
      (h : Forms none tokens statements) :
      Forms none (.keyword .digraph :: .name name :: .openBrace :: tokens)
        (.enter .digraph name :: statements)
  | subgraph (name : String) {tokens : List Token} {statements : List Statement}
      (h : Forms none tokens statements) :
      Forms none (.keyword .subgraph :: .name name :: .openBrace :: tokens)
        (.enter .subgraph name :: statements)
  | assign (name : String) {token : Token} {value : Value} {tokens : List Token}
      {statements : List Statement} (hvalue : token.value? = some value)
      (h : Forms none tokens statements) :
      Forms none (.name name :: .equals :: token :: tokens) (.assign ⟨name, value⟩ :: statements)
  | edge (tail head : String) {tokens : List Token} {statements : List Statement}
      (hnext : tokens.head? ≠ some .openBracket) (h : Forms none tokens statements) :
      Forms none (.name tail :: .arrow :: .name head :: tokens) (.edge tail head [] :: statements)
  | openDefaults (keyword : Keyword) {tokens : List Token} {statements : List Statement}
      (h : Forms (some { subject := .defaults keyword }) tokens statements) :
      Forms none (.keyword keyword :: .openBracket :: tokens) statements
  | openNode (name : String) {tokens : List Token} {statements : List Statement}
      (h : Forms (some { subject := .node name }) tokens statements) :
      Forms none (.name name :: .openBracket :: tokens) statements
  | openEdge (tail head : String) {tokens : List Token} {statements : List Statement}
      (h : Forms (some { subject := .edge tail head }) tokens statements) :
      Forms none (.name tail :: .arrow :: .name head :: .openBracket :: tokens) statements
  | set {brackets : Brackets} (name : String) {token : Token} {value : Value}
      {tokens : List Token} {statements : List Statement} (hvalue : token.value? = some value)
      (h : Forms (some { brackets with settings := brackets.settings ++ [⟨name, value⟩] }) tokens
        statements) :
      Forms (some brackets) (.name name :: .equals :: token :: tokens) statements
  | close (brackets : Brackets) {tokens : List Token} {statements : List Statement}
      (h : Forms none tokens statements) :
      Forms (some brackets) (.closeBracket :: tokens)
        (brackets.subject.statement brackets.settings :: statements)

section

variable {brackets : Option Brackets} {tokens rest : List Token} {statements others : List Statement}

lemma parse_edge (tail head : String) (h : rest.head? ≠ some .openBracket) :
    parse none (.name tail :: .arrow :: .name head :: rest) =
      (parse none rest).map (.edge tail head [] :: ·) := by
  cases rest with
  | nil => rfl
  | cons token rest => cases token <;> simp_all [parse]

lemma head?_append_ne (h : tokens.head? ≠ some .openBracket)
    (hrest : rest.head? ≠ some .openBracket) : (tokens ++ rest).head? ≠ some .openBracket := by
  cases tokens with
  | nil => exact hrest
  | cons token tokens => exact h

namespace Forms

/-- What is read follows the rules: the branches of the reader are one rule each. -/
lemma of_parse {brackets : Option Brackets} {tokens : List Token} {statements : List Statement}
    (h : parse brackets tokens = some statements) : Forms brackets tokens statements := by
  unfold parse at h
  split at h
  · cases h
    exact .nothing
  · exact .semicolon (of_parse h)
  · obtain ⟨others, hothers, rfl⟩ := Option.map_eq_some_iff.mp h
    exact .leave (of_parse hothers)
  · obtain ⟨others, hothers, rfl⟩ := Option.map_eq_some_iff.mp h
    exact .digraph _ (of_parse hothers)
  · obtain ⟨others, hothers, rfl⟩ := Option.map_eq_some_iff.mp h
    exact .subgraph _ (of_parse hothers)
  · exact .openDefaults _ (of_parse h)
  · obtain ⟨value, hvalue, h⟩ := Option.bind_eq_some_iff.mp h
    obtain ⟨others, hothers, rfl⟩ := Option.map_eq_some_iff.mp h
    exact .assign _ hvalue (of_parse hothers)
  · exact .openNode _ (of_parse h)
  · exact .openEdge _ _ (of_parse h)
  · -- The reader comes here only when the branch with the bracket has not applied.
    rename_i hbracket
    obtain ⟨others, hothers, rfl⟩ := Option.map_eq_some_iff.mp h
    refine .edge _ _ (fun hhead => ?_) (of_parse hothers)
    obtain ⟨rest, hrest⟩ := List.head?_eq_some_iff.mp hhead
    exact hbracket rest hrest
  · exact .semicolon (of_parse h)
  · obtain ⟨others, hothers, rfl⟩ := Option.map_eq_some_iff.mp h
    exact .close _ (of_parse hothers)
  · obtain ⟨value, hvalue, h⟩ := Option.bind_eq_some_iff.mp h
    exact .set _ hvalue (of_parse h)
  · cases h
termination_by tokens.length

/-- What follows the rules is read. -/
lemma parse_eq (h : Forms brackets tokens statements) : parse brackets tokens = some statements := by
  induction h with
  | nothing => rfl
  | @semicolon brackets _ _ _ ih => cases brackets <;> exact ih
  | leave _ ih => simp [parse, ih]
  | digraph name _ ih => simp [parse, ih]
  | subgraph name _ ih => simp [parse, ih]
  | assign name hvalue _ ih => simp [parse, hvalue, ih]
  | edge tail head hnext _ ih =>
    rw [parse_edge tail head hnext, ih]
    rfl
  | openDefaults keyword _ ih => simpa [parse] using ih
  | openNode name _ ih => exact ih
  | openEdge tail head _ ih => exact ih
  | set name hvalue _ ih => simpa [parse, hvalue] using ih
  | close brackets _ ih => simp [parse, ih]

/-- Statements are not changed by what follows them, unless it is a bracket, which could belong to
the last statement. -/
lemma append (h : Forms brackets tokens statements) (hothers : Forms none rest others)
    (hrest : rest.head? ≠ some .openBracket) :
    Forms brackets (tokens ++ rest) (statements ++ others) := by
  induction h with
  | nothing => exact hothers
  | semicolon _ ih => exact .semicolon ih
  | leave _ ih => exact .leave ih
  | digraph name _ ih => exact .digraph name ih
  | subgraph name _ ih => exact .subgraph name ih
  | assign name hvalue _ ih => exact .assign name hvalue ih
  | edge tail head hnext _ ih => exact .edge tail head (head?_append_ne hnext hrest) ih
  | openDefaults keyword _ ih => exact .openDefaults keyword ih
  | openNode name _ ih => exact .openNode name ih
  | openEdge tail head _ ih => exact .openEdge tail head ih
  | set name hvalue _ ih => exact .set name hvalue ih
  | close brackets _ ih => exact .close brackets ih

end Forms

end

/-! ### Texts that say statements -/

/-- A text that says statements, and does not go on with the brackets of an earlier one. -/
def Says (text : String) (statements : List Statement) : Prop :=
  ∃ tokens, Reads .blank text tokens .blank ∧ tokens.head? ≠ some .openBracket ∧
    Forms none tokens statements

/-- A text that sets attributes, inside brackets as well as outside of them. -/
def Sets (text : String) (settings : List Setting) : Prop :=
  ∃ tokens, Reads .blank text tokens .blank ∧ tokens.head? ≠ some .openBracket ∧
    (∀ (brackets : Brackets) (rest : List Token) (statements : List Statement),
      Forms (some { brackets with settings := brackets.settings ++ settings }) rest statements →
        Forms (some brackets) (tokens ++ rest) statements) ∧
    ∀ (rest : List Token) (statements : List Statement), Forms none rest statements →
      Forms none (tokens ++ rest) (settings.map Statement.assign ++ statements)

lemma says_empty : Says "" [] :=
  ⟨[], reads_empty _, by simp, .nothing⟩

lemma Says.append {text text' : String} {statements statements' : List Statement}
    (h : Says text statements) (h' : Says text' statements') :
    Says (text ++ text') (statements ++ statements') := by
  obtain ⟨tokens, hreads, hhead, hforms⟩ := h
  obtain ⟨tokens', hreads', hhead', hforms'⟩ := h'
  exact ⟨tokens ++ tokens', hreads.append hreads', head?_append_ne hhead hhead',
    hforms.append hforms' hhead'⟩

lemma sets_empty : Sets "" [] :=
  ⟨[], reads_empty _, by simp, by simp, by simp⟩

lemma Sets.append {text text' : String} {settings settings' : List Setting}
    (h : Sets text settings) (h' : Sets text' settings') :
    Sets (text ++ text') (settings ++ settings') := by
  obtain ⟨tokens, hreads, hhead, hinside, houtside⟩ := h
  obtain ⟨tokens', hreads', hhead', hinside', houtside'⟩ := h'
  refine ⟨tokens ++ tokens', hreads.append hreads', head?_append_ne hhead hhead', ?_, ?_⟩
  · intro brackets rest statements hrest
    rw [List.append_assoc]
    refine hinside _ _ _ (hinside' _ _ _ ?_)
    rwa [List.append_assoc]
  · intro rest statements hrest
    rw [List.append_assoc, List.map_append, List.append_assoc]
    exact houtside _ _ (houtside' _ _ hrest)

/-- The statements of a document are put into its outline one by one. -/
lemma Says.outline?_eq {document : String} {statements : List Statement} {blocks : Grove Block}
    {edges : List Edge} (h : Says document statements) (name : String) (settings : List Setting)
    (hfold : statements.foldlM Outline.add {} =
      some ⟨[], .cons ⟨.digraph, name, settings⟩ blocks .nil, edges⟩) :
    outline? document = some (blocks, edges) := by
  obtain ⟨tokens, hreads, -, hforms⟩ := h
  simp [outline?, hreads.lex_eq, hforms.parse_eq, hfold]

/-! ### Statements that list blocks -/

/-- The statements that a grove of blocks is given by. -/
def statements : Grove Block → List Statement
  | .nil => []
  | .cons block below rest =>
    (match block.kind with
    | .node => [.node block.name block.settings]
    | kind =>
      .enter kind block.name :: block.settings.map Statement.assign ++ statements below ++
        [.leave]) ++ statements rest

/-- Below a node nothing stands. -/
def Leafy : Grove Block → Prop
  | .nil => True
  | .cons block below rest => (block.kind = .node → below = .nil) ∧ Leafy below ∧ Leafy rest

namespace Outline

@[simp] lemma place_nil (outline : Outline) : outline.place .nil = outline := by
  obtain ⟨levels, outside, edges⟩ := outline
  cases levels <;> simp [place]

lemma place_place (outline : Outline) (blocks blocks' : Grove Block) :
    (outline.place blocks).place blocks' = outline.place (blocks ++ blocks') := by
  obtain ⟨levels, outside, edges⟩ := outline
  cases levels <;> simp [place, Grove.append_assoc]

lemma foldlM_assign (block : Block) (inside : Grove Block) (outer : List Level)
    (outside : Grove Block) (edges : List Edge) (settings : List Setting) :
    (settings.map Statement.assign).foldlM add ⟨⟨block, inside⟩ :: outer, outside, edges⟩ =
      some ⟨⟨{ block with settings := block.settings ++ settings }, inside⟩ :: outer, outside,
        edges⟩ := by
  induction settings generalizing block with
  | nil => simp
  | cons setting settings ih =>
    rw [List.map_cons, List.foldlM_cons, add, Option.bind_eq_bind, Option.bind_some, ih]
    simp

lemma foldlM_edges (outline : Outline) (edges : List Edge) :
    (edges.map fun edge => Statement.edge edge.tail edge.head edge.settings).foldlM add outline =
      some { outline with edges := outline.edges ++ edges } := by
  induction edges generalizing outline with
  | nil => simp
  | cons edge edges ih =>
    rw [List.map_cons, List.foldlM_cons, add, Option.bind_eq_bind, Option.bind_some, ih]
    simp

/-- The statements of a grove put it behind what stands in the same graph. -/
lemma foldlM_statements {blocks : Grove Block} (h : Leafy blocks) (outline : Outline) :
    (statements blocks).foldlM add outline = some (outline.place blocks) := by
  induction blocks generalizing outline with
  | nil => simp [statements]
  | cons block below rest ihb ihr =>
    obtain ⟨hleaf, hbelow, hrest⟩ := h
    obtain ⟨kind, name, settings⟩ := block
    -- A block with a body leaves the outline where it entered it; what is below comes in between.
    have hgraph : (Statement.enter kind name :: settings.map Statement.assign ++ statements below ++
        [Statement.leave]).foldlM add outline =
          some (outline.place (.cons ⟨kind, name, settings⟩ below .nil)) := by
      simp only [List.cons_append, List.foldlM_cons, List.foldlM_append, add, Option.bind_eq_bind,
        Option.bind_some, foldlM_assign, ihb hbelow]
      simp [place]
    have hcons : Grove.cons ⟨kind, name, settings⟩ below rest =
        .cons ⟨kind, name, settings⟩ below .nil ++ rest := rfl
    rw [statements, List.foldlM_append, hcons, ← place_place]
    cases kind with
    | node =>
      obtain rfl := hleaf rfl
      simp [add, ihr hrest]
    | digraph => rw [hgraph, Option.bind_eq_bind, Option.bind_some, ihr hrest]
    | subgraph => rw [hgraph, Option.bind_eq_bind, Option.bind_some, ihr hrest]

end Outline

end PlanChart.Dot
