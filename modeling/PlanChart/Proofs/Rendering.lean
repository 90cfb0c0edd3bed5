import PlanChart.Document
import PlanChart.Proofs.Unfolding

/-!
# The walk renders the grove

The text of a document can be given by recursion: a node's text holds the texts of the nodes below
it. The walk writes the same text without recursion, from a stack of cursors. Each cursor stands for
the part of a grove that is still to be written at its depth, and this is what the walk writes until
the cursor is used up.
-/

namespace PlanChart

namespace Document

/-! ### The text by recursion -/

/-- The lines that set a node's attributes, at a depth. -/
def attributeLines (baseUrl : String) (node : Node) (depth : Nat) : Except PlanError String := do
  let foreground ← node.color .foreground
  let background ← node.color .background
  let attributes :=
    [("label", "<" ++ label node ++ ">"),
      ("href", "\"" ++ link baseUrl node ++ "\""),
      ("fillcolor", "\"" ++ background ++ "\""),
      ("fontcolor", "\"" ++ foreground ++ "\""),
      ("color", "\"" ++ foreground ++ "\"")]
  return String.join (attributes.map fun (name, value) =>
    indent depth ++ name ++ " = " ++ value ++ ";\n")

/-- The text of the nodes of a grove, at a depth. A group stands in braces around the nodes below
it, which are one level deeper, and a leaf in brackets. -/
def render (forest : Forest) (baseUrl : String) : Nat → Grove Nat → Except PlanError String
  | _, .nil => return ""
  | depth, .cons position below rest => do
    let node := forest.node position
    let attributes ← attributeLines baseUrl node (depth + 1)
    let inner ← render forest baseUrl (depth + 1) below
    let others ← render forest baseUrl depth rest
    let block :=
      if node.isGroup then
        indent depth ++ "subgraph cluster_" ++ node.id ++ " \x7b\n" ++ attributes ++ "\n" ++
          inner ++ indent depth ++ "\x7d\n"
      else indent depth ++ node.id ++ " [\n" ++ attributes ++ indent depth ++ "]\n"
    return block ++ others

/-- The edges of a grove: for each node, in preorder, one for each of its dependencies. -/
def edgeStatements (forest : Forest) (grove : Grove Nat) : List String :=
  grove.preorder.flatMap fun position =>
    (forest.node position).dependencies.toList.map fun dependency => edge forest dependency position

/-- The edges after the nodes, set off by a blank line if there are any. -/
def edgeBlock (statements : List String) : String :=
  if statements = [] then "" else "\n" ++ String.join statements

/-! ### One node -/

lemma ok_bind {ε α β : Type} (a : α) (f : α → Except ε β) : Except.ok a >>= f = f a := rfl

lemma opening_eq (baseUrl : String) (node : Node) (depth : Nat) :
    opening baseUrl node depth = (attributeLines baseUrl node (depth + 1)).map fun attributes =>
      openLine node depth ++ attributes ++ if node.isGroup then "\n" else "" := by
  unfold opening attributeLines
  cases node.color .foreground with
  | error e => rfl
  | ok foreground =>
    cases node.color .background with
    | error e => rfl
    | ok background =>
      simp only [bind, Except.bind, pure, Except.pure, Except.map, attributeLine, List.map_cons,
        List.map_nil, String.join_cons, String.join_nil, String.append_empty, String.append_assoc]

/-- The text of a grove in terms of the texts that the walk writes when it enters and when it leaves
the first node. -/
lemma render_cons {forest : Forest} {position : Nat} {below : Grove Nat}
    (hbelow : below.roots = forest.down position) (baseUrl : String) (depth : Nat)
    (rest : Grove Nat) :
    render forest baseUrl depth (.cons position below rest) = do
      let head ← opening baseUrl (forest.node position) depth
      let inner ← render forest baseUrl (depth + 1) below
      let others ← render forest baseUrl depth rest
      return head ++ inner ++ closeLine (forest.node position) depth ++ others := by
  rw [render, opening_eq]
  cases attributeLines baseUrl (forest.node position) (depth + 1) with
  | error e => rfl
  | ok attributes =>
    cases hgroup : (forest.node position).isGroup with
    | true => simp [Except.map, bind, Except.bind, openLine, closeLine, hgroup, String.append_assoc]
    | false =>
      -- A node that is no group has nothing below it, so it is closed at once.
      obtain rfl : below = .nil := by
        rw [← Grove.roots_eq_nil_iff, hbelow, Forest.down_eq_nil_of_not_isGroup hgroup]
      simp [Except.map, bind, Except.bind, openLine, closeLine, hgroup, String.append_assoc, render,
        pure, Except.pure]

lemma edge_ne_empty (forest : Forest) (dependency dependent : Nat) :
    edge forest dependency dependent ≠ "" := by
  rw [edge]
  split <;> simp [String.append_eq_empty_iff]

lemma assemble_eq (forest : Forest) (grove : Grove Nat) (nodes : String) :
    assemble nodes (String.join (edgeStatements forest grove)) =
      preamble ++ nodes ++ edgeBlock (edgeStatements forest grove) ++ "\x7d\n" := by
  -- The edges are kept as one text. No edge is empty, so this text is only if there are none.
  have hempty : (String.join (edgeStatements forest grove)).isEmpty = true ↔
      edgeStatements forest grove = [] := by
    rw [String.isEmpty_iff]
    constructor
    · intro hjoin
      cases hs : edgeStatements forest grove with
      | nil => rfl
      | cons statement statements =>
        rw [hs, String.join_cons, String.append_eq_empty_iff] at hjoin
        have hmem : statement ∈ edgeStatements forest grove := by simp [hs]
        obtain ⟨position, -, hmem⟩ := List.mem_flatMap.mp hmem
        obtain ⟨dependency, -, rfl⟩ := List.mem_map.mp hmem
        exact absurd hjoin.1 (edge_ne_empty forest dependency position)
    · intro hs
      rw [hs]
      rfl
  rw [assemble, edgeBlock]
  by_cases hs : edgeStatements forest grove = []
  · rw [if_pos (hempty.mpr hs), if_pos hs]
  · rw [if_neg (mt hempty.mp hs), if_neg hs]

@[simp] lemma edgeStatements_nil (forest : Forest) : edgeStatements forest .nil = [] := rfl

lemma join_edgeStatements_cons (forest : Forest) (position : Nat) (below rest : Grove Nat) :
    String.join (edgeStatements forest (.cons position below rest)) =
      edgesTo forest position ++ String.join (edgeStatements forest below) ++
        String.join (edgeStatements forest rest) := by
  simp [edgeStatements, edgesTo, String.join_append, String.append_assoc]

/-! ### The walk -/

/-- The first of the siblings that are still to be entered is entered next, and then come the
others. -/
lemma Cursor.next_of_drop {cursor : Cursor} {position : Nat} {rest : List Nat}
    (h : cursor.siblings.toList.drop cursor.next = position :: rest) :
    cursor.siblings[cursor.next]? = some position ∧
      cursor.siblings.toList.drop (cursor.next + 1) = rest := by
  constructor
  · rw [← Array.getElem?_toList, ← List.head?_drop, h, List.head?_cons]
  · rw [← List.drop_drop, h, List.drop_one, List.tail_cons]

/-- A cursor that has entered the roots of a grove is used up if it has no other siblings. -/
lemma Cursor.size_le_of_roots_eq {siblings : Array Nat} {grove : Grove Nat}
    (h : grove.roots = siblings.toList) : siblings.size ≤ 0 + grove.roots.length := by
  rw [h, Array.length_toList, Nat.zero_add]

namespace Walk

variable {forest : Forest} {baseUrl : String}

/-- How many steps a walk takes through a grove: one to enter each node and one to leave each
group. -/
def steps (forest : Forest) : Grove Nat → Nat
  | .nil => 0
  | .cons position below rest =>
    1 + steps forest below + (if (forest.node position).isGroup then 1 else 0) + steps forest rest

lemma steps_le (forest : Forest) (grove : Grove Nat) :
    steps forest grove ≤ 2 * grove.preorder.length := by
  induction grove with
  | nil => simp [steps]
  | cons position below rest ihb ihr =>
    rw [steps, Grove.preorder_cons, List.length_cons, List.length_append]
    split <;> omega

lemma run_succ {walk : Walk} (h : walk.cursors ≠ []) (limit : Nat) :
    run forest baseUrl (limit + 1) walk =
      walk.step forest baseUrl >>= run forest baseUrl limit := by
  rw [run]
  split
  · rename_i hnil
    exact absurd hnil h
  · cases walk.step forest baseUrl <;> rfl

lemma run_of_cursors_eq_nil {walk : Walk} (h : walk.cursors = []) (limit : Nat) :
    run forest baseUrl limit walk = .ok walk := by
  cases limit with
  | zero => rfl
  | succ limit => rw [run, h]

/-- The step that enters the next node, from the text that the node begins with. -/
lemma step_of_next {cursor : Cursor} {position : Nat}
    (h : cursor.siblings[cursor.next]? = some position) (outer : List Cursor)
    (nodes edges : String) :
    step forest baseUrl ⟨cursor :: outer, nodes, edges⟩ = do
      let text ← opening baseUrl (forest.node position) (outer.length + 1)
      if (forest.node position).isGroup then
        return ⟨Cursor.start (forest.node position).children ::
            { cursor with next := cursor.next + 1 } :: outer,
          nodes ++ text, edges ++ edgesTo forest position⟩
      else
        return ⟨{ cursor with next := cursor.next + 1 } :: outer,
          nodes ++ text ++ closeLine (forest.node position) (outer.length + 1),
          edges ++ edgesTo forest position⟩ := by
  simp only [step, h, enter, List.length_cons]

/-- The step that gives up a cursor whose siblings are the children of a group. -/
lemma step_of_end {inner outer : Cursor} {group : Nat}
    (hend : inner.siblings.size ≤ inner.next)
    (hgroup : outer.siblings[outer.next]? = some group) (cursors : List Cursor)
    (nodes edges : String) :
    step forest baseUrl
        ⟨inner :: { outer with next := outer.next + 1 } :: cursors, nodes, edges⟩ =
      .ok ⟨{ outer with next := outer.next + 1 } :: cursors,
        nodes ++ closeLine (forest.node group) (cursors.length + 1), edges⟩ := by
  simp [step, Array.getElem?_eq_none hend, leave, Cursor.current?, hgroup]

/-- What a walk does with a cursor that stands before the roots of a grove: it writes the text of
the grove and its edges, or fails where the text fails, and then goes on behind the roots. -/
lemma run_grove {grove : Grove Nat} (hfollows : grove.Follows forest.down) (cursor : Cursor)
    (hcursor : cursor.siblings.toList.drop cursor.next = grove.roots) (outer : List Cursor)
    (nodes edges : String) (limit : Nat) :
    run forest baseUrl (steps forest grove + limit) ⟨cursor :: outer, nodes, edges⟩ =
      render forest baseUrl (outer.length + 1) grove >>= fun text =>
        run forest baseUrl limit
          ⟨{ cursor with next := cursor.next + grove.roots.length } :: outer, nodes ++ text,
            edges ++ String.join (edgeStatements forest grove)⟩ := by
  induction grove generalizing cursor outer nodes edges limit with
  | nil => simp [steps, render, pure, Except.pure, bind, Except.bind]
  | cons position below rest ihb ihr =>
    obtain ⟨hbelow, hfb, hfr⟩ := hfollows
    obtain ⟨hnext, hrest⟩ := Cursor.next_of_drop hcursor
    have hsteps : steps forest (.cons position below rest) + limit =
        (steps forest below + (if (forest.node position).isGroup then 1 else 0) +
          (steps forest rest + limit)) + 1 := by
      rw [steps]
      omega
    rw [hsteps, run_succ (by simp), step_of_next hnext, render_cons hbelow]
    simp only [bind_assoc, pure_bind]
    refine bind_congr fun text => ?_
    have hlast : cursor.next + 1 + rest.roots.length =
        cursor.next + (Grove.cons position below rest).roots.length := by
      rw [Grove.roots_cons, List.length_cons]
      omega
    cases hgroup : (forest.node position).isGroup with
    | true =>
      -- The children's cursor runs through the grove below and is then given up.
      have hend : (forest.node position).children.size ≤ 0 + below.roots.length :=
        Cursor.size_le_of_roots_eq hbelow
      simp only [if_true, pure_bind]
      rw [Nat.add_assoc, ihb hfb (Cursor.start _) hbelow.symm]
      refine bind_congr fun inner => ?_
      rw [Nat.add_comm 1, run_succ (by simp), step_of_end hend hnext, ok_bind, ihr hfr _ hrest]
      refine bind_congr fun others => ?_
      simp only [hlast, join_edgeStatements_cons, String.append_assoc]
    | false =>
      obtain rfl : below = .nil := by
        rw [← Grove.roots_eq_nil_iff, hbelow, Forest.down_eq_nil_of_not_isGroup hgroup]
      simp only [Bool.false_eq_true, if_false, pure_bind, steps, render, Nat.zero_add]
      rw [ihr hfr _ hrest]
      refine bind_congr fun others => ?_
      simp only [hlast, join_edgeStatements_cons, edgeStatements_nil, String.join_nil,
        String.append_empty, String.append_assoc]

/-- The walk through a whole forest writes the text of its grove, and the edges. -/
lemma whole_eq (hsound : forest.Sound) {grove : Grove Nat} (hgrove : forest.Unfolds grove) :
    whole forest baseUrl = do
      let text ← render forest baseUrl 1 grove
      return ⟨[], text, String.join (edgeStatements forest grove)⟩ := by
  have hsize : grove.preorder.length = forest.size := by
    rw [(hsound.preorder_perm hgrove).length_eq, List.length_range]
  obtain ⟨extra, hextra⟩ : ∃ extra, stepLimit forest = steps forest grove + (extra + 1) := by
    have hsteps := steps_le forest grove
    exact ⟨2 * forest.size - steps forest grove, by rw [stepLimit]; omega⟩
  have hend : forest.roots.size ≤ grove.roots.length := by
    rw [hgrove.roots_eq, Array.length_toList]
  rw [whole, hextra, start,
    run_grove hgrove.follows (Cursor.start forest.roots) hgrove.roots_eq.symm]
  refine bind_congr fun text => ?_
  rw [run_succ (by simp)]
  simp [step, Cursor.start, Array.getElem?_eq_none hend, leave, ok_bind, run_of_cursors_eq_nil,
    pure, Except.pure]

end Walk

/-- The document of a forest around the text of its grove. -/
lemma ofForest_eq {forest : Forest} (hsound : forest.Sound) {grove : Grove Nat}
    (hgrove : forest.Unfolds grove) (baseUrl : String) :
    ofForest forest baseUrl = (render forest baseUrl 1 grove).map fun nodes =>
      preamble ++ nodes ++ edgeBlock (edgeStatements forest grove) ++ "\x7d\n" := by
  rw [ofForest, Walk.whole_eq hsound hgrove]
  cases render forest baseUrl 1 grove with
  | error e => rfl
  | ok nodes => exact congrArg Except.ok (assemble_eq forest grove nodes)

/-- The document of a forest that has been built, which the walk writes from its stack of cursors,
is the one given by recursion: what all documents begin with, the text of the grove in preorder, and
the edges in the same order. Where the recursion fails, the walk fails with the same error. -/
theorem ofForest_eq_recursive {issues : List Issue} {directory : Directory}
    {categoryField : Option String} {policy : MissingPolicy} {forest : Forest}
    (h : Forest.build issues directory categoryField policy = .ok forest) :
    ∃ grove, forest.Unfolds grove ∧ ∀ baseUrl,
      ofForest forest baseUrl = (render forest baseUrl 1 grove).map fun nodes =>
        preamble ++ nodes ++ edgeBlock (edgeStatements forest grove) ++ "\x7d\n" := by
  have hsound := Forest.sound_of_build h
  obtain ⟨grove, hgrove⟩ := hsound.exists_unfolds
  exact ⟨grove, hgrove, fun baseUrl => ofForest_eq hsound hgrove baseUrl⟩

theorem ofForest_tangledForest_eq_recursive :
    Forest.build Forest.tangledIssues Forest.tangledDirectory none .drop =
        .ok Forest.tangledForest ∧
      ∃ grove, Forest.tangledForest.Unfolds grove ∧ ∀ baseUrl,
        ofForest Forest.tangledForest baseUrl =
          (render Forest.tangledForest baseUrl 1 grove).map fun nodes =>
            preamble ++ nodes ++ edgeBlock (edgeStatements Forest.tangledForest grove) ++
              "\x7d\n" :=
  ⟨Forest.build_tangledIssues, ofForest_eq_recursive Forest.build_tangledIssues⟩

end Document

end PlanChart
