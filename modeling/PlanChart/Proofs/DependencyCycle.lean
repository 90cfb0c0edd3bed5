import PlanChart.Dependency.Graph
import PlanChart.Proofs.Buildable
import PlanChart.Proofs.LinkCycle

/-!
# The cycles of a dependency graph

A dependency graph has a vertex for every id that a node has. Of the nodes that share an id only the
first one counts: its dependencies are those of the id, as far as other nodes have them for their
ids. The search for cycles walks along positions, but no link leads to a node that is not the first
one with its id. So what is found is what there is to be found among the ids: every cycle that is
reported is one, and without the dependencies that close the reported cycles no cycle is left.
-/

namespace PlanChart

/-- Whatever is not the first in a chain comes after something else. -/
lemma exists_rel_of_isChain_cons {α : Type} {R : α → α → Prop} {a b : α} {l : List α}
    (h : (a :: l).IsChain R) (hb : b ∈ l) : ∃ c, R c b := by
  induction l generalizing a with
  | nil => cases hb
  | cons next l ih =>
    obtain ⟨hstep, hrest⟩ := List.isChain_cons_cons.mp h
    rcases List.mem_cons.mp hb with rfl | hb
    · exact ⟨a, hstep⟩
    · exact ih hrest hb

/-- A chain ends with a step to its last entry. -/
lemma exists_suffix_of_isChain {α : Type} {R : α → α → Prop} {first last : α} {l : List α}
    (h : (first :: l ++ [last]).IsChain R) :
    ∃ a, [a, last] <:+ first :: l ++ [last] ∧ R a last := by
  have hne : first :: l ≠ [] := List.cons_ne_nil first l
  obtain ⟨-, -, hlast⟩ := List.isChain_append.mp h
  refine ⟨(first :: l).getLast hne, ⟨(first :: l).dropLast, ?_⟩, ?_⟩
  · rw [List.append_cons, List.dropLast_append_getLast]
  · exact hlast _ (List.getLast?_eq_some_getLast hne) last rfl

namespace DependencyGraph

/-- The first node with an id depends on an id that a node has. -/
def DependsOn (nodes : List Dependent) (id dependency : String) : Prop :=
  ∃ node, nodes.find? (·.id = id) = some node ∧ dependency ∈ node.dependencies ∧
    dependency ∈ nodes.map Dependent.id

/-- A list of ids runs along dependencies and comes back to where it has started, and it comes to no
other id twice. -/
structure IsCycle (nodes : List Dependent) (cycle : List String) : Prop where
  two_le_length : 2 ≤ cycle.length
  head?_eq_getLast? : cycle.head? = cycle.getLast?
  nodup_dropLast : cycle.dropLast.Nodup
  isChain : cycle.IsChain (DependsOn nodes)

/-- A dependency that closes none of the cycles that are found. -/
def Kept (nodes : List Dependent) (id dependency : String) : Prop :=
  DependsOn nodes id dependency ∧
    ∀ cycle ∈ (ofList nodes).cycles, ¬ [id, dependency] <:+ cycle

section

variable {nodes : List Dependent} {i j : Nat} {id dependency : String}

/-! ### Positions and ids -/

lemma links_ofList (nodes : List Dependent) :
    (ofList nodes).links = (nodes.map fun node =>
      node.dependencies.filterMap ((nodes.map Dependent.id).idxOf? ·)).toArray := by
  simp [ofList, links]

lemma linkedTo_links_iff :
    LinkedTo (ofList nodes).links i j ↔
      ∃ hi : i < nodes.length, ∃ dependency ∈ nodes[i].dependencies,
        (nodes.map Dependent.id).idxOf? dependency = some j := by
  by_cases hi : i < nodes.length
  · simp [LinkedTo, links_ofList, hi]
  · simp [LinkedTo, links_ofList, hi]

lemma idAt_of_idxOf?_eq_some (h : (nodes.map Dependent.id).idxOf? id = some i) :
    (ofList nodes).idAt i = id := by
  obtain ⟨hlt, heq, -⟩ := List.idxOf?_eq_some_iff.mp h
  have hi : i < nodes.length := by simpa using hlt
  simpa [idAt, ofList, hi] using heq

/-- A link leads to the first node that has its id. -/
lemma idxOf?_idAt_of_linkedTo (h : LinkedTo (ofList nodes).links i j) :
    (nodes.map Dependent.id).idxOf? ((ofList nodes).idAt j) = some j := by
  obtain ⟨-, dependency, -, hj⟩ := linkedTo_links_iff.mp h
  rw [idAt_of_idxOf?_eq_some hj]
  exact hj

lemma DependsOn.id_mem (h : DependsOn nodes id dependency) : id ∈ nodes.map Dependent.id := by
  obtain ⟨node, hnode, -⟩ := h
  have hid : node.id = id := by simpa using List.find?_some hnode
  rw [← hid]
  exact List.mem_map_of_mem (List.mem_of_find?_eq_some hnode)

lemma DependsOn.dependency_mem (h : DependsOn nodes id dependency) :
    dependency ∈ nodes.map Dependent.id := by
  obtain ⟨-, -, -, hmem⟩ := h
  exact hmem

/-- A dependency between ids is a link between their first positions. -/
lemma DependsOn.linkedTo (h : DependsOn nodes id dependency) :
    LinkedTo (ofList nodes).links ((nodes.map Dependent.id).idxOf id)
      ((nodes.map Dependent.id).idxOf dependency) := by
  obtain ⟨node, hnode, hdependency, hmem⟩ := h
  rw [find?_key_eq, Option.bind_eq_some_iff] at hnode
  obtain ⟨i, hi, hnode⟩ := hnode
  obtain ⟨hlt, rfl⟩ := List.getElem?_eq_some_iff.mp hnode
  rw [List.idxOf_eq_getD_idxOf?, hi, Option.getD_some]
  exact linkedTo_links_iff.mpr ⟨hlt, dependency, hdependency, idxOf?_eq_some_idxOf hmem⟩

/-- A link from the first node with an id is a dependency between ids. -/
lemma dependsOn_of_linkedTo
    (hfirst : (nodes.map Dependent.id).idxOf? ((ofList nodes).idAt i) = some i)
    (h : LinkedTo (ofList nodes).links i j) :
    DependsOn nodes ((ofList nodes).idAt i) ((ofList nodes).idAt j) := by
  obtain ⟨hi, dependency, hdependency, hj⟩ := linkedTo_links_iff.mp h
  rw [idAt_of_idxOf?_eq_some hj]
  refine ⟨nodes[i], ?_, hdependency, ?_⟩
  · rw [find?_key_eq, hfirst, Option.bind_some, List.getElem?_eq_getElem hi]
  · rw [← List.isSome_idxOf?, hj]
    rfl

/-! ### What is found -/

/-- All positions on a cycle of links are those of the first nodes with their ids. -/
lemma idxOf?_idAt_of_mem {first : Nat} {path : List Nat}
    (hchain : (first :: path ++ [first]).IsChain (LinkedTo (ofList nodes).links))
    (hi : i ∈ first :: path ++ [first]) :
    (nodes.map Dependent.id).idxOf? ((ofList nodes).idAt i) = some i := by
  -- The first position stands at the end as well, so a link of the cycle leads to each of them.
  have htail : i ∈ path ++ [first] := by simpa [or_comm] using hi
  obtain ⟨previous, hlink⟩ := exists_rel_of_isChain_cons hchain htail
  exact idxOf?_idAt_of_linkedTo hlink

/-- The ids of a cycle that is found are distinct and depend on each other in order, and the first
one stands at its end again. -/
lemma isChain_of_mem_cycles {cycle : List String} (h : cycle ∈ (ofList nodes).cycles) :
    ∃ first path, cycle = first :: path ++ [first] ∧ (first :: path).Nodup ∧
      cycle.IsChain (DependsOn nodes) := by
  obtain ⟨positions, hpositions, rfl⟩ := List.mem_map.mp h
  obtain ⟨first, path, rfl, hnodup, hchain⟩ := isLinkCycle_of_mem_linkCycles hpositions
  refine ⟨(ofList nodes).idAt first, path.map (ofList nodes).idAt, by simp, ?_, ?_⟩
  · -- An id has one first position, so distinct positions of this kind have distinct ids.
    rw [← List.map_cons]
    apply hnodup.map_on
    intro i hi j hj heq
    have hposition := idxOf?_idAt_of_mem hchain (List.mem_append_left [first] hi)
    rw [heq, idxOf?_idAt_of_mem hchain (List.mem_append_left [first] hj)] at hposition
    exact (Option.some.inj hposition).symm
  · rw [List.isChain_map]
    apply hchain.imp_of_mem_imp
    intro i j hi _ hlink
    exact dependsOn_of_linkedTo (idxOf?_idAt_of_mem hchain hi) hlink

/-- What is kept between ids is kept between their first positions. -/
lemma Kept.keptLink (h : Kept nodes id dependency) :
    KeptLink (ofList nodes).links (linkCycles (ofList nodes).links)
      ((nodes.map Dependent.id).idxOf id) ((nodes.map Dependent.id).idxOf dependency) := by
  obtain ⟨hdepends, hcloses⟩ := h
  have hid := idAt_of_idxOf?_eq_some (idxOf?_eq_some_idxOf hdepends.id_mem)
  have hdependency := idAt_of_idxOf?_eq_some (idxOf?_eq_some_idxOf hdepends.dependency_mem)
  refine ⟨hdepends.linkedTo, ?_⟩
  intro cycle hcycle hsuffix
  apply hcloses _ (List.mem_map_of_mem hcycle)
  have hsuffix := hsuffix.map (ofList nodes).idAt
  rwa [List.map_cons, List.map_singleton, hid, hdependency] at hsuffix

/-- Without the dependencies that close the cycles that are found, no cycle is left. -/
lemma not_transGen_kept (nodes : List Dependent) (id : String) :
    ¬ Relation.TransGen (Kept nodes) id id := by
  intro hcycle
  have hback : Relation.TransGen (KeptLink (ofList nodes).links (linkCycles (ofList nodes).links))
      ((nodes.map Dependent.id).idxOf id) ((nodes.map Dependent.id).idxOf id) := by
    apply hcycle.lift fun id => (nodes.map Dependent.id).idxOf id
    intro id dependency hkept
    exact hkept.keptLink
  exact not_transGen_keptLink _ _ hback

/-- If no cycle is found, no id depends on itself in one or more steps. -/
lemma not_transGen_of_cycles_eq_nil (hnil : (ofList nodes).cycles = []) (id : String) :
    ¬ Relation.TransGen (DependsOn nodes) id id := by
  intro hcycle
  apply not_transGen_kept nodes id
  have hkept : DependsOn nodes ≤ Kept nodes := by
    intro id dependency hdepends
    refine ⟨hdepends, ?_⟩
    simp [hnil]
  exact Relation.TransGen.mono hkept _ _ hcycle

/-- An id on a cycle depends on itself in one or more steps. -/
lemma IsCycle.transGen {cycle : List String} (h : IsCycle nodes cycle) :
    ∃ id, Relation.TransGen (DependsOn nodes) id id := by
  obtain ⟨htwo, hends, -, hchain⟩ := h
  cases cycle with
  | nil => simp at htwo
  | cons first others =>
    have hne : others ≠ [] := by
      rintro rfl
      simp at htwo
    rw [List.head?_cons, List.getLast?_cons_of_ne_nil hne,
      List.getLast?_eq_some_getLast hne] at hends
    have hlast : others.dropLast ++ [first] = others := by
      rw [Option.some.inj hends]
      exact List.dropLast_append_getLast hne
    rw [← hlast] at hchain
    exact ⟨first, transGen_of_isChain hchain⟩

end

/-- The search for cycles misses none. Every cycle that it finds closes with a dependency, and
without these dependencies no cycle is left. So it finds nothing just when there is no cycle. -/
theorem cycles_leave_no_cycle (nodes : List Dependent) :
    (∀ id, ¬ Relation.TransGen (Kept nodes) id id) ∧
      ((ofList nodes).cycles = [] ↔ ∀ id, ¬ Relation.TransGen (DependsOn nodes) id id) ∧
      ∀ cycle ∈ (ofList nodes).cycles, ∃ id dependency,
        [id, dependency] <:+ cycle ∧ DependsOn nodes id dependency := by
  refine ⟨not_transGen_kept nodes, ?_, ?_⟩
  · constructor
    · exact not_transGen_of_cycles_eq_nil
    · intro hacyclic
      by_contra hne
      obtain ⟨cycle, hcycle⟩ := List.exists_mem_of_ne_nil _ hne
      obtain ⟨first, path, rfl, -, hchain⟩ := isChain_of_mem_cycles hcycle
      exact hacyclic first (transGen_of_isChain hchain)
  · intro cycle hcycle
    obtain ⟨first, path, rfl, -, hchain⟩ := isChain_of_mem_cycles hcycle
    obtain ⟨id, hsuffix, hdepends⟩ := exists_suffix_of_isChain hchain
    exact ⟨id, first, hsuffix, hdepends⟩

/-- Every cycle that is found is a cycle of dependencies, and one is found if there is any. -/
theorem cycles_are_simple (nodes : List Dependent) :
    (∀ cycle ∈ (ofList nodes).cycles, IsCycle nodes cycle) ∧
      ((∃ cycle, IsCycle nodes cycle) → (ofList nodes).cycles ≠ []) := by
  constructor
  · intro cycle hcycle
    obtain ⟨first, path, rfl, hnodup, hchain⟩ := isChain_of_mem_cycles hcycle
    exact {
      two_le_length := by simp
      head?_eq_getLast? := by rw [List.getLast?_concat, List.cons_append, List.head?_cons]
      nodup_dropLast := by rwa [List.dropLast_concat]
      isChain := hchain }
  · rintro ⟨cycle, hcycle⟩ hnil
    obtain ⟨id, hback⟩ := hcycle.transGen
    exact not_transGen_of_cycles_eq_nil hnil id hback

/-- A node that is not the first one with its id. The search comes to it and goes on from there
along its dependency, but the cycle behind it does not pass through its id. -/
def shadowedNodes : List Dependent :=
  [⟨"A", []⟩, ⟨"A", ["C"]⟩, ⟨"C", ["A", "C"]⟩]

theorem cycles_shadowedNodes_are_simple :
    (ofList shadowedNodes).cycles = [["C", "C"]] ∧ IsCycle shadowedNodes ["C", "C"] := by
  have hcycles : (ofList shadowedNodes).cycles = [["C", "C"]] := by
    have hlinks : linkCycles (ofList shadowedNodes).links = [[2, 2]] := by
      rw [links_ofList]
      cbv
    rw [cycles, hlinks]
    rfl
  refine ⟨hcycles, (cycles_are_simple shadowedNodes).1 ["C", "C"] ?_⟩
  rw [hcycles]
  exact List.mem_singleton_self _

end DependencyGraph

end PlanChart
