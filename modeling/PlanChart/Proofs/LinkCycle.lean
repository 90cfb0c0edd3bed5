import Mathlib
import PlanChart.Dependency.Cycle

/-!
# The walk along links misses no cycle

Every cycle that the walk closes is a cycle of links. The walk need not close all the cycles there
are, but it misses none: without the links that close the cycles it has found, there is no cycle
left. So it finds nothing just when there is nothing to be found.

While it goes on, the positions in the stack are those that are marked as being there, and every one
of them is linked to the one above it. The links that have been followed from a position in the
stack lead to the position above it, to a position from which all ways end, or close a cycle.
-/

namespace PlanChart

/-- A link leads from a position to another one. -/
def LinkedTo (links : Array (List Nat)) (position next : Nat) : Prop :=
  next ∈ links[position]?.getD []

/-- A list of positions runs along links and comes back to where it started, and nowhere else to
where it has been. -/
def IsLinkCycle (links : Array (List Nat)) (cycle : List Nat) : Prop :=
  ∃ first path, cycle = first :: path ++ [first] ∧ (first :: path).Nodup ∧
    cycle.IsChain (LinkedTo links)

/-- A link that closes none of the given cycles. -/
def KeptLink (links : Array (List Nat)) (cycles : List (List Nat)) (position next : Nat) : Prop :=
  LinkedTo links position next ∧ ∀ cycle ∈ cycles, ¬ [position, next] <:+ cycle

/-- All ways from a position along the links that are kept come to an end. -/
abbrev Settles (links : Array (List Nat)) (cycles : List (List Nat)) : Nat → Prop :=
  Acc (Function.swap (KeptLink links cycles))

lemma LinkedTo.lt_size {links : Array (List Nat)} {position next : Nat}
    (h : LinkedTo links position next) : position < links.size := by
  by_contra hge
  rw [LinkedTo, Array.getElem?_eq_none (Nat.le_of_not_lt hge)] at h
  cases h

/-- A chain that comes back to where it has started leads from there back to it. -/
lemma transGen_of_isChain {α : Type} {R : α → α → Prop} {a : α} {l : List α}
    (h : (a :: l ++ [a]).IsChain R) : Relation.TransGen R a a := by
  have hne : l ++ [a] ≠ [] := by simp
  rw [List.cons_append] at h
  obtain ⟨hstep, hrest⟩ := List.isChain_cons.mp h
  have hway := List.relationReflTransGen_of_exists_isChain _ hrest hne
  rw [List.getLast_append_singleton] at hway
  exact .head' (hstep _ (List.head?_eq_some_head hne)) hway

/-- A cycle leads from a position back to it. -/
lemma IsLinkCycle.transGen {links : Array (List Nat)} {cycle : List Nat}
    (h : IsLinkCycle links cycle) :
    ∃ position, Relation.TransGen (LinkedTo links) position position := by
  obtain ⟨first, path, rfl, -, hchain⟩ := h
  exact ⟨first, transGen_of_isChain hchain⟩

lemma exists_eq_takeWhile_append {position : Nat} {path : List Nat} (h : position ∈ path) :
    ∃ rest, path = path.takeWhile (· != position) ++ position :: rest := by
  induction path with
  | nil => cases h
  | cons first path ih =>
    by_cases heq : first = position
    · subst heq
      exact ⟨path, by simp⟩
    · obtain ⟨rest, hrest⟩ := ih (List.mem_of_ne_of_mem (Ne.symm heq) h)
      refine ⟨rest, ?_⟩
      rw [List.takeWhile_cons_of_pos (by simpa using heq), List.cons_append, ← hrest]

namespace LinkCycle

variable {links : Array (List Nat)} {marks : Array Mark} {stack : List Frame}
  {cycles reported : List (List Nat)}

/-! ### The stack -/

/-- What a stack and the marks have to do with each other and with the links. -/
structure Stacked (links : Array (List Nat)) (marks : Array Mark) (stack : List Frame) : Prop where
  mem_iff : ∀ i, i ∈ stack.map Frame.position ↔ marks[i]? = some .onStack
  nodup : (stack.map Frame.position).Nodup
  chain : (stack.map Frame.position).IsChain (Function.swap (LinkedTo links))
  pending : ∀ frame ∈ stack, ∀ next ∈ frame.pending, LinkedTo links frame.position next

lemma Stacked.initial (links : Array (List Nat)) :
    Stacked links (Array.replicate links.size .unvisited) [] where
  mem_iff i := by simp [Array.getElem?_replicate]
  nodup := List.nodup_nil
  chain := List.isChain_nil
  pending := by simp

/-- A position that has not been met may be put on the stack. -/
lemma Stacked.push (h : Stacked links marks stack) {next : Nat} (hlt : next < marks.size)
    (hmark : marks[next] = .unvisited)
    (hlink : ∀ frame ∈ stack.head?, LinkedTo links frame.position next) :
    Stacked links (marks.set next .onStack) (⟨next, links[next]?.getD []⟩ :: stack) where
  mem_iff i := by
    rw [List.map_cons, List.mem_cons, h.mem_iff, Array.getElem?_set]
    by_cases heq : next = i
    · simp [heq]
    · simp [heq, Ne.symm heq]
  nodup := by
    refine List.nodup_cons.mpr ⟨fun hmem => ?_, h.nodup⟩
    rw [h.mem_iff, Array.getElem?_eq_getElem hlt, hmark] at hmem
    cases hmem
  chain := by
    refine List.isChain_cons.mpr ⟨fun below hbelow => ?_, h.chain⟩
    obtain ⟨frame, hframe, rfl⟩ := Option.map_eq_some_iff.mp (List.head?_map ▸ hbelow)
    exact hlink frame hframe
  pending := List.forall_mem_cons.mpr ⟨fun _ hnext => hnext, h.pending⟩

/-- A position whose links have been followed may be taken off the stack. -/
lemma Stacked.pop {frame : Frame} (h : Stacked links marks (frame :: stack)) :
    Stacked links (marks.setIfInBounds frame.position .done) stack where
  mem_iff i := by
    have hmem := h.mem_iff i
    obtain ⟨hnew, -⟩ := List.nodup_cons.mp h.nodup
    rw [List.map_cons, List.mem_cons] at hmem
    rw [Array.getElem?_setIfInBounds]
    by_cases heq : frame.position = i
    · subst heq
      simp only [hnew, false_iff, if_true]
      split <;> simp
    · simpa [heq, Ne.symm heq] using hmem
  nodup := (List.nodup_cons.mp h.nodup).2
  chain := (List.isChain_cons.mp h.chain).2
  pending := (List.forall_mem_cons.mp h.pending).2

/-- The first pending link may be taken off the list. -/
lemma Stacked.follow {position next : Nat} {pending : List Nat}
    (h : Stacked links marks (⟨position, next :: pending⟩ :: stack)) :
    Stacked links marks (⟨position, pending⟩ :: stack) where
  mem_iff := h.mem_iff
  nodup := h.nodup
  chain := h.chain
  pending := by
    obtain ⟨hfirst, hrest⟩ := List.forall_mem_cons.mp h.pending
    exact List.forall_mem_cons.mpr ⟨fun d hd => hfirst d (List.mem_cons_of_mem _ hd), hrest⟩

/-- A link from the top of the stack into the stack closes a cycle. -/
lemma Stacked.isLinkCycle_cycleFrom {frame : Frame} (h : Stacked links marks (frame :: stack))
    {next : Nat} (hmem : next ∈ (frame :: stack).map Frame.position)
    (hlink : LinkedTo links frame.position next) :
    IsLinkCycle links (cycleFrom next (frame :: stack)) := by
  obtain ⟨rest, hrest⟩ := exists_eq_takeWhile_append hmem
  have hfirst := List.head?_cons (a := frame.position) (l := stack.map Frame.position)
  have hnodup := h.nodup
  have hchain := h.chain
  rw [← List.map_cons] at hfirst
  rw [cycleFrom]
  generalize (frame :: stack).map Frame.position = positions at *
  generalize positions.takeWhile (· != next) = path at *
  -- The positions from the top of the stack down to the one that is met again.
  have hprefix : path ++ [next] <+: positions := ⟨rest, by simpa using hrest.symm⟩
  have hreverse : next :: path.reverse = (path ++ [next]).reverse := by simp
  have hlast : (next :: path.reverse).getLast? = some frame.position := by
    rw [hreverse, List.getLast?_reverse, ← hfirst, hrest]
    cases path <;> rfl
  refine ⟨next, path.reverse, rfl, ?_, List.isChain_append.mpr ⟨?_, List.isChain_singleton _, ?_⟩⟩
  · rw [hreverse]
    exact List.nodup_reverse.mpr (hnodup.sublist hprefix.sublist)
  · rw [hreverse, List.isChain_reverse]
    exact hchain.prefix hprefix
  · rw [hlast]
    rintro _ ⟨⟩ _ ⟨⟩
    exact hlink

/-! ### The walk closes cycles -/

/-- A walk ends with an empty stack, and all the cycles that it has closed are cycles. -/
lemma explore_isLinkCycle (h : Stacked links marks stack)
    (hcycles : ∀ cycle ∈ cycles, IsLinkCycle links cycle) :
    Stacked links (explore links marks cycles stack).1 [] ∧
      ∀ cycle ∈ (explore links marks cycles stack).2, IsLinkCycle links cycle := by
  fun_induction explore links marks cycles stack with
  -- The cases are the rounds of the walk: it ends, takes a position off, or follows a link.
  | case1 marks cycles => exact ⟨h, hcycles⟩
  | case2 marks cycles position stack ih => exact ih h.pop hcycles
  | case3 marks cycles position next pending stack hlt hmark ih =>
    -- The link leads to a new position, which is put on the stack above the one it comes from.
    refine ih (h.follow.push hlt hmark ?_) hcycles
    rintro _ ⟨⟩
    exact h.pending _ List.mem_cons_self next List.mem_cons_self
  | case4 marks cycles position next pending stack hlt hmark ih =>
    -- The link leads back into the stack.
    refine ih h.follow (List.forall_mem_cons.mpr ⟨?_, hcycles⟩)
    refine h.follow.isLinkCycle_cycleFrom ?_
      (h.pending _ List.mem_cons_self next List.mem_cons_self)
    rw [h.follow.mem_iff, Array.getElem?_eq_getElem hlt, hmark]
  | case5 marks cycles position next pending stack hlt hmark ih => exact ih h.follow hcycles
  | case6 marks cycles position next pending stack hlt ih => exact ih h.follow hcycles

lemma exploreFrom_isLinkCycle {starts : List Nat} (h : Stacked links marks [])
    (hcycles : ∀ cycle ∈ cycles, IsLinkCycle links cycle) :
    ∀ cycle ∈ exploreFrom links marks cycles starts, IsLinkCycle links cycle := by
  fun_induction exploreFrom links marks cycles starts with
  | case1 marks cycles => simpa using hcycles
  | case2 marks cycles start starts hlt hmark marks' cycles' heq ih =>
    have hwalk := explore_isLinkCycle (h.push hlt hmark (by simp)) hcycles
    rw [heq] at hwalk
    exact ih hwalk.1 hwalk.2
  | case3 marks cycles start starts hlt hmark ih => exact ih h hcycles
  | case4 marks cycles start starts hlt ih => exact ih h hcycles

/-! ### The walk misses no cycle -/

lemma cycles_subset_explore (links : Array (List Nat)) (marks : Array Mark)
    (cycles : List (List Nat)) (stack : List Frame) :
    cycles ⊆ (explore links marks cycles stack).2 := by
  fun_induction explore links marks cycles stack with
  | case4 marks cycles position next pending stack hlt hmark ih =>
    exact fun cycle hcycle => ih (List.mem_cons_of_mem _ hcycle)
  | case1 => exact List.Subset.refl _
  | case2 | case3 | case5 | case6 => assumption

lemma cycles_subset_exploreFrom (links : Array (List Nat)) (marks : Array Mark)
    (cycles : List (List Nat)) (starts : List Nat) :
    cycles ⊆ exploreFrom links marks cycles starts := by
  fun_induction exploreFrom links marks cycles starts with
  | case1 marks cycles => simp
  | case2 marks cycles start starts hlt hmark marks' cycles' heq ih =>
    have hwalk := cycles_subset_explore links (marks.set start .onStack) cycles
      [⟨start, links[start]?.getD []⟩]
    rw [heq] at hwalk
    exact List.Subset.trans hwalk ih
  | case3 | case4 => assumption

/-- The link that closes a cycle is its last one. -/
lemma suffix_cycleFrom (frame : Frame) (next : Nat) (stack : List Frame) :
    [frame.position, next] <:+ cycleFrom next (frame :: stack) := by
  rw [cycleFrom, List.map_cons]
  by_cases heq : frame.position = next
  · subst heq
    exact ⟨[], by simp⟩
  · rw [List.takeWhile_cons_of_pos (by simpa using heq), List.reverse_cons]
    exact ⟨next :: ((stack.map Frame.position).takeWhile (· != next)).reverse, by simp⟩

/-- From all positions marked as done, all ways come to an end. -/
structure Settled (links : Array (List Nat)) (reported : List (List Nat)) (marks : Array Mark) :
    Prop where
  size_eq : marks.size = links.size
  settles_of_done : ∀ i, marks[i]? = some .done → Settles links reported i

lemma Settled.initial (links : Array (List Nat)) (reported : List (List Nat)) :
    Settled links reported (Array.replicate links.size .unvisited) where
  size_eq := Array.size_replicate
  settles_of_done i hi := by simp [Array.getElem?_replicate] at hi

lemma Settled.onStack (h : Settled links reported marks) {position : Nat}
    (hlt : position < marks.size) : Settled links reported (marks.set position .onStack) where
  size_eq := by rw [Array.size_set, h.size_eq]
  settles_of_done i hi := by
    rw [Array.getElem?_set] at hi
    split at hi
    · cases hi
    · exact h.settles_of_done i hi

lemma Settled.done (h : Settled links reported marks) {position : Nat}
    (hposition : Settles links reported position) :
    Settled links reported (marks.setIfInBounds position .done) where
  size_eq := by rw [Array.size_setIfInBounds, h.size_eq]
  settles_of_done i hi := by
    rw [Array.getElem?_setIfInBounds] at hi
    split at hi
    · rename_i heq
      exact heq ▸ hposition
    · exact h.settles_of_done i hi

/-- Where the links that have been followed from the positions in a stack lead, given the position
above it. -/
def Followed (links : Array (List Nat)) (reported : List (List Nat)) :
    Option Nat → List Frame → Prop
  | _, [] => True
  | above, frame :: stack =>
    (∀ next, KeptLink links reported frame.position next →
      next ∈ frame.pending ∨ above = some next ∨ Settles links reported next) ∧
    Followed links reported (some frame.position) stack

lemma Followed.of_settles {position : Nat} (h : Followed links reported (some position) stack)
    (hsettles : Settles links reported position) : Followed links reported none stack := by
  cases stack with
  | nil => trivial
  | cons frame stack =>
    refine ⟨fun next hnext => ?_, h.2⟩
    rcases h.1 next hnext with hpending | habove | hnext
    · exact Or.inl hpending
    · obtain rfl := Option.some.inj habove
      exact Or.inr (Or.inr hsettles)
    · exact Or.inr (Or.inr hnext)

/-- A link need not be followed any more once it is known where it leads. -/
lemma Followed.follow {position next : Nat} {pending : List Nat} {above : Option Nat}
    (h : Followed links reported none (⟨position, next :: pending⟩ :: stack))
    (hnext : KeptLink links reported position next →
      above = some next ∨ Settles links reported next) :
    Followed links reported above (⟨position, pending⟩ :: stack) := by
  refine ⟨fun d hd => ?_, h.2⟩
  rcases h.1 d hd with hpending | habove | hsettles
  · rcases List.mem_cons.mp hpending with rfl | hpending
    · exact Or.inr (hnext hd)
    · exact Or.inl hpending
  · cases habove
  · exact Or.inr (Or.inr hsettles)

/-- A walk settles the positions of the stack that it starts with. -/
lemma explore_settles (h : Settled links reported marks)
    (hfollowed : Followed links reported none stack)
    (hreported : (explore links marks cycles stack).2 ⊆ reported) :
    (∀ i ∈ stack.map Frame.position, Settles links reported i) ∧
      Settled links reported (explore links marks cycles stack).1 := by
  fun_induction explore links marks cycles stack with
  | case1 marks cycles => exact ⟨by simp, h⟩
  -- All links of the position have been followed, so whatever they lead to has settled.
  | case2 marks cycles position stack ih =>
    have hposition : Settles links reported position := by
      refine Acc.intro position fun next hnext => ?_
      rcases hfollowed.1 next hnext with hpending | habove | hsettles
      · cases hpending
      · cases habove
      · exact hsettles
    obtain ⟨hstack, hmarks⟩ := ih (h.done hposition) (hfollowed.2.of_settles hposition) hreported
    exact ⟨List.forall_mem_cons.mpr ⟨hposition, hstack⟩, hmarks⟩
  | case3 marks cycles position next pending stack hlt hmark ih =>
    -- A position that goes on the stack is not done, so nothing is claimed of it yet.
    obtain ⟨hstack, hmarks⟩ := ih (h.onStack hlt)
      ⟨fun d hd => Or.inl hd.1, hfollowed.follow fun _ => Or.inl rfl⟩ hreported
    exact ⟨(List.forall_mem_cons.mp hstack).2, hmarks⟩
  | case4 marks cycles position next pending stack hlt hmark ih =>
    -- The link closes a cycle that is reported, so it is none of those that are kept.
    refine ih h (hfollowed.follow fun hkept => ?_) hreported
    have hcycle := cycles_subset_explore links marks
      (cycleFrom next (⟨position, pending⟩ :: stack) :: cycles) (⟨position, pending⟩ :: stack)
      List.mem_cons_self
    exact absurd (suffix_cycleFrom ⟨position, pending⟩ next stack) (hkept.2 _ (hreported hcycle))
  | case5 marks cycles position next pending stack hlt hmark ih =>
    refine ih h (hfollowed.follow fun _ => Or.inr ?_) hreported
    -- The link leads to a position that is done.
    exact h.settles_of_done next (by rw [Array.getElem?_eq_getElem hlt, hmark])
  | case6 marks cycles position next pending stack hlt ih =>
    refine ih h (hfollowed.follow fun _ => Or.inr (Acc.intro next fun d hd => ?_)) hreported
    -- The link leads out of the table, where no links are.
    exact absurd (h.size_eq ▸ hd.1.lt_size) hlt

/-- Where a walk has started, all ways come to an end. -/
lemma exploreFrom_settles {starts : List Nat} (h : Settled links reported marks)
    (hstacked : Stacked links marks []) (hcycles : ∀ cycle ∈ cycles, IsLinkCycle links cycle)
    (hreported : exploreFrom links marks cycles starts ⊆ reported) :
    ∀ i ∈ starts, Settles links reported i := by
  fun_induction exploreFrom links marks cycles starts with
  | case1 marks cycles => simp
  | case2 marks cycles start starts hlt hmark marks' cycles' heq ih =>
    have hfollowed : Followed links reported none [⟨start, links[start]?.getD []⟩] :=
      ⟨fun d hd => Or.inl hd.1, trivial⟩
    -- What one walk closes stays in the list, so it is reported if all of the list is.
    have hclosed : (explore links (marks.set start .onStack) cycles
        [⟨start, links[start]?.getD []⟩]).2 ⊆ reported := by
      rw [heq]
      exact List.Subset.trans (cycles_subset_exploreFrom _ _ _ _) hreported
    have hwalk := explore_isLinkCycle (hstacked.push hlt hmark (by simp)) hcycles
    have hsettled := explore_settles (h.onStack hlt) hfollowed hclosed
    rw [heq] at hwalk hsettled
    exact List.forall_mem_cons.mpr ⟨hsettled.1 start List.mem_cons_self,
      ih hsettled.2 hwalk.1 hwalk.2 hreported⟩
  | case3 marks cycles start starts hlt hmark ih =>
    refine List.forall_mem_cons.mpr ⟨?_, ih h hstacked hcycles hreported⟩
    cases hm : marks[start] with
    | unvisited => exact absurd hm hmark
    | onStack =>
      -- Between two walks the stack is empty.
      have hmem := (hstacked.mem_iff start).mpr (by rw [Array.getElem?_eq_getElem hlt, hm])
      cases hmem
    | done => exact h.settles_of_done start (by rw [Array.getElem?_eq_getElem hlt, hm])
  | case4 marks cycles start starts hlt ih =>
    refine List.forall_mem_cons.mpr ⟨?_, ih h hstacked hcycles hreported⟩
    exact Acc.intro start fun d hd => absurd (h.size_eq ▸ hd.1.lt_size) hlt

end LinkCycle

/-! ### The cycles that are found -/

variable {links : Array (List Nat)}

/-- Every cycle that is found is a cycle of links. -/
theorem isLinkCycle_of_mem_linkCycles {cycle : List Nat} (h : cycle ∈ linkCycles links) :
    IsLinkCycle links cycle :=
  LinkCycle.exploreFrom_isLinkCycle (.initial links) (by simp) cycle h

/-- Without the links that close the cycles that are found, all ways come to an end. -/
theorem settles_linkCycles (links : Array (List Nat)) (position : Nat) :
    Settles links (linkCycles links) position := by
  by_cases hlt : position < links.size
  · exact LinkCycle.exploreFrom_settles (.initial links _) (.initial links) (by simp)
      (List.Subset.refl _) position (List.mem_range.mpr hlt)
  · exact Acc.intro position fun next hnext => absurd hnext.1.lt_size hlt

/-- Without the links that close the cycles that are found, no position can be reached from
itself. -/
lemma not_transGen_keptLink (links : Array (List Nat)) (position : Nat) :
    ¬ Relation.TransGen (KeptLink links (linkCycles links)) position position := by
  have hwf : WellFounded (Function.swap (KeptLink links (linkCycles links))) :=
    ⟨settles_linkCycles links⟩
  intro hcycle
  exact hwf.transGen.irrefl.irrefl position (Relation.transGen_swap.mpr hcycle)

/-- No cycle is found just when no position can be reached from itself. -/
theorem linkCycles_eq_nil_iff :
    linkCycles links = [] ↔
      ∀ position, ¬ Relation.TransGen (LinkedTo links) position position := by
  constructor
  · intro hnil position
    have hkept : KeptLink links [] = LinkedTo links := by
      funext i d
      simp [KeptLink]
    rw [← hkept, ← hnil]
    exact not_transGen_keptLink links position
  · intro hacyclic
    by_contra hne
    obtain ⟨cycle, hcycle⟩ := List.exists_mem_of_ne_nil _ hne
    obtain ⟨position, hway⟩ := (isLinkCycle_of_mem_linkCycles hcycle).transGen
    exact hacyclic position hway

end PlanChart
