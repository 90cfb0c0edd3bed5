import PlanChart.Proofs.Completeness

/-!
# How cycles of parents are listed

A position lies on a cycle just when the way up from it comes back to it. The search lists all these
positions, each of them once, cycle by cycle. A cycle is found by the walk from the first position
from which it can be reached, and it is listed from where this walk comes to it. For all that is
above the earlier positions is done by then, so that none of them leads to a cycle that is still to
be found.
-/

namespace PlanChart

/-! ### Positions that come back to themselves -/

section

variable {up : Nat → Option Nat} {i : Nat}

/-- If a way up comes back to where it has started, and not before that, its positions form a
cycle. -/
lemma isOrbit_of_ascend_eq_self {steps : Nat} {way : Nat → Nat}
    (hway : ∀ j ≤ steps, ascend up j i = some (way j)) (hback : up (way steps) = some (way 0))
    (hfirst : ∀ j < steps, ascend up (j + 1) i ≠ some i) :
    IsOrbit up (((List.range (steps + 1)).map way : List Nat) : Cycle Nat) where
  ne_nil := by simp
  nodup := by
    have hzero : way 0 = i := (Option.some.inj (hway 0 (Nat.zero_le _))).symm
    -- If a position were passed twice, one could leave out what is between.
    have hshort : ∀ j l, j < l → l ≤ steps → way j ≠ way l := by
      intro j l hjl hl heq
      apply hfirst (j + (steps - l)) (by omega)
      have hrest : ascend up (steps - l + 1) (way l) = some i := by
        have hsteps : ascend up (l + (steps - l)) i = some (way steps) := by
          rw [Nat.add_sub_of_le hl]
          exact hway steps le_rfl
        rw [ascend_add, hway l hl, Option.bind_some] at hsteps
        rw [ascend_succ_eq_bind, hsteps, Option.bind_some, hback, hzero]
      rw [Nat.add_assoc, ascend_add, hway j (by omega), Option.bind_some, heq, hrest]
    rw [Cycle.nodup_coe_iff]
    apply List.Nodup.map_on _ List.nodup_range
    intro j hj l hl heq
    rw [List.mem_range] at hj hl
    rcases Nat.lt_trichotomy j l with hjl | hjl | hjl
    · exact absurd heq (hshort j l hjl (by omega))
    · exact hjl
    · exact absurd heq.symm (hshort l j hjl (by omega))
  chain := by
    rw [← Cycle.map_coe, Cycle.chain_map, Cycle.chain_range_succ]
    refine ⟨hback, fun j hj => ?_⟩
    have hnext := hway (j + 1) hj
    rwa [ascend_succ_eq_bind, hway j (by omega)] at hnext

/-- The positions of a cycle are linked in the order in which it lists them, and the last one to the
first one. -/
lemma IsOrbit.isChain_append_head {cycle : List Nat} (h : IsOrbit up (cycle : Cycle Nat)) :
    (cycle ++ cycle.head?.toList).IsChain fun i p => up i = some p := by
  cases cycle with
  | nil => exact absurd rfl h.ne_nil
  | cons i path => exact (Cycle.chain_coe_cons _ _ _).mp h.chain

/-- A position lies on a cycle just when the way up from it comes back to it. -/
lemma exists_isOrbit_iff :
    (∃ orbit, IsOrbit up orbit ∧ i ∈ orbit) ↔ ∃ steps, ascend up (steps + 1) i = some i := by
  constructor
  · rintro ⟨orbit, horbit, hi⟩
    obtain ⟨path, rfl⟩ := IsOrbit.exists_eq_cons hi
    have hchain := (Cycle.chain_coe_cons _ _ _).mp horbit.chain
    have hlength : path.length + 1 < (i :: (path ++ [i])).length := by simp
    exact ⟨path.length, by simpa using ascend_eq_getElem hchain hlength⟩
  · intro h
    classical
    -- The least number of steps back gives a cycle that repeats no position.
    have hback := Nat.find_spec h
    have hfirst : ∀ j < Nat.find h, ascend up (j + 1) i ≠ some i := fun j => Nat.find_min h
    generalize Nat.find h = steps at hback hfirst
    have hsome : ∀ j ≤ steps, ascend up j i = some ((ascend up j i).getD i) := by
      intro j hj
      have hsplit : steps + 1 = j + (steps + 1 - j) := by omega
      rw [hsplit, ascend_add] at hback
      obtain ⟨p, hp, -⟩ := Option.bind_eq_some_iff.mp hback
      rw [hp, Option.getD_some]
    rw [ascend_succ_eq_bind, hsome steps le_rfl, Option.bind_some] at hback
    refine ⟨_, isOrbit_of_ascend_eq_self hsome hback hfirst, ?_⟩
    rw [Cycle.mem_coe_iff, List.mem_map]
    exact ⟨0, by simp⟩

end

/-! ### Ways that come to a cycle -/

/-- The way up from a position comes to a cycle. -/
def Reaches (up : Nat → Option Nat) (cycle : List Nat) (position : Nat) : Prop :=
  ∃ steps, ∃ j ∈ cycle, ascend up steps position = some j

/-- Of the positions of a cycle the way up from a position comes to the given one first. -/
def ReachesFirst (up : Nat → Option Nat) (cycle : List Nat) (position entry : Nat) : Prop :=
  ∃ steps, ascend up steps position = some entry ∧ entry ∈ cycle ∧
    ∀ earlier < steps, ∀ j ∈ cycle, ascend up earlier position ≠ some j

/-- The first position from which a cycle can be reached. -/
def IsSource (up : Nat → Option Nat) (cycle : List Nat) (source : Nat) : Prop :=
  IsLeast {position | Reaches up cycle position} source

/-- A list holds the cycles of a table of parents, each of them once, in order. -/
structure ListsCycles (parents : Array (Option Nat)) (cycles : List (List Nat)) : Prop where
  ne_nil : ∀ cycle ∈ cycles, cycle ≠ []
  isChain : ∀ cycle ∈ cycles, cycle.IsChain fun i p => parentIn parents i = some p
  parent_last : ∀ cycle ∈ cycles, ∀ last ∈ cycle.getLast?, parentIn parents last = cycle.head?
  nodup : cycles.flatten.Nodup
  mem_iff : ∀ i, i ∈ cycles.flatten ↔
    ∃ steps, ascend (parentIn parents) (steps + 1) i = some i
  head_eq : ∀ cycle ∈ cycles, ∃ source entry, IsSource (parentIn parents) cycle source ∧
    ReachesFirst (parentIn parents) cycle source entry ∧ cycle.head? = some entry
  ordered : cycles.Pairwise fun cycle later => ∀ source other,
    IsSource (parentIn parents) cycle source → IsSource (parentIn parents) later other →
      source < other

/-- A way that lists a cycle at its end, but no position twice, comes to the first position of the
cycle first. -/
lemma reachesFirst_of_isSuffix {up : Nat → Option Nat} {i entry : Nat} {way cycle : List Nat}
    (hchain : (i :: way).IsChain fun i p => up i = some p) (hnodup : (i :: way).Nodup)
    (hcycle : entry :: cycle <:+ i :: way) : ReachesFirst up (entry :: cycle) i entry := by
  obtain ⟨front, hfront⟩ := hcycle
  have hlength : front.length < (i :: way).length := by simp [← hfront]
  refine ⟨front.length, ?_, List.mem_cons_self, ?_⟩
  · rw [ascend_eq_getElem hchain hlength]
    simp [← hfront]
  · intro earlier hearlier j hj heq
    rw [ascend_eq_getElem hchain (by omega), Option.some.injEq] at heq
    rw [← hfront] at hnodup
    apply List.disjoint_of_nodup_append hnodup _ hj
    rw [← heq]
    simp [← hfront, hearlier]

namespace ParentCycle

variable {parents : Array (Option Nat)} {marks : Array Mark} {path : List Nat}

/-! ### Walks -/

/-- The cycle that a walk closes is where its path ends. -/
lemma suffix_reverse_path_climb {current : Option Nat} (h : Climbed parents marks path)
    (hlast : ∀ last ∈ path.head?, parentIn parents last = current) {cycle : List Nat}
    (hcycle : (climb parents marks path current).cycle = some cycle) :
    cycle <:+ (climb parents marks path current).path.reverse := by
  fun_induction climb parents marks path current with
  | case2 marks path position hlt hmark ih =>
    apply ih (h.push hlt hmark hlast) _ hcycle
    intro last hmem
    cases hmem
    rfl
  | case3 marks path position hlt hmark =>
    have hmem : position ∈ path := by
      rw [h.mem_iff, Array.getElem?_eq_getElem hlt, hmark]
    -- The path comes to the cycle and then goes round it once.
    obtain ⟨rest, hrest⟩ := exists_eq_takeWhile_append hmem
    cases hcycle
    refine ⟨rest.reverse, ?_⟩
    conv_rhs => rw [hrest]
    simp [cycleFrom]
  | case1 | case4 | case5 => cases hcycle

/-- All that is above what is done is done. -/
lemma Searched.done_of_ascend (h : Searched parents marks) {i j steps : Nat}
    (hi : marks[i]? = some .done) (hj : j < parents.size)
    (hup : ascend (parentIn parents) steps i = some j) : marks[j]? = some .done := by
  induction steps generalizing j with
  | zero =>
    cases hup
    exact hi
  | succ steps ih =>
    rw [ascend_succ_eq_bind] at hup
    obtain ⟨p, hp, hup⟩ := Option.bind_eq_some_iff.mp hup
    have hdone := ih (lt_size_of_parentIn_eq_some hup) hp
    exact h.done_up p j hdone hup (by rwa [h.size_eq])

/-- A walk that starts where no position before leads to anything new closes its cycle from where
it comes to it first, and no position before leads to this cycle. -/
lemma Searched.isSource_of_climb (h : Searched parents marks) {start : Nat}
    (hmark : marks[start]? = some .unvisited) (hdone : ∀ i < start, marks[i]? = some .done)
    {cycle : List Nat} (hcycle : (climb parents marks [] (some start)).cycle = some cycle) :
    IsSource (parentIn parents) cycle start ∧
      ∃ entry, ReachesFirst (parentIn parents) cycle start entry ∧ cycle.head? = some entry := by
  have hended : Ended parents marks (climb parents marks [] (some start)) :=
    climb_ended h.climbed (by simp)
  have hsuffix := suffix_reverse_path_climb h.climbed (by simp) hcycle
  obtain ⟨horbit, hsubset, -⟩ := hended.orbit cycle hcycle
  have hchain := List.isChain_reverse.mpr hended.climbed.chain
  have hnodup := List.nodup_reverse.mpr hended.climbed.nodup
  have hstart : [start] <:+ (climb parents marks [] (some start)).path :=
    cons_suffix_climb_of_unvisited hmark
  -- The path ends at the start of the climb, so turned round it begins there.
  obtain ⟨way, hway⟩ := List.reverse_prefix.mpr hstart
  rw [List.reverse_singleton, List.singleton_append] at hway
  rw [← hway] at hsuffix hchain hnodup
  cases cycle with
  | nil => exact absurd rfl horbit.ne_nil
  | cons entry cycle =>
    have hfirst := reachesFirst_of_isSuffix hchain hnodup hsuffix
    refine ⟨⟨?_, ?_⟩, entry, hfirst, rfl⟩
    · obtain ⟨steps, hsteps, -⟩ := hfirst
      exact ⟨steps, entry, List.mem_cons_self, hsteps⟩
    · rintro i ⟨steps, j, hj, hup⟩
      -- An earlier position from which one comes to the cycle would have made all of it done.
      by_contra hlt
      have hsize : j < parents.size := horbit.lt_size (Cycle.mem_coe_iff.mpr hj)
      exact hended.not_done_of_mem (hsubset hj)
        (h.done_of_ascend (hdone i (Nat.lt_of_not_le hlt)) hsize hup)

/-! ### Searches -/

/-- Cycles that are found from a position on, in the order of their first positions to be reached
from. -/
structure FoundInOrder (up : Nat → Option Nat) (first : Nat) (found : List (List Nat)) : Prop where
  source : ∀ cycle ∈ found, ∃ source, first ≤ source ∧ IsSource up cycle source ∧
    ∃ entry, ReachesFirst up cycle source entry ∧ cycle.head? = some entry
  ordered : found.Pairwise fun cycle later => ∀ source other,
    IsSource up cycle source → IsSource up later other → source < other

namespace FoundInOrder

variable {up : Nat → Option Nat} {start : Nat} {found : List (List Nat)}

lemma skip (h : FoundInOrder up (start + 1) found) : FoundInOrder up start found where
  source := by
    intro cycle hcycle
    obtain ⟨source, hle, hsource⟩ := h.source cycle hcycle
    exact ⟨source, by omega, hsource⟩
  ordered := h.ordered

lemma cons (h : FoundInOrder up (start + 1) found) {cycle : List Nat}
    (hsource : IsSource up cycle start)
    (hentry : ∃ entry, ReachesFirst up cycle start entry ∧ cycle.head? = some entry) :
    FoundInOrder up start (cycle :: found) where
  source := List.forall_mem_cons.mpr ⟨⟨start, le_rfl, hsource, hentry⟩, h.skip.source⟩
  ordered := by
    apply List.pairwise_cons.mpr ⟨_, h.ordered⟩
    intro later hlater source other hcycle hother
    obtain ⟨_, hle, hfound, -⟩ := h.source later hlater
    rw [hcycle.unique hsource, hother.unique hfound]
    exact hle

end FoundInOrder

lemma searchFrom_foundInOrder {start count : Nat} (h : Searched parents marks)
    (hcount : start + count = parents.size) (hdone : ∀ i < start, marks[i]? = some .done) :
    FoundInOrder (parentIn parents) start
      (searchFrom parents marks (List.range' start count)) := by
  induction count generalizing start marks with
  | zero => exact ⟨by simp [searchFrom], by simp [searchFrom]⟩
  | succ count ih =>
    have hnext : start + 1 + count = parents.size := by omega
    rw [List.range'_succ, searchFrom]
    split
    · rename_i hmark
      have hended : Ended parents marks (climb parents marks [] (some start)) :=
        climb_ended h.climbed (by simp)
      -- All positions up to this one are done after the climb: those before it, and what it met.
      have hmet : ∀ i < start + 1, (settle (climb parents marks [] (some start)).marks
          (climb parents marks [] (some start)).path)[i]? = some .done := by
        intro i hi
        rw [hended.done_settle_iff]
        rcases Nat.lt_succ_iff_lt_or_eq.mp hi with hi | rfl
        · exact Or.inl (hdone i hi)
        · exact Or.inr (mem_climb_of_unvisited hmark)
      have hrest := ih (hended.searched h) hnext hmet
      dsimp only
      cases hcycle : (climb parents marks [] (some start)).cycle with
      | none => exact hrest.skip
      | some cycle =>
        obtain ⟨hsource, hentry⟩ := h.isSource_of_climb hmark hdone hcycle
        exact hrest.cons hsource hentry
    · rename_i hmark
      -- A position that has been met is done, for no walk is going on between two starts.
      apply FoundInOrder.skip
      apply ih h hnext
      intro i hi
      rcases Nat.lt_succ_iff_lt_or_eq.mp hi with hi | rfl
      · exact hdone i hi
      · exact h.done_of_ne_unvisited (by omega) hmark

end ParentCycle

lemma parentCycles_foundInOrder (parents : Array (Option Nat)) :
    ParentCycle.FoundInOrder (parentIn parents) 0 (parentCycles parents) := by
  rw [parentCycles, List.range_eq_range']
  exact ParentCycle.searchFrom_foundInOrder (.initial parents) (Nat.zero_add _) (by simp)

lemma nodup_flatten_parentCycles (parents : Array (Option Nat)) :
    (parentCycles parents).flatten.Nodup := by
  have hfinds := parentCycles_finds parents
  rw [List.nodup_flatten]
  constructor
  · intro cycle hcycle
    exact Cycle.nodup_coe_iff.mp (hfinds.orbit cycle hcycle).nodup
  · have hdistinct := List.pairwise_map.mp hfinds.nodup
    apply hdistinct.imp_of_mem
    intro cycle other hcycle hother hne i hi hi'
    exact hne ((hfinds.orbit cycle hcycle).eq_of_mem (hfinds.orbit other hother)
      (Cycle.mem_coe_iff.mpr hi) (Cycle.mem_coe_iff.mpr hi'))

lemma mem_flatten_parentCycles_iff (parents : Array (Option Nat)) (i : Nat) :
    i ∈ (parentCycles parents).flatten ↔
      ∃ steps, ascend (parentIn parents) (steps + 1) i = some i := by
  rw [← exists_isOrbit_iff, List.mem_flatten]
  constructor
  · rintro ⟨cycle, hcycle, hi⟩
    exact ⟨cycle, (parentCycles_finds parents).orbit cycle hcycle, Cycle.mem_coe_iff.mpr hi⟩
  · rintro ⟨orbit, horbit, hi⟩
    obtain ⟨cycle, hcycle, rfl⟩ := List.mem_map.mp ((mem_parentCycles_iff parents orbit).mpr horbit)
    exact ⟨cycle, hcycle, Cycle.mem_coe_iff.mp hi⟩

/-! ### Cycles of issues -/

lemma lt_length_of_mem_parentCycles {issues : List Issue} {cycle : List Nat} {i : Nat}
    (h : cycle ∈ parentCycles (parentTable issues)) (hi : i ∈ cycle) : i < issues.length := by
  rw [← size_parentTable]
  exact ((parentCycles_finds _).orbit cycle h).lt_size (Cycle.mem_coe_iff.mpr hi)

/-- The ids on a cycle are those of the issues at its positions. -/
lemma Forest.cycleIds_eq_map (issues : List Issue) (cycle : List Nat) :
    cycleIds issues cycle = (cycle ++ cycle.head?.toList).map fun i => (issueAt issues i).id := by
  have hname : ∀ i, (issues.map Issue.id).toArray.getD i "" = (issueAt issues i).id := by
    intro i
    by_cases hi : i < issues.length
    · simp [issueAt, hi]
    · simp [issueAt, hi]
      rfl
  cases cycle with
  | nil => rfl
  | cons i path => simp [cycleIds, hname]

/-- The finding on a cycle of parents is about an issue of the plan. -/
lemma Check.exists_item_parentCycle {issues : List Issue} {cycle : List Nat}
    (h : cycle ∈ parentCycles (parentTable issues)) :
    ∃ issue ∈ issues, (parentCycle issues cycle).item = some issue.id := by
  cases cycle with
  | nil => exact absurd rfl ((parentCycles_finds _).orbit [] h).ne_nil
  | cons i path =>
    have hi := lt_length_of_mem_parentCycles h List.mem_cons_self
    refine ⟨issueAt issues i, issueAt_mem hi, ?_⟩
    simp [parentCycle, Forest.cycleIds_eq_map, Diagnostic.ofError]

/-- The search for cycles of parents lists each of them once, and all of them in order. It never
lists an empty one, so that what a check reports of a cycle is always about an issue. -/
theorem listsCycles_parentCycles :
    (∀ parents, ListsCycles parents (parentCycles parents)) ∧
      ∀ issues directory categoryField policy,
        ∀ diagnostic ∈ (check issues directory categoryField policy).diagnostics,
          diagnostic.code = "PARENT_CYCLE" → ∃ issue ∈ issues, diagnostic.item = some issue.id := by
  constructor
  · intro parents
    have horbits := (parentCycles_finds parents).orbit
    have horder := parentCycles_foundInOrder parents
    exact {
      ne_nil := by
        intro cycle hcycle hnil
        apply (horbits cycle hcycle).ne_nil
        rw [hnil]
        rfl
      isChain := by
        intro cycle hcycle
        exact (horbits cycle hcycle).isChain_append_head.left_of_append
      parent_last := by
        intro cycle hcycle last hlast
        -- The chain goes on from the last position to the first one.
        obtain ⟨-, -, hback⟩ := List.isChain_append.mp (horbits cycle hcycle).isChain_append_head
        cases cycle with
        | nil => cases hlast
        | cons i path => exact hback last hlast i rfl
      nodup := nodup_flatten_parentCycles parents
      mem_iff := mem_flatten_parentCycles_iff parents
      head_eq := by
        intro cycle hcycle
        obtain ⟨source, -, hsource, entry, hentry⟩ := horder.source cycle hcycle
        exact ⟨source, entry, hsource, hentry⟩
      ordered := horder.ordered }
  · intro issues directory categoryField policy diagnostic hmem hcode
    have hfound : diagnostic ∈ withCode "PARENT_CYCLE"
        (check issues directory categoryField policy).diagnostics :=
      List.mem_filter.mpr ⟨hmem, decide_eq_true hcode⟩
    rw [Check.withCode_parentCycle] at hfound
    obtain ⟨cycle, hcycle, rfl⟩ := List.mem_map.mp hfound
    exact Check.exists_item_parentCycle hcycle

/-- Two ways lead to the cycle of `2` and `3`. It is listed from where the first of them comes to
it, and before the cycle of `1` alone. -/
example : parentCycles #[some 2, some 1, some 3, some 2, none, some 3] = [[2, 3], [1]] := by
  decide +kernel

end PlanChart
