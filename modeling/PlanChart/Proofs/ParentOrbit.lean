import PlanChart.Proofs.LinkCycle
import PlanChart.Proofs.ParentCycle

/-!
# Every cycle of parents is found once

Where the way up from a position comes back to it, the positions on the way form a cycle. It is the
same cycle from whichever of them it is listed, so cycles are compared as values of `Cycle`. The
search for cycles of parent links finds each of them, and none of them twice.

What is above a position that is marked as done is done as well, so that of a cycle either all
positions are done or none is. A walk that meets a cycle goes on until it comes to a position of the
cycle for the second time, and then the cycle that it closes is this one.
-/

namespace PlanChart

/-! ### Cycles of a link -/

/-- Each position of a cycle is linked to the next one, and no position is passed twice. -/
structure IsOrbit (up : Nat → Option Nat) (orbit : Cycle Nat) : Prop where
  ne_nil : orbit ≠ Cycle.nil
  nodup : orbit.Nodup
  chain : orbit.Chain fun i p => up i = some p

namespace IsOrbit

variable {up : Nat → Option Nat} {orbit other : Cycle Nat}

lemma exists_mem (h : IsOrbit up orbit) : ∃ i, i ∈ orbit := by
  induction orbit using Cycle.induction_on with
  | nil => exact absurd rfl h.ne_nil
  | cons i path _ => exact ⟨i, by simp⟩

/-- A cycle may be listed from each of its positions. -/
lemma exists_eq_cons {i : Nat} (hi : i ∈ orbit) :
    ∃ path : List Nat, orbit = ((i :: path : List Nat) : Cycle Nat) := by
  induction orbit using Quotient.inductionOn with
  | h positions =>
    obtain ⟨front, back, rfl⟩ := List.append_of_mem (Cycle.mem_coe_iff.mp hi)
    exact ⟨back ++ front, Quotient.sound List.isRotated_append⟩

/-- The link leads from a cycle nowhere else. -/
lemma exists_up (h : IsOrbit up orbit) {i : Nat} (hi : i ∈ orbit) :
    ∃ p ∈ orbit, up i = some p := by
  obtain ⟨path, rfl⟩ := exists_eq_cons hi
  have hchain := (Cycle.chain_coe_cons _ _ _).mp h.chain
  cases path with
  | nil =>
    have hself := List.isChain_pair.mp hchain
    exact ⟨i, hi, hself⟩
  | cons p path => exact ⟨p, by simp, (List.isChain_cons_cons.mp hchain).1⟩

lemma mem_of_up (h : IsOrbit up orbit) {i p : Nat} (hi : i ∈ orbit) (hp : up i = some p) :
    p ∈ orbit := by
  obtain ⟨next, hnext, hup⟩ := h.exists_up hi
  rw [hup] at hp
  cases hp
  exact hnext

/-- What is passed on from every position of a cycle to the next one holds of all of them if it
holds of one. -/
lemma forall_mem (h : IsOrbit up orbit) {P : Nat → Prop} {i : Nat} (hi : i ∈ orbit) (hP : P i)
    (hstep : ∀ j ∈ orbit, ∀ p, up j = some p → P j → P p) : ∀ j ∈ orbit, P j := by
  obtain ⟨path, rfl⟩ := exists_eq_cons hi
  have hchain := (Cycle.chain_coe_cons _ _ _).mp h.chain
  have hall : ∀ j ∈ i :: (path ++ [i]), j ∈ ((i :: path : List Nat) : Cycle Nat) ∧ P j := by
    refine hchain.induction _ _ (fun j p hup hj => ?_) (fun _ => ⟨hi, hP⟩)
    exact ⟨h.mem_of_up hj.1 hup, hstep j hj.1 p hup hj.2⟩
  intro j hj
  refine (hall j ?_).2
  rw [Cycle.mem_coe_iff] at hj
  simp only [List.mem_cons, List.mem_append] at hj ⊢
  tauto

end IsOrbit

/-- Two ways along a link that start at the same position and end where they meet the same position
for the first time are the same. -/
lemma eq_of_isChain {up : Nat → Option Nat} {i stop : Nat} {path others : List Nat}
    (h : (i :: (path ++ [stop])).IsChain fun i p => up i = some p)
    (h' : (i :: (others ++ [stop])).IsChain fun i p => up i = some p) (hpath : stop ∉ path)
    (hothers : stop ∉ others) : path = others := by
  -- The links are a function, so both ways go through the same positions until the first stops.
  induction path generalizing i others with
  | nil =>
    cases others with
    | nil => rfl
    | cons p others =>
      have hstop := List.isChain_pair.mp h
      rw [(List.isChain_cons_cons.mp h').1] at hstop
      cases hstop
      exact absurd List.mem_cons_self hothers
  | cons p path ih =>
    obtain ⟨hp, hrest⟩ := List.isChain_cons_cons.mp h
    cases others with
    | nil =>
      have hstop := List.isChain_pair.mp h'
      rw [hp] at hstop
      cases hstop
      exact absurd List.mem_cons_self hpath
    | cons p' others =>
      obtain ⟨hp', hrest'⟩ := List.isChain_cons_cons.mp h'
      rw [hp] at hp'
      cases hp'
      rw [ih hrest hrest' (List.not_mem_of_not_mem_cons hpath)
        (List.not_mem_of_not_mem_cons hothers)]

/-- Two cycles with a common position are the same. -/
lemma IsOrbit.eq_of_mem {up : Nat → Option Nat} {orbit other : Cycle Nat} (h : IsOrbit up orbit)
    (h' : IsOrbit up other) {i : Nat} (hi : i ∈ orbit) (hi' : i ∈ other) : orbit = other := by
  obtain ⟨path, rfl⟩ := exists_eq_cons hi
  obtain ⟨others, rfl⟩ := exists_eq_cons hi'
  have hpath := (List.nodup_cons.mp (Cycle.nodup_coe_iff.mp h.nodup)).1
  have hothers := (List.nodup_cons.mp (Cycle.nodup_coe_iff.mp h'.nodup)).1
  rw [eq_of_isChain ((Cycle.chain_coe_cons _ _ _).mp h.chain)
    ((Cycle.chain_coe_cons _ _ _).mp h'.chain) hpath hothers]

lemma IsOrbit.lt_size {parents : Array (Option Nat)} {orbit : Cycle Nat}
    (h : IsOrbit (parentIn parents) orbit) {i : Nat} (hi : i ∈ orbit) : i < parents.size := by
  obtain ⟨p, -, hp⟩ := h.exists_up hi
  exact lt_size_of_parentIn_eq_some hp

namespace ParentCycle

variable {parents : Array (Option Nat)} {marks : Array Mark} {path : List Nat}

/-! ### Walks -/

/-- How the path of a walk, given in the opposite order of walking, agrees with the marks. -/
structure Climbed (parents : Array (Option Nat)) (marks : Array Mark) (path : List Nat) : Prop where
  nodup : path.Nodup
  mem_iff : ∀ i, i ∈ path ↔ marks[i]? = some .onPath
  chain : path.IsChain fun p i => parentIn parents i = some p

lemma Climbed.push (h : Climbed parents marks path) {position : Nat} (hlt : position < marks.size)
    (hmark : marks[position] = .unvisited)
    (hlast : ∀ last ∈ path.head?, parentIn parents last = some position) :
    Climbed parents (marks.set position .onPath) (position :: path) where
  nodup := by
    refine List.nodup_cons.mpr ⟨fun hmem => ?_, h.nodup⟩
    rw [h.mem_iff, Array.getElem?_eq_getElem hlt, hmark] at hmem
    cases hmem
  mem_iff i := by
    rw [List.mem_cons, h.mem_iff, Array.getElem?_set]
    by_cases heq : position = i
    · simp [heq]
    · simp [heq, Ne.symm heq]
  chain := List.isChain_cons.mpr ⟨hlast, h.chain⟩

/-- What a walk closes when it runs into its own path is a cycle. -/
lemma Climbed.isOrbit_cycleFrom (h : Climbed parents marks path) {position : Nat}
    (hmem : position ∈ path) (hlast : ∀ last ∈ path.head?, parentIn parents last = some position) :
    IsOrbit (parentIn parents) (cycleFrom position path : List Nat) := by
  obtain ⟨rest, hpath⟩ := exists_eq_takeWhile_append hmem
  have hnew : position ∉ path.takeWhile (· != position) := fun h => by
    simpa using List.mem_takeWhile_imp h
  rw [cycleFrom]
  generalize path.takeWhile (· != position) = front at hpath hnew ⊢
  subst hpath
  have hprefix : front ++ [position] <+: front ++ position :: rest := ⟨rest, by simp⟩
  -- The path is kept in the opposite order, so the links run from each position to the one before.
  have hback : (position :: (front ++ [position])).IsChain
      fun p i => parentIn parents i = some p := by
    refine List.isChain_cons.mpr ⟨?_, h.chain.prefix hprefix⟩
    cases front <;> exact hlast
  exact {
    ne_nil := by simp
    nodup := by
      rw [Cycle.nodup_coe_iff, List.nodup_cons, List.mem_reverse, List.nodup_reverse]
      exact ⟨hnew, h.nodup.of_append_left⟩
    chain := by
      rw [Cycle.chain_coe_cons, ← List.isChain_reverse]
      simpa using hback }

/-- How a walk ends that has started with the given marks: at a position without a parent or below
one that is done or beyond the table, or else on the cycle that it closes. -/
structure Ended (parents : Array (Option Nat)) (marks : Array Mark) (walk : Walk) : Prop where
  climbed : Climbed parents walk.marks walk.path
  size_eq : walk.marks.size = marks.size
  done_iff : ∀ i : Nat, walk.marks[i]? = some Mark.done ↔ marks[i]? = some Mark.done
  up_done : walk.cycle = none → ∀ last ∈ walk.path.head?, ∀ p, parentIn parents last = some p →
    p < marks.size → marks[p]? = some .done
  orbit : ∀ cycle, walk.cycle = some cycle → IsOrbit (parentIn parents) (cycle : List Nat) ∧
    cycle ⊆ walk.path ∧ ∀ last ∈ walk.path.head?, last ∈ cycle

/-- To put a position on the path changes nothing about what is done. -/
lemma Ended.of_set {walk : Walk} {position : Nat} {hlt : position < marks.size}
    (h : Ended parents (marks.set position .onPath) walk) (hmark : marks[position] = .unvisited) :
    Ended parents marks walk := by
  have hdone : ∀ i : Nat, (marks.set position .onPath)[i]? = some Mark.done ↔
      marks[i]? = some Mark.done := by
    intro i
    rw [Array.getElem?_set]
    by_cases heq : position = i
    · subst heq
      simp [Array.getElem?_eq_getElem hlt, hmark]
    · simp [heq]
  exact {
    climbed := h.climbed
    size_eq := h.size_eq.trans (Array.size_set _)
    done_iff := fun i => (h.done_iff i).trans (hdone i)
    up_done := fun hcycle last hlast p hp hlt' =>
      (hdone p).mp (h.up_done hcycle last hlast p hp (by rwa [Array.size_set]))
    orbit := h.orbit }

lemma climb_ended {current : Option Nat} (h : Climbed parents marks path)
    (hlast : ∀ last ∈ path.head?, parentIn parents last = current) :
    Ended parents marks (climb parents marks path current) := by
  fun_induction climb parents marks path current with
  | case1 marks path =>
    refine ⟨h, rfl, fun _ => Iff.rfl, fun _ last hmem p hp => ?_, by simp⟩
    rw [hlast last hmem] at hp
    cases hp
  -- The position is put on the path, which leaves alone what is done.
  | case2 marks path position hlt hmark ih =>
    refine (ih (h.push hlt hmark hlast) fun last hmem => ?_).of_set hmark
    cases hmem
    rfl
  | case3 marks path position hlt hmark =>
    -- A mark of this walk has been met, so the path from there on closes a cycle.
    have hmem : position ∈ path := by
      rw [h.mem_iff, Array.getElem?_eq_getElem hlt, hmark]
    refine ⟨h, rfl, fun _ => Iff.rfl, by simp, fun cycle hcycle => ?_⟩
    cases hcycle
    refine ⟨h.isOrbit_cycleFrom hmem hlast, fun i hi => ?_, fun last hlast => ?_⟩
    · rcases List.mem_cons.mp hi with rfl | hi
      · exact hmem
      · exact List.takeWhile_subset _ (List.mem_reverse.mp hi)
    · obtain ⟨below, rfl⟩ := List.head?_eq_some_iff.mp hlast
      -- The last position is on the cycle, because it is where the walk stood when it closed.
      by_cases heq : last = position <;> simp [cycleFrom, heq]
  | case4 marks path position hlt hmark =>
    refine ⟨h, rfl, fun _ => Iff.rfl, fun _ last hmem p hp _ => ?_, by simp⟩
    rw [hlast last hmem] at hp
    cases hp
    rw [Array.getElem?_eq_getElem hlt, hmark]
  | case5 marks path position hlt =>
    refine ⟨h, rfl, fun _ => Iff.rfl, fun _ last hmem p hp hp' => ?_, by simp⟩
    rw [hlast last hmem] at hp
    cases hp
    exact absurd hp' hlt

/-- The parent of each position of a path stands on the path, except for where the walk ends. -/
lemma Climbed.head_or_up_mem (h : Climbed parents marks path) {i : Nat} (hi : i ∈ path) :
    i ∈ path.head? ∨ ∀ p, parentIn parents i = some p → p ∈ path := by
  have hchain := h.chain
  clear h
  induction path with
  | nil => cases hi
  | cons last path ih =>
    obtain ⟨hlast, hchain⟩ := List.isChain_cons.mp hchain
    rcases List.mem_cons.mp hi with rfl | hi
    · exact Or.inl rfl
    · refine Or.inr fun p hp => ?_
      rcases ih hi hchain with hhead | hup
      · rw [hlast i hhead] at hp
        cases hp
        exact List.mem_cons_self
      · exact List.mem_cons_of_mem last (hup p hp)

/-- If a walk comes to a cycle, it ends on it. -/
lemma Climbed.last_mem (h : Climbed parents marks path) {orbit : Cycle Nat}
    (horbit : IsOrbit (parentIn parents) orbit) {i : Nat} (hi : i ∈ orbit) (hpath : i ∈ path) :
    ∃ last ∈ path.head?, last ∈ orbit := by
  have hchain := h.chain
  clear h
  induction path with
  | nil => cases hpath
  | cons last path ih =>
    refine ⟨last, rfl, ?_⟩
    rcases List.mem_cons.mp hpath with rfl | hpath
    · exact hi
    · obtain ⟨hlast, hchain⟩ := List.isChain_cons.mp hchain
      obtain ⟨below, hbelow, hmem⟩ := ih hpath hchain
      exact horbit.mem_of_up hmem (hlast below hbelow)

/-! ### Searches -/

/-- What the marks mean between two walks: all that is above what is done is done. -/
structure Searched (parents : Array (Option Nat)) (marks : Array Mark) : Prop where
  size_eq : marks.size = parents.size
  not_onPath : ∀ i : Nat, marks[i]? ≠ some Mark.onPath
  done_up : ∀ i p : Nat, marks[i]? = some Mark.done → parentIn parents i = some p →
    p < marks.size → marks[p]? = some Mark.done

lemma Searched.initial (parents : Array (Option Nat)) :
    Searched parents (Array.replicate parents.size .unvisited) where
  size_eq := Array.size_replicate
  not_onPath i := by simp [Array.getElem?_replicate]
  done_up i p h := by simp [Array.getElem?_replicate] at h

lemma Searched.climbed (h : Searched parents marks) : Climbed parents marks [] where
  nodup := List.nodup_nil
  mem_iff i := by simp [h.not_onPath i]
  chain := List.isChain_nil

/-- What has been met before is done. -/
lemma Searched.done_of_ne_unvisited (h : Searched parents marks) {i : Nat}
    (hi : i < parents.size) (hmark : marks[i]? ≠ some .unvisited) : marks[i]? = some .done := by
  have honPath := h.not_onPath i
  rw [← h.size_eq] at hi
  rw [Array.getElem?_eq_getElem hi] at hmark honPath ⊢
  cases hm : marks[i] with
  | unvisited => exact absurd (congrArg some hm) hmark
  | onPath => exact absurd (congrArg some hm) honPath
  | done => rfl

/-- If a position of a cycle is done, all of them are. -/
lemma Searched.done_of_mem (h : Searched parents marks) {orbit : Cycle Nat}
    (horbit : IsOrbit (parentIn parents) orbit) {i : Nat} (hi : i ∈ orbit)
    (hdone : marks[i]? = some .done) : ∀ j ∈ orbit, marks[j]? = some .done := by
  refine horbit.forall_mem hi hdone fun j hj p hp hdone => h.done_up j p hdone hp ?_
  rw [h.size_eq]
  exact horbit.lt_size (horbit.mem_of_up hj hp)

section

variable {walk : Walk}

/-- After a walk, its path is done and what was done before. -/
lemma Ended.done_settle_iff (h : Ended parents marks walk) (i : Nat) :
    (settle walk.marks walk.path)[i]? = some .done ↔
      marks[i]? = some .done ∨ i ∈ walk.path := by
  rw [getElem?_settle, ← h.done_iff]
  split
  · rename_i hmem
    simp [hmem, (h.climbed.mem_iff i).mp hmem]
  · rename_i hmem
    simp [hmem]

lemma Ended.not_done_of_mem (h : Ended parents marks walk) {i : Nat} (hi : i ∈ walk.path) :
    marks[i]? ≠ some .done := by
  rw [Ne, ← h.done_iff, (h.climbed.mem_iff i).mp hi]
  simp

/-- What is above a path stands on the path, or it is done. -/
lemma Ended.up_mem (h : Ended parents marks walk) {i p : Nat} (hi : i ∈ walk.path)
    (hp : parentIn parents i = some p) (hlt : p < marks.size) :
    marks[p]? = some .done ∨ p ∈ walk.path := by
  rcases h.climbed.head_or_up_mem hi with hlast | hmem
  · cases hcycle : walk.cycle with
    | none => exact Or.inl (h.up_done hcycle i hlast p hp hlt)
    | some cycle =>
      obtain ⟨horbit, hsubset, hend⟩ := h.orbit cycle hcycle
      have hmem := horbit.mem_of_up (Cycle.mem_coe_iff.mpr (hend i hlast)) hp
      exact Or.inr (hsubset (Cycle.mem_coe_iff.mp hmem))
  · exact Or.inr (hmem p hp)

/-- A walk leaves marks that mean what they should. -/
lemma Ended.searched (h : Ended parents marks walk) (hsearched : Searched parents marks) :
    Searched parents (settle walk.marks walk.path) where
  size_eq := by rw [size_settle, h.size_eq, hsearched.size_eq]
  not_onPath i hi := by
    rw [getElem?_settle] at hi
    split at hi
    · obtain ⟨_, _, hdone⟩ := Option.map_eq_some_iff.mp hi
      cases hdone
    · rename_i hmem
      exact hmem ((h.climbed.mem_iff i).mpr hi)
  done_up i p hi hp hlt := by
    rw [size_settle, h.size_eq] at hlt
    rw [h.done_settle_iff] at hi ⊢
    rcases hi with hi | hi
    · exact Or.inl (hsearched.done_up i p hi hp hlt)
    · exact h.up_mem hi hp hlt

/-- A cycle that a walk comes to is the one that it closes. -/
lemma Ended.cycle_eq (h : Ended parents marks walk) (hsearched : Searched parents marks)
    {orbit : Cycle Nat} (horbit : IsOrbit (parentIn parents) orbit) {i : Nat} (hi : i ∈ orbit)
    (hpath : i ∈ walk.path) : ∃ cycle, walk.cycle = some cycle ∧ orbit = (cycle : List Nat) := by
  obtain ⟨last, hlast, hmem⟩ := h.climbed.last_mem horbit hi hpath
  cases hcycle : walk.cycle with
  | some cycle =>
    obtain ⟨hfound, -, hend⟩ := h.orbit cycle hcycle
    exact ⟨cycle, rfl, horbit.eq_of_mem hfound hmem (Cycle.mem_coe_iff.mpr (hend last hlast))⟩
  | none =>
    obtain ⟨p, hp, hup⟩ := horbit.exists_up hmem
    have hdone := h.up_done hcycle last hlast p hup (hsearched.size_eq ▸ horbit.lt_size hp)
    exact absurd (hsearched.done_of_mem horbit hp hdone i hi) (h.not_done_of_mem hpath)

end

/-- What a search from the given positions finds: all cycles that it can come to and that were not
done before it, and none of them twice. -/
structure Finds (parents : Array (Option Nat)) (marks : Array Mark) (starts : List Nat)
    (found : List (List Nat)) : Prop where
  orbit : ∀ cycle ∈ found, IsOrbit (parentIn parents) (cycle : List Nat)
  not_done : ∀ cycle ∈ found, ∀ i ∈ cycle, marks[i]? ≠ some Mark.done
  nodup : (found.map Cycle.ofList).Nodup
  complete : ∀ orbit : Cycle Nat, IsOrbit (parentIn parents) orbit → ∀ i ∈ orbit, i ∈ starts →
    marks[i]? ≠ some Mark.done → orbit ∈ found.map Cycle.ofList

namespace Finds

variable {start : Nat} {starts : List Nat} {found : List (List Nat)}

/-- From a position that has been met before nothing new can be found. -/
lemma skip (h : Finds parents marks starts found) (hsearched : Searched parents marks)
    (hmark : marks[start]? ≠ some .unvisited) : Finds parents marks (start :: starts) found where
  orbit := h.orbit
  not_done := h.not_done
  nodup := h.nodup
  complete := by
    intro orbit horbit i hi hmem hdone
    rcases List.mem_cons.mp hmem with rfl | hmem
    · exact absurd (hsearched.done_of_ne_unvisited (horbit.lt_size hi) hmark) hdone
    · exact h.complete orbit horbit i hi hmem hdone

/-- The cycle that a walk closes, if it closes one, comes in front of what is found after it. -/
lemma walk {walk : Walk}
    (h : Finds parents (settle walk.marks walk.path) starts found)
    (hsearched : Searched parents marks) (hended : Ended parents marks walk)
    (hstart : start ∈ walk.path) :
    Finds parents marks (start :: starts) (walk.cycle.toList ++ found) where
  orbit := by
    intro cycle hcycle
    rcases List.mem_append.mp hcycle with hcycle | hcycle
    · exact (hended.orbit cycle (Option.mem_toList.mp hcycle)).1
    · exact h.orbit cycle hcycle
  not_done := by
    intro cycle hcycle i hi
    rcases List.mem_append.mp hcycle with hcycle | hcycle
    · obtain ⟨-, hsubset, -⟩ := hended.orbit cycle (Option.mem_toList.mp hcycle)
      exact hended.not_done_of_mem (hsubset hi)
    · exact fun hdone => h.not_done cycle hcycle i hi
        ((hended.done_settle_iff i).mpr (Or.inl hdone))
  nodup := by
    rw [List.map_append]
    refine List.nodup_append.mpr ⟨by cases walk.cycle <;> simp, h.nodup, ?_⟩
    intro orbit hmem other hmem' hsame
    obtain ⟨cycle, hcycle, rfl⟩ := List.mem_map.mp hmem
    obtain ⟨later, hlater, rfl⟩ := List.mem_map.mp hmem'
    -- The positions of the walk's cycle are done when the later cycles are searched for.
    obtain ⟨horbit, hsubset, -⟩ := hended.orbit cycle (Option.mem_toList.mp hcycle)
    obtain ⟨i, hi⟩ := horbit.exists_mem
    exact h.not_done later hlater i (Cycle.mem_coe_iff.mp (hsame ▸ hi))
      ((hended.done_settle_iff i).mpr (Or.inr (hsubset hi)))
  complete := by
    intro orbit horbit i hi hmem hdone
    rw [List.map_append, List.mem_append]
    by_cases hpath : i ∈ walk.path
    · obtain ⟨cycle, hcycle, rfl⟩ := hended.cycle_eq hsearched horbit hi hpath
      exact Or.inl (List.mem_map_of_mem (Option.mem_toList.mpr hcycle))
    · have hi' : i ∈ starts := List.mem_of_ne_of_mem (fun heq => hpath (heq ▸ hstart)) hmem
      refine Or.inr (h.complete orbit horbit i hi hi' ?_)
      rw [Ne, hended.done_settle_iff]
      exact not_or.mpr ⟨hdone, hpath⟩

end Finds

lemma searchFrom_finds {starts : List Nat} (h : Searched parents marks) :
    Finds parents marks starts (searchFrom parents marks starts) := by
  induction starts generalizing marks with
  | nil => exact ⟨by simp [searchFrom], by simp [searchFrom], List.nodup_nil, by simp⟩
  | cons start starts ih =>
    rw [searchFrom]
    split
    · rename_i hmark
      have hended : Ended parents marks (climb parents marks [] (some start)) :=
        climb_ended h.climbed (by simp)
      exact (ih (hended.searched h)).walk h hended (mem_climb_of_unvisited hmark)
    · rename_i hmark
      exact (ih h).skip h hmark

end ParentCycle

lemma parentCycles_finds (parents : Array (Option Nat)) :
    ParentCycle.Finds parents (Array.replicate parents.size .unvisited)
      (List.range parents.size) (parentCycles parents) :=
  ParentCycle.searchFrom_finds (ParentCycle.Searched.initial parents)

/-- The search for cycles of parents finds each of them, and nothing else. -/
theorem mem_parentCycles_iff (parents : Array (Option Nat)) (orbit : Cycle Nat) :
    orbit ∈ (parentCycles parents).map Cycle.ofList ↔ IsOrbit (parentIn parents) orbit := by
  constructor
  · intro hmem
    obtain ⟨cycle, hcycle, rfl⟩ := List.mem_map.mp hmem
    exact (parentCycles_finds parents).orbit cycle hcycle
  · intro horbit
    obtain ⟨i, hi⟩ := horbit.exists_mem
    exact (parentCycles_finds parents).complete orbit horbit i hi
      (List.mem_range.mpr (horbit.lt_size hi)) (by simp [Array.getElem?_replicate])

/-- No cycle is found twice, not even from two of its positions. -/
theorem nodup_parentCycles (parents : Array (Option Nat)) :
    ((parentCycles parents).map Cycle.ofList).Nodup :=
  (parentCycles_finds parents).nodup

end PlanChart
