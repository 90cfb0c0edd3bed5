import PlanChart.Proofs.Drawable
import PlanChart.Proofs.Nesting

/-!
# The steps of a walk

A walk keeps no record of what it has met besides its cursors, and it comes to an end all the same.
Each of its steps enters a node or gives a cursor up. What the steps do follows the grove that the
forest unfolds into: every node stands there once and is entered once, and the cursor for a group's
children is given up once they have been entered. The cursor for the roots is the last.
-/

namespace PlanChart

namespace Document

/-! ### What steps do -/

/-- What one step of a walk does. -/
inductive Move
  /-- Enter a node. -/
  | enter (position : Nat)
  /-- Give the innermost cursor up. -/
  | leave
  deriving DecidableEq, Repr

/-- The node that a step enters. -/
def Move.entered? : Move → Option Nat
  | enter position => some position
  | leave => none

@[simp] lemma filterMap_entered?_enter (position : Nat) (moves : List Move) :
    (Move.enter position :: moves).filterMap Move.entered? =
      position :: moves.filterMap Move.entered? := rfl

@[simp] lemma filterMap_entered?_leave (moves : List Move) :
    (Move.leave :: moves).filterMap Move.entered? = moves.filterMap Move.entered? := rfl

/-- Every step either enters a node or gives a cursor up. -/
lemma length_moves (moves : List Move) :
    moves.length = (moves.filterMap Move.entered?).length + moves.count .leave := by
  induction moves with
  | nil => rfl
  | cons move moves ih =>
    cases move with
    | enter position =>
      rw [filterMap_entered?_enter, List.count_cons_of_ne (by simp), List.length_cons,
        List.length_cons, ih, Nat.add_right_comm]
    | leave =>
      rw [filterMap_entered?_leave, List.count_cons_self, List.length_cons, ih, Nat.add_assoc]

namespace Walk

variable {forest : Forest} {baseUrl : String} {walk next last : Walk} {move : Move}
  {moves others : List Move} {cursor : Cursor} {outer cursors : List Cursor} {position : Nat}

/-- What the next step does, as long as there is a cursor. -/
def move? (walk : Walk) : Option Move :=
  walk.cursors.head?.map fun cursor => (cursor.siblings[cursor.next]?).elim .leave .enter

/-- A walk takes steps that do what is listed, and comes to another walk by them. -/
inductive Takes (forest : Forest) (baseUrl : String) : Walk → List Move → Walk → Prop
  | stop (walk : Walk) : Takes forest baseUrl walk [] walk
  | step {walk next last : Walk} {move : Move} {moves : List Move}
      (hmove : walk.move? = some move) (hstep : walk.step forest baseUrl = .ok next)
      (hrest : Takes forest baseUrl next moves last) :
      Takes forest baseUrl walk (move :: moves) last

@[simp] lemma cursors_leave (walk : Walk) (outer : List Cursor) :
    (walk.leave forest outer).cursors = outer := by
  rw [leave]
  split <;> rfl

lemma cursors_of_enter (h : walk.enter forest baseUrl cursors position = .ok next) :
    next.cursors = if (forest.node position).isGroup then
      Cursor.start (forest.node position).children :: cursors else cursors := by
  obtain ⟨text, -, htext⟩ := bind_eq_ok_iff.mp h
  split at htext <;> rename_i hgroup
  · cases htext
    rw [if_pos hgroup]
  · cases htext
    rw [if_neg hgroup]

/-- A node with well-formed colours can be entered. -/
lemma exists_enter (hcolor : ∀ role, ∃ color, (forest.node position).color role = .ok color)
    (cursors : List Cursor) : ∃ next, walk.enter forest baseUrl cursors position = .ok next := by
  obtain ⟨foreground, hforeground⟩ := hcolor .foreground
  obtain ⟨background, hbackground⟩ := hcolor .background
  rw [enter, opening, hforeground, hbackground]
  simp only [ok_bind]
  split <;> exact ⟨_, rfl⟩

/-- A step gives the innermost cursor up, or it enters the cursor's next sibling and goes on with
the children if that is a group. -/
lemma step_cases (hmove : walk.move? = some move) (hstep : walk.step forest baseUrl = .ok next) :
    ∃ cursor outer, walk.cursors = cursor :: outer ∧
      ((move = .leave ∧ cursor.siblings[cursor.next]? = none ∧ next.cursors = outer) ∨
        ∃ position, move = .enter position ∧ cursor.siblings[cursor.next]? = some position ∧
          next.cursors = if (forest.node position).isGroup then
            Cursor.start (forest.node position).children ::
              { cursor with next := cursor.next + 1 } :: outer
            else { cursor with next := cursor.next + 1 } :: outer) := by
  cases hcursors : walk.cursors with
  | nil =>
    rw [move?, hcursors] at hmove
    cases hmove
  | cons cursor outer =>
    rw [move?, hcursors, List.head?_cons, Option.map_some, Option.some.injEq] at hmove
    -- The move is named by the same look-up that the step makes.
    refine ⟨cursor, outer, rfl, ?_⟩
    cases hnext : cursor.siblings[cursor.next]? with
    | none =>
      rw [hnext, Option.elim_none] at hmove
      simp only [Walk.step, hcursors, hnext, Except.ok.injEq] at hstep
      exact .inl ⟨hmove.symm, rfl, by rw [← hstep, cursors_leave]⟩
    | some position =>
      rw [hnext, Option.elim_some] at hmove
      simp only [Walk.step, hcursors, hnext] at hstep
      exact .inr ⟨position, hmove.symm, rfl, cursors_of_enter hstep⟩

/-- A step keeps the cursors nested. -/
lemma nested_step (hmove : walk.move? = some move) (hstep : walk.step forest baseUrl = .ok next)
    (h : Nested forest walk.cursors) : Nested forest next.cursors := by
  obtain ⟨cursor, outer, hcursors, ⟨-, -, hafter⟩ | ⟨position, -, hnext, hafter⟩⟩ :=
    step_cases hmove hstep
  · rw [hcursors] at h
    rw [hafter]
    exact h.leave
  · rw [hcursors] at h
    rw [hafter]
    split
    · rename_i hgroup
      exact (h.advance hnext).enter hnext hgroup
    · exact h.advance hnext

namespace Takes

/-- Whatever steps a walk takes, its cursors stay nested. -/
lemma nested (h : Takes forest baseUrl walk moves last) (hnested : Nested forest walk.cursors) :
    Nested forest last.cursors := by
  induction h with
  | stop => exact hnested
  | step hmove hstep _ ih => exact ih (nested_step hmove hstep hnested)

lemma append (h : Takes forest baseUrl walk moves next)
    (hothers : Takes forest baseUrl next others last) :
    Takes forest baseUrl walk (moves ++ others) last := by
  induction h with
  | stop => exact hothers
  | step hmove hstep _ ih => exact .step hmove hstep (ih hothers)

/-- There is only one way to go on, so whatever steps a walk takes, it takes them on its way to the
end. -/
lemma isPrefix (h : Takes forest baseUrl walk others next)
    (hlast : Takes forest baseUrl walk moves last) (hend : last.cursors = []) :
    others <+: moves := by
  induction h generalizing moves with
  | stop => exact List.nil_prefix
  | step hmove hstep _ ih =>
    cases hlast with
    | stop =>
      -- A walk that has ended has no next step.
      rw [move?, hend] at hmove
      cases hmove
    | step hmove' hstep' hrest =>
      rw [hmove] at hmove'
      rw [hstep] at hstep'
      cases hmove'
      cases hstep'
      exact (List.prefix_cons_inj _).mpr (ih hrest)

lemma run_eq (h : Takes forest baseUrl walk moves last) (limit : Nat) :
    run forest baseUrl (moves.length + limit) walk = run forest baseUrl limit last := by
  induction h with
  | stop => rw [List.length_nil, Nat.zero_add]
  | @step walk next last move moves hmove hstep _ ih =>
    have hcursors : walk.cursors ≠ [] := by
      intro hnil
      rw [move?, hnil] at hmove
      cases hmove
    rw [List.length_cons, Nat.add_right_comm, run_succ hcursors, hstep, ok_bind, ih]

/-- A walk that ends in no more steps than are allowed is the whole one. -/
lemma whole_eq (h : Takes forest baseUrl (start forest) moves last) (hend : last.cursors = [])
    (hlimit : moves.length ≤ stepLimit forest) : whole forest baseUrl = .ok last := by
  obtain ⟨extra, hextra⟩ := Nat.exists_eq_add_of_le hlimit
  rw [whole, hextra, h.run_eq, run_of_cursors_eq_nil hend]

end Takes

/-! ### The steps through a grove -/

/-- What the steps through a grove do: a group is entered and, after the grove below it, the cursor
for its children is given up. -/
def movesThrough (forest : Forest) : Grove Nat → List Move
  | .nil => []
  | .cons position below rest =>
    .enter position :: (movesThrough forest below ++
      ((if (forest.node position).isGroup then [.leave] else []) ++ movesThrough forest rest))

lemma filterMap_entered?_movesThrough (forest : Forest) (grove : Grove Nat) :
    (movesThrough forest grove).filterMap Move.entered? = grove.preorder := by
  induction grove with
  | nil => rfl
  | cons position below rest ihb ihr =>
    rw [movesThrough, Grove.preorder_cons]
    cases (forest.node position).isGroup <;> simp [ihb, ihr]

lemma count_leave_movesThrough (forest : Forest) (grove : Grove Nat) :
    (movesThrough forest grove).count .leave = forest.countGroups grove.preorder := by
  induction grove with
  | nil => rfl
  | cons position below rest ihb ihr =>
    rw [Forest.countGroups] at ihb ihr
    rw [movesThrough, Forest.countGroups, Grove.preorder_cons, List.countP_cons, List.countP_append,
      ← ihb, ← ihr, List.count_cons_of_ne (by simp), List.count_append, List.count_append]
    cases (forest.node position).isGroup with
    | true =>
      rw [if_pos rfl, if_pos rfl, List.count_singleton_self]
      omega
    | false =>
      rw [if_neg Bool.false_ne_true, if_neg Bool.false_ne_true, List.count_nil]
      omega

/-- The step that gives up the innermost cursor, which is used up. -/
lemma exists_takes_leave (hcursors : walk.cursors = cursor :: outer)
    (hend : cursor.siblings.size ≤ cursor.next) :
    ∃ next, Takes forest baseUrl walk [.leave] next ∧ next.cursors = outer := by
  have hnext := Array.getElem?_eq_none hend
  refine ⟨walk.leave forest outer, .step ?_ ?_ (.stop _), cursors_leave walk outer⟩
  · simp [move?, hcursors, hnext]
  · simp [Walk.step, hcursors, hnext]

/-- The step that enters a node with well-formed colours. -/
lemma exists_takes_enter (hcursors : walk.cursors = cursor :: outer)
    (hnext : cursor.siblings[cursor.next]? = some position)
    (hcolor : ∀ role, ∃ color, (forest.node position).color role = .ok color) :
    ∃ next, Takes forest baseUrl walk [.enter position] next ∧
      next.cursors = if (forest.node position).isGroup then
        Cursor.start (forest.node position).children ::
          { cursor with next := cursor.next + 1 } :: outer
        else { cursor with next := cursor.next + 1 } :: outer := by
  obtain ⟨next, henter⟩ := exists_enter hcolor ({ cursor with next := cursor.next + 1 } :: outer)
  refine ⟨next, .step ?_ ?_ (.stop _), cursors_of_enter henter⟩
  · simp [move?, hcursors, hnext]
  · simpa [Walk.step, hcursors, hnext] using henter

/-- A walk whose innermost cursor stands before the roots of a grove goes through the grove, where
all colours are well-formed, and has then entered the roots. -/
lemma exists_takes_movesThrough {grove : Grove Nat} (hfollows : grove.Follows forest.down)
    (hcolors : ∀ i ∈ grove.preorder, ∀ role, ∃ color, (forest.node i).color role = .ok color)
    (cursor : Cursor) (hcursor : cursor.siblings.toList.drop cursor.next = grove.roots)
    (hcursors : walk.cursors = cursor :: outer) :
    ∃ last, Takes forest baseUrl walk (movesThrough forest grove) last ∧
      last.cursors = { cursor with next := cursor.next + grove.roots.length } :: outer := by
  induction grove generalizing walk cursor outer with
  | nil => exact ⟨walk, .stop walk, hcursors⟩
  | cons position below rest ihb ihr =>
    obtain ⟨hbelow, hfb, hfr⟩ := hfollows
    rw [Grove.preorder_cons, List.forall_mem_cons, List.forall_mem_append] at hcolors
    obtain ⟨hcolor, hcb, hcr⟩ := hcolors
    obtain ⟨hnext, hrest⟩ := Cursor.next_of_drop hcursor
    obtain ⟨entered, henter, hentered⟩ := exists_takes_enter hcursors hnext hcolor
    have hlast : cursor.next + 1 + rest.roots.length =
        cursor.next + (Grove.cons position below rest).roots.length := by
      rw [Grove.roots_cons, List.length_cons]
      omega
    rw [← hlast, movesThrough]
    cases hgroup : (forest.node position).isGroup with
    | true =>
      rw [hgroup, if_pos rfl] at hentered
      -- The children's cursor runs through the grove below and is then given up.
      obtain ⟨inside, hinner, hinside⟩ := ihb hfb hcb (Cursor.start _) hbelow.symm hentered
      obtain ⟨left, hleave, hleft⟩ :=
        exists_takes_leave hinside (Cursor.size_le_of_roots_eq hbelow)
      obtain ⟨last, hothers, hcursors⟩ := ihr hfr hcr _ hrest hleft
      exact ⟨last, henter.append (hinner.append (hleave.append hothers)), hcursors⟩
    | false =>
      rw [hgroup, if_neg Bool.false_ne_true] at hentered
      obtain rfl : below = .nil := by
        rw [← Grove.roots_eq_nil_iff, hbelow, Forest.down_eq_nil_of_not_isGroup hgroup]
      obtain ⟨last, hothers, hcursors⟩ := ihr hfr hcr _ hrest hentered
      exact ⟨last, henter.append hothers, hcursors⟩

/-- A walk through a whole forest comes to an end where all colours are well-formed. It enters every
node once, and it gives up the cursors for the children of every group and for the roots. -/
lemma exists_takes_start (hsound : forest.Sound)
    (hcolors : ∀ i < forest.size, ∀ role, ∃ color, (forest.node i).color role = .ok color) :
    ∃ moves last, Takes forest baseUrl (start forest) moves last ∧ last.cursors = [] ∧
      (moves.filterMap Move.entered?).Perm (List.range forest.size) ∧
      moves.count .leave = forest.nodes.countP Node.isGroup + 1 := by
  obtain ⟨grove, hgrove⟩ := hsound.exists_unfolds
  have hperm := hsound.preorder_perm hgrove
  have hmet : ∀ i ∈ grove.preorder, ∀ role, ∃ color, (forest.node i).color role = .ok color :=
    fun i hi => hcolors i ((hsound.mem_preorder_iff hgrove).mp hi)
  have hstart : (start forest).cursors = [Cursor.start forest.roots] := rfl
  obtain ⟨used, hwalk, hused⟩ := exists_takes_movesThrough hgrove.follows hmet
    (Cursor.start forest.roots) hgrove.roots_eq.symm hstart
  obtain ⟨last, hleave, hlast⟩ :=
    exists_takes_leave hused (Cursor.size_le_of_roots_eq hgrove.roots_eq)
  refine ⟨_, last, hwalk.append hleave, hlast, ?_, ?_⟩
  · rw [List.filterMap_append, filterMap_entered?_movesThrough]
    simpa using hperm
  · rw [List.count_append, count_leave_movesThrough, ← Forest.countGroups_range,
      Forest.countGroups, hperm.countP_eq]
    rfl

end Walk

/-- The walk through a forest that has been built ends and stays within bounds. Wherever it comes
to, its cursors are nested in each other, there are no more of them than one and the largest number
of groups on the way from a root to a node, and no node is looked up that the forest does not have:
the siblings, what they depend on, and what is met on the way down from these to a first leaf. If no
colour is malformed, the walk comes to its end in one step for each node, which enters it, and one
for each group and one for the roots, which give a cursor up. It takes no other steps than these. -/
theorem walk_ends_within_bounds {issues : List Issue} {directory : Directory}
    {categoryField : Option String} {policy : MissingPolicy} {forest : Forest}
    (h : Forest.build issues directory categoryField policy = .ok forest) (baseUrl : String) :
    (∀ moves walk, Walk.Takes forest baseUrl (Walk.start forest) moves walk →
      Nested forest walk.cursors ∧ walk.cursors.length ≤ 1 + forest.groupDepth ∧
      ∀ cursor ∈ walk.cursors, ∀ i ∈ cursor.siblings,
        ∀ j ∈ i :: (forest.node i).dependencies.toList, ∀ limit,
          forest.descendFirst limit j < forest.size) ∧
    ((∀ i < forest.size, ∀ role, ∃ color, (forest.node i).color role = .ok color) →
      ∃ moves last, Walk.Takes forest baseUrl (Walk.start forest) moves last ∧
        last.cursors = [] ∧ Walk.whole forest baseUrl = .ok last ∧
        (moves.filterMap Move.entered?).Perm (List.range forest.size) ∧
        moves.count .leave = forest.nodes.countP Node.isGroup + 1 ∧
        moves.length = forest.size + (forest.nodes.countP Node.isGroup + 1) ∧
        ∀ others walk, Walk.Takes forest baseUrl (Walk.start forest) others walk →
          others <+: moves) := by
  have hsound := Forest.sound_of_build h
  constructor
  · intro moves walk hwalk
    have hnested := hwalk.nested (Nested.start forest)
    refine ⟨hnested, hnested.length_le hsound, ?_⟩
    intro cursor hcursor i hi j hj limit
    refine hsound.descendFirst_lt ?_ limit
    rcases List.mem_cons.mp hj with rfl | hj
    · exact hnested.lt_size hsound cursor hcursor j hi
    · exact hsound.dependencies_lt i j (Array.mem_toList_iff.mp hj)
  · intro hcolors
    obtain ⟨moves, last, hlast, hend, hentered, hleft⟩ := Walk.exists_takes_start hsound hcolors
    have hlength : moves.length = forest.size + (forest.nodes.countP Node.isGroup + 1) := by
      rw [length_moves, hentered.length_eq, List.length_range, hleft]
    -- The walk is given twice as many steps as there are nodes, and one for the roots.
    have hgroups : forest.nodes.countP Node.isGroup ≤ forest.size := Array.countP_le_size
    have hlimit : moves.length ≤ Walk.stepLimit forest := by
      rw [hlength, Walk.stepLimit]
      omega
    exact ⟨moves, last, hlast, hend, hlast.whole_eq hend hlimit, hentered, hleft, hlength,
      fun others walk hwalk => hwalk.isPrefix hlast hend⟩

/-- The walk through a group within a group has three cursors at times, and never more. -/
theorem walk_through_tangledForest_ends_within_bounds :
    Forest.build Forest.tangledIssues Forest.tangledDirectory none .drop =
        .ok Forest.tangledForest ∧
      (∀ i < 4, ∀ role, ∃ color, (Forest.tangledForest.node i).color role = .ok color) ∧
      ∃ moves last,
        Walk.Takes Forest.tangledForest "t/" (Walk.start Forest.tangledForest) moves last ∧
        last.cursors = [] ∧ (moves.filterMap Move.entered?).Perm [0, 1, 2, 3] ∧
        moves.count .leave = 3 ∧ moves.length = 7 ∧
        ∀ others walk,
          Walk.Takes Forest.tangledForest "t/" (Walk.start Forest.tangledForest) others walk →
          others <+: moves ∧ walk.cursors.length ≤ 3 := by
  have hsize : Forest.tangledForest.size = 4 :=
    Forest.size_ofIssues Forest.tangledIssues Forest.tangledDirectory none
  obtain ⟨document, hdocument⟩ := exists_draw_iff.mpr (drawable_tangledIssues "t/")
  have hcolors := (exists_ofForest_iff (Forest.sound_of_build Forest.build_tangledIssues) "t/").mp
    ⟨document, (draw_eq_ok_iff.mp hdocument).2⟩
  obtain ⟨hbounds, hends⟩ := walk_ends_within_bounds Forest.build_tangledIssues "t/"
  obtain ⟨moves, last, hlast, hend, -, hentered, hleft, hlength, hothers⟩ := hends hcolors
  rw [Forest.countP_isGroup_tangledForest] at hleft hlength
  rw [hsize] at hcolors hentered hlength
  refine ⟨Forest.build_tangledIssues, hcolors, moves, last, hlast, hend, hentered, hleft, hlength,
    ?_⟩
  intro others walk hwalk
  have hle := (hbounds others walk hwalk).2.1
  rw [Forest.groupDepth_tangledForest] at hle
  exact ⟨hothers others walk hwalk, hle⟩

end Document

end PlanChart
