import Mathlib

/-!
# Groves

A grove is an ordered list of trees. It is given the way a list is: there is no tree, or there is a
first tree followed by the rest. The first tree is a root with a grove below it.
-/

namespace PlanChart

/-- An ordered list of trees. -/
inductive Grove (α : Type*) where
  | nil
  | cons (root : α) (below rest : Grove α)
  deriving DecidableEq, Repr

namespace Grove

variable {α β : Type*}

/-- The roots of the trees, in order. -/
def roots : Grove α → List α
  | nil => []
  | cons root _ rest => root :: rest.roots

/-- All labels, each root before the labels below it. -/
def preorder : Grove α → List α
  | nil => []
  | cons root below rest => root :: (below.preorder ++ rest.preorder)

/-- The grove of the same shape with other labels. -/
def map (f : α → β) : Grove α → Grove β
  | nil => nil
  | cons root below rest => cons (f root) (below.map f) (rest.map f)

/-- Each label together with the grove below it, in preorder. -/
def subtrees : Grove α → List (α × Grove α)
  | nil => []
  | cons root below rest => (root, below) :: (below.subtrees ++ rest.subtrees)

/-- The grove of the same shape with other labels, if every label has one. -/
def mapOption (f : α → Option β) : Grove α → Option (Grove β)
  | nil => some nil
  | cons root below rest => do
    let root ← f root
    let below ← below.mapOption f
    let rest ← rest.mapOption f
    return cons root below rest

/-- The trees of one grove followed by those of another. -/
def append : Grove α → Grove α → Grove α
  | nil, g => g
  | cons root below rest, g => cons root below (rest.append g)

instance : Append (Grove α) := ⟨append⟩

@[simp] lemma nil_append (g : Grove α) : nil ++ g = g := rfl

@[simp] lemma cons_append (root : α) (below rest g : Grove α) :
    cons root below rest ++ g = cons root below (rest ++ g) := rfl

@[simp] lemma append_nil (g : Grove α) : g ++ nil = g := by
  induction g with
  | nil => rfl
  | cons root below rest _ ih => rw [cons_append, ih]

lemma append_assoc (g g' g'' : Grove α) : g ++ g' ++ g'' = g ++ (g' ++ g'') := by
  induction g with
  | nil => rfl
  | cons root below rest _ ih => rw [cons_append, cons_append, cons_append, ih]

@[simp] lemma roots_nil : (nil : Grove α).roots = [] := rfl

@[simp] lemma roots_cons (root : α) (below rest : Grove α) :
    (cons root below rest).roots = root :: rest.roots := rfl

@[simp] lemma preorder_nil : (nil : Grove α).preorder = [] := rfl

@[simp] lemma preorder_cons (root : α) (below rest : Grove α) :
    (cons root below rest).preorder = root :: (below.preorder ++ rest.preorder) := rfl

@[simp] lemma map_nil (f : α → β) : (nil : Grove α).map f = nil := rfl

@[simp] lemma map_cons (f : α → β) (root : α) (below rest : Grove α) :
    (cons root below rest).map f = cons (f root) (below.map f) (rest.map f) := rfl

@[simp] lemma subtrees_nil : (nil : Grove α).subtrees = [] := rfl

@[simp] lemma subtrees_cons (root : α) (below rest : Grove α) :
    (cons root below rest).subtrees = (root, below) :: (below.subtrees ++ rest.subtrees) := rfl

lemma roots_eq_nil_iff {g : Grove α} : g.roots = [] ↔ g = nil := by
  cases g <;> simp

lemma roots_map (f : α → β) (g : Grove α) : (g.map f).roots = g.roots.map f := by
  induction g with
  | nil => rfl
  | cons root below rest _ ih => simp [ih]

lemma preorder_map (f : α → β) (g : Grove α) : (g.map f).preorder = g.preorder.map f := by
  induction g with
  | nil => rfl
  | cons root below rest ihb ihr => simp [ihb, ihr]

lemma map_congr {f k : α → β} {g : Grove α} (h : ∀ a ∈ g.preorder, f a = k a) :
    g.map f = g.map k := by
  induction g with
  | nil => rfl
  | cons root below rest ihb ihr =>
    rw [preorder_cons, List.forall_mem_cons, List.forall_mem_append] at h
    obtain ⟨hroot, hb, hr⟩ := h
    rw [map_cons, map_cons, hroot, ihb hb, ihr hr]

lemma mapOption_eq_map {f : α → Option β} {k : α → β} {g : Grove α}
    (h : ∀ a ∈ g.preorder, f a = some (k a)) : g.mapOption f = some (g.map k) := by
  induction g with
  | nil => rfl
  | cons root below rest ihb ihr =>
    rw [preorder_cons, List.forall_mem_cons, List.forall_mem_append] at h
    obtain ⟨hroot, hb, hr⟩ := h
    simp [mapOption, hroot, ihb hb, ihr hr]

lemma map_map {γ : Type*} (f : α → β) (k : β → γ) (g : Grove α) :
    (g.map f).map k = g.map (k ∘ f) := by
  induction g with
  | nil => rfl
  | cons root below rest ihb ihr => simp [ihb, ihr]

lemma mapOption_map {γ : Type*} (f : α → β) (k : β → Option γ) (g : Grove α) :
    (g.map f).mapOption k = g.mapOption (k ∘ f) := by
  induction g with
  | nil => rfl
  | cons root below rest ihb ihr => simp [mapOption, ihb, ihr]

lemma map_fst_subtrees (g : Grove α) : g.subtrees.map Prod.fst = g.preorder := by
  induction g with
  | nil => rfl
  | cons root below rest ihb ihr => simp [ihb, ihr]

lemma subtrees_map (f : α → β) (g : Grove α) :
    (g.map f).subtrees = g.subtrees.map fun (a, below) => (f a, below.map f) := by
  induction g with
  | nil => rfl
  | cons root below rest ihb ihr => simp [ihb, ihr]

lemma mem_subtrees_map {f : α → β} {g : Grove α} {a : α} {below : Grove α}
    (h : (a, below) ∈ g.subtrees) : (f a, below.map f) ∈ (g.map f).subtrees := by
  rw [subtrees_map]
  exact List.mem_map_of_mem h

/-- What stands below a label keeps its order. -/
lemma preorder_sublist_of_mem_subtrees {g : Grove α} {a : α} {below : Grove α}
    (h : (a, below) ∈ g.subtrees) : below.preorder.Sublist g.preorder := by
  induction g with
  | nil => cases h
  | cons root below' rest ihb ihr =>
    rw [subtrees_cons, List.mem_cons, List.mem_append] at h
    rw [preorder_cons]
    refine List.Sublist.cons root ?_
    rcases h with h | h | h
    · cases h
      exact List.sublist_append_left _ _
    · exact (ihb h).trans (List.sublist_append_left _ _)
    · exact (ihr h).trans (List.sublist_append_right _ _)

lemma mem_preorder_of_mem_subtrees {g : Grove α} {a b : α} {below : Grove α}
    (h : (a, below) ∈ g.subtrees) (hb : b ∈ below.preorder) : b ∈ g.preorder :=
  (preorder_sublist_of_mem_subtrees h).subset hb

lemma length_preorder_lt_of_mem_subtrees {g : Grove α} {a : α} {below : Grove α}
    (h : (a, below) ∈ g.subtrees) : below.preorder.length < g.preorder.length := by
  induction g with
  | nil => cases h
  | cons root below' rest ihb ihr =>
    rw [subtrees_cons, List.mem_cons, List.mem_append] at h
    rw [preorder_cons, List.length_cons, List.length_append]
    rcases h with h | h | h
    · cases h
      omega
    · have hlt := ihb h
      omega
    · have hlt := ihr h
      omega

/-! ### Groves that follow a table of children -/

/-- Below each label stand its children. -/
def Follows (children : α → List α) : Grove α → Prop
  | nil => True
  | cons root below rest =>
    below.roots = children root ∧ Follows children below ∧ Follows children rest

variable {children : α → List α}

lemma Follows.of_mem_subtrees {g : Grove α} (h : g.Follows children) {a : α} {below : Grove α}
    (hmem : (a, below) ∈ g.subtrees) : below.roots = children a ∧ below.Follows children := by
  induction g with
  | nil => cases hmem
  | cons root below' rest ihb ihr =>
    obtain ⟨hroots, hfb, hfr⟩ := h
    rw [subtrees_cons, List.mem_cons, List.mem_append] at hmem
    rcases hmem with hmem | hmem | hmem
    · cases hmem
      exact ⟨hroots, hfb⟩
    · exact ihb hfb hmem
    · exact ihr hfr hmem

/-- The roots and the table of children determine a grove. -/
lemma Follows.eq_of_roots_eq {g g' : Grove α} (h : g.Follows children) (h' : g'.Follows children)
    (hroots : g.roots = g'.roots) : g = g' := by
  induction g generalizing g' with
  | nil => exact (roots_eq_nil_iff.mp hroots.symm).symm
  | cons root below rest ihb ihr =>
    cases g' with
    | nil => cases hroots
    | cons root' below' rest' =>
      obtain ⟨rfl, hrest⟩ := List.cons.inj hroots
      obtain ⟨hb, hfb, hfr⟩ := h
      obtain ⟨hb', hfb', hfr'⟩ := h'
      rw [ihb hfb hfb' (hb.trans hb'.symm), ihr hfr hfr' hrest]

/-- A label occurs as often as it is a root or a child of a label that occurs. -/
lemma Follows.count_preorder [DecidableEq α] {g : Grove α} (h : g.Follows children) (a : α) :
    g.preorder.count a =
      g.roots.count a + (g.preorder.map fun b => (children b).count a).sum := by
  induction g with
  | nil => rfl
  | cons root below rest ihb ihr =>
    obtain ⟨hb, hfb, hfr⟩ := h
    have ihb := ihb hfb
    have ihr := ihr hfr
    rw [hb] at ihb
    simp only [preorder_cons, roots_cons, List.count_cons, List.count_append, List.map_cons,
      List.map_append, List.sum_cons, List.sum_append]
    omega

/-- If going from labels to their children comes to an end, every list of labels is the list of the
roots of a grove that follows the table. -/
lemma exists_follows (hwf : WellFounded fun b a => b ∈ children a) (roots : List α) :
    ∃ g : Grove α, g.roots = roots ∧ g.Follows children := by
  have hlist : ∀ l : List α, (∀ a ∈ l, ∃ g : Grove α, g.roots = children a ∧ g.Follows children) →
      ∃ g : Grove α, g.roots = l ∧ g.Follows children := by
    intro l hl
    induction l with
    | nil => exact ⟨nil, rfl, trivial⟩
    | cons a l ih =>
      obtain ⟨below, hb, hfb⟩ := hl a List.mem_cons_self
      obtain ⟨rest, hr, hfr⟩ := ih fun b hmem => hl b (List.mem_cons_of_mem a hmem)
      exact ⟨cons a below rest, by rw [roots_cons, hr], hb, hfb, hfr⟩
  exact hlist roots fun a _ => hwf.induction a fun b ih => hlist (children b) ih

end Grove

end PlanChart
