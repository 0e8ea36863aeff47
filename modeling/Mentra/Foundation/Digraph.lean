import Mathlib

/-!
# Directed graphs

Graphs without cycles, and the search of a graph with a stack of nodes to look at and a
record of those looked at.  The search counts its rounds down; on a graph in which only the
nodes of a list have successors it ends within a number of rounds that the successors bound.
-/

namespace Mentra.Foundation.Digraph

open Relation List

universe u

variable {α : Type u}

/-! ## Cycles -/

/-- No node leads back to itself. -/
def Acyclic (edge : α → α → Prop) : Prop :=
  ∀ node, ¬ TransGen edge node node

theorem Acyclic.mono {edge fewer : α → α → Prop} (acyclic : Acyclic edge)
    (sub : ∀ source target, fewer source target → edge source target) : Acyclic fewer :=
  fun node cycle => acyclic node (TransGen.mono sub node node cycle)

/-- Among finitely many nodes one has no edge from another of them. -/
theorem Acyclic.exists_first {edge : α → α → Prop} (acyclic : Acyclic edge) {nodes : Set α}
    (finite : nodes.Finite) (nonempty : nodes.Nonempty) :
    ∃ node ∈ nodes, ∀ other ∈ nodes, ¬ edge other node := by
  have : IsStrictOrder α (TransGen edge) :=
    { irrefl := acyclic, trans := fun _ _ _ => TransGen.trans }
  have : Nonempty nodes := nonempty.to_subtype
  obtain ⟨⟨node, mem⟩, -, first⟩ :=
    WellFounded.has_min (finite.wellFoundedOn (r := TransGen edge)) Set.univ Set.univ_nonempty
  exact ⟨node, mem, fun other isOther edges => first ⟨other, isOther⟩ trivial (.single edges)⟩

/-- The graph with one more edge. -/
def link (edge : α → α → Prop) (first last source target : α) : Prop :=
  edge source target ∨ source = first ∧ target = last

/-- A path in the larger graph takes the new edge or does not. -/
theorem transGen_link {edge : α → α → Prop} {first last source target : α}
    (path : TransGen (link edge first last) source target) :
    TransGen edge source target ∨
      ReflTransGen edge source first ∧ ReflTransGen edge last target := by
  induction path with
  | single step =>
    rcases step with old | ⟨rfl, rfl⟩
    · exact .inl (.single old)
    · exact .inr ⟨.refl, .refl⟩
  | tail _ step ih =>
    rcases step with old | ⟨rfl, rfl⟩
    · rcases ih with direct | ⟨before, after⟩
      · exact .inl (direct.tail old)
      · exact .inr ⟨before, after.tail old⟩
    · rcases ih with direct | ⟨before, -⟩
      · exact .inr ⟨direct.to_reflTransGen, .refl⟩
      · exact .inr ⟨before, .refl⟩

theorem Acyclic.link {edge : α → α → Prop} (acyclic : Acyclic edge) {first last : α}
    (noWayBack : ¬ ReflTransGen edge last first) : Acyclic (Digraph.link edge first last) := by
  intro node cycle
  rcases transGen_link cycle with old | ⟨before, after⟩
  · exact acyclic node old
  · exact noWayBack (after.trans before)

/-! ## Search -/

/-- The edges that a search follows. -/
def Edge (successors : α → Option (List α)) (source target : α) : Prop :=
  ∃ nexts, successors source = some nexts ∧ target ∈ nexts

variable {successors : α → Option (List α)} {goal : α}

/-- The successors of the visited nodes are visited or on the stack, and none of
them is the goal. -/
def Explored (successors : α → Option (List α)) (goal : α) (visited stack : List α) : Prop :=
  ∀ node ∈ visited, ∀ next, Edge successors node next →
    next ≠ goal ∧ (next ∈ visited ∨ next ∈ stack)

variable {visited : List α}

theorem Explored.not_transGen (explored : Explored successors goal visited [])
    {node : α} (mem : node ∈ visited) : ¬ TransGen (Edge successors) node goal := by
  intro path
  induction path using TransGen.head_induction_on with
  | single step => exact (explored _ mem _ step).1 rfl
  | head step _ ih =>
    rcases (explored _ mem _ step).2 with later | empty
    · exact ih later
    · exact absurd empty not_mem_nil

variable [DecidableEq α]

/-- Look for `goal` among the successors of the nodes on the stack and of what they lead to;
`none` when the rounds do not suffice.  The last successor pushed is on top. -/
def search (successors : α → Option (List α)) (goal : α) :
    Nat → List α → List α → Option Bool
  | 0, _, _ => none
  | _ + 1, _, [] => some false
  | rounds + 1, visited, node :: stack =>
    if node ∈ visited then search successors goal rounds visited stack
    else
      match successors node with
      | none => search successors goal rounds (node :: visited) stack
      | some nexts =>
        if goal ∈ nexts then some true
        else search successors goal rounds (node :: visited) (nexts.reverse ++ stack)

variable {stack : List α}

theorem exists_of_search {rounds : Nat}
    (found : search successors goal rounds visited stack = some true) :
    ∃ node ∈ stack, TransGen (Edge successors) node goal := by
  induction rounds generalizing visited stack with
  | zero => cases found
  | succ rounds ih =>
    cases stack with
    | nil => cases found
    | cons node stack =>
      rw [search] at found
      split at found
      · obtain ⟨start, mem, path⟩ := ih found
        exact ⟨start, mem_cons_of_mem _ mem, path⟩
      · split at found
        · obtain ⟨start, mem, path⟩ := ih found
          exact ⟨start, mem_cons_of_mem _ mem, path⟩
        · rename_i nexts isNode
          split at found
          · rename_i isNext
            exact ⟨node, mem_cons_self, .single ⟨nexts, isNode, isNext⟩⟩
          · obtain ⟨start, mem, path⟩ := ih found
            rcases mem_append.mp mem with next | later
            · exact ⟨node, mem_cons_self, path.head ⟨nexts, isNode, mem_reverse.mp next⟩⟩
            · exact ⟨start, mem_cons_of_mem _ later, path⟩

theorem not_exists_of_search {rounds : Nat} (explored : Explored successors goal visited stack)
    (missed : search successors goal rounds visited stack = some false) :
    ∃ final, Explored successors goal final [] ∧ ∀ node, node ∈ visited ∨ node ∈ stack →
      node ∈ final := by
  induction rounds generalizing visited stack with
  | zero => cases missed
  | succ rounds ih =>
    cases stack with
    | nil =>
      refine ⟨visited, explored, ?_⟩
      rintro node (mem | empty)
      · exact mem
      · exact absurd empty not_mem_nil
    | cons node stack =>
      rw [search] at missed
      split at missed
      · rename_i again
        have shorter : Explored successors goal visited stack := by
          intro source mem next edge
          obtain ⟨apart, inside | onStack⟩ := explored source mem next edge
          · exact ⟨apart, .inl inside⟩
          · rcases mem_cons.mp onStack with rfl | later
            · exact ⟨apart, .inl again⟩
            · exact ⟨apart, .inr later⟩
        obtain ⟨final, done, covers⟩ := ih shorter missed
        refine ⟨final, done, ?_⟩
        rintro other (inside | onStack)
        · exact covers other (.inl inside)
        · rcases mem_cons.mp onStack with rfl | later
          · exact covers other (.inl again)
          · exact covers other (.inr later)
      · -- The node is looked at for the first time.
        have onward {nexts : List α} (apart : goal ∉ nexts)
            (isNode : ∀ next, Edge successors node next → next ∈ nexts)
            (missed : search successors goal rounds (node :: visited)
              (nexts.reverse ++ stack) = some false) :
            ∃ final, Explored successors goal final [] ∧
              ∀ other, other ∈ visited ∨ other ∈ node :: stack → other ∈ final := by
          have wider : Explored successors goal (node :: visited) (nexts.reverse ++ stack) := by
            intro source mem next edge
            rcases mem_cons.mp mem with rfl | earlier
            · have isNext := isNode next edge
              exact ⟨fun same => apart (same ▸ isNext),
                .inr (mem_append_left _ (mem_reverse.mpr isNext))⟩
            · obtain ⟨other, inside | onStack⟩ := explored source earlier next edge
              · exact ⟨other, .inl (mem_cons_of_mem _ inside)⟩
              · rcases mem_cons.mp onStack with rfl | later
                · exact ⟨other, .inl mem_cons_self⟩
                · exact ⟨other, .inr (mem_append_right _ later)⟩
          obtain ⟨final, done, covers⟩ := ih wider missed
          refine ⟨final, done, ?_⟩
          rintro other (inside | onStack)
          · exact covers other (.inl (mem_cons_of_mem _ inside))
          · rcases mem_cons.mp onStack with rfl | later
            · exact covers other (.inl mem_cons_self)
            · exact covers other (.inr (mem_append_right _ later))
        split at missed
        · rename_i absent
          apply onward (not_mem_nil) _ missed
          rintro next ⟨nexts, isNode, -⟩
          rw [absent] at isNode
          cases isNode
        · rename_i nexts isNode
          split at missed
          · cases missed
          · rename_i apart
            apply onward apart _ missed
            rintro next ⟨others, same, mem⟩
            rw [isNode] at same
            cases same
            exact mem

/-! ## Enough rounds -/

/-- How many successors a node has that is still to be visited. -/
def pushesOf (successors : α → Option (List α)) (visited : List α) (node : α) : Nat :=
  if node ∈ visited then 0 else ((successors node).getD []).length

/-- How many nodes those still to be visited can push. -/
def pushes (successors : α → Option (List α)) (nodes visited : List α) : Nat :=
  (nodes.map (pushesOf successors visited)).sum

theorem pushesOf_cons_le (visited : List α) (node other : α) :
    pushesOf successors (node :: visited) other ≤ pushesOf successors visited other := by
  rw [pushesOf, pushesOf]
  split
  · exact Nat.zero_le _
  · rename_i unseen
    rw [if_neg fun seen => unseen (mem_cons_of_mem _ seen)]

theorem pushes_cons_le (successors : α → Option (List α)) (nodes visited : List α) (node : α) :
    pushes successors nodes (node :: visited) ≤ pushes successors nodes visited :=
  sum_le_sum fun other _ => pushesOf_cons_le visited node other

variable {nodes : List α}

theorem pushes_cons_add {nexts : List α} {node : α} (mem : node ∈ nodes)
    (fresh : node ∉ visited) (isNode : successors node = some nexts) :
    pushes successors nodes (node :: visited) + nexts.length ≤ pushes successors nodes visited := by
  obtain ⟨front, back, rfl⟩ := append_of_mem mem
  have before := pushes_cons_le successors front visited node
  have after := pushes_cons_le successors back visited node
  have spent : pushesOf successors (node :: visited) node = 0 := if_pos mem_cons_self
  have due : pushesOf successors visited node = nexts.length := by
    rw [pushesOf, if_neg fresh, isNode, Option.getD_some]
  simp only [pushes, map_append, map_cons, sum_append, sum_cons, spent, due] at before after ⊢
  omega

theorem search_isSome (finite : ∀ node nexts, successors node = some nexts → node ∈ nodes)
    {rounds : Nat} (enough : stack.length + pushes successors nodes visited < rounds) :
    (search successors goal rounds visited stack).isSome := by
  induction rounds generalizing visited stack with
  | zero => exact absurd enough (Nat.not_lt_zero _)
  | succ rounds ih =>
    cases stack with
    | nil => rfl
    | cons node stack =>
      rw [length_cons] at enough
      rw [search]
      split
      · exact ih (by omega)
      · rename_i fresh
        split
        · have fewer := pushes_cons_le successors nodes visited node
          exact ih (by omega)
        · rename_i nexts isNode
          split
          · rfl
          · have fewer := pushes_cons_add (finite node nexts isNode) fresh isNode
            apply ih
            rw [length_append, length_reverse]
            omega

/-- With a round for each node that can be pushed, and one more, the search tells whether the
goal lies ahead of the start. -/
theorem search_correct
    (finite : ∀ node nexts, successors node = some nexts → node ∈ nodes) (start goal : α) :
    ∃ answer, search successors goal (pushes successors nodes [] + 2) [] [start] = some answer ∧
      (answer = true ↔ TransGen (Edge successors) start goal) := by
  have enough : [start].length + pushes successors nodes [] < pushes successors nodes [] + 2 := by
    rw [length_singleton]
    omega
  obtain ⟨answer, ended⟩ := Option.isSome_iff_exists.mp (search_isSome finite enough)
  refine ⟨answer, ended, ?_⟩
  cases answer with
  | true =>
    obtain ⟨node, mem, path⟩ := exists_of_search ended
    rw [mem_singleton.mp mem] at path
    exact ⟨fun _ => path, fun _ => rfl⟩
  | false =>
    have nothing : Explored successors goal [] [start] :=
      fun node mem => absurd mem not_mem_nil
    obtain ⟨final, explored, covers⟩ := not_exists_of_search nothing ended
    have start := explored.not_transGen (covers start (.inr mem_cons_self))
    exact ⟨nofun, fun path => absurd path start⟩

end Mentra.Foundation.Digraph
