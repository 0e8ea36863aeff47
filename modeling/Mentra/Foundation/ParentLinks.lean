import Mathlib

/-!
# Parent-linked collections

A finite collection of nodes with a key and possibly the key of a parent.  A list is *linked*
when each node's parent is the node just before it; a *path* to a node is a linked list of
nodes of the collection from a root to the node.  When keys are distinct, it is unique and
repeats no node.
-/

namespace Mentra.Foundation.ParentLinks

open List

universe u v

variable {α : Type u} {κ : Type v}

/-- The key of the last node, or `previous` when there is none. -/
def lastKey (key : α → κ) (previous : Option κ) (nodes : List α) : Option κ :=
  (nodes.getLast?.map key).or previous

@[simp]
theorem lastKey_nil (key : α → κ) (previous : Option κ) : lastKey key previous [] = previous :=
  rfl

@[simp]
theorem lastKey_concat (key : α → κ) (previous : Option κ) (nodes : List α) (node : α) :
    lastKey key previous (nodes ++ [node]) = some (key node) := by
  simp [lastKey]

theorem lastKey_cons (key : α → κ) (previous : Option κ) (node : α) (rest : List α) :
    lastKey key previous (node :: rest) = lastKey key (some (key node)) rest := by
  rcases eq_nil_or_concat rest with rfl | ⟨front, last, rfl⟩
  · simp [lastKey]
  · rw [concat_eq_append, ← cons_append, lastKey_concat, lastKey_concat]

section Linked

variable (key : α → κ) (parent : α → Option κ)

/-- Each node's parent is the node before it; the first node's is `previous`. -/
def Linked : Option κ → List α → Prop
  | _, [] => True
  | previous, node :: rest => parent node = previous ∧ Linked (some (key node)) rest

/-- `path` leads from a root of the collection `nodes` down to `node`. -/
structure IsPathTo (nodes : List α) (node : α) (path : List α) : Prop where
  linked : Linked key parent none path
  subset : ∀ visited ∈ path, visited ∈ nodes
  last : path.getLast? = some node

/-- Every node of the collection has a path from a root. -/
def Rooted (nodes : List α) : Prop :=
  ∀ node ∈ nodes, ∃ path, IsPathTo key parent nodes node path

end Linked

variable {key : α → κ} {parent : α → Option κ}

variable (previous : Option κ)

@[simp]
theorem linked_nil : Linked key parent previous [] :=
  trivial

@[simp]
theorem linked_cons (node : α) (rest : List α) :
    Linked key parent previous (node :: rest) ↔
      parent node = previous ∧ Linked key parent (some (key node)) rest :=
  Iff.rfl

theorem linked_append (front rest : List α) :
    Linked key parent previous (front ++ rest) ↔
      Linked key parent previous front ∧ Linked key parent (lastKey key previous front) rest := by
  induction front generalizing previous with
  | nil => simp
  | cons node front ih =>
    rw [cons_append, linked_cons, linked_cons, ih, lastKey_cons, and_assoc]

theorem linked_concat (front : List α) (node : α) :
    Linked key parent previous (front ++ [node]) ↔
      Linked key parent previous front ∧ parent node = lastKey key previous front := by
  simp [linked_append]

theorem Linked.front {previous : Option κ} {front rest : List α}
    (linked : Linked key parent previous (front ++ rest)) :
    Linked key parent previous front :=
  ((linked_append previous front rest).mp linked).1

namespace IsPathTo

variable {nodes larger : List α} {node : α} {path : List α}

theorem mono (isPath : IsPathTo key parent nodes node path)
    (subset : ∀ visited ∈ nodes, visited ∈ larger) : IsPathTo key parent larger node path :=
  ⟨isPath.linked, fun visited mem => subset visited (isPath.subset visited mem), isPath.last⟩

theorem exists_concat (isPath : IsPathTo key parent nodes node path) :
    ∃ front, path = front ++ [node] :=
  getLast?_eq_some_iff.mp isPath.last

/-- Cutting a path after one of its nodes gives a path to that node. -/
theorem cut {front rest : List α} {middle : α}
    (isPath : IsPathTo key parent nodes node (front ++ middle :: rest)) :
    IsPathTo key parent nodes middle (front ++ [middle]) where
  linked := by
    have split : front ++ middle :: rest = (front ++ [middle]) ++ rest := by simp
    have linked := isPath.linked
    rw [split] at linked
    exact linked.front
  subset := by
    intro visited mem
    apply isPath.subset
    simp only [mem_append, mem_cons] at mem ⊢
    tauto
  last := by simp

/-- With distinct keys there is only one path to a node. -/
theorem unique (distinct : (nodes.map key).Nodup) {other : List α}
    (first : IsPathTo key parent nodes node path)
    (second : IsPathTo key parent nodes node other) : path = other := by
  -- The induction removes the common last node; its parent link decides whether
  -- both remainders are empty or both end in the same node.
  induction path using List.reverseRecOn generalizing node other with
  | nil => simpa using first.last
  | append_singleton front last ih =>
    obtain ⟨otherFront, rfl⟩ := second.exists_concat
    have last_eq : last = node := by simpa using first.last
    subst last
    have firstLinked := (linked_concat none front node).mp first.linked
    have secondLinked := (linked_concat none otherFront node).mp second.linked
    have keys : lastKey key none front = lastKey key none otherFront :=
      firstLinked.2.symm.trans secondLinked.2
    congr 1
    rcases eq_nil_or_concat front with rfl | ⟨front', x, rfl⟩ <;>
      rcases eq_nil_or_concat otherFront with rfl | ⟨otherFront', y, rfl⟩
    · rfl
    · simp at keys
    · simp at keys
    · simp only [concat_eq_append] at *
      have xMem : x ∈ nodes := first.subset x (by simp)
      have yMem : y ∈ nodes := second.subset y (by simp)
      rw [lastKey_concat, lastKey_concat] at keys
      have nodes_eq : x = y :=
        inj_on_of_nodup_map distinct xMem yMem (Option.some.inj keys)
      subst y
      have firstPath : IsPathTo key parent nodes x (front' ++ [x]) :=
        ⟨firstLinked.1, fun visited mem => first.subset visited (mem_append_left _ mem), by simp⟩
      have secondPath : IsPathTo key parent nodes x (otherFront' ++ [x]) :=
        ⟨secondLinked.1, fun visited mem => second.subset visited (mem_append_left _ mem), by simp⟩
      exact ih firstPath secondPath

/-- With distinct keys a path repeats no node: a repetition would give two
paths of different length to the same node. -/
theorem nodup (distinct : (nodes.map key).Nodup)
    (isPath : IsPathTo key parent nodes node path) : path.Nodup := by
  induction path using List.reverseRecOn generalizing node with
  | nil => exact nodup_nil
  | append_singleton front last ih =>
    have frontNodup : front.Nodup := by
      rcases eq_nil_or_concat front with rfl | ⟨front', x, rfl⟩
      · exact nodup_nil
      · rw [concat_eq_append] at isPath ih ⊢
        have regrouped : IsPathTo key parent nodes node (front' ++ x :: [last]) := by
          simpa using isPath
        exact ih regrouped.cut
    have last_eq : last = node := by simpa using isPath.last
    subst last
    have notMem : node ∉ front := by
      intro mem
      obtain ⟨before, after, rfl⟩ := append_of_mem mem
      have regrouped : IsPathTo key parent nodes node (before ++ node :: (after ++ [node])) := by
        simpa using isPath
      have lengths := congrArg List.length (unique distinct regrouped.cut isPath)
      simp at lengths
    rw [nodup_append]
    refine ⟨frontNodup, by simp, ?_⟩
    intro x xMem y yMem equal
    simp only [mem_singleton] at yMem
    subst yMem
    subst equal
    exact notMem xMem

/-- The path to a node is no longer than the collection. -/
theorem length_le (distinct : (nodes.map key).Nodup)
    (isPath : IsPathTo key parent nodes node path) : path.length ≤ nodes.length :=
  (subperm_of_subset (isPath.nodup distinct) isPath.subset).length_le

end IsPathTo

/-- Rootedness only depends on which nodes there are. -/
theorem Rooted.of_perm {nodes other : List α} (rooted : Rooted key parent nodes)
    (perm : nodes.Perm other) : Rooted key parent other := by
  intro node mem
  obtain ⟨path, isPath⟩ := rooted node (perm.mem_iff.mpr mem)
  exact ⟨path, isPath.mono fun visited visitedMem => perm.mem_iff.mp visitedMem⟩

section Keyed

variable [DecidableEq κ]

/-- Removing the first node with a given key is filtering it out, when keys are
distinct. -/
theorem eraseP_key_eq_filter (nodes : List α) (distinct : (nodes.map key).Nodup) (target : κ) :
    nodes.eraseP (fun node => key node = target) = nodes.filter fun node => key node ≠ target := by
  induction nodes with
  | nil => rfl
  | cons node rest ih =>
    rw [map_cons, nodup_cons] at distinct
    by_cases found : key node = target
    · subst found
      have absent : ∀ other ∈ rest, decide (key other ≠ key node) = true := by
        intro other mem
        rw [decide_eq_true_iff]
        intro equal
        exact distinct.1 (equal ▸ mem_map_of_mem mem)
      rw [eraseP_cons_of_pos (by simp), filter_cons_of_neg (by simp), filter_eq_self.mpr absent]
    · simp [found, ih distinct.2]

/-- Looking up the key of a member finds that member, when keys are distinct. -/
theorem find?_key_eq_some {nodes : List α} (distinct : (nodes.map key).Nodup) {node : α}
    (mem : node ∈ nodes) :
    (nodes.find? fun other => key other = key node) = some node := by
  cases found : nodes.find? fun other => key other = key node with
  | none =>
    have absent := find?_eq_none.mp found node mem
    simp at absent
  | some other =>
    have otherMem := mem_of_find?_eq_some found
    have keys : key other = key node := by simpa using find?_some found
    rw [inj_on_of_nodup_map distinct otherMem mem keys]

end Keyed

end Mentra.Foundation.ParentLinks
