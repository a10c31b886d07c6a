import Mathlib.Logic.Relation
import EntityQuery.Proofs.Joins.Grown

/-!
The walk of the FROM clause where parents are older than their children. It ends by itself, since
every step of a branch goes to a younger node; and it meets each node once, after its parent and
before its younger siblings, with all that lies under the node right behind it.
-/

namespace EntityQuery.JoinGraph

open scoped List

variable {ε : Type} {g : JoinGraph ε}

/-- Whether a node is the parent of another. -/
def IsParent (g : JoinGraph ε) (parent id : NodeId) : Prop := g.parent? id = some parent

/-- The walk of a graph, with the order that it puts the nodes into. -/
structure WalksInOrder (g : JoinGraph ε) : Prop where
  /-- However deep the walk may go, it goes no deeper. -/
  ends : ∀ id depth, g.size < depth → g.subtreeWithin depth id = g.subtree id
  walk : ∀ id, g.subtree id = id :: (g.children id).flatMap g.subtree
  under : ∀ id inner, inner ∈ g.subtree id ↔ Relation.ReflTransGen g.IsParent id inner
  once : g.depthFirst.Perm (List.range g.size)
  roots : g.depthFirst = (g.roots.map g.subtree).flatten
  contiguous : ∀ id < g.size, g.subtree id <:+: g.depthFirst
  parentsFirst : ∀ parent id, g.IsParent parent id → [parent, id] <+ g.depthFirst
  /-- Nodes are numbered as they are added. -/
  siblings : ∀ parent older younger, g.IsParent parent older → g.IsParent parent younger →
    older < younger → [older, younger] <+ g.depthFirst

theorem mem_subtree_self (g : JoinGraph ε) (id : NodeId) : id ∈ g.subtree id := by
  rw [subtree_ne_nil]
  exact List.mem_cons_self

/-- What a walk meets lies under its start. -/
theorem reflTransGen_of_mem {depth : Nat} {id inner : NodeId}
    (h : inner ∈ g.subtreeWithin depth id) : Relation.ReflTransGen g.IsParent id inner := by
  induction depth generalizing id with
  | zero => cases h
  | succ depth ih =>
      rw [subtreeWithin, List.mem_cons, List.mem_flatMap] at h
      rcases h with rfl | ⟨child, hchild, h⟩
      · exact .refl
      · exact .head (mem_children.1 hchild) (ih h)

/-- Numbers in ascending order stand so in the list of all. -/
theorem pair_sublist_range {older younger n : Nat} (h : older < younger) (hn : younger < n) :
    [older, younger] <+ List.range n := by
  obtain ⟨k, rfl⟩ := Nat.exists_eq_add_of_lt hn
  rw [Nat.add_assoc, List.range_add]
  have hfirst : [older] <+ List.range younger := List.singleton_sublist.2 (List.mem_range.2 h)
  have hsecond : [younger] <+ (List.range (k + 1)).map (younger + ·) :=
    List.singleton_sublist.2 (List.mem_map.2 ⟨0, by simp, rfl⟩)
  exact hfirst.append hsecond

namespace Ordered

variable (h : g.Ordered)
include h

/-- A branch ends before its nodes run out, since each is younger than the one before. -/
theorem subtreeWithin_succ {depth id : Nat} (hdepth : g.size ≤ depth + id) :
    g.subtreeWithin (depth + 2) id = g.subtreeWithin (depth + 1) id := by
  induction depth generalizing id with
  | zero =>
      have hnone : g.children id = [] := List.eq_nil_iff_forall_not_mem.2 fun child hchild =>
        have hid : id < g.size :=
          Nat.lt_trans (h.parents (mem_children.1 hchild)) (lt_of_parent? (mem_children.1 hchild))
        absurd hid (by omega)
      rw [subtreeWithin, subtreeWithin, hnone, List.flatMap_nil, List.flatMap_nil]
  | succ depth ih =>
      rw [subtreeWithin, subtreeWithin]
      congr 1
      refine List.flatMap_congr fun child hchild => ih (Nat.le_trans hdepth ?_)
      have hyounger : id + 1 ≤ child := h.parents (mem_children.1 hchild)
      rw [Nat.succ_add_eq_add_succ]
      exact Nat.add_le_add_left hyounger depth

theorem subtreeWithin_eq {depth : Nat} (hdepth : g.size < depth) (id : NodeId) :
    g.subtreeWithin depth id = g.subtree id := by
  obtain ⟨k, rfl⟩ := Nat.exists_eq_add_of_lt hdepth
  clear hdepth
  induction k with
  | zero => rfl
  | succ k ih =>
      have hstep : g.subtreeWithin (g.size + k + 2) id = g.subtreeWithin (g.size + k + 1) id :=
        h.subtreeWithin_succ (Nat.le_trans (Nat.le_add_right _ k) (Nat.le_add_right _ id))
      exact hstep.trans ih

theorem subtree_eq (id : NodeId) :
    g.subtree id = id :: (g.children id).flatMap g.subtree := by
  have hdeep : g.size < g.size + 2 := Nat.lt_add_of_pos_right (Nat.succ_pos 1)
  rw [← h.subtreeWithin_eq hdeep, subtreeWithin]
  rfl

theorem mem_subtree_iff {id inner : NodeId} :
    inner ∈ g.subtree id ↔ Relation.ReflTransGen g.IsParent id inner := by
  refine ⟨reflTransGen_of_mem, fun hunder => ?_⟩
  induction hunder using Relation.ReflTransGen.head_induction_on with
  | refl => exact g.mem_subtree_self inner
  | head hparent _ ih =>
      rw [h.subtree_eq]
      exact List.mem_cons_of_mem _ (List.mem_flatMap_of_mem (mem_children.2 hparent) ih)

/-- Siblings stand in the order in which they were added. -/
theorem sublist_of_siblings {parent older younger : NodeId} (holder : g.IsParent parent older)
    (hyounger : g.IsParent parent younger) (hlt : older < younger) :
    [older, younger] <+ g.depthFirst := by
  have hwf := h.wellFormed
  have hall : [older, younger] <+ g.children parent := by
    have hkept : [older, younger].filter (fun id => g.parent? id == some parent) =
        [older, younger] := by
      rw [IsParent] at holder hyounger
      simp [holder, hyounger]
    rw [children_eq_filter, ← hkept]
    exact (pair_sublist_range hlt (lt_of_parent? hyounger)).filter _
  have hbelow := (List.sublist_cons_self parent _).trans
    (hwf.cons_children_sublist (hwf.lt_of_parent holder))
  exact hall.trans hbelow

theorem walksInOrder : g.WalksInOrder where
  ends id _ hdepth := h.subtreeWithin_eq hdepth id
  walk := h.subtree_eq
  under _ _ := h.mem_subtree_iff
  once := h.wellFormed.once
  roots := List.flatMap_def
  contiguous _ hid := h.wellFormed.subtree_infix hid
  parentsFirst _ _ hparent := h.wellFormed.pair_sublist_of_parent hparent
  siblings _ _ _ holder hyounger hlt := h.sublist_of_siblings holder hyounger hlt

end Ordered

end EntityQuery.JoinGraph
