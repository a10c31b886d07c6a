import Mathlib.Data.List.Basic
import Mathlib.Data.List.Flatten
import Mathlib.Data.List.Perm.Subperm
import Mathlib.Data.List.Perm.Basic
import EntityQuery.Joins

/-!
The order of the FROM clause in a well-formed join graph. Trees are walked with fuel, so the
first facts say that the fuel is never used up where every node is met once. Then the walk is the
one that its equation promises, siblings keep the order in which they were added, and the roots
are the nodes without a parent.
-/

namespace EntityQuery.JoinGraph

open scoped List

variable {ε : Type} {g : JoinGraph ε}

/-- Roots and parents exist, and the FROM clause meets every node exactly once. -/
structure WellFormed (g : JoinGraph ε) : Prop where
  roots : ∀ r ∈ g.roots, r < g.size
  parents : ∀ n ∈ g.nodes, ∀ p ∈ n.parent, p < g.size
  once : g.depthFirst.Perm (List.range g.size)

instance (g : JoinGraph ε) : Decidable g.WellFormed :=
  decidable_of_iff ((∀ r ∈ g.roots, r < g.size) ∧ (∀ n ∈ g.nodes, ∀ p ∈ n.parent, p < g.size)
    ∧ g.depthFirst.Perm (List.range g.size))
    ⟨fun ⟨roots, parents, once⟩ => ⟨roots, parents, once⟩,
      fun ⟨roots, parents, once⟩ => ⟨roots, parents, once⟩⟩

/-- The parent of a node, if the node exists and has one. -/
def parent? (g : JoinGraph ε) (id : NodeId) : Option NodeId := (g.node? id).bind JoinNode.parent

theorem node?_isSome {id : NodeId} : (g.node? id).isSome ↔ id < g.size := by
  simp [node?, size]

theorem lt_of_parent? {id parent : NodeId} (h : g.parent? id = some parent) : id < g.size := by
  obtain ⟨n, hn, -⟩ := Option.bind_eq_some_iff.1 h
  exact (List.getElem?_eq_some_iff.1 hn).1

theorem children_eq_filter (g : JoinGraph ε) (id : NodeId) :
    g.children id = (List.range g.size).filter fun child => g.parent? child == some id := by
  have hrange : List.range g.size = g.nodes.zipIdx.map Prod.snd := by
    rw [List.zipIdx_map_snd, size, List.range_eq_range']
  rw [hrange, List.filter_map, children]
  congr 1
  apply List.filter_congr
  intro entry hentry
  simp [parent?, node?, List.mem_zipIdx_iff_getElem?.1 hentry]

/-- The walk looks at the parents of the nodes and at nothing else. -/
theorem subtree_congr {ε' : Type} {g' : JoinGraph ε'}
    (h : g'.nodes.map JoinNode.parent = g.nodes.map JoinNode.parent) (id : NodeId) :
    g'.subtree id = g.subtree id := by
  have hsize : g'.size = g.size := by
    simpa [size] using congrArg List.length h
  have hchildren (id : NodeId) : g'.children id = g.children id := by
    have hparent (child : NodeId) : g'.parent? child = g.parent? child := by
      have hentry : g'.nodes[child]?.map JoinNode.parent = g.nodes[child]?.map JoinNode.parent := by
        rw [← List.getElem?_map, h, List.getElem?_map]
      have hbind := congrArg (fun parent => parent.bind fun p => p) hentry
      simp only [Option.bind_map] at hbind
      exact hbind
    simp only [children_eq_filter, hsize, hparent]
  have hwithin (depth : Nat) (id : NodeId) : g'.subtreeWithin depth id = g.subtreeWithin depth id := by
    induction depth generalizing id with
    | zero => rfl
    | succ depth ih =>
        rw [subtreeWithin, subtreeWithin, hchildren, List.flatMap_congr fun child _ => ih child]
  rw [subtree, subtree, hsize, hwithin]

/-- Where children go to children, a walk goes to the walk from the same start. -/
theorem subtreeWithin_map {ε' : Type} {g' : JoinGraph ε'} {f : NodeId → NodeId} {p : NodeId → Prop}
    (hclosed : ∀ {id child}, p id → child ∈ g.children id → p child)
    (hchildren : ∀ {id}, p id → g'.children (f id) = (g.children id).map f) (depth : Nat)
    {id : NodeId} (hid : p id) :
    g'.subtreeWithin depth (f id) = (g.subtreeWithin depth id).map f := by
  induction depth generalizing id with
  | zero => rfl
  | succ depth ih =>
      rw [subtreeWithin, subtreeWithin, hchildren hid, List.flatMap_map, List.map_cons,
        List.map_flatMap]
      congr 1
      exact List.flatMap_congr fun child hchild => ih (hclosed hid hchild)

theorem mem_children {id child : NodeId} :
    child ∈ g.children id ↔ g.parent? child = some id := by
  rw [children_eq_filter]
  simp only [List.mem_filter, List.mem_range, beq_iff_eq, and_iff_right_iff_imp]
  exact lt_of_parent?

/-- A walk that is shorter than its fuel does not end for lack of it: a branch of `depth` nodes
would be part of it. -/
theorem subtreeWithin_succ {depth : Nat} {id : NodeId}
    (h : (g.subtreeWithin depth id).length < depth) :
    g.subtreeWithin (depth + 1) id = g.subtreeWithin depth id := by
  induction depth generalizing id with
  | zero => omega
  | succ depth ih =>
      rw [subtreeWithin, subtreeWithin]
      congr 1
      apply List.flatMap_congr
      intro child hchild
      apply ih
      have hpart := (List.infix_flatMap_of_mem hchild (g.subtreeWithin depth)).length_le
      rw [subtreeWithin, List.length_cons] at h
      omega

theorem subtree_ne_nil (g : JoinGraph ε) (id : NodeId) :
    g.subtree id = id :: (g.subtree id).tail := by
  simp [subtree, subtreeWithin]

theorem sublist_flatMap_subtree (g : JoinGraph ε) (ids : List NodeId) :
    ids <+ ids.flatMap g.subtree := by
  conv_lhs => rw [← List.flatMap_singleton' ids]
  apply List.Sublist.flatMap_right
  intro id _
  rw [subtree_ne_nil g id]
  exact List.singleton_sublist.2 List.mem_cons_self

/-- The equation of the walk, for a node that has no more than the graph's nodes under it. -/
theorem subtree_eq {id : NodeId} (h : (g.subtree id).length ≤ g.size) :
    g.subtree id = id :: (g.children id).flatMap g.subtree := by
  rw [subtree, subtreeWithin]
  congr 1
  apply List.flatMap_congr
  intro child hchild
  refine (subtreeWithin_succ ?_).symm
  have hpart := (List.infix_flatMap_of_mem hchild (g.subtreeWithin g.size)).length_le
  rw [subtree, subtreeWithin, List.length_cons] at h
  omega

/-- Whatever lies under a node brings its own walk with it, in one piece. -/
theorem subtree_infix {depth : Nat} {id inner : NodeId}
    (h : (g.subtree id).length ≤ g.size) (hinner : inner ∈ g.subtreeWithin depth id) :
    g.subtree inner <:+: g.subtree id := by
  induction depth generalizing id with
  | zero => simp [subtreeWithin] at hinner
  | succ depth ih =>
      rw [subtreeWithin, List.mem_cons, List.mem_flatMap] at hinner
      rcases hinner with rfl | ⟨child, hchild, hinner⟩
      · exact List.infix_refl _
      · have hbelow : g.subtree child <:+: g.subtree id := by
          rw [subtree_eq h]
          exact (List.infix_flatMap_of_mem hchild g.subtree).trans (List.suffix_cons _ _).isInfix
        exact (ih (Nat.le_trans hbelow.length_le h) hinner).trans hbelow

/-- A node of a walk is its start, or a child of another node of it. -/
theorem eq_or_mem_children {depth : Nat} {id inner : NodeId}
    (h : inner ∈ g.subtreeWithin depth id) :
    inner = id ∨ ∃ parent, g.parent? inner = some parent := by
  induction depth generalizing id with
  | zero => simp [subtreeWithin] at h
  | succ depth ih =>
      rw [subtreeWithin, List.mem_cons, List.mem_flatMap] at h
      rcases h with rfl | ⟨child, hchild, h⟩
      · exact Or.inl rfl
      · rcases ih h with rfl | hparent
        · exact Or.inr ⟨id, mem_children.1 hchild⟩
        · exact Or.inr hparent

/-- Only the start of a walk may be without a parent. -/
theorem exists_parent_of_mem_tail {id inner : NodeId} (h : inner ∈ (g.subtree id).tail) :
    ∃ parent, g.parent? inner = some parent := by
  rw [subtree, subtreeWithin, List.tail_cons, List.mem_flatMap] at h
  obtain ⟨child, hchild, hinner⟩ := h
  rcases eq_or_mem_children hinner with rfl | hparent
  · exact ⟨id, mem_children.1 hchild⟩
  · exact hparent

namespace WellFormed

variable (h : g.WellFormed)
include h

theorem nodup : g.depthFirst.Nodup := h.once.nodup_iff.2 List.nodup_range

theorem mem_depthFirst {id : NodeId} : id ∈ g.depthFirst ↔ id < g.size := by
  rw [h.once.mem_iff, List.mem_range]

theorem length_depthFirst : g.depthFirst.length = g.size := by
  rw [h.once.length_eq, List.length_range]

theorem lt_of_parent {id parent : NodeId} (hp : g.parent? id = some parent) :
    parent < g.size := by
  obtain ⟨n, hn, hparent⟩ := Option.bind_eq_some_iff.1 hp
  exact h.parents n (List.mem_of_getElem? hn) parent hparent

theorem subtree_length_of_root {r : NodeId} (hr : r ∈ g.roots) :
    (g.subtree r).length ≤ g.size := by
  have hpart := (List.infix_flatMap_of_mem hr g.subtree).length_le
  rw [← h.length_depthFirst]
  exact hpart

theorem subtree_infix {id : NodeId} (hid : id < g.size) : g.subtree id <:+: g.depthFirst := by
  obtain ⟨r, hr, hmem⟩ := List.mem_flatMap.1 (h.mem_depthFirst.2 hid)
  have hunder := JoinGraph.subtree_infix (h.subtree_length_of_root hr) hmem
  exact hunder.trans (List.infix_flatMap_of_mem hr g.subtree)

theorem subtree_eq {id : NodeId} (hid : id < g.size) :
    g.subtree id = id :: (g.children id).flatMap g.subtree := by
  apply JoinGraph.subtree_eq
  rw [← h.length_depthFirst]
  exact (h.subtree_infix hid).length_le

/-- More fuel than there are nodes is not used. -/
theorem subtreeWithin_eq {depth : Nat} {id : NodeId} (hid : id < g.size) (hdepth : g.size < depth) :
    g.subtreeWithin depth id = g.subtree id := by
  have hlength := (h.subtree_infix hid).length_le
  rw [h.length_depthFirst] at hlength
  obtain ⟨k, rfl⟩ := Nat.exists_eq_add_of_lt hdepth
  clear hdepth
  induction k with
  | zero => rfl
  | succ k ih =>
      have hstep : g.subtreeWithin (g.size + k + 1 + 1) id = g.subtreeWithin (g.size + k + 1) id := by
        refine subtreeWithin_succ ?_
        rw [ih]
        omega
      exact hstep.trans ih

/-- A node stands before its children, and they keep the order in which they were added. -/
theorem cons_children_sublist {id : NodeId} (hid : id < g.size) :
    id :: g.children id <+ g.depthFirst := by
  refine List.Sublist.trans ?_ (h.subtree_infix hid).sublist
  rw [h.subtree_eq hid]
  exact (g.sublist_flatMap_subtree (g.children id)).cons_cons id

theorem pair_sublist_of_parent {id parent : NodeId} (hparent : g.parent? id = some parent) :
    [parent, id] <+ g.depthFirst := by
  refine List.Sublist.trans ?_ (h.cons_children_sublist (h.lt_of_parent hparent))
  exact (List.singleton_sublist.2 (mem_children.2 hparent)).cons_cons parent

/-- What is not a node has no children. -/
theorem children_of_le {id : NodeId} (hid : g.size ≤ id) : g.children id = [] :=
  List.eq_nil_iff_forall_not_mem.2 fun _ hchild =>
    absurd (h.lt_of_parent (mem_children.1 hchild)) (Nat.not_lt.2 hid)

theorem filter_parent (id : NodeId) :
    (g.depthFirst.filter fun child => g.parent? child == some id) = g.children id := by
  have hsub : g.children id <+ g.depthFirst := by
    rcases Nat.lt_or_ge id g.size with hid | hid
    · exact (List.sublist_cons_self _ _).trans (h.cons_children_sublist hid)
    · rw [h.children_of_le hid]
      exact List.nil_sublist _
  have hkept : g.children id <+ g.depthFirst.filter fun child => g.parent? child == some id := by
    have hall : (g.children id).filter (fun child => g.parent? child == some id)
        = g.children id :=
      List.filter_eq_self.2 fun child hchild => beq_iff_eq.2 (mem_children.1 hchild)
    rw [← hall]
    exact hsub.filter _
  refine (hkept.eq_of_length ?_).symm
  rw [children_eq_filter]
  exact (h.once.filter _).length_eq.symm

/-- A root has no parent: as a child it would be met a second time. -/
theorem parent?_of_root {r : NodeId} (hr : r ∈ g.roots) : g.parent? r = none := by
  rw [Option.eq_none_iff_forall_ne_some]
  intro parent hparent
  have hsplit : (g.roots ++ g.roots.flatMap fun root => (g.subtree root).tail).Nodup := by
    have hheads : (fun root => root :: (g.subtree root).tail) = g.subtree :=
      funext fun root => (subtree_ne_nil g root).symm
    have hperm := List.map_append_flatMap_perm g.roots id fun root => (g.subtree root).tail
    rw [List.map_id] at hperm
    rw [hperm.nodup_iff]
    simp only [id_eq, hheads]
    exact h.nodup
  have hlt := h.lt_of_parent hparent
  obtain ⟨root, hroot, hmem⟩ := List.mem_flatMap.1 (h.mem_depthFirst.2 hlt)
  have htail : r ∈ (g.subtree root).tail := by
    have hsub := (JoinGraph.subtree_infix (h.subtree_length_of_root hroot) hmem).sublist
    refine hsub.tail.subset ?_
    rw [h.subtree_eq hlt, List.tail_cons]
    refine List.mem_flatMap_of_mem (mem_children.2 hparent) ?_
    rw [subtree_ne_nil g r]
    exact List.mem_cons_self
  exact (List.nodup_append.1 hsplit).2.2 r hr r (List.mem_flatMap_of_mem hroot htail) rfl

theorem filter_parentless : (g.depthFirst.filter fun id => g.parent? id == none) = g.roots := by
  have hkept : g.roots <+ g.depthFirst.filter fun id => g.parent? id == none := by
    have hall : g.roots.filter (fun id => g.parent? id == none) = g.roots :=
      List.filter_eq_self.2 fun r hr => beq_iff_eq.2 (h.parent?_of_root hr)
    rw [← hall]
    exact (g.sublist_flatMap_subtree g.roots).filter _
  refine (hkept.eq_of_length_le ?_).symm
  refine (List.Nodup.subperm (h.nodup.filter _) ?_).length_le
  intro id hid
  rw [List.mem_filter, beq_iff_eq] at hid
  obtain ⟨r, hr, hmem⟩ := List.mem_flatMap.1 hid.1
  rcases eq_or_mem_children hmem with rfl | ⟨parent, hparent⟩
  · exact hr
  · rw [hparent] at hid
    exact absurd hid.2 (by simp)

end WellFormed

end EntityQuery.JoinGraph
