import EntityQuery.Proofs.Joins.Copy

/-!
Join graphs that grow node by node. Every node hangs under an earlier one or is a root, so the walk
of the FROM clause meets it exactly once: as a root, or where it meets its parent. A copy of such a
graph is one again.
-/

namespace EntityQuery

open scoped List

variable {ε : Type}

/-- Whether a node stands where its source belongs: without a parent it starts a FROM entry, under
one it is joined to it. -/
def JoinNode.Placed (n : JoinNode ε) : Prop :=
  match n.parent, n.source with
  | none, .root _ | none, .correlated _ => True
  | some _, .ofAttribute _ _ | some _, .ofEntity _ => n.type.isSome
  | _, _ => False

theorem JoinNode.Placed.rebind {n : JoinNode ε} (h : n.Placed) (f : Renumbering → ε → ε)
    (numbers : Renumbering) : (n.rebind f numbers).Placed := by
  obtain ⟨_, source, parent, _, _, _, _⟩ := n
  cases parent <;> cases source <;> exact h

namespace JoinGraph

variable {g : JoinGraph ε}

/-- Every parent is older than its children, and the roots are the nodes without a parent, each
once and in whatever order. -/
structure Ordered (g : JoinGraph ε) : Prop where
  parents : ∀ {id parent}, g.parent? id = some parent → parent < id
  roots : g.roots.Perm ((List.range g.size).filter fun id => g.parent? id == none)

instance (g : JoinGraph ε) : Decidable g.Ordered :=
  decidable_of_iff ((∀ id < g.size, ∀ parent ∈ g.parent? id, parent < id) ∧
    g.roots.Perm ((List.range g.size).filter fun id => g.parent? id == none))
    ⟨fun ⟨parents, roots⟩ => ⟨fun h => parents _ (lt_of_parent? h) _ h, roots⟩,
      fun ⟨parents, roots⟩ => ⟨fun _ _ _ h => parents h, roots⟩⟩

/-- A graph as it is when nodes are added one after another. -/
structure Grown (g : JoinGraph ε) : Prop where
  /-- Every parent is older than its children. -/
  parents : ∀ {id parent}, g.parent? id = some parent → parent < id
  /-- The roots are the nodes without a parent, in ascending order and each once. -/
  roots : g.roots = (List.range g.size).filter fun id => g.parent? id == none
  placed : ∀ n ∈ g.nodes, n.Placed

theorem Grown.ordered (h : g.Grown) : g.Ordered where
  parents := h.parents
  roots := .of_eq h.roots

theorem grown_empty : Grown ({} : JoinGraph ε) where
  parents h := by cases h
  roots := rfl
  placed := by simp

theorem size_push (g : JoinGraph ε) (n : JoinNode ε) : (g.push n).size = g.size + 1 := by
  simp [size, push]

theorem node?_push (g : JoinGraph ε) (n : JoinNode ε) (id : NodeId) :
    (g.push n).node? id = if id = g.size then some n else g.node? id := by
  rw [node?, push, size, List.getElem?_append, node?]
  split
  next hlt => rw [if_neg (Nat.ne_of_lt hlt)]
  next hge =>
    split
    next heq => simp [heq]
    next hne =>
      have hlt : g.nodes.length < id := Nat.lt_of_le_of_ne (Nat.not_lt.1 hge) (Ne.symm hne)
      have hrest : ([n] : List (JoinNode ε)).length ≤ id - g.nodes.length := by
        rw [List.length_singleton]
        omega
      rw [List.getElem?_eq_none hrest, List.getElem?_eq_none (Nat.le_of_lt hlt)]

theorem parent?_push (g : JoinGraph ε) (n : JoinNode ε) (id : NodeId) :
    (g.push n).parent? id = if id = g.size then n.parent else g.parent? id := by
  rw [parent?, node?_push]
  split <;> rfl

/-- A node under an older one, or a root. -/
theorem Grown.push (h : g.Grown) {n : JoinNode ε} (hparent : ∀ parent ∈ n.parent, parent < g.size)
    (hplaced : n.Placed) : (g.push n).Grown where
  parents {id parent} hid := by
    rw [parent?_push] at hid
    split at hid
    next heq => exact heq ▸ hparent parent hid
    next => exact h.parents hid
  roots := by
    have hold : (List.range g.size).filter (fun id => (g.push n).parent? id == none) = g.roots := by
      rw [h.roots]
      refine List.filter_congr fun id hid => ?_
      rw [parent?_push, if_neg (Nat.ne_of_lt (List.mem_range.1 hid))]
    have hnew : (g.push n).parent? g.size = n.parent := by rw [parent?_push, if_pos rfl]
    rw [size_push, List.range_succ, List.filter_append, hold, List.filter_singleton, hnew,
      JoinGraph.push, JoinNode.isRoot, size]
    cases n.parent <;> simp
  placed m hm := by
    rcases List.mem_append.1 hm with hm | hm
    · exact h.placed m hm
    · exact List.mem_singleton.1 hm ▸ hplaced

theorem node?_modify (g : JoinGraph ε) (id : NodeId) (f : JoinNode ε → JoinNode ε)
    (other : NodeId) :
    (g.modify id f).node? other = if id = other then (g.node? other).map f else g.node? other := by
  rw [node?, modify, List.getElem?_modify, node?]
  split
  · rfl
  · exact Option.map_id'

/-- Whatever is done to a node, as long as it stays where it is. -/
theorem Grown.modify (h : g.Grown) (id : NodeId) {f : JoinNode ε → JoinNode ε}
    (hparent : ∀ n, (f n).parent = n.parent) (hplaced : ∀ n : JoinNode ε, n.Placed → (f n).Placed) :
    (g.modify id f).Grown := by
  have hsame (other : NodeId) : (g.modify id f).parent? other = g.parent? other := by
    rw [parent?, node?_modify, parent?]
    split
    · cases g.node? other with
      | none => rfl
      | some n => exact hparent n
    · rfl
  have hsize : (g.modify id f).size = g.size := List.length_modify f g.nodes id
  refine ⟨fun hid => h.parents (hsame _ ▸ hid), ?_, fun n hn => ?_⟩
  · simp only [hsame, hsize]
    exact h.roots
  · obtain ⟨other, hother⟩ := List.mem_iff_getElem?.1 hn
    have hnode : (g.modify id f).node? other = some n := hother
    rw [node?_modify] at hnode
    split at hnode
    · obtain ⟨m, hm, rfl⟩ := Option.map_eq_some_iff.1 hnode
      exact hplaced m (h.placed m (List.mem_of_getElem? hm))
    · exact h.placed n (List.mem_of_getElem? hnode)

theorem nodup_children (g : JoinGraph ε) (id : NodeId) : (g.children id).Nodup := by
  rw [children_eq_filter]
  exact List.nodup_range.filter _

theorem count_children (g : JoinGraph ε) (id child : NodeId) :
    (g.children id).count child = if g.parent? child = some id then 1 else 0 := by
  rw [List.Nodup.count (g.nodup_children id)]
  simp only [mem_children]

/-- What holds of the counts of one walk holds of several walks in a row. -/
theorem count_flatMap_of_count {f f' : NodeId → List NodeId} {id : NodeId}
    {parent? : Option NodeId} (ids : List NodeId)
    (h : ∀ start, (f' start).count id =
      [start].count id + (parent?.elim 0 fun parent => (f start).count parent)) :
    (ids.flatMap f').count id =
      ids.count id + (parent?.elim 0 fun parent => (ids.flatMap f).count parent) := by
  induction ids with
  | nil => cases parent? <;> rfl
  | cons start rest ih =>
      have hids : (start :: rest).count id = [start].count id + rest.count id := by
        rw [← List.count_append, List.singleton_append]
      rw [List.flatMap_cons, List.count_append, ih, h, hids]
      cases parent? with
      | none => simp only [Option.elim]; omega
      | some parent => simp only [Option.elim, List.flatMap_cons, List.count_append]; omega

/-- A walk meets a node at its start, and wherever it meets the parent of the node one level
higher. -/
theorem count_subtreeWithin_succ (g : JoinGraph ε) (depth : Nat) (start id : NodeId) :
    (g.subtreeWithin (depth + 1) start).count id =
      [start].count id + ((g.parent? id).elim 0 fun parent =>
        (g.subtreeWithin depth start).count parent) := by
  induction depth generalizing start with
  | zero => cases g.parent? id <;> simp [subtreeWithin, List.flatMap_eq_nil_iff.2]
  | succ depth ih =>
      have hbelow := count_flatMap_of_count (g.children start) ih
      rw [subtreeWithin, ← List.singleton_append, List.count_append, hbelow, count_children]
      cases hparent : g.parent? id with
      | none => simp
      | some parent =>
          simp only [Option.elim, subtreeWithin, List.count_cons, Option.some.injEq, beq_iff_eq]
          rcases eq_or_ne parent start with rfl | hne
          · simp only [if_true]; omega
          · simp only [hne, hne.symm, if_false]; omega

namespace Ordered

variable (h : g.Ordered)
include h

theorem count_roots (id : NodeId) :
    g.roots.count id = if id < g.size ∧ g.parent? id = none then 1 else 0 := by
  rw [h.roots.count_eq, List.Nodup.count (List.nodup_range.filter _)]
  simp only [List.mem_filter, List.mem_range, beq_iff_eq]

/-- With enough fuel, the walk meets every node once: parents are older than their children. -/
theorem count_walk {depth id : Nat} (hdepth : id < depth) :
    (g.roots.flatMap (g.subtreeWithin depth)).count id = if id < g.size then 1 else 0 := by
  induction id using Nat.strongRecOn generalizing depth with
  | ind id ih =>
      obtain ⟨depth, rfl⟩ : ∃ k, depth = k + 1 := ⟨depth - 1, by omega⟩
      rw [count_flatMap_of_count _ (g.count_subtreeWithin_succ depth · id), h.count_roots]
      cases hparent : g.parent? id with
      | none => simp
      | some parent =>
          have hlt : parent < id := h.parents hparent
          have hid : id < g.size := lt_of_parent? hparent
          have hmet := ih parent hlt (Nat.lt_of_lt_of_le hlt (Nat.lt_succ_iff.1 hdepth))
          rw [if_pos (Nat.lt_trans hlt hid)] at hmet
          simp [hid, hmet]

theorem wellFormed : g.WellFormed where
  roots r hr := by
    exact List.mem_range.1 (List.mem_filter.1 (h.roots.mem_iff.1 hr)).1
  parents n hn p hp := by
    obtain ⟨id, hid⟩ := List.mem_iff_getElem?.1 hn
    have hparent : g.parent? id = some p := by
      rw [parent?, node?, hid]
      exact hp
    exact Nat.lt_trans (h.parents hparent) (lt_of_parent? hparent)
  once := by
    refine List.perm_iff_count.2 fun id => ?_
    rw [List.Nodup.count List.nodup_range]
    simp only [List.mem_range]
    rcases Nat.lt_or_ge id (g.size + 1) with hid | hid
    · exact h.count_walk hid
    · have hmissing : id ∉ g.depthFirst := by
        intro hmem
        obtain ⟨r, hr, hmem⟩ := List.mem_flatMap.1 hmem
        rcases eq_or_mem_children hmem with rfl | ⟨parent, hparent⟩
        · have hlt := List.mem_range.1 (List.mem_filter.1 (h.roots.mem_iff.1 hr)).1
          exact absurd hlt (Nat.not_lt.2 (Nat.le_of_lt hid))
        · exact absurd (lt_of_parent? hparent) (Nat.not_lt.2 (Nat.le_of_lt hid))
      rw [List.count_eq_zero_of_not_mem hmissing, if_neg (by omega)]

end Ordered

namespace Grown

variable (h : g.Grown)
include h

theorem wellFormed : g.WellFormed := h.ordered.wellFormed

/-- A copy into the empty graph has its nodes in the order of the walk, so parents come first
again. -/
theorem renumbered (f : Renumbering → ε → ε) : (g.renumbered f).Grown := by
  have wf := h.wellFormed
  have hparent? (id : NodeId) : (g.renumbered f).parent? ((g.numbering 0).apply id) = none ↔
      g.parent? id = none := by
    rw [wf.parent?_renumbered f, Option.map_eq_none_iff]
  refine ⟨fun {id parent} hid => ?_, ?_, fun n hn => ?_⟩
  · have hlt : id < g.depthFirst.length := by
      rw [wf.length_depthFirst, ← wf.size_renumbered f]
      exact lt_of_parent? hid
    have hsplit : g.depthFirst.take id ++ g.depthFirst[id] :: g.depthFirst.drop (id + 1) =
        g.depthFirst := by
      rw [List.getElem_cons_drop, List.take_append_drop]
    have hnumber := wf.apply_numbering_of_split 0 hsplit
    rw [List.length_take, Nat.min_eq_left (Nat.le_of_lt hlt), Nat.zero_add] at hnumber
    rw [← hnumber, wf.parent?_renumbered f] at hid
    obtain ⟨old, hold, rfl⟩ := Option.map_eq_some_iff.1 hid
    have hmem := wf.mem_of_parent hsplit hold
    rw [wf.apply_of_lt 0 (wf.lt_of_parent hold), Nat.zero_add]
    have hindex := List.idxOf_lt_length_of_mem hmem
    rw [← hsplit, List.idxOf_append_of_mem hmem]
    exact Nat.lt_of_lt_of_le hindex (List.length_take_le _ _)
  · have hroots : (g.renumbered f).roots = g.roots.map (g.numbering 0).apply := rfl
    rw [hroots, wf.size_renumbered f, List.range_eq_range', ← wf.map_apply_depthFirst 0,
      List.filter_map, ← wf.filter_parentless]
    congr 1
    refine List.filter_congr fun id _ => ?_
    rw [Bool.eq_iff_iff, Function.comp_apply, beq_iff_eq, beq_iff_eq, hparent?]
  · obtain ⟨old, hold, rfl⟩ := List.mem_map.1 hn
    obtain ⟨id, -, hid⟩ := List.mem_filterMap.1 hold
    exact (h.placed old (List.mem_of_getElem? hid)).rebind f _

end Grown

end JoinGraph

end EntityQuery
