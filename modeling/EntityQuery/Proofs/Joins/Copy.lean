import Mathlib.Data.List.Induction
import EntityQuery.Proofs.Joins.Order

/-!
Copying a well-formed join graph. The copy of the `i`-th node of the FROM order is the `i`-th new
node, under the copy of its parent, and mentions the copies of the nodes that it mentioned. A copy
into the empty graph walks its nodes in the order of the original.
-/

namespace EntityQuery

open scoped List

variable {ε : Type}

namespace Renumbering

/-- The listed nodes get consecutive numbers. -/
def consecutive (start : Nat) (ids : List NodeId) : Renumbering := ofList (ids.zipIdx start)

theorem consecutive_append_singleton (start : Nat) (ids : List NodeId) (id : NodeId) :
    consecutive start (ids ++ [id]) = (consecutive start ids).insert id (start + ids.length) := by
  simp [consecutive, ofList, List.zipIdx_append]

theorem find?_insert (m : Renumbering) (old new id : NodeId) :
    (m.insert old new).find? id = if id = old then some new else m.find? id := by
  by_cases h : id = old
  · simp [find?, insert, h]
  · simp [find?, insert, List.lookup_cons, beq_eq_false_iff_ne.2 h, h]

theorem find?_consecutive (start : Nat) {ids : List NodeId} (h : ids.Nodup) (id : NodeId) :
    (consecutive start ids).find? id = if id ∈ ids then some (start + ids.idxOf id) else none := by
  induction ids using List.reverseRecOn with
  | nil => rfl
  | append_singleton ids last ih =>
      have hlast : last ∉ ids := by
        intro hmem
        exact (List.nodup_append.1 h).2.2 last hmem last (by simp) rfl
      rw [consecutive_append_singleton, find?_insert, ih (List.nodup_append.1 h).1]
      by_cases hid : id = last
      · subst hid
        simp [List.idxOf_append, hlast]
      · by_cases hmem : id ∈ ids <;> simp [hid, hmem, List.idxOf_append]

theorem find?_consecutive_getElem (start : Nat) {ids : List NodeId} (h : ids.Nodup) (i : Nat)
    (hi : i < ids.length) : (consecutive start ids).find? ids[i] = some (start + i) := by
  rw [find?_consecutive start h, if_pos (List.getElem_mem hi), h.idxOf_getElem i hi]

theorem apply_consecutive (start : Nat) {ids : List NodeId} (h : ids.Nodup) {id : NodeId}
    (hid : id ∈ ids) : (consecutive start ids).apply id = start + ids.idxOf id := by
  simp [apply, find?_consecutive start h, hid]

end Renumbering

namespace JoinNode

/-- A node under the copy of its parent, with its condition as it was. -/
def rehang (m : Renumbering) (n : JoinNode ε) : JoinNode ε :=
  { n with parent := n.parent.map m.apply }

/-- A node under the copy of its parent, with its condition bound to the copies. -/
def rebind (f : Renumbering → ε → ε) (m : Renumbering) (n : JoinNode ε) : JoinNode ε :=
  { n.rehang m with condition := n.condition.map (f m) }

end JoinNode

namespace JoinGraph

variable {g : JoinGraph ε}

/-- The listed nodes that exist. -/
def listed (g : JoinGraph ε) (ids : List NodeId) : List (JoinNode ε) := ids.filterMap g.node?

theorem getElem?_listed {ids : List NodeId} (h : ∀ id ∈ ids, id < g.size) (i : Nat) :
    (g.listed ids)[i]? = ids[i]?.bind g.node? := by
  induction ids generalizing i with
  | nil => rfl
  | cons id rest ih =>
      obtain ⟨n, hn⟩ := Option.isSome_iff_exists.1 (node?_isSome.2 (h id List.mem_cons_self))
      have hrest := ih fun other hother => h other (List.mem_cons_of_mem _ hother)
      cases i with
      | zero => simp [listed, hn]
      | succ i => simpa [listed, hn] using hrest i

theorem length_listed {ids : List NodeId} (h : ∀ id ∈ ids, id < g.size) :
    (g.listed ids).length = ids.length := by
  induction ids with
  | nil => rfl
  | cons id rest ih =>
      obtain ⟨n, hn⟩ := Option.isSome_iff_exists.1 (node?_isSome.2 (h id List.mem_cons_self))
      have hrest := ih fun other hother => h other (List.mem_cons_of_mem _ hother)
      simpa [listed, hn] using hrest

theorem modify_front (f : JoinNode ε → JoinNode ε) (front back : List (JoinNode ε))
    (n : JoinNode ε) :
    (front ++ n :: back).modify front.length f = front ++ f n :: back := by
  induction front with
  | nil => rfl
  | cons first front ih => simpa using ih

theorem modifyConditions_eq (f : ε → ε) (numbers : Renumbering) (roots : List NodeId)
    {ids : List NodeId} {front back : List (JoinNode ε)} (hlength : back.length = ids.length)
    (h : ∀ i (hi : i < ids.length), numbers.find? ids[i] = some (front.length + i)) :
    modifyConditions f numbers ids ⟨front ++ back, roots⟩ =
      ⟨front ++ back.map fun n => { n with condition := n.condition.map f }, roots⟩ := by
  induction ids generalizing front back with
  | nil =>
      obtain rfl := List.length_eq_zero_iff.1 hlength
      rfl
  | cons id rest ih =>
      cases back with
      | nil => simp at hlength
      | cons n back =>
          have hid : numbers.find? id = some front.length := h 0 (Nat.zero_lt_succ _)
          have hrest : ∀ i (hi : i < rest.length), numbers.find? rest[i] =
              some ((front ++ [{ n with condition := n.condition.map f }]).length + i) := by
            intro i hi
            have hnext := h (i + 1) (Nat.succ_lt_succ hi)
            rw [List.getElem_cons_succ] at hnext
            rw [hnext, List.length_append, List.length_singleton]
            congr 1
            omega
          have hstep := ih (Nat.succ.inj hlength) hrest
          simp only [List.append_assoc, List.singleton_append] at hstep
          rw [List.map_cons, ← hstep]
          simp [modifyConditions, hid, modify, modify_front]

namespace WellFormed

variable (h : g.WellFormed)
include h

/-- A parent stands before its children, so its copy exists when theirs are made. -/
theorem mem_of_parent {front rest : List NodeId} {id parent : NodeId}
    (hsplit : front ++ id :: rest = g.depthFirst) (hparent : g.parent? id = some parent) :
    parent ∈ front := by
  have hpair : [parent, id] <+ front ++ id :: rest := by
    rw [hsplit]
    exact h.pair_sublist_of_parent hparent
  have hid : id ∉ rest := by
    have hnodup := (List.nodup_append.1 (hsplit ▸ h.nodup)).2.1
    exact (List.nodup_cons.1 hnodup).1
  obtain ⟨first, second, hboth, hfirst, hsecond⟩ := List.sublist_append_iff.1 hpair
  cases first with
  | nil =>
      rw [List.nil_append] at hboth
      rw [← hboth] at hsecond
      exact absurd (hsecond.tail.subset List.mem_cons_self) hid
  | cons other first =>
      rw [List.cons_append, List.cons.injEq] at hboth
      rw [hboth.1]
      exact hfirst.subset List.mem_cons_self

end WellFormed

/-- A target after the listed nodes of `g` were added, with their conditions still unbound. -/
def added (g target : JoinGraph ε) (m : Renumbering) (ids : List NodeId) : JoinGraph ε where
  nodes := target.nodes ++ (g.listed ids).map (JoinNode.rehang m)
  roots := target.roots ++ (ids.filter fun id => g.parent? id == none).map m.apply

/-- The new numbers of the nodes of `g`, if the first one gets the number `start`. -/
def numbering (g : JoinGraph ε) (start : Nat) : Renumbering :=
  .consecutive start g.depthFirst

namespace WellFormed

variable (h : g.WellFormed)
include h

theorem apply_numbering_of_split (start : Nat) {front rest : List NodeId} {id : NodeId}
    (hsplit : front ++ id :: rest = g.depthFirst) :
    (g.numbering start).apply id = start + front.length := by
  have hid : id ∉ front := by
    intro hmem
    have hnodup : (front ++ id :: rest).Nodup := hsplit ▸ h.nodup
    exact (List.nodup_append.1 hnodup).2.2 id hmem id List.mem_cons_self rfl
  have hmem : id ∈ g.depthFirst := by simp [← hsplit]
  rw [numbering, Renumbering.apply_consecutive start h.nodup hmem, ← hsplit]
  simp [List.idxOf_append, hid]

/-- One step of the copy: the next node of the order hangs under the copy of its parent. -/
theorem push_added (target : JoinGraph ε) {front rest : List NodeId} {id : NodeId}
    {n : JoinNode ε} (hsplit : front ++ id :: rest = g.depthFirst) (hn : g.node? id = some n) :
    (g.added target (g.numbering target.size) front).push
        { n with parent := n.parent.bind (Renumbering.consecutive target.size front).find? } =
      g.added target (g.numbering target.size) (front ++ [id]) := by
  have hfront : front.Nodup := (List.nodup_append.1 (hsplit ▸ h.nodup)).1
  have hlt : ∀ other ∈ front, other < g.size := by
    intro other hother
    exact h.mem_depthFirst.1 (hsplit ▸ List.mem_append_left _ hother)
  have hparent : n.parent.bind (Renumbering.consecutive target.size front).find? =
      n.parent.map (g.numbering target.size).apply := by
    cases hp : n.parent with
    | none => rfl
    | some parent =>
        have hmem : parent ∈ front := h.mem_of_parent hsplit (by simp [parent?, hn, hp])
        have hall : parent ∈ g.depthFirst := hsplit ▸ List.mem_append_left _ hmem
        rw [Option.bind_some, Option.map_some, Renumbering.find?_consecutive _ hfront,
          if_pos hmem, numbering, Renumbering.apply_consecutive _ h.nodup hall, ← hsplit,
          List.idxOf_append_of_mem hmem]
  have hnumber := h.apply_numbering_of_split target.size hsplit
  have hlength : (target.nodes ++ (g.listed front).map
      (JoinNode.rehang (g.numbering target.size))).length = target.size + front.length := by
    simp [length_listed hlt, size]
  rw [hparent]
  cases hp : n.parent with
  | none =>
      simp [push, added, JoinNode.isRoot, JoinNode.rehang, listed, parent?, hn, hp, hnumber,
        ← hlength]
  | some parent =>
      simp [push, added, JoinNode.isRoot, JoinNode.rehang, listed, parent?, hn, hp]

theorem copyNodes_eq (target : JoinGraph ε) {front rest : List NodeId}
    (hsplit : front ++ rest = g.depthFirst) :
    g.copyNodes rest (g.added target (g.numbering target.size) front)
        (.consecutive target.size front) =
      .ok (g.added target (g.numbering target.size) g.depthFirst, g.numbering target.size) := by
  induction rest generalizing front with
  | nil =>
      rw [List.append_nil] at hsplit
      rw [hsplit]
      rfl
  | cons id rest ih =>
      have hmem : id ∈ g.depthFirst := by simp [← hsplit]
      obtain ⟨n, hn⟩ := Option.isSome_iff_exists.1 (node?_isSome.2 (h.mem_depthFirst.1 hmem))
      have hlt : ∀ other ∈ front, other < g.size := by
        intro other hother
        exact h.mem_depthFirst.1 (hsplit ▸ List.mem_append_left _ hother)
      have hsize : (g.added target (g.numbering target.size) front).size =
          target.size + front.length := by
        simp [size, added, length_listed hlt]
      have hnext : (front ++ [id]) ++ rest = g.depthFirst := by simpa using hsplit
      rw [copyNodes, hn]
      simp only [h.push_added target hsplit hn, hsize,
        ← Renumbering.consecutive_append_singleton]
      exact ih hnext

end WellFormed

/-- A graph with a copy of another one behind its nodes, in the order of the FROM clause. -/
def extended (f : Renumbering → ε → ε) (target g : JoinGraph ε) : JoinGraph ε where
  nodes := target.nodes ++
    (g.listed g.depthFirst).map (JoinNode.rebind f (g.numbering target.size))
  roots := target.roots ++ g.roots.map (g.numbering target.size).apply

/-- The copy of a graph into the empty one. -/
def renumbered (f : Renumbering → ε → ε) (g : JoinGraph ε) : JoinGraph ε where
  nodes := (g.listed g.depthFirst).map (JoinNode.rebind f (g.numbering 0))
  roots := g.roots.map (g.numbering 0).apply

theorem node?_extended_old (f : Renumbering → ε → ε) {target : JoinGraph ε} {id : NodeId}
    (hid : id < target.size) : (target.extended f g).node? id = target.node? id :=
  List.getElem?_append_left hid

theorem wellFormed_empty : WellFormed ({} : JoinGraph ε) := ⟨by simp, by simp, .nil⟩

namespace WellFormed

variable (h : g.WellFormed)
include h

theorem copyInto_eq (f : Renumbering → ε → ε) (target : JoinGraph ε) :
    g.copyInto f target = .ok (target.extended f g, g.numbering target.size) := by
  have hlt : ∀ id ∈ g.depthFirst, id < g.size := fun id => h.mem_depthFirst.1
  have hstart : g.added target (g.numbering target.size) [] = target := by
    simp [added, listed]
  have hcopied := h.copyNodes_eq target (List.nil_append g.depthFirst)
  rw [hstart] at hcopied
  have hlength : ((g.listed g.depthFirst).map (JoinNode.rehang (g.numbering target.size))).length =
      g.depthFirst.length := by
    rw [List.length_map, length_listed hlt]
  have hbound := modifyConditions_eq (f (g.numbering target.size)) (g.numbering target.size)
    (target.roots ++ g.roots.map (g.numbering target.size).apply) hlength
    (Renumbering.find?_consecutive_getElem target.size h.nodup)
  have hrun : g.copyNodes g.depthFirst target {} =
      .ok (g.added target (g.numbering target.size) g.depthFirst, g.numbering target.size) := hcopied
  rw [copyInto, hrun]
  change Except.ok _ = _
  rw [added, h.filter_parentless, hbound, List.map_map]
  rfl

section Numbering

variable (start : Nat)

theorem find?_of_lt {id : NodeId} (hid : id < g.size) :
    (g.numbering start).find? id = some (start + g.depthFirst.idxOf id) := by
  rw [numbering, Renumbering.find?_consecutive start h.nodup, if_pos (h.mem_depthFirst.2 hid)]

theorem find?_of_le {id : NodeId} (hid : g.size ≤ id) : (g.numbering start).find? id = none := by
  rw [numbering, Renumbering.find?_consecutive start h.nodup, if_neg]
  exact fun hmem => Nat.not_lt.2 hid (h.mem_depthFirst.1 hmem)

theorem apply_of_lt {id : NodeId} (hid : id < g.size) :
    (g.numbering start).apply id = start + g.depthFirst.idxOf id := by
  rw [Renumbering.apply, h.find?_of_lt start hid, Option.getD_some]

theorem apply_of_le {id : NodeId} (hid : g.size ≤ id) : (g.numbering start).apply id = id := by
  rw [Renumbering.apply, h.find?_of_le start hid, Option.getD_none]

theorem le_apply {id : NodeId} (hid : id < g.size) : start ≤ (g.numbering start).apply id := by
  rw [h.apply_of_lt start hid]
  exact Nat.le_add_right start _

theorem apply_lt {id : NodeId} (hid : id < g.size) :
    (g.numbering start).apply id < start + g.size := by
  rw [h.apply_of_lt start hid, ← h.length_depthFirst]
  exact Nat.add_lt_add_left (List.idxOf_lt_length_of_mem (h.mem_depthFirst.2 hid)) start

/-- Different nodes get different numbers. -/
theorem apply_inj {a b : NodeId} (ha : a < g.size) (hb : b < g.size) :
    (g.numbering start).apply a = (g.numbering start).apply b ↔ a = b := by
  rw [h.apply_of_lt start ha, h.apply_of_lt start hb, Nat.add_left_cancel_iff]
  exact List.idxOf_inj (h.mem_depthFirst.2 ha)

theorem map_apply_depthFirst :
    g.depthFirst.map (g.numbering start).apply = List.range' start g.size := by
  apply List.ext_getElem
  · simp [h.length_depthFirst]
  · intro i hi _
    rw [List.length_map] at hi
    have hlt := h.mem_depthFirst.1 (List.getElem_mem hi)
    rw [List.getElem_map, h.apply_of_lt start hlt, h.nodup.idxOf_getElem i hi,
      List.getElem_range', Nat.one_mul]

end Numbering

section Extended

variable (f : Renumbering → ε → ε) {target : JoinGraph ε}

theorem size_extended : (target.extended f g).size = target.size + g.size := by
  have hlt : ∀ id ∈ g.depthFirst, id < g.size := fun id => h.mem_depthFirst.1
  rw [size, extended, List.length_append, List.length_map, length_listed hlt, h.length_depthFirst]
  rfl

/-- The nodes are those of the target and the copies, in the order of the walk. -/
theorem range_extended : List.range (target.extended f g).size =
    List.range target.size ++ g.depthFirst.map (g.numbering target.size).apply := by
  rw [h.size_extended f, h.map_apply_depthFirst, List.range_eq_range', List.range_eq_range',
    ← List.range'_append_1, Nat.zero_add]

theorem node?_extended {id : NodeId} (hid : id < g.size) :
    (target.extended f g).node? ((g.numbering target.size).apply id) =
      (g.node? id).map (JoinNode.rebind f (g.numbering target.size)) := by
  have hall : ∀ other ∈ g.depthFirst, other < g.size := fun other => h.mem_depthFirst.1
  rw [h.apply_of_lt target.size hid, node?, extended, size,
    List.getElem?_append_right (Nat.le_add_right _ _), Nat.add_sub_cancel_left, List.getElem?_map,
    getElem?_listed hall, List.getElem?_idxOf (h.mem_depthFirst.2 hid)]
  rfl

theorem parent?_extended {id : NodeId} (hid : id < g.size) :
    (target.extended f g).parent? ((g.numbering target.size).apply id) =
      (g.parent? id).map (g.numbering target.size).apply := by
  rw [parent?, parent?, h.node?_extended f hid]
  cases g.node? id <;> rfl

theorem parent?_extended_eq_iff {id child : NodeId} (hid : id < g.size) (hchild : child < g.size) :
    (target.extended f g).parent? ((g.numbering target.size).apply child) =
        some ((g.numbering target.size).apply id) ↔ g.parent? child = some id := by
  rw [h.parent?_extended f hchild]
  cases hparent : g.parent? child with
  | none => simp
  | some parent =>
      rw [Option.map_some, Option.some.injEq, Option.some.injEq,
        h.apply_inj target.size (h.lt_of_parent hparent) hid]

/-- No copy hangs under a node of the target. -/
theorem children_extended_old {id : NodeId} (hid : id < target.size) :
    (target.extended f g).children id = target.children id := by
  have hnew : (g.depthFirst.map (g.numbering target.size).apply).filter
      (fun child => (target.extended f g).parent? child == some id) = [] := by
    rw [List.filter_eq_nil_iff, List.forall_mem_map]
    intro child hchild hparent
    rw [beq_iff_eq, h.parent?_extended f (h.mem_depthFirst.1 hchild)] at hparent
    obtain ⟨parent, hold, rfl⟩ := Option.map_eq_some_iff.1 hparent
    exact Nat.not_le.2 hid (h.le_apply target.size (h.lt_of_parent hold))
  rw [children_eq_filter, h.range_extended f, List.filter_append, hnew, List.append_nil,
    children_eq_filter]
  refine List.filter_congr fun child hchild => ?_
  rw [parent?, node?_extended_old f (List.mem_range.1 hchild), parent?]

variable (ht : target.WellFormed)
include ht

/-- The children of a copy are the copies of the children. -/
theorem children_extended {id : NodeId} (hid : id < g.size) :
    (target.extended f g).children ((g.numbering target.size).apply id) =
      (g.children id).map (g.numbering target.size).apply := by
  have hold : (List.range target.size).filter (fun child => (target.extended f g).parent? child ==
      some ((g.numbering target.size).apply id)) = [] := by
    rw [List.filter_eq_nil_iff]
    intro child hchild hparent
    rw [beq_iff_eq, parent?, node?_extended_old f (List.mem_range.1 hchild)] at hparent
    exact Nat.not_le.2 (ht.lt_of_parent hparent) (h.le_apply target.size hid)
  rw [children_eq_filter, h.range_extended f, List.filter_append, hold, List.nil_append,
    List.filter_map, ← h.filter_parent id]
  congr 1
  refine List.filter_congr fun child hchild => ?_
  rw [Function.comp_apply, Bool.eq_iff_iff, beq_iff_eq, beq_iff_eq,
    h.parent?_extended_eq_iff f hid (h.mem_depthFirst.1 hchild)]

theorem subtree_extended_old {id : NodeId} (hid : id < target.size) :
    (target.extended f g).subtree id = target.subtree id := by
  have hwalk := subtreeWithin_map (p := (· < target.size)) (f := fun id => id)
    (fun _ hchild => lt_of_parent? (mem_children.1 hchild))
    (fun hid => by rw [h.children_extended_old f hid, List.map_id'])
    ((target.extended f g).size + 1) hid
  rw [List.map_id'] at hwalk
  rw [subtree, hwalk, ht.subtreeWithin_eq hid]
  rw [h.size_extended f]
  omega

theorem subtree_extended {id : NodeId} (hid : id < g.size) :
    (target.extended f g).subtree ((g.numbering target.size).apply id) =
      (g.subtree id).map (g.numbering target.size).apply := by
  have hwalk := subtreeWithin_map (p := (· < g.size))
    (fun _ hchild => lt_of_parent? (mem_children.1 hchild))
    (fun hid => h.children_extended f ht hid) ((target.extended f g).size + 1) hid
  rw [subtree, hwalk, h.subtreeWithin_eq hid]
  rw [h.size_extended f]
  omega

/-- The FROM clause of the target, and then that of the copy. -/
theorem depthFirst_extended : (target.extended f g).depthFirst =
    target.depthFirst ++ g.depthFirst.map (g.numbering target.size).apply := by
  rw [depthFirst, extended, List.flatMap_append, List.flatMap_map, depthFirst, depthFirst,
    List.map_flatMap]
  congr 1
  · exact List.flatMap_congr fun root hroot => h.subtree_extended_old f ht (ht.roots root hroot)
  · exact List.flatMap_congr fun root hroot => h.subtree_extended f ht (h.roots root hroot)

/-- A well-formed graph stays so when another one is copied into it. -/
theorem extended : (target.extended f g).WellFormed where
  roots root hroot := by
    rw [h.size_extended f]
    rcases List.mem_append.1 hroot with hroot | hroot
    · exact Nat.lt_add_right _ (ht.roots root hroot)
    · obtain ⟨old, hold, rfl⟩ := List.mem_map.1 hroot
      exact h.apply_lt target.size (h.roots old hold)
  parents n hn parent hparent := by
    rw [h.size_extended f]
    rcases List.mem_append.1 hn with hn | hn
    · exact Nat.lt_add_right _ (ht.parents n hn parent hparent)
    · obtain ⟨old, hold, rfl⟩ := List.mem_map.1 hn
      obtain ⟨id, -, hid⟩ := List.mem_filterMap.1 hold
      obtain ⟨oldParent, holdParent, rfl⟩ := Option.map_eq_some_iff.1 hparent
      exact h.apply_lt target.size (h.parents old (List.mem_of_getElem? hid) oldParent holdParent)
  once := by
    rw [h.depthFirst_extended f ht, h.range_extended f]
    exact ht.once.append_right _

end Extended

variable (f : Renumbering → ε → ε)

theorem copyInto_empty : g.copyInto f {} = .ok (g.renumbered f, g.numbering 0) := h.copyInto_eq f {}

theorem renumbered : (g.renumbered f).WellFormed := h.extended f wellFormed_empty

theorem size_renumbered : (g.renumbered f).size = g.size := by
  have hsize : (JoinGraph.extended f {} g).size = 0 + g.size := h.size_extended f
  rwa [Nat.zero_add] at hsize

theorem node?_renumbered (id : NodeId) :
    (g.renumbered f).node? ((g.numbering 0).apply id) =
      (g.node? id).map (JoinNode.rebind f (g.numbering 0)) := by
  rcases Nat.lt_or_ge id g.size with hid | hid
  · have hnode : (JoinGraph.extended f {} g).node? ((g.numbering 0).apply id) = _ :=
      h.node?_extended f hid
    exact hnode
  · have hold : g.node? id = none := List.getElem?_eq_none hid
    have hnew : (g.renumbered f).size ≤ id := by rwa [h.size_renumbered f]
    rw [h.apply_of_le 0 hid, hold]
    exact List.getElem?_eq_none hnew

theorem parent?_renumbered (id : NodeId) :
    (g.renumbered f).parent? ((g.numbering 0).apply id) =
      (g.parent? id).map (g.numbering 0).apply := by
  rw [parent?, parent?, h.node?_renumbered f]
  cases g.node? id <;> rfl

theorem children_renumbered (id : NodeId) :
    (g.renumbered f).children ((g.numbering 0).apply id) =
      (g.children id).map (g.numbering 0).apply := by
  rcases Nat.lt_or_ge id g.size with hid | hid
  · exact h.children_extended f wellFormed_empty hid
  · have hnew : (g.renumbered f).size ≤ id := by rwa [h.size_renumbered f]
    rw [h.apply_of_le 0 hid, h.children_of_le hid, (h.renumbered f).children_of_le hnew, List.map_nil]

theorem subtree_renumbered (id : NodeId) :
    (g.renumbered f).subtree ((g.numbering 0).apply id) =
      (g.subtree id).map (g.numbering 0).apply := by
  rw [subtree, subtree, h.size_renumbered f]
  exact subtreeWithin_map (p := fun _ => True) (fun _ _ => trivial)
    (fun _ => h.children_renumbered f _) _ trivial

theorem depthFirst_renumbered :
    (g.renumbered f).depthFirst = g.depthFirst.map (g.numbering 0).apply :=
  h.depthFirst_extended f wellFormed_empty

end WellFormed

end JoinGraph

end EntityQuery
