import EntityQuery.Proofs.Aliases.Table
import EntityQuery.Proofs.Joins.Grown

/-!
Join graphs with the alias tables that name their nodes. Adding a node together with its alias,
changing a node in place, naming an expression and numbering all nodes anew keep the two in step.
-/

namespace EntityQuery

variable {ε : Type}

/-- A grown graph and a table that fit each other. -/
structure AliasTable.Names (t : AliasTable ε) (g : JoinGraph ε) : Prop where
  grown : g.Grown
  sorted : t.Sorted
  /-- Every entry stands under its own alias. -/
  own : ∀ e ∈ t.entries, e.1 = e.2.aliasName
  /-- A join entry names a node of the graph, which carries the alias. -/
  nodes : ∀ key a node implicit, (key, .join a node implicit) ∈ t.entries →
    (g.node? node).map JoinNode.aliasName = some a
  /-- The alias of every node names something. -/
  declared : ∀ n ∈ g.nodes, n.aliasName ∈ t.entries.map Prod.fst

namespace AliasTable.Names

variable {t : AliasTable ε} {g : JoinGraph ε}

theorem empty : Names {} ({} : JoinGraph ε) where
  grown := JoinGraph.grown_empty
  sorted := .nil
  own := by simp
  nodes := by simp
  declared := by simp

theorem push (h : t.Names g) {n : JoinNode ε} (hparent : ∀ parent ∈ n.parent, parent < g.size)
    (hplaced : n.Placed) (implicit : Bool) :
    (t.insertJoin n.aliasName g.size implicit).Names (g.push n) where
  grown := h.grown.push hparent hplaced
  sorted := h.sorted.insert _ _
  own e he := by
    rcases AliasTable.mem_insertEntry he with rfl | he
    · rfl
    · exact h.own e he
  nodes key a node implicit he := by
    rw [JoinGraph.node?_push]
    rcases AliasTable.mem_insertEntry he with heq | he
    · cases heq
      rw [if_pos rfl]
      rfl
    · have hnode := h.nodes key a node implicit he
      have hlt : node < g.size := JoinGraph.node?_isSome.1 (by
        rw [← Option.isSome_map, hnode]
        rfl)
      rwa [if_neg (Nat.ne_of_lt hlt)]
  declared m hm := by
    refine (AliasTable.mem_keys_insert _ _ _ _).2 ?_
    rcases List.mem_append.1 hm with hm | hm
    · exact .inr (h.declared m hm)
    · exact .inl (List.mem_singleton.1 hm ▸ rfl)

/-- Whatever is done to a node, as long as it keeps its place and its alias. -/
theorem modify (h : t.Names g) (id : NodeId) {f : JoinNode ε → JoinNode ε}
    (hparent : ∀ n, (f n).parent = n.parent) (hplaced : ∀ n : JoinNode ε, n.Placed → (f n).Placed)
    (halias : ∀ n, (f n).aliasName = n.aliasName) : t.Names (g.modify id f) where
  grown := h.grown.modify id hparent hplaced
  sorted := h.sorted
  own := h.own
  nodes key a node implicit he := by
    rw [JoinGraph.node?_modify, ← h.nodes key a node implicit he]
    split
    · rw [Option.map_map]
      exact congrArg (Option.map · (g.node? node)) (funext halias)
    · rfl
  declared m hm := by
    obtain ⟨other, hother⟩ := List.mem_iff_getElem?.1 hm
    have hnode : (g.modify id f).node? other = some m := hother
    rw [JoinGraph.node?_modify] at hnode
    split at hnode
    · obtain ⟨n, hn, rfl⟩ := Option.map_eq_some_iff.1 hnode
      exact halias n ▸ h.declared n (List.mem_of_getElem? hn)
    · exact h.declared m (List.mem_of_getElem? hnode)

theorem insertSelect (h : t.Names g) (aliasName : String) (expr : ε) :
    (t.insertSelect aliasName expr).Names g where
  grown := h.grown
  sorted := h.sorted.insert _ _
  own e he := by
    rcases AliasTable.mem_insertEntry he with rfl | he
    · rfl
    · exact h.own e he
  nodes key a node implicit he := by
    rcases AliasTable.mem_insertEntry he with heq | he
    · cases heq
    · exact h.nodes key a node implicit he
  declared n hn := (AliasTable.mem_keys_insert _ _ _ _).2 (.inr (h.declared n hn))

theorem renumbered (h : t.Names g) (f : Renumbering → ε → ε) :
    (t.rebind f (g.numbering 0)).Names (g.renumbered f) := by
  have wf := h.grown.wellFormed
  have hkeys : (t.rebind f (g.numbering 0)).entries.map Prod.fst = t.entries.map Prod.fst := by
    rw [AliasTable.rebind, List.map_map]
    rfl
  refine ⟨h.grown.renumbered f, ?_, fun e he => ?_, fun key a node implicit he => ?_,
    fun n hn => ?_⟩
  · rw [AliasTable.Sorted, hkeys]
    exact h.sorted
  · obtain ⟨⟨key, entry⟩, hold, rfl⟩ := List.mem_map.1 he
    have hkey := h.own _ hold
    cases entry <;> exact hkey
  · obtain ⟨⟨key, entry⟩, hold, heq⟩ := List.mem_map.1 he
    cases entry with
    | select => cases heq
    | join a old implicit =>
        cases heq
        rw [wf.node?_renumbered f, ← h.nodes key a old implicit hold, Option.map_map]
        rfl
  · obtain ⟨old, hold, rfl⟩ := List.mem_map.1 hn
    obtain ⟨id, -, hid⟩ := List.mem_filterMap.1 hold
    rw [hkeys]
    exact h.declared old (List.mem_of_getElem? hid)

end AliasTable.Names

end EntityQuery
