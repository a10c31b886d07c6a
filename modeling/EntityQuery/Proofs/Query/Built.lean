import EntityQuery.Proofs.Aliases.Table
import EntityQuery.Proofs.Outcome
import EntityQuery.Query.Build

/-!
Query levels as the builder makes them. Whatever calls are made, and in whatever order, the alias
table keeps every entry under its own alias, its entries name nodes and selected items with their
aliases, and no node is without an entry under its alias.
-/

namespace EntityQuery

namespace Select

/-- The query levels that the calls of the builder lead to. A call that fails leaves the level as
it is. -/
inductive Built : Select → Prop
  | empty : Built {}
  | addRoot {s} (h : Built s) (entity aliasName : String) : Built (s.addRoot entity aliasName)
  | correlate {s} (h : Built s) (path aliasName : String) : Built (s.correlate path aliasName)
  | join {s s' node} (h : Built s) (path aliasName : String) (relation : Relation) (type : JoinType)
      (hok : s.join path aliasName relation type = .ok (node, s')) : Built s'
  | joinFetch {s s' node} (h : Built s) (path aliasName : String) (relation : Relation)
      (hok : s.joinFetch path aliasName relation = .ok (node, s')) : Built s'
  | joinEntity {s s' node} (h : Built s) (parent entity aliasName : String) (type : JoinType)
      (condition : Expr)
      (hok : s.joinEntity parent entity aliasName type condition = .ok (node, s')) : Built s'
  | crossJoin {s s' node} (h : Built s) (parent entity aliasName : String)
      (hok : s.crossJoin parent entity aliasName = .ok (node, s')) : Built s'
  | on {s s'} (h : Built s) (node : NodeId) (condition : Expr)
      (hok : s.on node condition = .ok s') : Built s'
  | select {s} (h : Built s) (expr : Expr) (aliasName : Option String) :
      Built (s.select expr aliasName)
  | distinct {s} (h : Built s) : Built { s with distinct := true }
  | filter {s} (h : Built s) (condition : Expr) : Built (s.filter condition)
  | group {s} (h : Built s) (exprs : List Expr) : Built (s.group exprs)
  | filterGroups {s} (h : Built s) (condition : Expr) : Built (s.filterGroups condition)
  | order {s} (h : Built s) (items : List (OrderItem Expr)) : Built (s.order items)
  | take {s} (h : Built s) (n : UInt64) : Built (s.take n)
  | drop {s} (h : Built s) (n : UInt64) : Built (s.drop n)
  | withCte {s} (h : Built s) (cte : Cte) : Built (s.withCte cte)

/-- The aliases that a level declares, node by node. -/
def nodeAliases (s : Select) : List String := s.joins.nodes.map JoinNode.aliasName

/-- The joins, the selected items and the alias table of a level fit each other. -/
structure Consistent (s : Select) : Prop where
  sorted : s.aliases.Sorted
  /-- Every entry stands under its own alias. -/
  own : ∀ e ∈ s.aliases.entries, e.1 = e.2.aliasName
  /-- Join entries name nodes that have their aliases. -/
  joins : ∀ key a node implicit, (key, .join a node implicit) ∈ s.aliases.entries →
    s.nodeAliases[node]? = some a
  /-- Select entries name items that have their aliases. -/
  selected : ∀ key a e, (key, .select a e) ∈ s.aliases.entries → ⟨e, some a⟩ ∈ s.items
  /-- The alias of every node names something. -/
  declared : ∀ a ∈ s.nodeAliases, a ∈ s.aliases.entries.map Prod.fst

variable {s s' : Select}

theorem consistent_empty : Consistent {} where
  sorted := .nil
  own := by simp
  joins := by simp
  selected := by simp
  declared := by simp [nodeAliases]

/-- Only the aliases and the selected items have a part in it. -/
theorem Consistent.congr (h : s.Consistent) (hjoins : s'.nodeAliases = s.nodeAliases)
    (haliases : s'.aliases = s.aliases) (hitems : s'.items = s.items) : s'.Consistent where
  sorted := haliases ▸ h.sorted
  own := haliases ▸ h.own
  joins := by
    rw [haliases, hjoins]
    exact h.joins
  selected := by
    rw [haliases, hitems]
    exact h.selected
  declared := by
    rw [haliases, hjoins]
    exact h.declared

theorem nodeAliases_push (s : Select) (n : JoinNode Expr) :
    nodeAliases { s with joins := s.joins.push n } = s.nodeAliases ++ [n.aliasName] := by
  simp [nodeAliases, JoinGraph.push]

/-- A new node with an entry for its alias. -/
theorem Consistent.push (h : s.Consistent) (n : JoinNode Expr) :
    Consistent { s with
      joins := s.joins.push n
      aliases := s.aliases.insertJoin n.aliasName s.joins.size false } where
  sorted := h.sorted.insert _ _
  own e he := by
    rcases AliasTable.mem_insertEntry he with rfl | he
    · rfl
    · exact h.own e he
  joins key a node implicit he := by
    have hsize : s.joins.size = s.nodeAliases.length := by simp [JoinGraph.size, nodeAliases]
    refine (congrArg (·[node]?) (nodeAliases_push s n)).trans ?_
    rcases AliasTable.mem_insertEntry he with heq | he
    · cases heq
      rw [hsize]
      exact List.getElem?_concat_length
    · have hnode := h.joins key a node implicit he
      exact (List.getElem?_append_left (List.getElem?_eq_some_iff.1 hnode).1).trans hnode
  selected key a e he := by
    rcases AliasTable.mem_insertEntry he with heq | he
    · cases heq
    · exact h.selected key a e he
  declared a ha := by
    refine (AliasTable.mem_keys_insert _ _ _ _).2 ?_
    rcases List.mem_append.1 ((nodeAliases_push s n) ▸ ha) with ha | ha
    · exact .inr (h.declared a ha)
    · exact .inl (List.mem_singleton.1 ha)

theorem nodeAliases_modify (s : Select) (id : NodeId) {f : JoinNode Expr → JoinNode Expr}
    (hf : ∀ n, (f n).aliasName = n.aliasName) :
    nodeAliases { s with joins := s.joins.modify id f } = s.nodeAliases := by
  refine List.ext_getElem? fun i => ?_
  simp only [nodeAliases, JoinGraph.modify, List.getElem?_map, List.getElem?_modify]
  cases s.joins.nodes[i]? with
  | none => rfl
  | some n =>
      by_cases hi : id = i <;> simp [hi, hf]

theorem Consistent.select (h : s.Consistent) (expr : Expr) (aliasName : Option String) :
    (s.select expr aliasName).Consistent := by
  have hitem {i : SelectItem Expr} (hi : i ∈ s.items) : i ∈ (s.select expr aliasName).items :=
    List.mem_append_left _ hi
  cases aliasName with
  | none =>
      exact { h with selected := fun key a e he => hitem (h.selected key a e he) }
  | some name =>
      refine ⟨h.sorted.insert _ _, fun e he => ?_, fun key a node implicit he => ?_,
        fun key a e he => ?_, fun a ha => ?_⟩
      · rcases AliasTable.mem_insertEntry he with rfl | he
        · rfl
        · exact h.own e he
      · rcases AliasTable.mem_insertEntry he with heq | he
        · cases heq
        · exact h.joins key a node implicit he
      · rcases AliasTable.mem_insertEntry he with heq | he
        · cases heq
          exact List.mem_append_right _ List.mem_cons_self
        · exact hitem (h.selected key a e he)
      · exact (AliasTable.mem_keys_insert _ _ _ _).2 (.inr (h.declared a ha))

/-- Joining adds a node under its alias. -/
theorem Consistent.pushUnder (h : s.Consistent) {parent : NodeId} {n : JoinNode Expr}
    {added : NodeId × JoinGraph Expr} (hok : s.joins.pushUnder parent n = .ok added) :
    (s.named n.aliasName added).2.Consistent := by
  rw [JoinGraph.pushUnder] at hok
  simp only [bind_eq_ok, pure_eq_ok] at hok
  obtain ⟨_, -, rfl⟩ := hok
  exact h.push { n with parent := some parent }

theorem Consistent.join (h : s.Consistent) {path aliasName : String} {relation : Relation}
    {type : JoinType} {node : NodeId} (hok : s.join path aliasName relation type = .ok (node, s')) :
    s'.Consistent := by
  rw [Select.join] at hok
  cases hattr : Dotted.rest? path with
  | none =>
      rw [hattr] at hok
      cases hok
  | some attr =>
      rw [hattr] at hok
      simp only [bind_eq_ok, pure_eq_ok] at hok
      obtain ⟨_, -, parent, -, added, hadded, heq⟩ := hok
      have hs : (s.named aliasName added).2 = s' := congrArg Prod.snd heq
      exact hs ▸ h.pushUnder hadded

/-- Whatever the builder has been told to do, aliases fit what they name. -/
theorem Built.consistent (h : s.Built) : s.Consistent := by
  induction h with
  | empty => exact consistent_empty
  | addRoot _ entity aliasName ih => exact ih.push { aliasName := aliasName, source := .root entity }
  | correlate _ path aliasName ih =>
      exact ih.push { aliasName := aliasName, source := .correlated path }
  | join _ _ _ _ _ hok ih => exact ih.join hok
  | joinFetch _ path aliasName relation hok ih =>
      rw [Select.joinFetch] at hok
      simp only [bind_eq_ok, pure_eq_ok] at hok
      obtain ⟨⟨node, joined⟩, hjoined, heq⟩ := hok
      cases heq
      exact (ih.join hjoined).congr (nodeAliases_modify joined node fun _ => rfl) rfl rfl
  | @joinEntity s s' _ _ parent entity aliasName type condition hok ih =>
      rw [Select.joinEntity] at hok
      simp only [bind_eq_ok, pure_eq_ok] at hok
      obtain ⟨_, -, added, hadded, heq⟩ := hok
      have hs : (s.named aliasName added).2 = s' := congrArg Prod.snd heq
      exact hs ▸ ih.pushUnder hadded
  | @crossJoin s s' _ _ parent entity aliasName hok ih =>
      rw [Select.crossJoin] at hok
      simp only [bind_eq_ok, pure_eq_ok] at hok
      obtain ⟨_, -, added, hadded, heq⟩ := hok
      have hs : (s.named aliasName added).2 = s' := congrArg Prod.snd heq
      exact hs ▸ ih.pushUnder hadded
  | on _ node condition hok ih =>
      rw [Select.on] at hok
      simp only [bind_eq_ok, pure_eq_ok] at hok
      obtain ⟨_, -, rfl⟩ := hok
      exact ih.congr (nodeAliases_modify _ node fun _ => rfl) rfl rfl
  | select _ expr aliasName ih => exact ih.select expr aliasName
  | distinct _ ih | filter _ _ ih | group _ _ ih | filterGroups _ _ ih | order _ _ ih | take _ _ ih
  | drop _ _ ih | withCte _ _ ih => exact ih.congr rfl rfl rfl

/-- Unless a selected item takes the alias of a node, the table has the aliases of all nodes. -/
theorem Consistent.mem_joinAliases_iff (h : s.Consistent)
    (hitems : ∀ i ∈ s.items, ∀ a ∈ i.aliasName, a ∉ s.nodeAliases) {a : String} :
    a ∈ s.aliases.joinAliases ↔ a ∈ s.nodeAliases := by
  rw [AliasTable.mem_joinAliases]
  constructor
  · rintro ⟨key, node, implicit, hentry⟩
    exact List.mem_of_getElem? (h.joins key a node implicit hentry)
  · intro ha
    obtain ⟨⟨key, entry⟩, hentry, rfl⟩ := List.mem_map.1 (h.declared a ha)
    have hkey : key = entry.aliasName := h.own _ hentry
    cases entry with
    | join name node implicit =>
        cases hkey
        exact ⟨_, node, implicit, hentry⟩
    | select name e =>
        cases hkey
        exact absurd ha (hitems _ (h.selected _ _ _ hentry) _ rfl)

end Select

end EntityQuery
