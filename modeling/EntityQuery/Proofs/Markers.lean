import Mathlib.Data.List.Basic
import EntityQuery.Query.Parameters

/-!
The mentions of parameters, list by list and clause by clause.
-/

namespace EntityQuery

/-- The condition of a node, if the node exists and has one. -/
def JoinGraph.condition? {ε : Type} (g : JoinGraph ε) (id : NodeId) : Option ε :=
  (g.node? id).bind JoinNode.condition

namespace Expr

theorem markersList_eq (es : List Expr) : markersList es = es.flatMap markers := by
  induction es with
  | nil => rfl
  | cons e rest ih => rw [markersList, ih, List.flatMap_cons]

theorem markersOption_eq (e? : Option Expr) : markersOption e? = e?.toList.flatMap markers := by
  cases e? with
  | none => rfl
  | some e => simp [markersOption]

theorem markersPairs_eq (bs : List (Expr × Expr)) :
    markersPairs bs = bs.flatMap fun b => b.1.markers ++ b.2.markers := by
  induction bs with
  | nil => rfl
  | cons b rest ih => rw [markersPairs, ih, List.flatMap_cons]

end Expr

theorem Query.markersList_eq (qs : List Query) : markersList qs = qs.flatMap markers := by
  induction qs with
  | nil => rfl
  | cons q rest ih => rw [markersList, ih, List.flatMap_cons]

theorem SelectItem.markersList_eq (is : List (SelectItem Expr)) :
    markersList is = is.flatMap fun i => i.expr.markers := by
  induction is with
  | nil => rfl
  | cons i rest ih => rw [markersList, ih, List.flatMap_cons]

theorem OrderItem.markersList_eq (is : List (OrderItem Expr)) :
    markersList is = is.flatMap fun i => i.expr.markers := by
  induction is with
  | nil => rfl
  | cons i rest ih => rw [markersList, ih, List.flatMap_cons]

theorem Cte.markersList_eq (cs : List Cte) :
    markersList cs = cs.flatMap fun c => c.body.markers := by
  induction cs with
  | nil => rfl
  | cons c rest ih =>
      obtain ⟨entity, columns, body, recursive⟩ := c
      rw [markersList, ih, List.flatMap_cons]

theorem JoinNode.getElem?_markersList (nodes : List (JoinNode Expr)) (id : NodeId) :
    (markersList nodes)[id]? = nodes[id]?.map fun n => Expr.markersOption n.condition := by
  induction nodes generalizing id with
  | nil => rfl
  | cons n rest ih =>
      cases id with
      | zero => rfl
      | succ id => exact ih id

theorem selectLists_markersList (g : JoinGraph Expr) (ids : List NodeId) :
    selectLists (JoinNode.markersList g.nodes) ids =
      ids.flatMap fun id => (g.condition? id).toList.flatMap Expr.markers := by
  refine List.flatMap_congr fun id _ => ?_
  rw [JoinNode.getElem?_markersList, JoinGraph.condition?, JoinGraph.node?]
  cases g.nodes[id]? with
  | none => rfl
  | some n => exact Expr.markersOption_eq n.condition

theorem Select.markers_eq (s : Select) :
    s.markers = (s.ctes.flatMap fun c => c.body.markers)
      ++ (s.items.flatMap fun i => i.expr.markers)
      ++ (s.joins.depthFirst.flatMap fun id =>
        (s.joins.condition? id).toList.flatMap Expr.markers)
      ++ s.condition.toList.flatMap Expr.markers ++ s.groupBy.flatMap Expr.markers
      ++ s.having.toList.flatMap Expr.markers ++ s.orderBy.flatMap fun i => i.expr.markers := by
  rw [← Cte.markersList_eq, ← SelectItem.markersList_eq, ← selectLists_markersList,
    ← Expr.markersOption_eq, ← Expr.markersList_eq, ← Expr.markersOption_eq,
    ← OrderItem.markersList_eq]
  obtain ⟨ctes, distinct, items, ⟨nodes, roots⟩, aliases, condition, groupBy, having, orderBy,
    limits⟩ := s
  rfl

theorem SetOperation.markers_eq (c : SetOperation) :
    c.markers = c.start.markers ++ c.operands.flatMap Query.markers
      ++ c.orderBy.flatMap fun i => i.expr.markers := by
  obtain ⟨operator, start, operands, orderBy, limits⟩ := c
  rw [← Query.markersList_eq, ← OrderItem.markersList_eq]
  rfl

theorem Update.markers_eq (u : Update) :
    u.markers = (u.assignments.flatMap fun a => a.1.markers ++ a.2.markers)
      ++ u.condition.toList.flatMap Expr.markers := by
  obtain ⟨target, assignments, condition, returning⟩ := u
  rw [← Expr.markersPairs_eq, ← Expr.markersOption_eq]
  rfl

theorem CollectionDelete.markers_eq (d : CollectionDelete) :
    d.markers = d.condition.toList.flatMap Expr.markers := by
  obtain ⟨target, collection, condition, returning⟩ := d
  rw [← Expr.markersOption_eq]
  rfl

theorem mem_firstMentions {name : String} {names : List String} :
    name ∈ firstMentions names ↔ name ∈ names := by
  induction names with
  | nil => rfl
  | cons first rest ih =>
      rw [firstMentions, List.mem_cons, List.mem_cons, List.mem_filter, ih]
      by_cases h : name = first <;> simp [h]

theorem nodup_firstMentions (names : List String) : (firstMentions names).Nodup := by
  induction names with
  | nil => exact List.nodup_nil
  | cons first rest ih =>
      rw [firstMentions, List.nodup_cons]
      exact ⟨by simp, ih.filter _⟩

/-- Names are listed in the order of their first positions. -/
theorem pairwise_firstMentions (names : List String) :
    (firstMentions names).Pairwise fun a b => names.idxOf a < names.idxOf b := by
  induction names with
  | nil => exact List.Pairwise.nil
  | cons first rest ih =>
      have hlater {name : String} (h : name ∈ (firstMentions rest).filter (· != first)) :
          (first :: rest).idxOf name = rest.idxOf name + 1 := by
        have hne : name ≠ first := by simpa using (List.mem_filter.1 h).2
        exact List.idxOf_cons_ne rest hne.symm
      rw [firstMentions, List.pairwise_cons]
      constructor
      · intro name hname
        rw [hlater hname, List.idxOf_cons_self]
        exact Nat.zero_lt_succ _
      · refine (ih.filter _).imp_of_mem fun {a b} ha hb hab => ?_
        rw [hlater ha, hlater hb]
        exact Nat.succ_lt_succ hab

end EntityQuery
