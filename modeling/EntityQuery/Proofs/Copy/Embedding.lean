import EntityQuery.Proofs.Copy.Statement

/-!
Copying a graph behind another one embeds it. The nodes that were there stay as they are, each node
of the copied graph gets one new node, and what points at nodes of the copied graph, be it a parent,
a root or a path of a condition, points at the new ones. Numbers of the two graphs may coincide: no
number is replaced twice.
-/

namespace EntityQuery.JoinGraph

open scoped List

/-- How a copy of `g` lies behind the nodes of `target`, and which of the nodes stands for which
node of `g`. -/
structure Embeds (g target copied : JoinGraph Expr) (numbers : Renumbering) : Prop where
  nodes : target.nodes <+: copied.nodes
  size : copied.size = target.size + g.size
  roots : copied.roots.map some = target.roots.map some ++ g.roots.map numbers.find?
  /-- The new nodes stand for those of `g`, in the order of its FROM clause. -/
  order : g.depthFirst.map numbers.find? = (List.range' target.size g.size).map some
  known : ∀ id, (numbers.find? id).isSome ↔ id < g.size
  injective : ∀ a b new, numbers.find? a = some new → numbers.find? b = some new → a = b
  parents : ∀ n ∈ g.nodes, ∀ parent ∈ n.parent, (numbers.find? parent).isSome
  copies : ∀ id n new, g.node? id = some n → numbers.find? id = some new →
    copied.node? new = some { n with
      parent := n.parent.bind numbers.find?
      condition := n.condition.map (Expr.rebind numbers) }
  /-- Each path of a condition is bound once, to the new number if its node has one. -/
  paths : ∀ n ∈ g.nodes, ∀ e ∈ n.condition, (e.rebind numbers).paths =
    e.paths.map fun p => { p with base := p.base.map fun id => (numbers.find? id).getD id }

variable {g : JoinGraph Expr}

namespace WellFormed

variable (h : g.WellFormed)
include h

theorem find?_eq_apply (start : Nat) {id : NodeId} (hid : id < g.size) :
    (g.numbering start).find? id = some ((g.numbering start).apply id) := by
  rw [h.find?_of_lt start hid, h.apply_of_lt start hid]

theorem map_find? (start : Nat) {ids : List NodeId} (hids : ∀ id ∈ ids, id < g.size) :
    ids.map (g.numbering start).find? = (ids.map (g.numbering start).apply).map some := by
  rw [List.map_map]
  exact List.map_congr_left fun id hid => h.find?_eq_apply start (hids id hid)

theorem find?_isSome (start : Nat) {id : NodeId} :
    ((g.numbering start).find? id).isSome ↔ id < g.size := by
  rcases Nat.lt_or_ge id g.size with hid | hid
  · simp [h.find?_eq_apply start hid, hid]
  · simp [h.find?_of_le start hid, Nat.not_lt.2 hid]

theorem lt_of_find? (start : Nat) {id new : NodeId} (hnew : (g.numbering start).find? id = some new) :
    id < g.size :=
  (h.find?_isSome start).1 (by rw [hnew, Option.isSome_some])

theorem embeds_extended (target : JoinGraph Expr) :
    g.Embeds target (target.extended Expr.rebind g) (g.numbering target.size) where
  nodes := List.prefix_append _ _
  size := h.size_extended Expr.rebind
  roots := by rw [JoinGraph.extended, List.map_append, h.map_find? target.size h.roots]
  order := by
    rw [h.map_find? target.size fun _ => h.mem_depthFirst.1, h.map_apply_depthFirst]
  known _ := h.find?_isSome target.size
  injective a b new ha hb := by
    have hlta := h.lt_of_find? target.size ha
    have hltb := h.lt_of_find? target.size hb
    rw [← hb, h.find?_eq_apply target.size hlta, h.find?_eq_apply target.size hltb,
      Option.some.injEq] at ha
    exact (h.apply_inj target.size hlta hltb).1 ha
  parents n hn parent hparent := (h.find?_isSome target.size).2 (h.parents n hn parent hparent)
  copies id n new hn hnew := by
    have hid := h.lt_of_find? target.size hnew
    rw [h.find?_eq_apply target.size hid, Option.some.injEq] at hnew
    have hparent : n.parent.map (g.numbering target.size).apply =
        n.parent.bind (g.numbering target.size).find? := by
      cases hp : n.parent with
      | none => rfl
      | some parent =>
          have hlt := h.parents n (List.mem_of_getElem? hn) parent hp
          rw [Option.map_some, Option.bind_some, h.find?_eq_apply target.size hlt]
    rw [← hnew, h.node?_extended Expr.rebind hid, hn, Option.map_some, JoinNode.rebind,
      JoinNode.rehang, hparent]
  paths _ _ e _ := e.paths_rebind

/-- A well-formed graph can be copied behind any other one, and is embedded there. If the other
one was well formed, the result is. -/
theorem copyInto_embeds (target : JoinGraph Expr) :
    ∃ copied numbers, g.copyInto Expr.rebind target = .ok (copied, numbers) ∧
      g.Embeds target copied numbers ∧ (target.WellFormed → copied.WellFormed) :=
  ⟨target.extended Expr.rebind g, g.numbering target.size, h.copyInto_eq Expr.rebind target,
    h.embeds_extended target, h.extended Expr.rebind⟩

end WellFormed

/-- Two roots, so that the first two numbers are taken. -/
def notes : JoinGraph Expr where
  nodes := [{ aliasName := "x", source := .root "Note" }, { aliasName := "y", source := .root "Note" }]
  roots := [0, 1]

theorem copyInto_embeds_interleaved :
    Select.interleaved.joins.WellFormed ∧ notes.WellFormed ∧
      ∃ copied numbers, Select.interleaved.joins.copyInto Expr.rebind notes = .ok (copied, numbers) ∧
        Select.interleaved.joins.Embeds notes copied numbers ∧ copied.WellFormed ∧
        copied.roots = [0, 1, 2, 5] := by
  have wf : Select.interleaved.joins.WellFormed := ⟨by decide, by decide, by decide⟩
  have hnotes : notes.WellFormed := ⟨by decide, by decide, by decide⟩
  obtain ⟨copied, numbers, hcopy, hembeds, hformed⟩ := wf.copyInto_embeds notes
  refine ⟨wf, hnotes, copied, numbers, hcopy, hembeds, hformed hnotes, ?_⟩
  cases hcopy
  decide

end EntityQuery.JoinGraph
