import EntityQuery.Expr.Traversal
import EntityQuery.Proofs.Joins.Copy
import EntityQuery.Proofs.Render.Equations

/-!
What is written of a level does not depend on the numbers of its join nodes: if the nodes are
numbered anew, and the alias table and the paths are bound to the new numbers, then every path and
the FROM clause read as before, and the same references lead nowhere.
-/

namespace EntityQuery

variable {m : Renumbering} {g g' : JoinGraph Expr}

/-- A graph and the same graph under other numbers. Numbers without a node stay as they are. -/
structure JoinGraph.Renumbers (m : Renumbering) (g g' : JoinGraph Expr) : Prop where
  node? : ∀ id, g'.node? (m.apply id) = (g.node? id).map (JoinNode.rebind Expr.rebind m)
  dangling : ∀ id, g.node? id = none → m.apply id = id
  roots : g'.roots = g.roots.map m.apply
  subtree : ∀ id, g'.subtree (m.apply id) = (g.subtree id).map m.apply
  depthFirst : g'.depthFirst = g.depthFirst.map m.apply

theorem JoinGraph.WellFormed.renumbers (h : g.WellFormed) :
    g.Renumbers (g.numbering 0) (g.renumbered Expr.rebind) where
  node? := h.node?_renumbered Expr.rebind
  dangling id hid := by
    refine h.apply_of_le 0 (Nat.not_lt.1 fun hlt => ?_)
    have hsome := node?_isSome.2 hlt
    simp [hid] at hsome
  roots := rfl
  subtree := h.subtree_renumbered Expr.rebind
  depthFirst := h.depthFirst_renumbered Expr.rebind

theorem JoinGraph.Renumbers.condition? (h : g.Renumbers m g') (id : NodeId) :
    g'.condition? (m.apply id) = (g.condition? id).map (Expr.rebind m) := by
  rw [JoinGraph.condition?, JoinGraph.condition?, h.node?]
  cases g.node? id <;> rfl

/-- The same end of a chain under other numbers. -/
def ChainEnd.rebind (m : Renumbering) : ChainEnd → ChainEnd
  | .path p => .path (p.rebind m)
  | .cycle aliasName => .cycle aliasName

namespace Path

variable (p : Path)

@[simp] theorem text_rebind : (p.rebind m).text = p.text := rfl

@[simp] theorem head_rebind : (p.rebind m).head = p.head := rfl

@[simp] theorem isSingle_rebind : (p.rebind m).isSingle = p.isSingle := rfl

end Path

namespace AliasEntry

variable (entry : AliasEntry Expr)

@[simp] theorem aliasName_rebind : (entry.rebind Expr.rebind m).aliasName = entry.aliasName := by
  cases entry <;> rfl

@[simp] theorem isJoin_rebind : (entry.rebind Expr.rebind m).isJoin = entry.isJoin := by
  cases entry <;> rfl

end AliasEntry

namespace AliasTable

variable (t : AliasTable Expr)

theorem find?_rebind (aliasName : String) :
    (t.rebind Expr.rebind m).find? aliasName =
      (t.find? aliasName).map (AliasEntry.rebind Expr.rebind m) := by
  rw [find?, find?, rebind]
  induction t.entries with
  | nil => rfl
  | cons entry rest ih =>
      rw [List.map_cons, List.lookup_cons, List.lookup_cons, ih]
      cases aliasName == entry.1 <;> rfl

theorem joinAliases_rebind : (t.rebind Expr.rebind m).joinAliases = t.joinAliases := by
  simp [joinAliases, values, rebind, List.filter_map, Function.comp_def]

theorem replacement?_rebind (p : Path) :
    (t.rebind Expr.rebind m).replacement? (p.rebind m) =
      (t.replacement? p).map (Path.rebind m) := by
  have hbase : (p.rebind m).base.isNone = p.base.isNone := Option.isNone_map
  rw [replacement?, replacement?, hbase, Path.isSingle_rebind, Path.head_rebind, find?_rebind]
  cases p.base.isNone && p.isSingle with
  | false => rfl
  | true =>
      cases t.find? p.head with
      | none => rfl
      | some entry =>
          cases entry with
          | join aliasName node implicit => rfl
          | select aliasName expr => cases expr <;> rfl

theorem followChain_rebind (steps : Nat) (passed : List String) (p : Path) :
    (t.rebind Expr.rebind m).followChain steps passed (p.rebind m) =
      (t.followChain steps passed p).rebind m := by
  induction steps generalizing passed p with
  | zero => rfl
  | succ steps ih =>
      rw [followChain, followChain, replacement?_rebind, Path.head_rebind]
      cases t.replacement? p with
      | none => rfl
      | some target =>
          cases hpassed : passed.contains p.head with
          | true => simp [ChainEnd.rebind]
          | false => simpa [hpassed] using ih (p.head :: passed) target

theorem chainEnd_rebind (p : Path) :
    (t.rebind Expr.rebind m).chainEnd (p.rebind m) = (t.chainEnd p).rebind m := by
  have hlength : (t.rebind Expr.rebind m).entries.length = t.entries.length :=
    List.length_map _
  rw [chainEnd, chainEnd, hlength, followChain_rebind]

end AliasTable

namespace Level

variable (h : g.Renumbers m g') (ctx : RenderContext) (t : AliasTable Expr)

theorem isMapValue_renumbers (h : g.Renumbers m g') (id : NodeId) :
    g'.isMapValue (m.apply id) = g.isMapValue id := by
  rw [JoinGraph.isMapValue, JoinGraph.isMapValue, h.node?]
  cases g.node? id <;> rfl

include h

theorem nodeTokens_rebind (node : NodeId) (field : Option String) (p : Path) :
    nodeTokens ⟨ctx, t.rebind Expr.rebind m, g'⟩ (m.apply node) field (p.rebind m) =
      nodeTokens ⟨ctx, t, g⟩ node field p := by
  cases hnode : g.node? node with
  | none =>
      have hnew : g'.node? (m.apply node) = none := by rw [h.node?, hnode, Option.map_none]
      simp only [nodeTokens, hnew, hnode, Path.text_rebind]
      rw [h.dangling node hnode]
  | some n =>
      simp only [nodeTokens, h.node?, hnode, isMapValue_renumbers h]
      rfl

theorem resolvedTokens_rebind (p : Path) :
    resolvedTokens ⟨ctx, t.rebind Expr.rebind m, g'⟩ (p.rebind m) =
      resolvedTokens ⟨ctx, t, g⟩ p := by
  cases hbase : p.base with
  | some node =>
      simpa [resolvedTokens, hbase, Path.rebind] using nodeTokens_rebind h ctx t node p.field p
  | none =>
      have hnew : (p.rebind m).base = none := by rw [Path.rebind, hbase, Option.map_none]
      simp only [resolvedTokens, hbase, hnew, Path.head_rebind, AliasTable.find?_rebind]
      cases t.find? p.head with
      | none => rfl
      | some entry =>
          cases entry with
          | join aliasName node implicit => exact nodeTokens_rebind h ctx t node p.tail? p
          | select aliasName expr => rfl

theorem pathTokens_rebind (p : Path) :
    pathTokens ⟨ctx, t.rebind Expr.rebind m, g'⟩ (p.rebind m) = pathTokens ⟨ctx, t, g⟩ p := by
  simp only [pathTokens, AliasTable.chainEnd_rebind]
  cases ctx.options.inlineAliases with
  | false => exact resolvedTokens_rebind h ctx t p
  | true =>
      cases t.chainEnd p with
      | path target => exact resolvedTokens_rebind h ctx t target
      | cycle aliasName => rfl

theorem rootTokens_rebind (id : NodeId) :
    rootTokens ⟨ctx, t.rebind Expr.rebind m, g'⟩ (m.apply id) = rootTokens ⟨ctx, t, g⟩ id := by
  cases hid : g.node? id with
  | none =>
      have hnew : g'.node? (m.apply id) = none := by rw [h.node?, hid, Option.map_none]
      simp only [rootTokens, JoinGraph.require, hnew, hid]
      rw [h.dangling id hid]
      rfl
  | some n =>
      simp only [rootTokens, JoinGraph.require, h.node?, hid, Option.map_some]
      rfl

theorem joinedTokens_rebind (n : JoinNode Expr) :
    joinedTokens ⟨ctx, t.rebind Expr.rebind m, g'⟩ (n.rebind Expr.rebind m) =
      joinedTokens ⟨ctx, t, g⟩ n := by
  cases hsource : n.source with
  | ofAttribute name relation =>
      have hparent : (n.rebind Expr.rebind m).parent.bind g'.node? =
          (n.parent.bind g.node?).map (JoinNode.rebind Expr.rebind m) := by
        cases hp : n.parent with
        | none => simp [JoinNode.rebind, JoinNode.rehang, hp]
        | some parent => simp [JoinNode.rebind, JoinNode.rehang, hp, h.node?]
      simp only [joinedTokens, JoinNode.rebind, JoinNode.rehang, hsource] at hparent ⊢
      rw [hparent]
      cases n.parent.bind g.node? <;> rfl
  | _ => simp only [joinedTokens, JoinNode.rebind, JoinNode.rehang, hsource]

theorem joinTokens_rebind (id : NodeId) (condition : Option (Except QueryError (List Token))) :
    joinTokens ⟨ctx, t.rebind Expr.rebind m, g'⟩ (m.apply id) condition =
      joinTokens ⟨ctx, t, g⟩ id condition := by
  cases hid : g.node? id with
  | none =>
      have hnew : g'.node? (m.apply id) = none := by rw [h.node?, hid, Option.map_none]
      simp only [joinTokens_eq, JoinGraph.require, hnew, hid]
      rw [h.dangling id hid]
      rfl
  | some n =>
      have hnew : g'.node? (m.apply id) = some (n.rebind Expr.rebind m) := by
        rw [h.node?, hid, Option.map_some]
      have hcross : crossJoinTokens ⟨ctx, t.rebind Expr.rebind m, g'⟩ (n.rebind Expr.rebind m) =
          crossJoinTokens ⟨ctx, t, g⟩ n := by
        simp only [crossJoinTokens, JoinNode.rebind, JoinNode.rehang, Option.isSome_map]
        rfl
      have hkeyword (type : JoinType) :
          keywordJoinTokens ⟨ctx, t.rebind Expr.rebind m, g'⟩ (n.rebind Expr.rebind m) type
            condition = keywordJoinTokens ⟨ctx, t, g⟩ n type condition := by
        rw [keywordJoinTokens, keywordJoinTokens, joinedTokens_rebind h ctx t n]
        rfl
      rw [joinTokens_eq, joinTokens_eq, JoinGraph.require, JoinGraph.require, hnew, hid]
      change (if n.type.getD .inner = .cross then _ else _) = _
      rw [hcross, hkeyword]
      rfl

variable {conditions conditions' : List (Option (Except QueryError (List Token)))}
variable (hc : ∀ id : NodeId, conditions'[m.apply id]?.join = conditions[id]?.join)
include hc

theorem joinListTokens_rebind (ids : List NodeId) :
    joinListTokens ⟨ctx, t.rebind Expr.rebind m, g'⟩ conditions' (ids.map m.apply) =
      joinListTokens ⟨ctx, t, g⟩ conditions ids := by
  induction ids with
  | nil => rfl
  | cons id rest ih =>
      rw [List.map_cons, joinListTokens, joinListTokens, joinTokens_rebind h, hc, ih]

theorem fromTokens_rebind :
    fromTokens ⟨ctx, t.rebind Expr.rebind m, g'⟩ conditions' =
      fromTokens ⟨ctx, t, g⟩ conditions := by
  have hentry (root : NodeId) :
      entryTokens ⟨ctx, t.rebind Expr.rebind m, g'⟩ conditions' (m.apply root) =
        entryTokens ⟨ctx, t, g⟩ conditions root := by
    simp only [entryTokens, h.subtree]
    cases g.subtree root with
    | nil => rfl
    | cons first below =>
        simp only [List.map_cons, rootTokens_rebind h, joinListTokens_rebind h ctx t hc]
  simp only [fromTokens, h.roots, List.mapM_map, Function.comp_def, hentry]

omit hc in
theorem rootListTokens_rebind :
    rootListTokens ⟨ctx, t.rebind Expr.rebind m, g'⟩ = rootListTokens ⟨ctx, t, g⟩ := by
  rw [rootListTokens, rootListTokens, h.roots, List.map_map]
  congr 1
  apply List.map_congr_left
  intro root _
  simp only [Function.comp_apply, h.node?]
  cases g.node? root <;> rfl

end Level

end EntityQuery
