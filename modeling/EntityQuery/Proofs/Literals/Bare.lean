import EntityQuery.Proofs.Aliases.Table
import EntityQuery.Proofs.Copy.Expression
import EntityQuery.Proofs.Joins.Order
import EntityQuery.Proofs.Outcome

/-!
What is written on a level does not depend on the conditions of its joins, which are handed over
apart, nor on the expressions that aliases name, unless these are paths. So it is the same with bare
names: with all of that left out.
-/

namespace EntityQuery

/-- An entry without its expression, unless that is a path. -/
def AliasEntry.bare : AliasEntry Expr → AliasEntry Expr
  | .select a (.path p) => .select a (.path p)
  | .select a _ => .select a .null
  | entry => entry

def AliasTable.bare (t : AliasTable Expr) : AliasTable Expr :=
  ⟨t.entries.map fun entry => (entry.1, entry.2.bare)⟩

/-- A node with a condition only if it has one. -/
def JoinNode.bare (n : JoinNode Expr) : JoinNode Expr :=
  { n with condition := n.condition.map fun _ => .null }

def JoinGraph.bare (g : JoinGraph Expr) : JoinGraph Expr :=
  { g with nodes := g.nodes.map JoinNode.bare }

/-- A level with its names and without the expressions behind them. -/
def Level.bare (l : Level) : Level := ⟨l.context, l.aliases.bare, l.joins.bare⟩

namespace AliasTable

variable (t : AliasTable Expr)

theorem find?_bare (a : String) : t.bare.find? a = (t.find? a).map AliasEntry.bare :=
  find?_map _ t a

theorem joinAliases_bare : t.bare.joinAliases = t.joinAliases := by
  have hjoin (entry : AliasEntry Expr) : entry.bare.isJoin = entry.isJoin := by
    cases entry with
    | join => rfl
    | select a e => cases e <;> rfl
  have hname (entry : AliasEntry Expr) : entry.bare.aliasName = entry.aliasName := by
    cases entry with
    | join => rfl
    | select a e => cases e <;> rfl
  simp [joinAliases, values, bare, List.filter_map, Function.comp_def, hjoin, hname]

theorem replacement?_bare : t.bare.replacement? = t.replacement? := by
  funext p
  rw [replacement?, replacement?, find?_bare]
  split
  · cases t.find? p.head with
    | none => rfl
    | some entry =>
        cases entry with
        | join => rfl
        | select a e => cases e <;> rfl
  · rfl

theorem chainEnd_bare (p : Path) : t.bare.chainEnd p = t.chainEnd p := by
  have hchain (steps : Nat) (passed : List String) (p : Path) :
      t.bare.followChain steps passed p = t.followChain steps passed p := by
    induction steps generalizing passed p with
    | zero => rfl
    | succ steps ih => simp only [followChain, replacement?_bare, ih]
  have hlength : t.bare.entries.length = t.entries.length := List.length_map _
  rw [chainEnd, chainEnd, hlength, hchain]

end AliasTable

namespace JoinGraph

variable (g : JoinGraph Expr)

theorem node?_bare (id : NodeId) : g.bare.node? id = (g.node? id).map JoinNode.bare :=
  List.getElem?_map

theorem subtree_bare (id : NodeId) : g.bare.subtree id = g.subtree id := by
  refine subtree_congr ?_ id
  rw [bare, List.map_map]
  rfl

theorem isMapValue_bare (id : NodeId) : g.bare.isMapValue id = g.isMapValue id := by
  rw [isMapValue, isMapValue, node?_bare]
  cases g.node? id <;> rfl

end JoinGraph

namespace Level

variable (l : Level)

theorem nodeTokens_bare (node : NodeId) (field : Option String) (p : Path) :
    l.bare.nodeTokens node field p = l.nodeTokens node field p := by
  simp only [nodeTokens, bare, JoinGraph.node?_bare, JoinGraph.isMapValue_bare]
  cases l.joins.node? node <;> rfl

theorem resolvedTokens_bare (p : Path) : l.bare.resolvedTokens p = l.resolvedTokens p := by
  have hfind : l.bare.aliases.find? p.head = (l.aliases.find? p.head).map AliasEntry.bare :=
    l.aliases.find?_bare p.head
  rw [resolvedTokens, resolvedTokens, hfind]
  cases p.base with
  | some node => exact l.nodeTokens_bare node p.field p
  | none =>
      cases l.aliases.find? p.head with
      | none => rfl
      | some entry =>
          cases entry with
          | join a node implicit => exact l.nodeTokens_bare node p.tail? p
          | select a e => cases e <;> rfl

theorem pathTokens_bare (p : Path) : l.bare.pathTokens p = l.pathTokens p := by
  have hend : l.bare.aliases.chainEnd p = l.aliases.chainEnd p := l.aliases.chainEnd_bare p
  simp only [pathTokens, hend, resolvedTokens_bare]
  rfl

theorem require_bare (id : NodeId) :
    l.bare.joins.require id = JoinNode.bare <$> l.joins.require id := by
  have hnode : l.bare.joins.node? id = (l.joins.node? id).map JoinNode.bare := l.joins.node?_bare id
  rw [JoinGraph.require, JoinGraph.require, hnode]
  cases l.joins.node? id <;> rfl

theorem rootTokens_bare (id : NodeId) : l.bare.rootTokens id = l.rootTokens id := by
  rw [rootTokens, rootTokens, require_bare]
  cases l.joins.require id <;> rfl

theorem joinedTokens_bare (n : JoinNode Expr) : l.bare.joinedTokens n.bare = l.joinedTokens n := by
  cases hsource : n.source with
  | ofAttribute attr relation =>
      have hparent : n.parent.bind l.bare.joins.node? =
          (n.parent.bind l.joins.node?).map JoinNode.bare := by
        cases n.parent with
        | none => rfl
        | some parent => exact l.joins.node?_bare parent
      simp only [joinedTokens, JoinNode.bare, hsource, hparent]
      cases n.parent.bind l.joins.node? <;> rfl
  | _ => simp only [joinedTokens, JoinNode.bare, hsource]

theorem crossJoinTokens_bare (n : JoinNode Expr) :
    l.bare.crossJoinTokens n.bare = l.crossJoinTokens n := by
  simp only [crossJoinTokens, JoinNode.bare, Option.isSome_map]
  rfl

theorem keywordJoinTokens_bare (n : JoinNode Expr) (type : JoinType)
    (condition : Option (Except QueryError (List Token))) :
    l.bare.keywordJoinTokens n.bare type condition = l.keywordJoinTokens n type condition := by
  rw [keywordJoinTokens, keywordJoinTokens, joinedTokens_bare]
  rfl

theorem joinTokens_bare (id : NodeId) (condition : Option (Except QueryError (List Token))) :
    l.bare.joinTokens id condition = l.joinTokens id condition := by
  rw [joinTokens_eq, joinTokens_eq, require_bare]
  cases l.joins.require id with
  | error e => rfl
  | ok n =>
      change (if n.type.getD .inner = .cross then _ else _) = (if _ then _ else _)
      rw [crossJoinTokens_bare, keywordJoinTokens_bare]
      rfl

theorem joinListTokens_bare (conditions : List (Option (Except QueryError (List Token))))
    (ids : List NodeId) :
    l.bare.joinListTokens conditions ids = l.joinListTokens conditions ids := by
  induction ids with
  | nil => rfl
  | cons id rest ih => rw [joinListTokens, joinListTokens, joinTokens_bare, ih]

theorem fromTokens_bare (conditions : List (Option (Except QueryError (List Token)))) :
    l.bare.fromTokens conditions = l.fromTokens conditions := by
  have hentry : l.bare.entryTokens conditions = l.entryTokens conditions := by
    funext root
    have hsubtree : l.bare.joins.subtree root = l.joins.subtree root := l.joins.subtree_bare root
    simp only [entryTokens, hsubtree, rootTokens_bare, joinListTokens_bare]
  rw [fromTokens, fromTokens, hentry]
  rfl

theorem rootListTokens_bare : l.bare.rootListTokens = l.rootListTokens := by
  rw [rootListTokens, rootListTokens]
  congr 1
  refine List.map_congr_left fun root _ => ?_
  have hnode : l.bare.joins.node? root = (l.joins.node? root).map JoinNode.bare :=
    l.joins.node?_bare root
  rw [hnode]
  cases l.joins.node? root <;> rfl

end Level

/-- What is written of the parts of an expression is written of the whole. Subqueries see the join
aliases of the level around them, and nothing else of it. -/
theorem Level.hereditary_tokens_bare (l : Level) :
    Hereditary (fun e => ∀ position, e.tokens l.bare position = e.tokens l position)
      (fun _ => True) (fun _ => True) where
  path p position := by
    rw [Expr.tokens, Expr.tokens, pathTokens_bare]
  literal v position := rfl
  parameter p position := by
    rw [Expr.tokens, Expr.tokens]
    rfl
  call f args ih position := by
    have hfirst := Expr.firstTokens_map (f := id) fun e he => ih e he position
    have hrest := Expr.restTokens_map (f := id) fun e he => ih e he .value
    have hlist := Expr.listTokens_map (f := id) fun e he => ih e he .value
    rw [List.map_id] at hfirst hrest hlist
    rw [Expr.tokens, Expr.tokens, hfirst, hrest, hlist]
    rfl
  aggregate f args d ih position := by
    have hlist := Expr.listTokens_map (f := id) fun e he => ih e he .value
    rw [List.map_id] at hlist
    rw [Expr.tokens, Expr.tokens, hlist]
    rfl
  subquery q _ position := by
    have haliases : l.bare.aliases.joinAliases = l.aliases.joinAliases := l.aliases.joinAliases_bare
    rw [Expr.tokens, Expr.tokens, RenderContext.correlated, RenderContext.correlated, haliases]
    rfl
  indexed base index _ position := rfl
  null position := rfl
  caseWhen operand branches otherwise hoperand hbranches hotherwise position := by
    have hfirst := Expr.optionTokens_map (f := id) fun e he => hoperand e he .value
    have hlast := Expr.optionTokens_map (f := id) fun e he => hotherwise e he .value
    have hmiddle (position : Position) := Expr.branchTokens_map (f := id) fun b hb =>
      ⟨(hbranches b hb).1 position, (hbranches b hb).2 .value⟩
    rw [Option.map_id] at hfirst hlast
    simp only [id, Prod.eta, List.map_id'] at hfirst hlast hmiddle
    rw [Expr.tokens, Expr.tokens, hfirst, hlast]
    simp only [hmiddle]
  binary left op right hleft hright position := by
    rw [Expr.tokens, Expr.tokens]
    simp only [hleft, hright]
  not e he position := by
    rw [Expr.tokens, Expr.tokens, he]
  isNull e negated he position := by
    rw [Expr.tokens, Expr.tokens, he]
  like e pattern escape negated he hpattern position := by
    rw [Expr.tokens.eq_def, Expr.tokens.eq_def]
    simp only [he, hpattern]
  oneOf e values negated he hvalues position := by
    have hlist := Expr.listTokens_map (f := id) fun v hv => hvalues v hv .value
    rw [List.map_id] at hlist
    rw [Expr.tokens, Expr.tokens, he, hlist]
  between e low high negated he hlow hhigh position := by
    rw [Expr.tokens, Expr.tokens, he, hlow, hhigh]
  parens e he position := by
    rw [Expr.tokens, Expr.tokens, he]
  verbatim s position := rfl
  select _ _ := trivial
  combined _ _ := trivial
  query _ _ := trivial
  update _ _ _ := trivial
  collectionDelete _ _ := trivial

/-- Two levels with the same bare names write every expression alike. -/
theorem Expr.tokens_of_bare {l l' : Level} (h : l'.bare = l.bare) : tokens l' = tokens l := by
  funext position e
  rw [← l'.hereditary_tokens_bare.expr e position, h, l.hereditary_tokens_bare.expr e position]

section Bare

variable {l l' : Level} (h : l'.bare = l.bare)
include h

theorem Level.pathTokens_of_bare (p : Path) : l'.pathTokens p = l.pathTokens p := by
  rw [← pathTokens_bare l', h, pathTokens_bare]

theorem Level.fromTokens_of_bare (conditions : List (Option (Except QueryError (List Token)))) :
    l'.fromTokens conditions = l.fromTokens conditions := by
  rw [← fromTokens_bare l', h, fromTokens_bare]

theorem Level.rootListTokens_of_bare : l'.rootListTokens = l.rootListTokens := by
  rw [← rootListTokens_bare l', h, rootListTokens_bare]

theorem Level.context_of_bare : l'.context = l.context  := by
  have hcontext : l'.bare.context = l.bare.context := by rw [h]
  exact hcontext

theorem Level.returningTokens_of_bare : l'.returningTokens = l.returningTokens := by
  funext paths
  rw [returningTokens, returningTokens, context_of_bare h]
  simp only [pathTokens_of_bare h]

theorem Level.deleteTokens_of_bare : l'.deleteTokens = l.deleteTokens := by
  funext entity aliasName collection condition returning
  simp only [deleteTokens, declared, context_of_bare h, returningTokens_of_bare h]

end Bare

end EntityQuery
