import EntityQuery.Proofs.Joins.DepthFirst
import EntityQuery.Proofs.Render.Parts

/-!
What the FROM clause declares. It is one piece for each join node, in the order of the walk, and
the pieces of the roots start with the separator of the entries. A join finds its parent among the
nodes declared so far, so the alias that it takes its attribute from is known.
-/

namespace EntityQuery

open Token (listSeparator joined)

namespace Level

/-- The words that a join starts with. -/
def joinWords (n : JoinNode Expr) : List Token :=
  (if n.type = some .left then [.space, .keyword .LEFT] else []) ++ [.space, .keyword .JOIN]
    ++ (if n.fetch then [.space, .keyword .FETCH] else []) ++ [.space]

/-- What stands before a root: nothing, or the separator that ends the entry before it. -/
def rootOpening (before : List NodeId) : List Token :=
  if before.isEmpty then [] else listSeparator

/-- How a node may be declared after the nodes before it. -/
inductive Declares (l : Level) (before : List NodeId) (n : JoinNode Expr) : List Token → Prop
  | root (entity : String) (source : n.source = .root entity) (parent : n.parent = none) :
      l.Declares before n
        (rootOpening before ++ [.name entity, .space, l.declared n.aliasName])
  | correlated (path : String) (source : n.source = .correlated path) (parent : n.parent = none) :
      l.Declares before n (rootOpening before ++ l.context.outerPrefixTokens path
        ++ [.name path, .space, l.declared n.aliasName])
  | crossJoin (entity : String) (source : n.source = .ofEntity entity) (type : n.type = some .cross)
      (parent : NodeId) (under : n.parent = some parent) (earlier : parent ∈ before)
      (unconditional : n.condition = none) :
      l.Declares before n (listSeparator ++ [.name entity, .space, l.declared n.aliasName])
  | entityJoin (entity : String) (source : n.source = .ofEntity entity)
      (type : n.type ≠ some .cross) (parent : NodeId) (under : n.parent = some parent)
      (earlier : parent ∈ before) (condition : List Token)
      (written : conditionClause (n.condition.map (Expr.tokens l .predicate)) = .ok condition) :
      l.Declares before n (joinWords n ++ [.name entity, .space, l.declared n.aliasName]
        ++ condition)
  | attributeJoin (attr : String) (relation : Relation)
      (source : n.source = .ofAttribute attr relation) (type : n.type ≠ some .cross)
      (parent : NodeId) (under : n.parent = some parent) (earlier : parent ∈ before)
      (owner : JoinNode Expr) (node : l.joins.node? parent = some owner) (condition : List Token)
      (written : conditionClause (n.condition.map (Expr.tokens l .predicate)) = .ok condition) :
      l.Declares before n (joinWords n ++ [l.declared owner.aliasName, .dot, .name attr, .space,
        l.declared n.aliasName] ++ condition)

/-- One piece for each node, each after the nodes before it. -/
inductive DeclaresAll (l : Level) : List NodeId → List NodeId → List (List Token) → Prop
  | nil (before : List NodeId) : l.DeclaresAll before [] []
  | cons {before rest : List NodeId} {id : NodeId} {n : JoinNode Expr} {piece : List Token}
      {pieces : List (List Token)} (node : l.joins.node? id = some n)
      (first : l.Declares before n piece) (others : l.DeclaresAll (before ++ [id]) rest pieces) :
      l.DeclaresAll before (id :: rest) (piece :: pieces)

/-- A FROM clause that declares every node of the walk once and in its order. -/
def FromDeclares (l : Level) (ts : List Token) : Prop :=
  ∃ pieces, ts = pieces.flatten ∧ l.DeclaresAll [] l.joins.depthFirst pieces

variable {l : Level}

theorem DeclaresAll.append {before ids ids' : List NodeId} {pieces pieces' : List (List Token)}
    (h : l.DeclaresAll before ids pieces) (h' : l.DeclaresAll (before ++ ids) ids' pieces') :
    l.DeclaresAll before (ids ++ ids') (pieces ++ pieces') := by
  induction h with
  | nil before => exact List.append_nil before ▸ h'
  | cons node first _ ih => exact .cons node first (ih (by simpa using h'))

/-- The text of a root, with the separator before it. -/
theorem declares_rootTokens (before : List NodeId) {id : NodeId} {ts : List Token}
    (hparent : l.joins.parent? id = none) (h : l.rootTokens id = .ok ts) :
    ∃ n, l.joins.node? id = some n ∧ l.Declares before n (rootOpening before ++ ts) := by
  rw [rootTokens, bind_eq_ok] at h
  obtain ⟨n, hn, h⟩ := h
  have hnode := JoinGraph.require_eq_ok.1 hn
  have hroot : n.parent = none := by
    rwa [JoinGraph.parent?, hnode, Option.bind_some] at hparent
  refine ⟨n, hnode, ?_⟩
  cases hsource : n.source with
  | root entity =>
      simp only [hsource, pure_bind, pure_eq_ok] at h
      exact h ▸ .root entity hsource hroot
  | correlated path =>
      simp only [hsource, pure_bind, pure_eq_ok] at h
      have hdeclares : l.Declares before n _ := .correlated path hsource hroot
      simpa [← h] using hdeclares
  | ofAttribute name relation => simp [hsource, throw, throwThe, MonadExceptOf.throw] at h
  | ofEntity name => simp [hsource, throw, throwThe, MonadExceptOf.throw] at h

section Parent

variable {n : JoinNode Expr} {before : List NodeId} {parent : NodeId} {ts : List Token}
variable (hunder : n.parent = some parent) (hbefore : parent ∈ before)
include hunder hbefore

theorem declares_crossJoinTokens (htype : n.type = some .cross) (h : l.crossJoinTokens n = .ok ts) :
    l.Declares before n ts := by
  rw [crossJoinTokens] at h
  cases hsource : n.source with
  | ofEntity entity =>
      simp only [hsource] at h
      split at h
      · cases h
      next hnone =>
        cases h
        exact .crossJoin entity hsource htype parent hunder hbefore (by simpa using hnone)
  | _ => simp [hsource] at h

theorem declares_keywordJoinTokens (htype : n.type ≠ some .cross)
    (h : l.keywordJoinTokens n (n.type.getD .inner)
      (n.condition.map (Expr.tokens l .predicate)) = .ok ts) : l.Declares before n ts := by
  rw [keywordJoinTokens] at h
  split at h
  · cases h
  · simp only [bind_eq_ok, pure_eq_ok] at h
    obtain ⟨source, hjoined, condition, hwritten, rfl⟩ := h
    have hleft : n.type.getD .inner = .left ↔ n.type = some .left := by
      cases n.type <;> simp
    simp only [hleft]
    rw [joinedTokens] at hjoined
    cases hsource : n.source with
    | ofEntity entity =>
        simp only [hsource, Except.ok.injEq] at hjoined
        have hdeclares : l.Declares before n _ :=
          .entityJoin entity hsource htype parent hunder hbefore condition hwritten
        simpa [joinWords, ← hjoined] using hdeclares
    | ofAttribute attr relation =>
        simp only [hsource, hunder, Option.bind_some] at hjoined
        cases howner : l.joins.node? parent with
        | none => simp [howner] at hjoined
        | some owner =>
            simp only [howner, Except.ok.injEq] at hjoined
            have hdeclares : l.Declares before n _ := .attributeJoin attr relation hsource htype
              parent hunder hbefore owner howner condition hwritten
            simpa [joinWords, ← hjoined] using hdeclares
    | _ => simp [hsource] at hjoined

end Parent

/-- The text of a join whose parent has been declared. -/
theorem declares_joinTokens {before : List NodeId} {id parent : NodeId} {ts : List Token}
    (hparent : l.joins.parent? id = some parent) (hbefore : parent ∈ before)
    (h : l.joinTokens id ((l.joins.condition? id).map (Expr.tokens l .predicate)) = .ok ts) :
    ∃ n, l.joins.node? id = some n ∧ l.Declares before n ts := by
  rw [joinTokens_eq, bind_eq_ok] at h
  obtain ⟨n, hn, h⟩ := h
  have hnode := JoinGraph.require_eq_ok.1 hn
  have hunder : n.parent = some parent := by
    rwa [JoinGraph.parent?, hnode, Option.bind_some] at hparent
  have hcondition : l.joins.condition? id = n.condition := by
    rw [JoinGraph.condition?, hnode, Option.bind_some]
  have hcross : n.type.getD .inner = .cross ↔ n.type = some .cross := by
    cases n.type <;> simp
  rw [hcondition] at h
  refine ⟨n, hnode, ?_⟩
  split at h
  next htype => exact declares_crossJoinTokens hunder hbefore (hcross.1 htype) h
  next htype => exact declares_keywordJoinTokens hunder hbefore (mt hcross.2 htype) h

section WellFormed

variable (hjoins : l.joins.WellFormed)
include hjoins

theorem declaresAll_joinListTokens {before ids after : List NodeId} {ts : List Token}
    (hsplit : before ++ (ids ++ after) = l.joins.depthFirst)
    (hbelow : ∀ id ∈ ids, ∃ parent, l.joins.parent? id = some parent)
    (h : l.joinListTokens (JoinNode.conditionTokens l l.joins.nodes) ids = .ok ts) :
    ∃ pieces, ts = pieces.flatten ∧ l.DeclaresAll before ids pieces := by
  induction ids generalizing before ts with
  | nil =>
      cases h
      exact ⟨[], rfl, .nil before⟩
  | cons id rest ih =>
      rw [joinListTokens, join_conditionTokens] at h
      simp only [bind_eq_ok, pure_eq_ok] at h
      obtain ⟨first, hfirst, others, hothers, rfl⟩ := h
      obtain ⟨parent, hparent⟩ := hbelow id List.mem_cons_self
      have hbefore := hjoins.mem_of_parent hsplit hparent
      obtain ⟨n, hnode, hdeclares⟩ := declares_joinTokens hparent hbefore hfirst
      have hrest : before ++ [id] ++ (rest ++ after) = l.joins.depthFirst := by
        rw [← hsplit, List.append_assoc, List.singleton_append, List.cons_append]
      obtain ⟨pieces, rfl, hpieces⟩ :=
        ih hrest (fun other hother => hbelow other (List.mem_cons_of_mem id hother)) hothers
      exact ⟨first :: pieces, rfl, .cons hnode hdeclares hpieces⟩

/-- An entry, with the separator before it. -/
theorem declaresAll_entryTokens {before after : List NodeId} {root : NodeId} {ts : List Token}
    (hsplit : before ++ (l.joins.subtree root ++ after) = l.joins.depthFirst)
    (hroot : root ∈ l.joins.roots)
    (h : l.entryTokens (JoinNode.conditionTokens l l.joins.nodes) root = .ok ts) :
    ∃ pieces, rootOpening before ++ ts = pieces.flatten ∧
      l.DeclaresAll before (l.joins.subtree root) pieces := by
  rw [entryTokens, JoinGraph.subtree_ne_nil] at h
  simp only [bind_eq_ok, pure_eq_ok] at h
  obtain ⟨opening, hopening, joins, hlist, rfl⟩ := h
  obtain ⟨n, hnode, hdeclares⟩ :=
    declares_rootTokens before (hjoins.parent?_of_root hroot) hopening
  have hrest : before ++ [root] ++ ((l.joins.subtree root).tail ++ after) = l.joins.depthFirst := by
    rw [← hsplit, JoinGraph.subtree_ne_nil, List.append_assoc, List.tail_cons,
      List.singleton_append, List.cons_append]
  obtain ⟨pieces, rfl, hpieces⟩ := declaresAll_joinListTokens hjoins hrest
    (fun id => JoinGraph.exists_parent_of_mem_tail) hlist
  rw [JoinGraph.subtree_ne_nil]
  exact ⟨(rootOpening before ++ opening) :: pieces, by simp, .cons hnode hdeclares hpieces⟩

/-- Entries after others start with the separator each, the first entry of all does not. -/
theorem declaresAll_entries {before roots : List NodeId} {entries : List (List Token)}
    (hsplit : before ++ roots.flatMap l.joins.subtree = l.joins.depthFirst)
    (hroots : ∀ root ∈ roots, root ∈ l.joins.roots)
    (h : List.Forall₂ (fun root ts =>
      l.entryTokens (JoinNode.conditionTokens l l.joins.nodes) root = .ok ts) roots entries) :
    ∃ pieces, (if before.isEmpty then joined listSeparator entries
        else entries.flatMap (listSeparator ++ ·)) = pieces.flatten ∧
      l.DeclaresAll before (roots.flatMap l.joins.subtree) pieces := by
  induction h generalizing before with
  | nil => exact ⟨[], by simp [joined], .nil before⟩
  | @cons root entry rest entries hentry _ ih =>
      rw [List.flatMap_cons] at hsplit ⊢
      obtain ⟨first, hfirst, hdeclares⟩ :=
        declaresAll_entryTokens hjoins hsplit (hroots root List.mem_cons_self) hentry
      rw [← List.append_assoc] at hsplit
      obtain ⟨others, hothers, hrest⟩ :=
        ih hsplit fun other hother => hroots other (List.mem_cons_of_mem root hother)
      have hnonempty : (before ++ l.joins.subtree root).isEmpty = false := by
        rw [JoinGraph.subtree_ne_nil]
        simp
      rw [hnonempty, if_neg Bool.false_ne_true] at hothers
      refine ⟨first ++ others, ?_, hdeclares.append hrest⟩
      rw [List.flatten_append, ← hfirst, ← hothers, rootOpening, Token.joined_cons]
      split <;> simp

theorem fromDeclares_fromTokens {ts : List Token}
    (h : l.fromTokens (JoinNode.conditionTokens l l.joins.nodes) = .ok ts) : l.FromDeclares ts := by
  rw [fromTokens] at h
  simp only [bind_eq_ok, pure_eq_ok, mapM_eq_ok] at h
  obtain ⟨entries, hentries, rfl⟩ := h
  have hsplit : [] ++ l.joins.roots.flatMap l.joins.subtree = l.joins.depthFirst := rfl
  exact declaresAll_entries hjoins hsplit (fun _ hroot => hroot) hentries

end WellFormed

end Level

/-- Where parents are older than their children, the walk puts every node once into an order that
has parents first, and a query that can be written declares its nodes in that order. -/
theorem Select.from_declares_walk (ctx : RenderContext) (s : Select) (h : s.joins.Ordered) :
    s.joins.WalksInOrder ∧
      ∀ ts, s.tokens ctx = .ok ts →
        ∃ tables selected entries condition groups having orders,
          ts = s.assembled ctx tables selected entries condition groups having orders ∧
            (s.level ctx).FromDeclares entries := by
  refine ⟨h.walksInOrder, fun ts hts => ?_⟩
  rw [tokens_eq] at hts
  split at hts
  · cases hts
  · split at hts
    · cases hts
    · simp only [bind_eq_ok, pure_eq_ok] at hts
      obtain ⟨tables, -, selected, -, entries, hentries, condition, -, groups, -, having, -, orders,
        -, rfl⟩ := hts
      exact ⟨tables, selected, entries, condition, groups, having, orders, rfl,
        Level.fromDeclares_fromTokens h.wellFormed hentries⟩

/-- Orders and stocks, with the nodes of the one between those of the other, and the later entry
first. -/
def stockedOrders : Select where
  joins := {
    nodes := [{ aliasName := "o", source := .root "Order" },
      { aliasName := "s", source := .root "Stock" },
      { aliasName := "i", source := .ofAttribute "items" .collection, parent := some 0
        type := some .left },
      { aliasName := "p", source := .ofAttribute "product" .singular, parent := some 1 },
      { aliasName := "q", source := .ofAttribute "product" .singular, parent := some 2
        type := some .inner }]
    roots := [1, 0] }

example : stockedOrders.joins.depthFirst = [1, 3, 0, 2, 4] := by decide

theorem Select.from_declares_walk_stockedOrders :
    stockedOrders.joins.Ordered ∧ stockedOrders.joins.WalksInOrder ∧
      ∃ ts, stockedOrders.tokens { dialect := .hibernate } = .ok ts ∧
        ∃ tables selected entries condition groups having orders,
          ts = stockedOrders.assembled { dialect := .hibernate } tables selected entries condition
              groups having orders ∧
            (stockedOrders.level { dialect := .hibernate }).FromDeclares entries := by
  have hordered : stockedOrders.joins.Ordered := by decide
  obtain ⟨hwalk, hdeclares⟩ := from_declares_walk { dialect := .hibernate } stockedOrders hordered
  exact ⟨hordered, hwalk, _, rfl, hdeclares _ rfl⟩

end EntityQuery
