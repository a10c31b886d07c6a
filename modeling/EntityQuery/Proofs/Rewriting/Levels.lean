import EntityQuery.Proofs.Render.Equations
import EntityQuery.Proofs.Rewriting.Agreement
import EntityQuery.Proofs.Rewriting.Basic

/-!
Two levels with the same joins under names that are written alike. Their FROM clauses agree if the
conditions of their joins do.
-/

namespace EntityQuery

variable {exact : Prop} {d : Dialect} {ctx ctx' : RenderContext}

/-- Two contexts of a dialect with the same functions. -/
structure RenderContext.Paired (d : Dialect) (ctx ctx' : RenderContext) : Prop where
  left : ctx.dialect = d
  right : ctx'.dialect = d
  functions : ctx'.functions = ctx.functions

namespace RenderContext.Paired

theorem capabilities (h : ctx.Paired d ctx') : ctx'.capabilities = ctx.capabilities := by
  rw [RenderContext.capabilities, RenderContext.capabilities, h.left, h.right]

theorem unsupported (h : ctx.Paired d ctx') (shape : UnsupportedShape) :
    ctx'.unsupported shape = ctx.unsupported shape := by
  rw [RenderContext.unsupported, RenderContext.unsupported, h.left, h.right]

theorem invocation (h : ctx.Paired d ctx') (name : String) (count : Nat)
    {args args' : Except QueryError (List (List Token))}
    (hargs : Agree exact (List.Forall₂ (SameText d)) args args') :
    Agree exact (SameText d) (ctx.invocation name count args) (ctx'.invocation name count args') := by
  rw [RenderContext.invocation, RenderContext.invocation, h.functions, h.capabilities, h.unsupported]
  split
  · exact hargs.bind fun _ _ hargs =>
      .ok (((SameText.joined _ hargs).append (.refl _)).cons _)
  · split
    · exact hargs.bind fun _ _ hargs =>
        .ok ((SameText.joined _ (.cons (.refl _) hargs)).parenthesized.cons _)
    · exact .error_same _

end RenderContext.Paired

/-- A prefix before an alias makes the text of the alias that is declared. -/
theorem RenderContext.tokensText_prefixTokens (ctx : RenderContext) (a : String) :
    tokensText d (ctx.prefixTokens ++ [.name a]) = ctx.declaredAlias a := by
  rw [prefixTokens, declaredAlias]
  cases ctx.options.aliasPrefix with
  | none => simp [tokensText, Token.text]
  | some p => simp [tokensText, Token.text]

/-- Two nodes of two levels that are written alike: what `f` does to the paths of enclosing queries
sets them apart, and what their contexts put before their aliases. -/
structure JoinNode.Paired (exact : Prop) (f : String → String) (ctx ctx' : RenderContext)
    (n n' : JoinNode Expr) : Prop where
  declared : ctx'.declaredAlias n'.aliasName = ctx.declaredAlias n.aliasName
  aliasName : exact → n'.aliasName = n.aliasName
  source : n'.source = n.source.rewrite f
  parent : n'.parent = n.parent
  type : n'.type = n.type
  fetch : n'.fetch = n.fetch
  condition : n'.condition.isSome = n.condition.isSome

/-- Two entries that name the same join node, or both an expression. -/
inductive AliasEntry.Paired : AliasEntry Expr → AliasEntry Expr → Prop
  | join (a a' : String) (node : NodeId) (implicit implicit' : Bool) :
      Paired (.join a node implicit) (.join a' node implicit')
  | select (a a' : String) (e e' : Expr) : Paired (.select a e) (.select a' e')

/-- Two paths that differ in their names alone. -/
structure Path.Paired (p p' : Path) : Prop where
  base : p'.base = p.base
  field : p'.field = p.field
  tail : p'.tail? = p.tail?
  inCollectionFunction : p'.inCollectionFunction = p.inCollectionFunction
  keySide : p'.keySide = p.keySide

/-- Two levels with the same joins, under names that are written alike. -/
structure Level.Paired (exact : Prop) (d : Dialect) (f : String → String) (l l' : Level) : Prop where
  context : l.context.Paired d l'.context
  roots : l'.joins.roots = l.joins.roots
  nodes : List.Forall₂ (JoinNode.Paired exact f l.context l'.context) l.joins.nodes l'.joins.nodes
  source : ∀ path, SameText d (l.context.outerPrefixTokens path ++ [.name path])
    (l'.context.outerPrefixTokens (f path) ++ [.name (f path)])

theorem Level.declared_paired {f : String → String} {l l' : Level} {n n' : JoinNode Expr}
    (hn : n.Paired exact f l.context l'.context n') :
    l'.declared n'.aliasName = l.declared n.aliasName := by
  rw [declared, declared, hn.declared]

namespace Level.Paired

variable {f : String → String} {l l' : Level} (h : Paired exact d f l l')
include h

theorem node? (id : NodeId) :
    Option.Rel (JoinNode.Paired exact f l.context l'.context) (l.joins.node? id)
      (l'.joins.node? id) :=
  rel_getElem? h.nodes id

theorem require (id : NodeId) :
    Agree exact (JoinNode.Paired exact f l.context l'.context) (l.joins.require id)
      (l'.joins.require id) := by
  rw [JoinGraph.require, JoinGraph.require]
  have hnode := h.node? id
  generalize l.joins.node? id = n, l'.joins.node? id = n' at hnode
  cases hnode with
  | none => exact .error_same _
  | some hn => exact .ok hn

theorem subtree (id : NodeId) : l'.joins.subtree id = l.joins.subtree id := by
  refine JoinGraph.subtree_congr ?_ id
  have hnodes := h.nodes
  generalize l.joins.nodes = ns, l'.joins.nodes = ns' at hnodes
  induction hnodes with
  | nil => rfl
  | cons hn _ ih => rw [List.map_cons, List.map_cons, hn.parent, ih]

theorem rootTokens (id : NodeId) : Agree exact (SameText d) (l.rootTokens id) (l'.rootTokens id) := by
  refine (h.require id).bind fun n n' hn => ?_
  rw [hn.source, declared_paired hn]
  cases n.source with
  | root entity => exact .ok (.refl _)
  | correlated path => exact .ok ((h.source path).append (.refl _))
  | ofAttribute name relation => exact .error fun he => by rw [hn.aliasName he]
  | ofEntity name => exact .error fun he => by rw [hn.aliasName he]

theorem joinedTokens {n n' : JoinNode Expr} (hn : n.Paired exact f l.context l'.context n') :
    Agree exact (SameText d) (l.joinedTokens n) (l'.joinedTokens n') := by
  rw [Level.joinedTokens, Level.joinedTokens, hn.source, hn.parent]
  cases n.source with
  | root entity => exact .error fun he => by rw [hn.aliasName he]
  | correlated path => exact .error fun he => by rw [hn.aliasName he]
  | ofEntity name => exact .ok (.refl _)
  | ofAttribute name relation =>
      have hparent : Option.Rel (JoinNode.Paired exact f l.context l'.context)
          (n.parent.bind l.joins.node?) (n.parent.bind l'.joins.node?) := by
        cases n.parent with
        | none => exact .none
        | some parent => exact h.node? parent
      simp only [JoinSource.rewrite]
      generalize n.parent.bind l.joins.node? = p, n.parent.bind l'.joins.node? = p' at hparent
      cases hparent with
      | none => exact .error fun he => by rw [hn.aliasName he]
      | some hp =>
          refine .of_eq SameText.refl ?_
          simp only [declared_paired hp]

omit h in
theorem crossJoinTokens {n n' : JoinNode Expr} (hn : n.Paired exact f l.context l'.context n') :
    Agree exact (SameText d) (l.crossJoinTokens n) (l'.crossJoinTokens n') := by
  rw [Level.crossJoinTokens, Level.crossJoinTokens, hn.source, hn.condition, declared_paired hn]
  cases n.source with
  | ofEntity name => exact .guard (fun he => by rw [hn.aliasName he]) fun _ => .ok (.refl _)
  | _ => exact .error fun he => by rw [hn.aliasName he]

theorem keywordJoinTokens {n n' : JoinNode Expr} (hn : n.Paired exact f l.context l'.context n')
    (type : JoinType) {condition condition' : Option (Except QueryError (List Token))}
    (hc : Option.Rel (Agree exact (SameText d)) condition condition') :
    Agree exact (SameText d) (l.keywordJoinTokens n type condition)
      (l'.keywordJoinTokens n' type condition') := by
  have hentity : joinsEntity n' = joinsEntity n := by
    rw [joinsEntity, joinsEntity, hn.source]
    cases n.source <;> rfl
  have hclause : Agree exact (SameText d) (conditionClause condition)
      (conditionClause condition') := by
    cases hc with
    | none => exact .ok (.refl _)
    | some hc => exact hc.bind fun _ _ hts => .ok ((SameText.refl _).append hts)
  rw [Level.keywordJoinTokens, Level.keywordJoinTokens, hentity, h.context.capabilities, hn.fetch,
    h.context.unsupported, declared_paired hn]
  refine .guard (fun he => by rw [hn.aliasName he]) fun _ => ?_
  refine (h.joinedTokens hn).bind fun _ _ hjoined => hclause.bind fun _ _ hcondition => .ok ?_
  exact (((SameText.refl _).append hjoined).append (.refl _)).append hcondition

theorem joinTokens (id : NodeId) {condition condition' : Option (Except QueryError (List Token))}
    (hc : Option.Rel (Agree exact (SameText d)) condition condition') :
    Agree exact (SameText d) (l.joinTokens id condition) (l'.joinTokens id condition') := by
  rw [joinTokens_eq, joinTokens_eq]
  refine (h.require id).bind fun n n' hn => ?_
  rw [hn.type]
  split
  · exact crossJoinTokens hn
  · exact h.keywordJoinTokens hn _ hc

theorem isMapValue (id : NodeId) : l'.joins.isMapValue id = l.joins.isMapValue id := by
  have hnode := h.node? id
  rw [JoinGraph.isMapValue, JoinGraph.isMapValue]
  generalize l.joins.node? id = n, l'.joins.node? id = n' at hnode
  cases hnode with
  | none => rfl
  | @some n n' hn =>
      have hrelation : n'.relation? = n.relation? := by
        rw [JoinNode.relation?, JoinNode.relation?, hn.source]
        cases n.source <;> rfl
      rw [Option.bind_some, Option.bind_some, hrelation]

theorem nodeTokens (node : NodeId) (field : Option String) {p p' : Path} (hp : p.Paired p')
    (htext : exact → p'.text = p.text) :
    Agree exact (SameText d) (l.nodeTokens node field p) (l'.nodeTokens node field p') := by
  have hnode := h.node? node
  rw [Level.nodeTokens.eq_def, Level.nodeTokens.eq_def, h.isMapValue, h.context.capabilities, hp.keySide,
    hp.inCollectionFunction]
  generalize l.joins.node? node = n, l'.joins.node? node = n' at hnode
  cases hnode with
  | none => exact .error fun he => by rw [htext he]
  | @some n n' hn =>
      have hname : SameText d (l.context.prefixTokens ++ [.name n.aliasName])
          (l'.context.prefixTokens ++ [.name n'.aliasName]) := by
        rw [SameText, RenderContext.tokensText_prefixTokens, RenderContext.tokensText_prefixTokens,
          hn.declared]
      refine .ok (SameText.append ?_ (.refl _))
      cases l.context.capabilities.mapValueFunction with
      | none => exact hname
      | some function =>
          dsimp only
          split
          · exact hname.parenthesized.cons _
          · exact hname

/-- A path whose head names the same on both levels, or nothing and is written alike. -/
theorem resolvedTokens {p p' : Path} (hp : p.Paired p') (htext : exact → p'.text = p.text)
    (hfind : Option.Rel AliasEntry.Paired (l.aliases.find? p.head) (l'.aliases.find? p'.head))
    (hselect : ∀ a e, l.aliases.find? p.head = some (.select a e) → p'.text = p.text)
    (hnone : l.aliases.find? p.head = none →
      SameText d (l.context.outerPrefixTokens p.head ++ [.name p.text])
        (l'.context.outerPrefixTokens p'.head ++ [.name p'.text])) :
    Agree exact (SameText d) (l.resolvedTokens p) (l'.resolvedTokens p') := by
  rw [Level.resolvedTokens, Level.resolvedTokens, hp.base, hp.field, hp.tail]
  cases p.base with
  | some node => exact h.nodeTokens node p.field hp htext
  | none =>
      dsimp only
      generalize l.aliases.find? p.head = entry, l'.aliases.find? p'.head = entry' at *
      cases hfind with
      | none => exact .ok (hnone rfl)
      | some hentry =>
          cases hentry with
          | join a a' node implicit implicit' => exact h.nodeTokens node p.tail? hp htext
          | select a a' e e' => exact .of_eq SameText.refl (by rw [hselect a e rfl])

variable {conditions conditions' : List (Option (Except QueryError (List Token)))}

theorem joinListTokens {ids : List NodeId}
    (hc : ∀ id ∈ ids, Option.Rel (Agree exact (SameText d)) (conditions[id]?.join)
      (conditions'[id]?.join)) :
    Agree exact (SameText d) (l.joinListTokens conditions ids)
      (l'.joinListTokens conditions' ids) := by
  induction ids with
  | nil => exact .ok (.refl _)
  | cons id rest ih =>
      have hrest := ih fun other hother => hc other (List.mem_cons_of_mem id hother)
      exact (h.joinTokens id (hc id List.mem_cons_self)).bind fun _ _ hjoin =>
        hrest.bind fun _ _ hrest => .ok (hjoin.append hrest)

theorem entryTokens {root : NodeId}
    (hc : ∀ id ∈ (l.joins.subtree root).tail, Option.Rel (Agree exact (SameText d))
      (conditions[id]?.join) (conditions'[id]?.join)) :
    Agree exact (SameText d) (l.entryTokens conditions root)
      (l'.entryTokens conditions' root) := by
  rw [Level.entryTokens, Level.entryTokens, h.subtree]
  cases hsubtree : l.joins.subtree root with
  | nil => exact .ok (.refl _)
  | cons first below =>
      rw [hsubtree] at hc
      exact (h.rootTokens first).bind fun _ _ hroot => (h.joinListTokens hc).bind fun _ _ hjoins =>
        .ok (hroot.append hjoins)

/-- The conditions of what no root leads to are not written. -/
theorem fromTokens (hc : ∀ root ∈ l.joins.roots, ∀ id ∈ (l.joins.subtree root).tail,
      Option.Rel (Agree exact (SameText d)) (conditions[id]?.join) (conditions'[id]?.join)) :
    Agree exact (SameText d) (l.fromTokens conditions) (l'.fromTokens conditions') := by
  rw [Level.fromTokens, Level.fromTokens, h.roots]
  exact (Agree.mapM (List.forall₂_same.2 fun root hroot => h.entryTokens (hc root hroot))).bind
    fun _ _ hentries => .ok (.joined _ hentries)

theorem rootListTokens : l'.rootListTokens = l.rootListTokens := by
  rw [Level.rootListTokens, Level.rootListTokens, h.roots]
  congr 1
  refine List.map_congr_left fun root _ => ?_
  have hnode := h.node? root
  generalize l.joins.node? root = n, l'.joins.node? root = n' at hnode
  cases hnode with
  | none => rfl
  | some hn => simp only [declared_paired hn]

end Level.Paired

end EntityQuery
