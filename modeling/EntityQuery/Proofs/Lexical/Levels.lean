import EntityQuery.Proofs.Lexical.Names
import EntityQuery.Proofs.Lexical.Tokens
import EntityQuery.Proofs.Render.Equations

/-!
What a level writes of its names and joins is balanced if the names are plain, and so is its FROM
clause if the conditions of its joins are balanced.
-/

namespace EntityQuery

open Token (listSeparator)

/-- Whether the prefixes of a context are plain. -/
structure RenderContext.Plain (ctx : RenderContext) : Prop where
  aliasPrefix : ∀ p ∈ ctx.options.aliasPrefix, Text.Plain p
  outer : ∀ scope ∈ ctx.outer, Text.Plain scope.aliasPrefix

namespace RenderContext.Plain

variable {ctx : RenderContext} (h : ctx.Plain)
include h

theorem nested : ctx.nested.Plain := ⟨fun _ hp => (by cases hp), h.outer⟩

theorem correlated (t : AliasTable Expr) : (ctx.correlated t).Plain := by
  rw [RenderContext.correlated]
  cases hprefix : ctx.options.aliasPrefix with
  | none => exact h.nested
  | some p =>
      refine ⟨fun _ hp => (by cases hp), fun scope hscope => ?_⟩
      cases hscope
      exact h.aliasPrefix p hprefix

theorem prefixTokens : ∀ t ∈ ctx.prefixTokens, t.Plain := by
  rw [RenderContext.prefixTokens]
  cases hprefix : ctx.options.aliasPrefix with
  | none => simp
  | some p =>
      rintro _ (_ | ⟨_, ⟨⟩⟩)
      exact h.aliasPrefix p hprefix

theorem outerPrefixTokens (name : String) : ∀ t ∈ ctx.outerPrefixTokens name, t.Plain := by
  rw [RenderContext.outerPrefixTokens]
  cases houter : ctx.outer with
  | none => simp
  | some scope =>
      dsimp only
      split
      · rintro _ (_ | ⟨_, ⟨⟩⟩)
        exact h.outer scope houter
      · simp

theorem declaredAlias {aliasName : String} (ha : Text.Plain aliasName) :
    Text.Plain (ctx.declaredAlias aliasName) := by
  rw [RenderContext.declaredAlias]
  cases hprefix : ctx.options.aliasPrefix with
  | none => exact ha
  | some p => exact (h.aliasPrefix p hprefix).append ha

end RenderContext.Plain

/-- Whether the names that a level brings in are plain, and the prefixes around it. -/
structure Level.Plain (l : Level) : Prop where
  context : l.context.Plain
  names : ∀ name ∈ l.scope.names, Text.Plain name

/-- The level that the order of a combined result stands on has no names. -/
theorem Level.plain_empty {ctx : RenderContext} (h : ctx.Plain) : Level.Plain ⟨ctx, {}, {}⟩ :=
  ⟨h, fun _ hname => nomatch hname⟩

theorem Path.plain_ofString {s : String} (h : Text.Plain s) :
    ∀ name ∈ (Path.ofString s).names, Text.Plain name :=
  List.forall_mem_append.2 ⟨h.split, fun _ hname => nomatch hname⟩

namespace Level.Plain

variable {l : Level} (h : l.Plain)
include h

theorem node {n : JoinNode Expr} (hn : n ∈ l.joins.nodes) :
    Text.Plain n.aliasName ∧ ∀ name ∈ n.source.names, Text.Plain name := by
  have hnames := h.names
  rw [Scope.names] at hnames
  simp only [List.forall_mem_append, List.forall_mem_flatMap] at hnames
  exact List.forall_mem_cons.1 (hnames.1 n hn)

theorem node? {id : NodeId} {n : JoinNode Expr} (hn : l.joins.node? id = some n) :
    Text.Plain n.aliasName ∧ ∀ name ∈ n.source.names, Text.Plain name :=
  h.node (List.mem_of_getElem? hn)

theorem target {p : Path} (hp : p ∈ l.aliases.targets) : ∀ name ∈ p.names, Text.Plain name :=
  fun _ hname => h.names _ (List.mem_append_right _ (List.mem_flatMap.2 ⟨p, hp, hname⟩))

theorem declared {aliasName : String} (ha : Text.Plain aliasName) : (l.declared aliasName).Plain :=
  h.context.declaredAlias ha

theorem require (id : NodeId) :
    Yields (fun n => Text.Plain n.aliasName ∧ ∀ name ∈ n.source.names, Text.Plain name)
      (l.joins.require id) := by
  rw [JoinGraph.require]
  cases hn : l.joins.node? id with
  | none => exact .error _
  | some n => exact .ok (h.node? hn)

theorem nodeTokens (node : NodeId) {field : Option String} (hfield : ∀ f ∈ field, Text.Plain f)
    (p : Path) : Yields (Balanced l.context.dialect) (l.nodeTokens node field p) := by
  rw [Level.nodeTokens.eq_def]
  cases hn : l.joins.node? node with
  | none => exact .error _
  | some n =>
      have hname : Balanced l.context.dialect (l.context.prefixTokens ++ [.name n.aliasName]) :=
        .append (.of_plain h.context.prefixTokens) (.cons (t := .name _) (h.node? hn).1 .nil)
      refine .ok (.append ?_ ?_)
      · cases hfunction : l.context.capabilities.mapValueFunction with
        | none => exact hname
        | some function =>
            have hvalue := l.context.dialect.plain_mapValueFunction function hfunction
            dsimp only
            split
            · exact .cons (t := .function function) hvalue hname.parenthesized
            · exact hname
      · cases field with
        | none => exact .nil
        | some f => exact .of_plain (by simpa [Token.Plain, Token.dot] using hfield f rfl)

/-- A path at the end of its chain. -/
theorem resolvedTokens {p : Path} (hp : ∀ name ∈ p.names, Text.Plain name) :
    Yields (Balanced l.context.dialect) (l.resolvedTokens p) := by
  obtain ⟨helements, hfield⟩ := List.forall_mem_append.1 hp
  have htext : Balanced l.context.dialect [.name p.text] :=
    .cons (t := .name _) (Text.plain_join helements) .nil
  have htail : ∀ f ∈ p.tail?, Text.Plain f := by
    rw [Path.tail?]
    split
    next heq =>
      rintro _ ⟨⟩
      rw [heq] at helements
      exact Text.plain_join (List.forall_mem_cons.1 helements).2
    next => rintro _ ⟨⟩
  rw [Level.resolvedTokens]
  split
  next node hbase =>
    exact h.nodeTokens node (fun f hf => hfield f (Option.mem_toList.2 hf)) p
  next hbase =>
    split
    · exact h.nodeTokens _ htail p
    · exact .ok htext
    · exact .ok (.append (.of_plain (h.context.outerPrefixTokens p.head)) htext)

/-- The chain of select aliases leads from plain names to plain names. -/
theorem followChain (steps : Nat) (passed : List String) {p : Path}
    (hp : ∀ name ∈ p.names, Text.Plain name) :
    match l.aliases.followChain steps passed p with
    | .path target => ∀ name ∈ target.names, Text.Plain name
    | .cycle a => Text.Plain a := by
  induction steps generalizing passed p with
  | zero => exact hp
  | succ steps ih =>
      rw [AliasTable.followChain]
      cases htarget : l.aliases.replacement? p with
      | none => exact hp
      | some target =>
          obtain ⟨-, hsingle, a, hfind⟩ := AliasTable.replacement?_eq_some htarget
          by_cases hpassed : passed.contains p.head = true
          · have helements := (List.forall_mem_append.1 hp).1
            have hhead : p.head ∈ p.elements := by
              rw [Path.head]
              cases hheads : p.elements with
              | nil => simp [Path.isSingle, hheads] at hsingle
              | cons first rest => exact List.mem_cons_self
            simp only [hpassed, if_true]
            exact helements _ hhead
          · simp only [hpassed]
            exact ih _ (h.target (List.mem_filterMap.2 ⟨_, AliasTable.mem_values hfind, rfl⟩))

theorem pathTokens {p : Path} (hp : ∀ name ∈ p.names, Text.Plain name) :
    Yields (Balanced l.context.dialect) (l.pathTokens p) := by
  rw [Level.pathTokens]
  split
  · have hchain := h.followChain (l.aliases.entries.length + 1) [] hp
    rw [AliasTable.chainEnd]
    split
    next heq =>
      rw [heq] at hchain
      exact h.resolvedTokens hchain
    next heq =>
      rw [heq] at hchain
      exact .ok (.cons (t := .name _) hchain .nil)
  · exact h.resolvedTokens hp

omit h in
theorem literalTokens (position : Position) (value : Literal) :
    Yields (Balanced l.context.dialect) (Level.literalTokens position value) := by
  cases value with
  | float x =>
      rw [Level.literalTokens]
      split
      · exact .ok (.of_plain (by simp [Token.Plain]))
      · exact .error _
  | bool b => cases position <;> exact .ok (.of_plain (by simp [Token.Plain]))
  | _ => exact .ok (.of_plain (by simp [Token.Plain]))

omit h in
theorem parameterTokens {p : Parameter} (hp : ∀ name ∈ p.name.toList, Text.Plain name) :
    Yields (Balanced l.context.dialect) (l.parameterTokens p) := by
  rw [Level.parameterTokens]
  cases hname : p.name with
  | none => exact .error _
  | some name =>
      have hparameter : Balanced l.context.dialect [.parameter name] :=
        .cons (t := .parameter name) (hp name (by simp [hname])) .nil
      dsimp only
      split
      · exact .ok hparameter.parenthesized
      · exact .ok hparameter

section From

variable {condition : Option (Except QueryError (List Token))}
  {conditions : List (Option (Except QueryError (List Token)))}

theorem rootTokens (id : NodeId) : Yields (Balanced l.context.dialect) (l.rootTokens id) := by
  refine (h.require id).bind fun n hn => ?_
  have halias : Balanced l.context.dialect [.space, l.declared n.aliasName] :=
    .cons (t := .space) trivial (.cons (h.declared hn.1) .nil)
  cases hsource : n.source with
  | root entity =>
      have hentity := hn.2 entity (by simp [hsource, JoinSource.names])
      exact .ok (.append (.cons (t := .name _) hentity .nil) halias)
  | correlated path =>
      have hpath := hn.2 path (by simp [hsource, JoinSource.names])
      exact .ok (.append (.append (.of_plain (h.context.outerPrefixTokens path))
        (.cons (t := .name _) hpath .nil)) halias)
  | ofAttribute | ofEntity => exact .error _

theorem joinedTokens {n : JoinNode Expr} (hn : ∀ name ∈ n.source.names, Text.Plain name) :
    Yields (Balanced l.context.dialect) (l.joinedTokens n) := by
  rw [Level.joinedTokens]
  cases hsource : n.source with
  | ofAttribute attr relation =>
      have hattr := hn attr (by simp [hsource, JoinSource.names])
      dsimp only
      cases hparent : n.parent.bind l.joins.node? with
      | none => exact .error _
      | some parent =>
          obtain ⟨id, -, hid⟩ := Option.bind_eq_some_iff.1 hparent
          exact .ok (.cons (h.declared (h.node? hid).1)
            (.cons (t := Token.dot) (by simp [Token.Plain, Token.dot])
              (.cons (t := .name attr) hattr .nil)))
  | ofEntity entity =>
      exact .ok (.cons (t := .name _) (hn entity (by simp [hsource, JoinSource.names])) .nil)
  | root | correlated => exact .error _

theorem crossJoinTokens {n : JoinNode Expr} (ha : Text.Plain n.aliasName)
    (hn : ∀ name ∈ n.source.names, Text.Plain name) :
    Yields (Balanced l.context.dialect) (l.crossJoinTokens n) := by
  rw [Level.crossJoinTokens]
  cases hsource : n.source with
  | ofEntity entity =>
      have hentity := hn entity (by simp [hsource, JoinSource.names])
      exact .guard (.ok (.append (.of_plain (by simp [listSeparator, Token.comma, Token.Plain]))
        (.cons (t := .name _) hentity (.cons (t := .space) trivial
          (.cons (h.declared ha) .nil)))))
  | _ => exact .error _

theorem keywordJoinTokens {n : JoinNode Expr} (ha : Text.Plain n.aliasName)
    (hn : ∀ name ∈ n.source.names, Text.Plain name) (type : JoinType)
    (hcondition : ∀ written ∈ condition, Yields (Balanced l.context.dialect) written) :
    Yields (Balanced l.context.dialect) (l.keywordJoinTokens n type condition) := by
  have hclause : Yields (Balanced l.context.dialect) (Level.conditionClause condition) := by
    cases condition with
    | none => exact .ok .nil
    | some written =>
        exact (hcondition written rfl).bind fun _ hts =>
          .ok (.append (.of_plain (by simp [Token.Plain])) hts)
  rw [Level.keywordJoinTokens]
  refine .guard ((h.joinedTokens hn).bind fun _ hjoined => hclause.bind fun _ hclause => .ok ?_)
  have hwords : Balanced l.context.dialect
      ((if type = .left then [Token.space, .keyword .LEFT] else []) ++ [Token.space, .keyword .JOIN]
        ++ (if n.fetch then [Token.space, .keyword .FETCH] else []) ++ [Token.space]) :=
    (((Balanced.optional (.of_plain (by simp [Token.Plain]))).append
      (.of_plain (by simp [Token.Plain]))).append
        (.optional (.of_plain (by simp [Token.Plain])))).append (.of_plain (by simp [Token.Plain]))
  exact ((hwords.append hjoined).append
    (.cons (t := .space) trivial (.cons (h.declared ha) .nil))).append hclause

theorem joinTokens (id : NodeId)
    (hcondition : ∀ written ∈ condition, Yields (Balanced l.context.dialect) written) :
    Yields (Balanced l.context.dialect) (l.joinTokens id condition) := by
  rw [Level.joinTokens_eq]
  refine (h.require id).bind fun n hn => ?_
  split
  · exact h.crossJoinTokens hn.1 hn.2
  · exact h.keywordJoinTokens hn.1 hn.2 _ hcondition

theorem joinListTokens (hconditions : ∀ id : NodeId, ∀ written ∈ conditions[id]?.join,
      Yields (Balanced l.context.dialect) written) (ids : List NodeId) :
    Yields (Balanced l.context.dialect) (l.joinListTokens conditions ids) := by
  induction ids with
  | nil => exact .ok .nil
  | cons id rest ih =>
      exact (h.joinTokens id (hconditions id)).bind fun _ hjoin =>
        ih.bind fun _ hrest => .ok (hjoin.append hrest)

theorem fromTokens (hconditions : ∀ id : NodeId, ∀ written ∈ conditions[id]?.join,
      Yields (Balanced l.context.dialect) written) :
    Yields (Balanced l.context.dialect) (l.fromTokens conditions) := by
  refine (Yields.mapM fun root _ => ?_).bind fun _ hentries => .ok (.listed hentries)
  rw [Level.entryTokens]
  cases l.joins.subtree root with
  | nil => exact .ok .nil
  | cons first below =>
      exact (h.rootTokens first).bind fun _ hroot =>
        (h.joinListTokens hconditions below).bind fun _ hjoins => .ok (hroot.append hjoins)

theorem rootListTokens : Balanced l.context.dialect l.rootListTokens := by
  refine .listed fun part hpart => ?_
  obtain ⟨root, -, rfl⟩ := List.mem_map.1 hpart
  cases hroot : l.joins.node? root with
  | none => exact .nil
  | some n => exact .cons (h.declared (h.node? hroot).1) .nil

end From

theorem returningTokens {paths : List String} (hpaths : ∀ path ∈ paths, Text.Plain path) :
    Yields (Balanced l.context.dialect) (l.returningTokens paths) := by
  rw [Level.returningTokens]
  split
  · exact .ok .nil
  · refine .guard ((Yields.mapM fun path hpath => ?_).bind fun _ hitems => .ok (.listClauseTokens _ hitems))
    exact h.pathTokens (Path.plain_ofString (hpaths path hpath))

theorem deleteTokens {entity aliasName : String} (hentity : Text.Plain entity)
    (ha : Text.Plain aliasName) {collection : Option String}
    (hcollection : ∀ c ∈ collection, Text.Plain c)
    {condition : Except QueryError (Option (List Token))}
    (hcondition : Yields (fun ts? => ∀ ts ∈ ts?, Balanced l.context.dialect ts) condition)
    {returning : List String} (hreturning : ∀ path ∈ returning, Text.Plain path) :
    Yields (Balanced l.context.dialect)
      (l.deleteTokens entity aliasName collection condition returning) := by
  refine hcondition.bind fun _ hcondition => (h.returningTokens hreturning).bind
    fun _ hreturning => .ok (.append (.append (.append (.append ?_ ?_) ?_)
      (.clauseTokens _ hcondition)) hreturning)
  · exact .of_plain (by simpa [Token.Plain] using hentity)
  · cases collection with
    | none => exact .nil
    | some c => exact .parenthesized (.cons (t := .name c) (hcollection c rfl) .nil)
  · exact .cons (t := .space) trivial (.cons (h.declared ha) .nil)

end Level.Plain

end EntityQuery
