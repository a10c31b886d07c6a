import EntityQuery.Proofs.Joins.Order
import EntityQuery.Proofs.Render.FunctionForms

/-!
What the names and the joins of a level ask for: paths, values, the FROM clause, and the paths that
a modification reports.
-/

namespace EntityQuery

namespace Level

variable (l : Level)

theorem succeeds_nodeTokens (node : NodeId) (field : Option String) (p : Path) :
    Succeeds (l.nodeTokens node field p) ↔ (l.joins.node? node).isSome := by
  simp only [nodeTokens]
  cases l.joins.node? node <;> simp

theorem succeeds_resolvedTokens (p : Path) :
    Succeeds (l.resolvedTokens p) ↔ l.scope.Resolves p := by
  rw [resolvedTokens, Scope.Resolves]
  cases p.base with
  | some node => exact l.succeeds_nodeTokens node p.field p
  | none =>
      simp only [scope_aliases, scope_joins, AliasTable.joinNode?]
      cases l.aliases.find? p.head with
      | none => simp
      | some entry =>
          cases entry with
          | join aliasName node implicit => simpa using l.succeeds_nodeTokens node p.tail? p
          | select aliasName expr => simp

theorem succeeds_pathTokens (p : Path) :
    Succeeds (l.pathTokens p) ↔ (Site.path l.scope p).Writable l.context := by
  simp only [pathTokens, Site.Writable, Site.Sound, Site.SupportedBy, and_true, Scope.finalPath?,
    scope_aliases]
  cases l.context.options.inlineAliases with
  | false => simpa using l.succeeds_resolvedTokens p
  | true =>
      cases l.aliases.chainEnd p with
      | path target => simpa using l.succeeds_resolvedTokens target
      | cycle aliasName => simp

theorem succeeds_literalTokens (ctx : RenderContext) (position : Position) (v : Literal) :
    Succeeds (literalTokens position v) ↔ (Site.literal v).Writable ctx := by
  simp only [Site.Writable, Site.Sound, Site.SupportedBy, and_true]
  cases v with
  | float x =>
      rw [literalTokens, Literal.Writable]
      cases x.isFinite <;> simp
  | bool b => cases position <;> simp [literalTokens, Literal.Writable]
  | _ => simp [literalTokens, Literal.Writable]

theorem succeeds_parameterTokens (p : Parameter) :
    Succeeds (l.parameterTokens p) ↔ (Site.parameter p).Writable l.context := by
  simp only [Site.Writable, Site.Sound, Site.SupportedBy, and_true]
  rw [parameterTokens]
  cases p.name with
  | none => simp
  | some name =>
      simp only [Option.isSome_some, iff_true]
      split
      · exact succeeds_ok _
      · exact succeeds_ok _

theorem succeeds_require (g : JoinGraph Expr) {β : Type} (id : NodeId)
    (f : JoinNode Expr → Except QueryError β) :
    Succeeds (g.require id >>= f) ↔ ∃ n ∈ g.node? id, Succeeds (f n) := by
  rw [JoinGraph.require]
  cases g.node? id <;> simp

theorem succeeds_rootTokens (id : NodeId) :
    Succeeds (l.rootTokens id) ↔ l.scope.RootSound id := by
  simp only [rootTokens, succeeds_require, Scope.RootSound, scope_joins]
  refine exists_congr fun n => and_congr_right fun _ => ?_
  cases n.source with
  | root entity => simp [JoinSource.opensEntry]
  | correlated path => simp [JoinSource.opensEntry]
  | _ => simp [JoinSource.opensEntry, bind, Except.bind, throw, throwThe, MonadExceptOf.throw]

theorem succeeds_joinedTokens (n : JoinNode Expr) :
    Succeeds (l.joinedTokens n) ↔ l.scope.CanJoin n := by
  rw [joinedTokens, Scope.CanJoin]
  cases n.source with
  | ofAttribute name relation =>
      rw [scope_joins]
      cases n.parent.bind l.joins.node? <;> simp
  | _ => simp

theorem succeeds_crossJoinTokens (n : JoinNode Expr) :
    Succeeds (l.crossJoinTokens n) ↔ Scope.CanCross n := by
  rw [crossJoinTokens, Scope.CanCross, joinsEntity]
  cases n.source with
  | ofEntity name => cases n.condition <;> simp
  | _ => simp

theorem succeeds_conditionClause (condition : Option (Except QueryError (List Token))) :
    Succeeds (conditionClause condition) ↔ ∀ written ∈ condition, Succeeds written := by
  cases condition with
  | none => simp [conditionClause]
  | some written => simp [conditionClause]

theorem succeeds_joinTokens (id : NodeId) (f : Expr → Except QueryError (List Token)) :
    Succeeds (l.joinTokens id ((l.joins.condition? id).map f)) ↔
      (l.scope.JoinSound id ∧ l.scope.JoinSupported l.context id) ∧
        ∀ e ∈ l.joins.condition? id, Succeeds (f e) := by
  simp only [joinTokens_eq, succeeds_require, Scope.JoinSound, Scope.JoinSupported, scope_joins,
    JoinGraph.condition?]
  cases l.joins.node? id with
  | none => simp
  | some n =>
      simp only [Option.mem_some_iff, exists_eq_left', Option.bind_some, forall_eq']
      by_cases hcross : n.type.getD .inner = .cross
      · -- A cross join has no condition, so nothing is asked of one.
        simp only [hcross, if_true, l.succeeds_crossJoinTokens]
        constructor
        · rintro ⟨hentity, hcondition⟩
          simp [Scope.CanCross, hentity, hcondition]
        · rintro ⟨⟨h, -⟩, -⟩
          exact h
      · simp only [if_neg hcross, keywordJoinTokens]
        by_cases hentity : joinsEntity n && !l.context.capabilities.entityJoins
        · rw [if_pos hentity]
          simp only [Bool.and_eq_true, Bool.not_eq_true'] at hentity
          simp [hentity, hcross]
        · rw [if_neg hentity]
          have hsupported : joinsEntity n = true → l.context.capabilities.entityJoins = true := by
            simpa using hentity
          simp only [succeeds_bind, succeeds_pure, and_true, exists_and_right, exists_eq_ok,
            succeeds_conditionClause, l.succeeds_joinedTokens]
          simpa [hcross] using fun _ _ => hsupported

theorem succeeds_joinListTokens (conditions : List (Option (Except QueryError (List Token))))
    (ids : List NodeId) :
    Succeeds (l.joinListTokens conditions ids) ↔
      ∀ id ∈ ids, Succeeds (l.joinTokens id conditions[id]?.join) := by
  induction ids with
  | nil => simp [joinListTokens]
  | cons id rest ih =>
      rw [joinListTokens, List.forall_mem_cons, ← ih]
      simp

/-- The FROM clause is written if its entries and joins can be, and if the conditions are. -/
theorem succeeds_fromTokens :
    Succeeds (l.fromTokens (JoinNode.conditionTokens l l.joins.nodes)) ↔
      ((∀ id ∈ l.joins.roots, l.scope.RootSound id) ∧
        (∀ id ∈ l.scope.joined, l.scope.JoinSound id) ∧
          ∀ id ∈ l.scope.joined, l.scope.JoinSupported l.context id) ∧
      ∀ id ∈ l.scope.joined, ∀ e ∈ l.joins.condition? id, Succeeds (e.tokens l .predicate) := by
  have hentry (root : NodeId) :
      Succeeds (l.entryTokens (JoinNode.conditionTokens l l.joins.nodes) root) ↔
        l.scope.RootSound root ∧ ∀ id ∈ (l.joins.subtree root).tail,
          (l.scope.JoinSound id ∧ l.scope.JoinSupported l.context id) ∧
            ∀ e ∈ l.joins.condition? id, Succeeds (e.tokens l .predicate) := by
    simp only [← succeeds_rootTokens, ← succeeds_joinTokens,
      ← join_conditionTokens, ← succeeds_joinListTokens]
    rw [entryTokens, JoinGraph.subtree_ne_nil]
    simp
  simp only [fromTokens, succeeds_bind, succeeds_pure, and_true, exists_eq_ok, succeeds_mapM,
    hentry, Scope.joined, List.mem_flatMap, scope_joins]
  constructor
  · intro h
    refine ⟨⟨fun root hroot => (h root hroot).1, ?_, ?_⟩, ?_⟩
    · rintro id ⟨root, hroot, hid⟩
      exact ((h root hroot).2 id hid).1.1
    · rintro id ⟨root, hroot, hid⟩
      exact ((h root hroot).2 id hid).1.2
    · rintro id ⟨root, hroot, hid⟩
      exact ((h root hroot).2 id hid).2
  · rintro ⟨⟨hopen, hsound, hsupported⟩, hconditions⟩ root hroot
    refine ⟨hopen root hroot, fun id hid => ?_⟩
    have hjoined : ∃ root ∈ l.joins.roots, id ∈ (l.joins.subtree root).tail := ⟨root, hroot, hid⟩
    exact ⟨⟨hsound id hjoined, hsupported id hjoined⟩, hconditions id hjoined⟩

theorem verdict_returningTokens (paths : List String) :
    Verdict l.context (l.scope.returningSites paths) (Succeeds (l.returningTokens paths)) := by
  rw [Scope.returningSites, returningTokens]
  cases paths with
  | nil => exact Verdict.nil.congr (by simp)
  | cons first rest =>
      have hpaths : Verdict l.context
          ((first :: rest).map fun path => .path l.scope (Path.ofString path))
          (∀ path ∈ first :: rest, Succeeds (l.pathTokens (Path.ofString path))) := by
        rw [List.map_eq_flatMap]
        exact Verdict.flatMap fun path _ =>
          Verdict.single fun _ => l.succeeds_pathTokens (Path.ofString path)
      refine Verdict.congr ?_ (Verdict.cons (fun _ => Iff.rfl) hpaths)
      simp only [Site.Writable, Site.Sound, Site.SupportedBy, true_and]
      cases l.context.capabilities.returningClause with
      | false => simp
      | true => simp

end Level

end EntityQuery
