import EntityQuery.Proofs.Outcome
import EntityQuery.Proofs.Render.Equations
import EntityQuery.Proofs.Render.Sites

/-!
What each site asks for. Some sites are sound or not whatever the dialect is; others ask the dialect
or the registered functions for something. A verdict says that an outcome comes about exactly if
every site of a list is content.
-/

namespace EntityQuery

/-- Whether a function can be called by its name. -/
def RenderContext.CanCall (ctx : RenderContext) (name : String) : Prop :=
  ctx.functions.contains name = true ∨ ctx.capabilities.genericFunctions = true

instance (ctx : RenderContext) (name : String) : Decidable (ctx.CanCall name) :=
  inferInstanceAs (Decidable (_ ∨ _))

theorem RenderContext.canCall_correlated (ctx : RenderContext) (t : AliasTable Expr)
    (name : String) : (ctx.correlated t).CanCall name ↔ ctx.CanCall name := by
  rw [correlated]
  cases ctx.options.aliasPrefix <;> rfl

/-- Whether the rows of a source open an entry of a FROM clause. -/
def JoinSource.opensEntry : JoinSource → Bool
  | .root _ | .correlated _ => true
  | .ofAttribute _ _ | .ofEntity _ => false

namespace Scope

variable (sc : Scope)

/-- The path that is written for a path, unless select aliases lead back to themselves. -/
def finalPath? (inline : Bool) (p : Path) : Option Path :=
  if inline then
    match sc.aliases.chainEnd p with
    | .path target => some target
    | .cycle _ => none
  else some p

/-- Whether the node that a path starts from exists, if it starts from one. -/
def Resolves (p : Path) : Prop :=
  match p.base with
  | some node => (sc.joins.node? node).isSome
  | none => ∀ node ∈ sc.aliases.joinNode? p.head, (sc.joins.node? node).isSome

/-- Whether a node can be joined with the word JOIN. -/
def CanJoin (n : JoinNode Expr) : Prop :=
  match n.source with
  | .ofAttribute _ _ => (n.parent.bind sc.joins.node?).isSome
  | .ofEntity _ => True
  | .root _ | .correlated _ => False

/-- Whether a node can be cross joined. -/
def CanCross (n : JoinNode Expr) : Prop := Level.joinsEntity n = true ∧ n.condition = none

instance (n : JoinNode Expr) : Decidable (CanCross n) := inferInstanceAs (Decidable (_ ∧ _))

/-- Whether a root can be written. -/
def RootSound (id : NodeId) : Prop := ∃ n ∈ sc.joins.node? id, n.source.opensEntry = true

/-- Whether a join makes sense in any dialect. -/
def JoinSound (id : NodeId) : Prop :=
  ∃ n ∈ sc.joins.node? id, if n.type.getD .inner = .cross then CanCross n else sc.CanJoin n

/-- Whether the dialect has the kind of join that a node asks for. -/
def JoinSupported (ctx : RenderContext) (id : NodeId) : Prop :=
  ∀ n ∈ sc.joins.node? id, n.type.getD .inner ≠ .cross → Level.joinsEntity n = true →
    ctx.capabilities.entityJoins = true

end Scope

/-- Whether a value can be written as a literal. -/
def Literal.Writable : Literal → Prop
  | .float x => x.isFinite = true
  | _ => True

instance : DecidablePred Literal.Writable
  | .float x => inferInstanceAs (Decidable (x.isFinite = true))
  | .int _ | .string _ | .bool _ => inferInstanceAs (Decidable True)

/-- Whether the rows of a common table would be limited. -/
def CteBody.limited : CteBody → Bool
  | .query q => q.limitedAnywhere
  | .update _ | .collectionDelete _ => false

namespace Site

/-- Whether a site makes sense in any dialect. -/
def Sound (inline : Bool) : Site → Prop
  | level sc => sc.joins.roots ≠ [] ∧ (∀ id ∈ sc.joins.roots, sc.RootSound id) ∧
      ∀ id ∈ sc.joined, sc.JoinSound id
  | path sc p => ∀ target ∈ sc.finalPath? inline p, sc.Resolves target
  | literal v => v.Writable
  | parameter p => p.name.isSome
  | nested limits => limits.first.isSome → limits.max.isSome
  | table columns body =>
      columns ≠ [] ∧ body.width = columns.length ∧ body.limited = false
  | assignments count => count ≠ 0
  | function _ | countStar | element | emptyChoice | operation _ _ _ | withClause | returning
  | collectionDelete => True

/-- Whether the dialect and the registered functions have what a site asks for. -/
def SupportedBy (ctx : RenderContext) : Site → Prop
  | level sc => ∀ id ∈ sc.joined, sc.JoinSupported ctx id
  | function name => ctx.CanCall name
  | countStar => ctx.capabilities.countStar = true ∨ ctx.CanCall "COUNT_STAR"
  | nested limits => limits.any = true → ctx.CanCall "LIMIT"
  | operation operator _ between =>
      ctx.capabilities.nativeSetOperations = true ∧ between = true ∨
        ∀ op ∈ operator, ctx.CanCall op.marker
  | withClause => ctx.capabilities.withClause = true
  | returning => ctx.capabilities.returningClause = true
  | collectionDelete => ctx.capabilities.collectionModification = true
  | path _ _ | literal _ | parameter _ | element | emptyChoice | table _ _ | assignments _ => True

/-- A site that can be written. -/
def Writable (ctx : RenderContext) (site : Site) : Prop :=
  site.Sound ctx.options.inlineAliases ∧ site.SupportedBy ctx

/-- Set operations have an operator and something to combine. -/
def Complete : Site → Prop
  | operation operator operands _ => operator.isSome ∧ operands ≠ 0
  | _ => True

theorem writable_nested (ctx : RenderContext) : Writable ctx.nested = Writable ctx := by
  funext site
  cases site <;> rfl

theorem writable_correlated (ctx : RenderContext) (t : AliasTable Expr) :
    Writable (ctx.correlated t) = Writable ctx := by
  rw [RenderContext.correlated]
  cases ctx.options.aliasPrefix with
  | none => exact writable_nested ctx
  | some p =>
      funext site
      cases site <;> rfl

theorem writable_unlimited {limits : Limits} (h : limits.any = false) (ctx : RenderContext) :
    (nested limits).Writable ctx := by
  rw [Limits.any, Bool.or_eq_false_iff] at h
  simp [Writable, Sound, SupportedBy, Limits.any, h.1, h.2]

instance (ctx : RenderContext) : DecidablePred (SupportedBy ctx)
  | level sc => inferInstanceAs (Decidable (∀ id ∈ sc.joined, ∀ n ∈ sc.joins.node? id,
      n.type.getD .inner ≠ .cross → Level.joinsEntity n = true →
        ctx.capabilities.entityJoins = true))
  | function name => inferInstanceAs (Decidable (ctx.CanCall name))
  | countStar => inferInstanceAs (Decidable
      (ctx.capabilities.countStar = true ∨ ctx.CanCall "COUNT_STAR"))
  | nested limits => inferInstanceAs (Decidable (limits.any = true → ctx.CanCall "LIMIT"))
  | operation operator _ between => inferInstanceAs (Decidable
      (ctx.capabilities.nativeSetOperations = true ∧ between = true ∨
        ∀ op ∈ operator, ctx.CanCall op.marker))
  | withClause => inferInstanceAs (Decidable (ctx.capabilities.withClause = true))
  | returning => inferInstanceAs (Decidable (ctx.capabilities.returningClause = true))
  | collectionDelete => inferInstanceAs
      (Decidable (ctx.capabilities.collectionModification = true))
  | path _ _ | literal _ | parameter _ | element | emptyChoice | table _ _ | assignments _ =>
      inferInstanceAs (Decidable True)

instance : DecidablePred Complete
  | operation operator operands _ => inferInstanceAs (Decidable (operator.isSome ∧ operands ≠ 0))
  | level _ | path _ _ | literal _ | parameter _ | function _ | countStar | element | emptyChoice
  | nested _ | withClause | table _ _ | assignments _ | returning | collectionDelete =>
      inferInstanceAs (Decidable True)

end Site

/-- Where set operations are complete, the outcome comes about exactly if every site can be
written. -/
def Verdict (ctx : RenderContext) (sites : List Site) (outcome : Prop) : Prop :=
  (∀ site ∈ sites, site.Complete) → (outcome ↔ ∀ site ∈ sites, site.Writable ctx)

namespace Verdict

variable {ctx : RenderContext} {s t : List Site} {a b : Prop}

theorem congr (h : a ↔ b) (ha : Verdict ctx s b) : Verdict ctx s a :=
  fun hc => h.trans (ha hc)

theorem nil : Verdict ctx [] True := by
  intro _
  simp

theorem append (ha : Verdict ctx s a) (hb : Verdict ctx t b) : Verdict ctx (s ++ t) (a ∧ b) := by
  intro hc
  rw [List.forall_mem_append] at hc ⊢
  exact and_congr (ha hc.1) (hb hc.2)

theorem cons {site : Site} (ha : site.Complete → (a ↔ site.Writable ctx)) (hb : Verdict ctx t b) :
    Verdict ctx (site :: t) (a ∧ b) := by
  intro hc
  rw [List.forall_mem_cons] at hc ⊢
  exact and_congr (ha hc.1) (hb hc.2)

theorem single {site : Site} (ha : site.Complete → (a ↔ site.Writable ctx)) :
    Verdict ctx [site] a :=
  congr (and_iff_left trivial).symm (cons ha nil)

theorem flatMap {α : Type} {l : List α} {f : α → List Site} {p : α → Prop}
    (h : ∀ x ∈ l, Verdict ctx (f x) (p x)) : Verdict ctx (l.flatMap f) (∀ x ∈ l, p x) := by
  intro hc
  rw [List.forall_mem_flatMap] at hc ⊢
  exact forall₂_congr fun x hx => h x hx (hc x hx)

theorem option {α : Type} {l : Option α} {f : α → List Site} {p : α → Prop}
    (h : ∀ x ∈ l, Verdict ctx (f x) (p x)) :
    Verdict ctx (l.toList.flatMap f) (∀ x ∈ l, p x) := by
  have hlist : ∀ x ∈ l.toList, Verdict ctx (f x) (p x) := by simpa using h
  simpa using flatMap hlist

theorem nested (h : Verdict ctx.nested s a) : Verdict ctx s a := by
  rwa [Verdict, Site.writable_nested] at h

theorem correlated {t : AliasTable Expr} (h : Verdict (ctx.correlated t) s a) : Verdict ctx s a := by
  rwa [Verdict, Site.writable_correlated] at h

end Verdict

end EntityQuery
