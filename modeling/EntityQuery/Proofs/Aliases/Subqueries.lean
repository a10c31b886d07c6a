import EntityQuery.Proofs.Aliases.Spelling
import EntityQuery.Proofs.Aliases.Table
import EntityQuery.Proofs.Rewriting.Queries

/-!
Subqueries of a level that is written with a prefix. What carries the prefix there is looked up: a
name that the aliases of its own level do not know, and that is a join alias of the outermost level.
So a subquery has the text that it has without any prefix once these references are spelled out.
-/

namespace EntityQuery

/-- Two texts side by side, whatever they are made from. -/
def Comparison.texts (d : Dialect) : Comparison where
  rewriting := { path := fun _ p => p }
  dialect := d
  exact := False
  contexts _ _ := True
  levels _ := True
  paths _ := True

/-- Whether the modifications among the common tables work on an entity as the builder sets it up. -/
def Site.OnEntity : Site → Prop
  | .table _ (.update u) => ∃ entity aliasName, u.target = Target.ofEntity entity aliasName
  | .table _ (.collectionDelete d) => ∃ entity aliasName, d.target = Target.ofEntity entity aliasName
  | _ => True

/-- A rule that says what is looked up: the aliases of the level itself first, then those of the
outermost level. -/
structure Spelling.Looks (w : Spelling) (aliases : List String) : Prop where
  path : ∀ between own a, w.path between own a =
    (!own.aliases.contains a && aliases.contains (Dotted.head a))
  source : ∀ between own path, w.source between own (Dotted.head path) =
    aliases.contains (Dotted.head path)

/-- The context of a subquery, with the outermost aliases to be prefixed, and without. -/
structure RenderContext.Spells (w : Spelling) (aliases : List String) (ctx ctx' : RenderContext) :
    Prop where
  inline : ctx.options.inlineAliases = w.inlineAliases
  aliasPrefix : ctx.options.aliasPrefix = none
  outer : ctx.outer = some ⟨w.aliasPrefix, aliases⟩
  other : ctx' = { ctx with outer := none }

namespace RenderContext.Spells

variable {w : Spelling} {aliases : List String} {ctx ctx' : RenderContext}
  (h : ctx.Spells w aliases ctx')
include h

theorem paired : ctx.Paired ctx.dialect ctx' := by
  obtain ⟨-, -, -, rfl⟩ := h
  exact ⟨rfl, rfl, rfl⟩

/-- Nothing changes on the way into a query. -/
theorem nested_eq : ctx.nested = ctx := by
  obtain ⟨dialect, functions, ⟨inlineAliases, aliasPrefix⟩, outer⟩ := ctx
  have haliasPrefix : aliasPrefix = none := h.aliasPrefix
  subst haliasPrefix
  rfl

theorem correlated_eq (t : AliasTable Expr) : ctx.correlated t = ctx := by
  rw [RenderContext.correlated, h.aliasPrefix]
  exact h.nested_eq

theorem nested_right : ctx'.nested = ctx' := by
  obtain ⟨dialect, functions, ⟨inlineAliases, aliasPrefix⟩, outer⟩ := ctx
  obtain ⟨-, haliasPrefix, -, rfl⟩ := h
  have haliasPrefix : aliasPrefix = none := haliasPrefix
  subst haliasPrefix
  rfl

theorem correlated_right (t : AliasTable Expr) : ctx'.correlated t = ctx' := by
  have haliasPrefix : ctx'.options.aliasPrefix = none := by
    obtain ⟨-, haliasPrefix, -, rfl⟩ := h
    exact haliasPrefix
  rw [RenderContext.correlated, haliasPrefix]
  exact h.nested_right

/-- The prefix before a text is the text with the prefix spelled out. -/
theorem outerPrefixTokens (name text : String) :
    SameText ctx.dialect (ctx.outerPrefixTokens name ++ [.name text])
      [.name (if aliases.contains (Dotted.head name) then w.aliasPrefix ++ text else text)] := by
  rw [RenderContext.outerPrefixTokens, h.outer]
  dsimp only
  split <;> simp [SameText, tokensText, Token.text]

theorem declaredAlias (a : String) : ctx'.declaredAlias a = ctx.declaredAlias a := by
  obtain ⟨-, -, -, rfl⟩ := h
  rfl

theorem outerPrefixTokens_right (name : String) : ctx'.outerPrefixTokens name = [] := by
  obtain ⟨-, -, -, rfl⟩ := h
  rfl

end RenderContext.Spells

theorem Query.onEntity_memberSites {q : Query} (h : ∀ site ∈ q.sites, site.OnEntity) :
    ∀ site ∈ q.memberSites true, site.OnEntity := by
  cases q with
  | select s => exact List.forall_mem_cons.2 ⟨trivial, h⟩
  | combined c => exact h

/-- Two levels whose paths are written alike once the references of the first are spelled out. -/
structure Level.Spells (w : Spelling) (aliases : List String) (v : LevelSpelling) (l l' : Level) :
    Prop where
  context : l.context.Paired l.context.dialect l'.context
  inner : (l.context.correlated l.aliases).Spells w aliases (l'.context.correlated l'.aliases)
  path : ∀ p position, (Comparison.texts l.context.dialect).Tokens (l.pathTokens p)
    ((Expr.reference p (v.text? p)).tokens l' position)

section Paths

variable {w : Spelling} {aliases : List String} {ctx ctx' : RenderContext}

theorem Level.pathTokens_eq (l : Level) (p : Path) :
    l.pathTokens p =
      match l.aliases.endOf l.context.options.inlineAliases p with
      | .path target => l.resolvedTokens target
      | .cycle a => .ok [.name a] := by
  rw [pathTokens, AliasTable.endOf]
  split <;> rfl

/-- A path of a subquery is written as the text that stands for it, or as it is. -/
theorem Spelling.Looks.pathTokens (hw : w.Looks aliases) (h : ctx.Spells w aliases ctx')
    (between : List Scope) (sc : Scope) {joins : JoinGraph Expr}
    (hnodes : ∀ node field p, (Comparison.texts ctx.dialect).Tokens
      ((sc.level ctx).nodeTokens node field p) (Level.nodeTokens ⟨ctx', sc.aliases, joins⟩ node field p))
    (p : Path) (position : Position) :
    (Comparison.texts ctx.dialect).Tokens ((sc.level ctx).pathTokens p)
      ((Expr.reference p (w.text? between sc p)).tokens ⟨ctx', sc.aliases, joins⟩ position) := by
  have hright : ctx'.options = ctx.options := by
    obtain ⟨-, -, -, rfl⟩ := h
    rfl
  have hkept : (Expr.reference p none).tokens ⟨ctx', sc.aliases, joins⟩ position =
      Level.pathTokens ⟨ctx', sc.aliases, joins⟩ p := by
    rw [Expr.reference, Option.map_none, Option.getD_none, Expr.tokens]
  rw [Level.pathTokens_eq, Scope.level, Spelling.text?, h.inline]
  rw [Level.pathTokens_eq, hright, h.inline] at hkept
  dsimp only at hkept ⊢
  cases htarget : sc.aliases.endOf w.inlineAliases p with
  | cycle a =>
      rw [htarget] at hkept
      rw [hkept]
      exact .ok (.refl _)
  | path target =>
      rw [htarget] at hkept
      dsimp only at hkept ⊢
      rw [hw.path, AliasTable.contains]
      rw [Level.resolvedTokens] at hkept ⊢
      cases hbase : target.base with
      | some node =>
          rw [hbase] at hkept
          rw [Option.isNone_some, Bool.false_and, if_neg Bool.false_ne_true, hkept]
          exact hnodes node target.field target
      | none =>
          rw [hbase] at hkept
          dsimp only at hkept ⊢
          cases hfind : sc.aliases.find? target.head with
          | some entry =>
              rw [hfind] at hkept
              rw [Option.isSome_some, Bool.not_true, Bool.false_and, Bool.and_false,
                if_neg Bool.false_ne_true, hkept]
              cases entry with
              | join a node implicit => exact hnodes node target.tail? target
              | select a e => exact .ok (.refl _)
          | none =>
              rw [hfind] at hkept
              have hprefix := h.outerPrefixTokens target.head target.text
              dsimp only at hkept ⊢
              by_cases houter : aliases.contains (Dotted.head target.head) = true
              · rw [if_pos houter] at hprefix
                simp only [houter, Option.isNone_none, Option.isSome_none, Bool.not_false,
                  Bool.and_self, if_true]
                exact .ok hprefix
              · rw [if_neg houter] at hprefix
                rw [Bool.not_eq_true] at houter
                simp only [houter, Bool.and_false, Bool.false_eq_true, if_false, hkept,
                  h.outerPrefixTokens_right]
                exact .ok hprefix

/-- A level inside a subquery keeps its joins, but for the paths of enclosing levels. -/
theorem Spelling.Looks.paired (hw : w.Looks aliases) (h : ctx.Spells w aliases ctx')
    (between : List Scope) (s : Select) (ctes : List Cte) :
    Level.Paired False ctx.dialect (w.sourceText between s.scope) (s.level ctx)
      ((s.spelledBy w (w.level between s.scope) ctes
        (s.joins.nodes.map (JoinNode.spelled w (w.level between s.scope)))).level ctx') where
  context := h.paired
  roots := rfl
  nodes := List.forall₂_map_right_iff.2 (List.forall₂_same.2 fun n _ => {
    declared := by
      obtain ⟨-, -, -, rfl⟩ := h
      rfl
    aliasName := fun _ => rfl
    source := rfl
    parent := rfl
    type := rfl
    fetch := rfl
    condition := Option.isSome_map })
  source path := by
    have hsource : w.sourceText between s.scope path =
        if aliases.contains (Dotted.head path) then w.aliasPrefix ++ path else path := by
      rw [sourceText, hw.source]
    have hright := h.outerPrefixTokens_right (w.sourceText between s.scope path)
    rw [Select.level, Select.level, hright, hsource]
    exact h.outerPrefixTokens path path

/-- A level inside a subquery, beside the level with its references spelled out. -/
theorem Spelling.Looks.spells (hw : w.Looks aliases) (h : ctx.Spells w aliases ctx')
    (between : List Scope) (sc : Scope) {joins : JoinGraph Expr}
    (hnodes : ∀ node field p, (Comparison.texts ctx.dialect).Tokens
      ((sc.level ctx).nodeTokens node field p)
      (Level.nodeTokens ⟨ctx', sc.aliases, joins⟩ node field p)) :
    (sc.level ctx).Spells w aliases (w.level between sc) ⟨ctx', sc.aliases, joins⟩ where
  context := h.paired
  inner := by
    have hleft : ctx.correlated sc.aliases = ctx := h.correlated_eq sc.aliases
    have hright : ctx'.correlated sc.aliases = ctx' := h.correlated_right sc.aliases
    rw [Scope.level, hleft, hright]
    exact h
  path p position := hw.pathTokens h between sc hnodes p position

/-- A level whose joins are left as they are. -/
theorem Spelling.Looks.spells_same (hw : w.Looks aliases) (h : ctx.Spells w aliases ctx')
    (between : List Scope) (sc : Scope) :
    (sc.level ctx).Spells w aliases (w.level between sc) (sc.level ctx') :=
  hw.spells h between sc fun node field p => .of_eq SameText.refl (by
    obtain ⟨-, -, -, rfl⟩ := h
    rfl)

end Paths

/-- An expression is written alike on two levels once its references are spelled out. -/
def Expr.SpellsAlike (w : Spelling) (aliases : List String) (e : Expr) : Prop :=
  ∀ l l' v, Level.Spells w aliases v l l' → (∀ site ∈ e.sites l.scope, site.OnEntity) →
    ∀ position, (Comparison.texts l.context.dialect).Tokens (e.tokens l position)
      ((e.spelled w v).tokens l' position)

/-- A query of a subquery is written alike, in every form. -/
def Query.SpellsAlike (w : Spelling) (aliases : List String) (q : Query) : Prop :=
  ∀ ctx ctx' between asOperand, RenderContext.Spells w aliases ctx ctx' →
    (∀ site ∈ q.memberSites asOperand, site.OnEntity) →
      q.Paired (.texts ctx.dialect) ctx ctx' (q.spelled w between)

def CteBody.SpellsAlike (w : Spelling) (aliases : List String) (b : CteBody) : Prop :=
  ∀ ctx ctx' between columns entity, RenderContext.Spells w aliases ctx ctx' →
    (∀ site ∈ .table columns b :: b.sites, site.OnEntity) →
      (Comparison.texts ctx.dialect).Tokens (b.tokens ctx entity)
        ((b.spelled w between).tokens ctx' entity)

section Clauses

variable {w : Spelling} {aliases : List String} {v : LevelSpelling} {l l' : Level}

theorem SelectItem.listTokens_spelled (hl : Level.Spells w aliases v l l')
    {is : List (SelectItem Expr)} (h : ∀ i ∈ is, i.expr.SpellsAlike w aliases)
    (hsites : ∀ i ∈ is, ∀ site ∈ i.expr.sites l.scope, site.OnEntity) :
    (Comparison.texts l.context.dialect).TokenLists (listTokens l is)
      (listTokens l' (is.map (spelled w v))) := by
  rw [listTokens_eq_mapM, listTokens_eq_mapM]
  exact Agree.mapM_map fun i hi => (h i hi l l' v hl (hsites i hi) .value).bind fun _ _ hts =>
    .ok (hts.append (.refl _))

theorem OrderItem.listTokens_spelled (hl : Level.Spells w aliases v l l')
    {is : List (OrderItem Expr)} (h : ∀ i ∈ is, i.expr.SpellsAlike w aliases)
    (hsites : ∀ i ∈ is, ∀ site ∈ i.expr.sites l.scope, site.OnEntity) :
    (Comparison.texts l.context.dialect).TokenLists (listTokens l is)
      (listTokens l' (is.map (spelled w v))) := by
  rw [listTokens_eq_mapM, listTokens_eq_mapM]
  exact Agree.mapM_map fun i hi => (h i hi l l' v hl (hsites i hi) .value).bind fun _ _ hts =>
    .ok (hts.append (.refl _))

theorem Level.join_conditionTokens_spelled (hl : Level.Spells w aliases v l l')
    (hconditions : ∀ id, l'.joins.condition? id = (l.joins.condition? id).map (Expr.spelled w v))
    {id : NodeId} (h : ∀ e ∈ l.joins.condition? id, e.SpellsAlike w aliases)
    (hsites : ∀ e ∈ l.joins.condition? id, ∀ site ∈ e.sites l.scope, site.OnEntity) :
    Option.Rel (Comparison.texts l.context.dialect).Tokens
      ((JoinNode.conditionTokens l l.joins.nodes)[id]?.join)
      ((JoinNode.conditionTokens l' l'.joins.nodes)[id]?.join) := by
  rw [join_conditionTokens, join_conditionTokens, hconditions]
  cases hcondition : l.joins.condition? id with
  | none => exact .none
  | some e => exact .some (h e hcondition l l' v hl (hsites e hcondition) .predicate)

/-- A level is written alike once its references are spelled out, if its common tables and its joins
are. -/
theorem Select.tokens_spelledBy {s : Select} {ctx ctx' : RenderContext} {ctes : List Cte}
    {φ : JoinNode Expr → JoinNode Expr} {g : String → String} {B : CteBody → Prop}
    (parts : s.Parts (Expr.SpellsAlike w aliases) B) (hsites : ∀ site ∈ s.sites, site.OnEntity)
    (hcondition : ∀ n, (φ n).condition = n.condition.map (Expr.spelled w v))
    (hrecursive : ctes.map Cte.recursive = s.ctes.map Cte.recursive)
    (htables : (Comparison.texts ctx.dialect).TokenLists (Cte.listTokens ctx s.ctes)
      (Cte.listTokens ctx' ctes))
    (hpaired : Level.Paired False ctx.dialect g (s.level ctx)
      ((s.spelledBy w v ctes (s.joins.nodes.map φ)).level ctx'))
    (hl : Level.Spells w aliases v (s.level ctx)
      ((s.spelledBy w v ctes (s.joins.nodes.map φ)).level ctx')) :
    (Comparison.texts ctx.dialect).Tokens (s.tokens ctx)
      ((s.spelledBy w v ctes (s.joins.nodes.map φ)).tokens ctx') := by
  rw [sites_eq] at hsites
  simp only [List.forall_mem_cons, List.forall_mem_append, List.forall_mem_flatMap,
    Option.mem_toList] at hsites
  obtain ⟨-, ⟨⟨⟨⟨⟨⟨-, -⟩, hsitems⟩, hsjoins⟩, hscondition⟩, hsgroups⟩, hshaving⟩, hsorders⟩ := hsites
  exact ClausesAgree.tokens {
    distinct := rfl
    recursive := hrecursive
    items := List.isEmpty_map
    paired := ⟨g, hpaired⟩
    tables := htables
    selected := SelectItem.listTokens_spelled hl parts.items hsitems
    conditions := fun root hroot id hid =>
      Level.join_conditionTokens_spelled hl (JoinGraph.condition?_map hcondition s.joins)
        (fun e he => parts.of_condition he)
        (hsjoins id (List.mem_flatMap.2 ⟨root, hroot, hid⟩))
    condition := Expr.optionTokens_agree fun e he =>
      parts.condition e he _ _ v hl (hscondition e he) .predicate
    groups := Expr.listTokens_agree fun e he =>
      parts.groupBy e he _ _ v hl (hsgroups e he) .value
    having := Expr.optionTokens_agree fun e he =>
      parts.having e he _ _ v hl (hshaving e he) .predicate
    orders := OrderItem.listTokens_spelled hl parts.orderBy hsorders }

theorem Cte.listTokens_spelled {ctx ctx' : RenderContext} (hctx : ctx.Spells w aliases ctx')
    (between : List Scope) {cs : List Cte} (h : ∀ c ∈ cs, c.body.SpellsAlike w aliases)
    (hsites : ∀ c ∈ cs, ∀ site ∈ .table c.columns c.body :: c.body.sites, site.OnEntity) :
    (Comparison.texts ctx.dialect).TokenLists (listTokens ctx cs)
      (listTokens ctx' (cs.map (spelled w between))) := by
  rw [listTokens_eq_mapM, listTokens_eq_mapM]
  refine Agree.mapM_map fun c hc => ?_
  have hwidth : (c.spelled w between).body.width = c.body.width := c.body.width_spelled _ _
  have htokens := h c hc ctx ctx' between c.columns c.entity hctx (hsites c hc)
  rw [Cte.tokens, Cte.tokens, hwidth, hctx.nested_eq, hctx.nested_right]
  exact (Agree.of_eq (r := Eq) (fun _ => rfl) rfl).bind fun _ _ _ => htokens.bind fun _ _ hts =>
    .ok ((SameText.refl _).append hts.parenthesized)

end Clauses

section Forms

variable {w : Spelling} {aliases : List String} (hw : w.Looks aliases)
include hw

theorem Select.spellsAlike {s : Select}
    (parts : s.Parts (Expr.SpellsAlike w aliases) (CteBody.SpellsAlike w aliases)) :
    (Query.select s).SpellsAlike w aliases := by
  intro ctx ctx' between asOperand hctx hsites
  rw [Query.memberSites, List.forall_mem_cons] at hsites
  have hctes := hsites.2
  rw [sites_eq] at hctes
  simp only [List.forall_mem_cons, List.forall_mem_append, List.forall_mem_flatMap] at hctes
  have hpaired := hw.paired hctx between s (s.ctes.map (Cte.spelled w between))
  have htokens := tokens_spelledBy parts hsites.2 (fun _ => rfl) (by rw [List.map_map]; rfl)
    (Cte.listTokens_spelled hctx between parts.ctes (by simpa using hctes.2.1.1.1.1.1.1.2)) hpaired
    (hw.spells hctx between s.scope fun node field p =>
      hpaired.nodeTokens node field ⟨rfl, rfl, rfl, rfl, rfl⟩ False.elim)
  rw [Query.spelled, spelled_eq]
  refine paired_of_tokens rfl List.isEmpty_map htokens ?_
  rw [hctx.nested_eq, hctx.nested_right]
  exact htokens

theorem SetOperation.spellsAlike {c : SetOperation}
    (parts : c.Parts (Expr.SpellsAlike w aliases) (Query.SpellsAlike w aliases)) :
    (Query.combined c).SpellsAlike w aliases := by
  intro ctx ctx' between asOperand hctx hsites
  rw [Query.memberSites, sites_eq, List.forall_mem_cons] at hsites
  simp only [List.forall_mem_append, List.forall_mem_flatMap] at hsites
  obtain ⟨-, ⟨hsstart, hsoperands⟩, hsorders⟩ := hsites
  have hlevel : Level.Spells w aliases (w.level between {}) ⟨ctx, {}, {}⟩ ⟨ctx', {}, {}⟩ :=
    hw.spells_same hctx between {}
  have hoperands (q : Query) (hq : q ∈ c.operands) :=
    parts.operands q hq ctx ctx' between _ hctx (hsoperands q hq)
  rw [Query.spelled, spelled_eq]
  refine PairedParts.paired {
    context := hctx.paired
    operator := rfl
    limits := rfl
    start := parts.start ctx ctx' between _ hctx hsstart
    operands := List.forall₂_map_right_iff.2 (List.forall₂_same.2 hoperands)
    orderBy := ?_
    limited := Query.limitedAnywhere_spelled w between c.start
    anyLimited := Query.anyLimited_map fun q _ => q.limitedAnywhere_spelled w between }
  rw [OrderItem.resultTokens_eq, OrderItem.resultTokens_eq]
  exact OrderItem.listTokens_spelled hlevel parts.orderBy hsorders

omit hw in
theorem Expr.spellsAlike_call {function : String} {args : List Expr}
    (h : ∀ e ∈ args, e.SpellsAlike w aliases) : (Expr.call function args).SpellsAlike w aliases := by
  intro l l' v hl hsites position
  rw [sites] at hsites
  rw [spelled, spelledList_eq_map, tokens, tokens, isOuterCall_map, genericName?_map_spelled]
  by_cases houter : isOuterCall function args = true
  · rw [if_pos houter, sitesList_eq, List.forall_mem_flatMap] at hsites
    rw [if_pos houter, if_pos houter]
    exact firstTokens_agree fun e he => h e he l l' v hl (hsites e he) position
  · rw [if_neg houter] at hsites
    rw [if_neg houter, if_neg houter]
    cases hname : genericName? function args with
    | some name =>
        simp only [hname, sitesRest_eq, List.forall_mem_cons, List.forall_mem_flatMap] at hsites
        rw [List.length_map]
        exact hl.context.invocation name _ (restTokens_agree fun e he =>
          h e (List.mem_of_mem_tail he) l l' v hl (hsites.2 e he) .value)
    | none =>
        simp only [hname, sitesList_eq, List.forall_mem_flatMap] at hsites
        have hlist := listTokens_agree fun e he => h e he l l' v hl (hsites e he) .value
        exact hlist.bind fun _ _ hargs => .ok (((SameText.refl _).append
          (.joined _ hargs)).parenthesized.cons _)

omit hw in
theorem Expr.spellsAlike_aggregate {function : String} {args : List Expr} {distinct : Bool}
    (h : ∀ e ∈ args, e.SpellsAlike w aliases) :
    (Expr.aggregate function args distinct).SpellsAlike w aliases := by
  intro l l' v hl hsites position
  rw [sites] at hsites
  rw [spelled, spelledList_eq_map, tokens, tokens, isCountStar, isCountStar, List.isEmpty_map]
  rw [isCountStar] at hsites
  split
  · rw [RenderContext.countStarTokens, RenderContext.countStarTokens, hl.context.capabilities]
    split
    · exact .ok (.refl _)
    · exact hl.context.invocation _ _ (.ok .nil)
  · rename_i hcount
    rw [if_neg hcount, sitesList_eq, List.forall_mem_flatMap] at hsites
    have hlist := listTokens_agree fun e he => h e he l l' v hl (hsites e he) .value
    exact hlist.bind fun _ _ hargs => .ok (((SameText.refl _).append
      (.joined _ hargs)).parenthesized.cons _)

omit hw in
theorem Expr.parenthesizeLooser_spelled_agree (precedence : Nat) (e : Expr) {v : LevelSpelling}
    {d : Dialect} {ts ts' : List Token} (h : SameText d ts ts') :
    SameText d (parenthesizeLooser precedence e ts)
      (parenthesizeLooser precedence (e.spelled w v) ts') := by
  rw [parenthesizeLooser_spelled]
  exact h.parenthesizeLooser precedence e

end Forms

section Modifications

variable {w : Spelling} {aliases : List String} {ctx ctx' : RenderContext}

theorem Target.find?_ofEntity (entity aliasName a : String) :
    (ofEntity entity aliasName : Target Expr).aliases.find? a =
      if a = aliasName then some (.join aliasName 0 false) else none :=
  AliasTable.find?_insert {} aliasName _ a

/-- A level that is nothing but an entity follows no select aliases. -/
theorem Target.endOf_ofEntity (inline : Bool) (entity aliasName : String) (p : Path) :
    (ofEntity entity aliasName : Target Expr).aliases.endOf inline p = .path p := by
  have hnone : (ofEntity entity aliasName : Target Expr).aliases.replacement? p = none := by
    rw [AliasTable.replacement?, find?_ofEntity]
    by_cases ha : p.head = aliasName <;> simp [ha]
  rw [AliasTable.endOf]
  split
  · rw [AliasTable.chainEnd, AliasTable.followChain, hnone]
  · rfl

/-- Without prefixes around it, a text that is read as a path of an entity is written as it is. -/
theorem Target.pathTokens_ofEntity (haliasPrefix : ctx.options.aliasPrefix = none)
    (houter : ctx.outer = none) (entity aliasName text : String) :
    ∃ ts, ((ofEntity entity aliasName : Target Expr).scope.level ctx).pathTokens
        (Path.ofString text) = .ok ts ∧ SameText ctx.dialect ts [.name text] := by
  have htext : (Path.ofString text).text = text := Dotted.join_split text
  have hprefix : ctx.prefixTokens = [] := by rw [RenderContext.prefixTokens, haliasPrefix]
  have hnone (name : String) : ctx.outerPrefixTokens name = [] := by
    rw [RenderContext.outerPrefixTokens, houter]
  rw [Level.pathTokens_eq, Scope.level, Target.scope, endOf_ofEntity]
  dsimp only
  rw [Level.resolvedTokens, find?_ofEntity]
  by_cases ha : (Path.ofString text).head = aliasName
  · have hnode (p : Path) (field : Option String) :
        ((ofEntity entity aliasName : Target Expr).scope.level ctx).nodeTokens 0 field p =
          .ok ([.name aliasName] ++ (field.map fun f => [Token.dot, .name f]).getD []) := by
      have hplain : (ofEntity entity aliasName : Target Expr).joins.isMapValue 0 = false := rfl
      have hfound : (ofEntity entity aliasName : Target Expr).joins.node? 0 =
          some { aliasName := aliasName, source := .root entity } := rfl
      rw [Level.nodeTokens.eq_def, Scope.level, Target.scope, hfound]
      simp only [hplain, hprefix, List.nil_append, Bool.false_and, Bool.false_eq_true, if_false]
      cases ctx.capabilities.mapValueFunction <;> cases field <;> rfl
    rw [if_pos ha]
    refine ⟨_, hnode _ _, ?_⟩
    -- What stands before the first dot is the alias, and the rest follows the dot.
    generalize Path.ofString text = p at htext ha
    subst htext ha
    rw [Path.text, Path.tail?, Path.head]
    rcases p.elements with _ | ⟨first, _ | ⟨second, rest⟩⟩
    · exact .refl _
    · simp [SameText, tokensText, Token.text, Dotted.join]
    · simp [SameText, tokensText, Token.text, Token.dot, Mark.text, Dotted.join_cons_cons,
        String.append_assoc]
  · rw [if_neg ha]
    refine ⟨_, rfl, ?_⟩
    rw [hnone, htext]
    exact .refl _

/-- What a modification reports is written with the prefix that it carries. -/
theorem Spelling.Looks.pathTokens_reported (hw : w.Looks aliases) (h : ctx.Spells w aliases ctx')
    (between : List Scope) (entity aliasName path : String) :
    let sc := (Target.ofEntity entity aliasName : Target Expr).scope
    (Comparison.texts ctx.dialect).Tokens ((sc.level ctx).pathTokens (Path.ofString path))
      ((sc.level ctx').pathTokens (Path.ofString (w.reported between sc path))) := by
  intro sc
  have hpath := (hw.spells_same h between sc).path (Path.ofString path) .value
  have hleft : w.reported between sc path =
      (w.text? between sc (Path.ofString path)).getD path := rfl
  rw [hleft]
  cases htext : w.text? between sc (Path.ofString path) with
  | none =>
      have hkept : (w.level between sc).text? (Path.ofString path) = none := htext
      rw [hkept, Expr.reference, Option.map_none, Option.getD_none, Expr.tokens] at hpath
      exact hpath
  | some text =>
      have hspelled : (w.level between sc).text? (Path.ofString path) = some text := htext
      have houter : ctx'.outer = none ∧ ctx'.options.aliasPrefix = none ∧
          ctx'.dialect = ctx.dialect := by
        obtain ⟨-, haliasPrefix, -, rfl⟩ := h
        exact ⟨rfl, haliasPrefix, rfl⟩
      obtain ⟨ts, hts, hsame⟩ :=
        Target.pathTokens_ofEntity houter.2.1 houter.1 entity aliasName text
      rw [hspelled, Expr.reference, Option.map_some, Option.getD_some, Expr.tokens] at hpath
      rw [Option.getD_some, hts]
      obtain ⟨us, hus, hraw⟩ := hpath.exists_ok_left rfl
      have hlevel : (sc.level ctx).pathTokens (Path.ofString path) = .ok us := hus
      rw [hlevel]
      refine .ok ?_
      rw [houter.2.2] at hsame
      exact hraw.trans hsame.symm

theorem Spelling.Looks.returningTokens (hw : w.Looks aliases) (h : ctx.Spells w aliases ctx')
    (between : List Scope) {t : Target Expr}
    (ht : ∃ entity aliasName, t = Target.ofEntity entity aliasName) (paths : List String) :
    (Comparison.texts ctx.dialect).Tokens ((t.scope.level ctx).returningTokens paths)
      ((t.scope.level ctx').returningTokens (paths.map (w.reported between t.scope))) := by
  obtain ⟨entity, aliasName, rfl⟩ := ht
  have hcapabilities : (((Target.ofEntity entity aliasName).scope.level ctx').context).capabilities =
      (((Target.ofEntity entity aliasName).scope.level ctx).context).capabilities :=
    h.paired.capabilities
  have hunsupported (shape : UnsupportedShape) :
      (((Target.ofEntity entity aliasName).scope.level ctx').context).unsupported shape =
        (((Target.ofEntity entity aliasName).scope.level ctx).context).unsupported shape :=
    h.paired.unsupported shape
  rw [Level.returningTokens, Level.returningTokens, List.isEmpty_map, hcapabilities, hunsupported]
  split
  · exact .ok (.refl _)
  refine .guard (fun _ => rfl) fun _ => ?_
  refine Agree.bind (Agree.mapM_map fun path _ =>
    hw.pathTokens_reported h between entity aliasName path) fun _ _ hitems => .ok ?_
  exact .listClauseTokens _ hitems

theorem Expr.assignmentTokens_spelled {v : LevelSpelling} {l l' : Level}
    (hl : Level.Spells w aliases v l l') {bs : List (Expr × Expr)}
    (h : ∀ b ∈ bs, b.1.SpellsAlike w aliases ∧ b.2.SpellsAlike w aliases)
    (hsites : ∀ b ∈ bs, (∀ site ∈ b.1.sites l.scope, site.OnEntity) ∧
      ∀ site ∈ b.2.sites l.scope, site.OnEntity) :
    (Comparison.texts l.context.dialect).TokenLists (assignmentTokens l bs)
      (assignmentTokens l' (bs.map fun b => (b.1.spelled w v, b.2.spelled w v))) := by
  rw [assignmentTokens_eq_mapM, assignmentTokens_eq_mapM]
  exact Agree.mapM_map fun b hb =>
    ((h b hb).1 l l' v hl (hsites b hb).1 .value).bind fun _ _ hpath =>
      ((h b hb).2 l l' v hl (hsites b hb).2 .value).bind fun _ _ hvalue =>
        .ok ((hpath.append (.refl _)).append hvalue)

theorem Update.spellsAlike (hw : w.Looks aliases) {u : Update}
    (hassignments : ∀ a ∈ u.assignments, a.1.SpellsAlike w aliases ∧ a.2.SpellsAlike w aliases)
    (hcondition : ∀ e ∈ u.condition, e.SpellsAlike w aliases) :
    (CteBody.update u).SpellsAlike w aliases := by
  intro ctx ctx' between columns entity hctx hsites
  obtain ⟨htarget, hsites⟩ := List.forall_mem_cons.1 hsites
  rw [CteBody.sites, sites_eq] at hsites
  simp only [List.forall_mem_cons, List.forall_mem_append, List.forall_mem_flatMap,
    Option.mem_toList] at hsites
  obtain ⟨-, ⟨hsassignments, hscondition⟩, -⟩ := hsites
  have hl := hw.spells_same hctx between u.target.scope
  have hassigned := Expr.assignmentTokens_spelled hl hassignments hsassignments
  have hconditioned := Expr.optionTokens_agree fun e he =>
    hcondition e he _ _ _ hl (hscondition e he) .predicate
  have hreturning := hw.returningTokens hctx between htarget u.returning
  rw [CteBody.spelled, CteBody.tokens, CteBody.tokens, spelled_eq, tokens_eq, tokens_eq]
  dsimp only
  rw [List.isEmpty_map]
  refine .guard (fun _ => rfl) fun _ => ?_
  refine hassigned.bind fun _ _ hassigned => hconditioned.bind fun _ _ hconditioned =>
    hreturning.bind fun _ _ hreturning => .ok ?_
  rw [Level.declared, Level.declared, hctx.declaredAlias]
  exact (((SameText.refl _).append (.joined _ hassigned)).append (.clauseTokens _ hconditioned)).append
    hreturning

theorem CollectionDelete.spellsAlike (hw : w.Looks aliases) {d : CollectionDelete}
    (hcondition : ∀ e ∈ d.condition, e.SpellsAlike w aliases) :
    (CteBody.collectionDelete d).SpellsAlike w aliases := by
  intro ctx ctx' between columns entity hctx hsites
  obtain ⟨htarget, hsites⟩ := List.forall_mem_cons.1 hsites
  rw [CteBody.sites, sites_eq] at hsites
  simp only [List.forall_mem_cons, List.forall_mem_append, List.forall_mem_flatMap,
    Option.mem_toList] at hsites
  have hl := hw.spells_same hctx between d.target.scope
  have hconditioned := Expr.optionTokens_agree fun e he =>
    hcondition e he _ _ _ hl (hsites.2.1 e he) .predicate
  have hreturning := hw.returningTokens hctx between htarget d.returning
  rw [CteBody.spelled, CteBody.tokens, CteBody.tokens, spelled_eq, tokens_eq, tokens_eq,
    hctx.paired.capabilities, hctx.paired.unsupported]
  split
  · refine hconditioned.bind fun _ _ hconditioned => hreturning.bind fun _ _ hreturning => .ok ?_
    rw [Level.declared, Level.declared, hctx.declaredAlias]
    exact ((SameText.refl _).append (.clauseTokens _ hconditioned)).append hreturning
  · exact .error_same _

end Modifications

/-- What is written alike level by level is written alike as a whole, in every form. -/
theorem Expr.hereditary_spellsAlike {w : Spelling} {aliases : List String} (hw : w.Looks aliases) :
    Hereditary (Expr.SpellsAlike w aliases) (Query.SpellsAlike w aliases)
      (CteBody.SpellsAlike w aliases) where
  path p l l' v hl _ position := by
    rw [Expr.spelled, Expr.tokens]
    exact hl.path p position
  literal value l l' v hl _ position := by
    rw [Expr.spelled, Expr.tokens, Expr.tokens]
    exact .of_eq SameText.refl rfl
  parameter p l l' v hl _ position := by
    rw [Expr.spelled, Expr.tokens, Expr.tokens, Level.parameterTokens, Level.parameterTokens,
      hl.context.capabilities]
    exact .of_eq SameText.refl rfl
  call function args hargs := Expr.spellsAlike_call hargs
  aggregate function args distinct hargs := Expr.spellsAlike_aggregate hargs
  subquery q hq l l' v hl hsites position := by
    have hdialect : (l.context.correlated l.aliases).dialect = l.context.dialect :=
      l.context.dialect_correlated l.aliases
    have hquery := hq _ _ v.inner false hl.inner hsites
    rw [hdialect] at hquery
    have htokens := hquery.subqueryTokens _ _ hl.context
    rw [Expr.spelled, Expr.tokens, Expr.tokens]
    exact htokens.bind fun _ _ hts => .ok hts.parenthesized
  indexed base index _ l l' v _ _ position := .ok (.refl _)
  null l l' v _ _ position := .ok (.refl _)
  caseWhen operand branches otherwise hoperand hbranches hotherwise l l' v hl hsites position := by
    rw [Expr.sites, Expr.sitesOption_eq, Expr.sitesPairs_eq, Expr.sitesOption_eq] at hsites
    simp only [List.forall_mem_append, List.forall_mem_flatMap, Option.mem_toList] at hsites
    obtain ⟨⟨hsoperand, hsbranches⟩, hsotherwise⟩ := hsites
    have hfirst := Expr.optionTokens_agree fun e he =>
      hoperand e he l l' v hl (hsoperand e he) .value
    have hmiddle (position : Position) := Expr.branchTokens_agree fun b hb =>
      ⟨(hbranches b hb).1 l l' v hl (hsbranches b hb).1 position,
        (hbranches b hb).2 l l' v hl (hsbranches b hb).2 .value⟩
    have hlast := Expr.optionTokens_agree fun e he =>
      hotherwise e he l l' v hl (hsotherwise e he) .value
    rw [Expr.spelled, Expr.spelledOption_eq_map, Expr.spelledOption_eq_map,
      Expr.spelledPairs_eq_map, Expr.tokens, Expr.tokens, Option.isSome_map]
    refine hfirst.bind fun _ _ hfirst => (hmiddle _).bind fun _ _ hmiddle =>
      hlast.bind fun _ _ hlast => .ok ?_
    refine (((SameText.append ?_ hmiddle).append (.clauseTokens _ hlast)).append (.refl _)).cons _
    cases hfirst with
    | none => exact .refl _
    | some hfirst => exact hfirst.cons _
  binary left op right hleft hright l l' v hl hsites position := by
    rw [Expr.sites, List.forall_mem_append] at hsites
    rw [Expr.spelled, Expr.tokens, Expr.tokens]
    exact (hleft l l' v hl hsites.1 _).bind fun _ _ ha =>
      (hright l l' v hl hsites.2 _).bind fun _ _ hb => .ok
        (((Expr.parenthesizeLooser_spelled_agree _ left ha).append (.refl _)).append
          (Expr.parenthesizeLooser_spelled_agree _ right hb))
  not e he l l' v hl hsites position := by
    rw [Expr.spelled, Expr.tokens, Expr.tokens]
    exact (he l l' v hl hsites _).bind fun _ _ hts => .ok
      ((SameText.refl _).append (Expr.parenthesizeLooser_spelled_agree _ e hts))
  isNull e negated he l l' v hl hsites position := by
    rw [Expr.spelled, Expr.tokens, Expr.tokens]
    exact (he l l' v hl hsites _).bind fun _ _ hts => .ok (hts.append (.refl _))
  like e pattern escape negated he hpattern l l' v hl hsites position := by
    rw [Expr.sites, List.forall_mem_append] at hsites
    rw [Expr.spelled, Expr.tokens.eq_def, Expr.tokens.eq_def]
    exact (he l l' v hl hsites.1 _).bind fun _ _ ha =>
      (hpattern l l' v hl hsites.2 _).bind fun _ _ hb => .ok
        (((((ha.append (.refl _)).append (.refl _)).append (.refl _)).append hb).append (.refl _))
  oneOf e values negated he hvalues l l' v hl hsites position := by
    rw [Expr.sites] at hsites
    rw [Expr.spelled, Expr.spelledList_eq_map, Expr.tokens, Expr.tokens, List.isEmpty_map,
      Expr.standsAlone_map_spelled]
    by_cases hempty : values.isEmpty = true
    · rw [if_pos hempty, if_pos hempty]
      exact .ok (.refl _)
    rw [if_neg hempty, if_neg hempty]
    rw [if_neg hempty, Expr.sitesList_eq, List.forall_mem_append, List.forall_mem_flatMap] at hsites
    have hlist := Expr.listTokens_agree fun e he => hvalues e he l l' v hl (hsites.2 e he) .value
    refine (he l l' v hl hsites.1 _).bind fun _ _ ha => hlist.bind fun _ _ hvalues => .ok ?_
    refine (((ha.append (.refl _)).append (.refl _)).append (.refl _)).append ?_
    split
    · exact .joined _ hvalues
    · exact (SameText.joined _ hvalues).parenthesized
  between e low high negated he hlow hhigh l l' v hl hsites position := by
    rw [Expr.sites, List.forall_mem_append, List.forall_mem_append] at hsites
    rw [Expr.spelled, Expr.tokens, Expr.tokens]
    exact (he l l' v hl hsites.1.1 _).bind fun _ _ ha =>
      (hlow l l' v hl hsites.1.2 _).bind fun _ _ hb =>
        (hhigh l l' v hl hsites.2 _).bind fun _ _ hc => .ok
          ((((((ha.append (.refl _)).append (.refl _)).append (.refl _)).append hb).append
            (.refl _)).append hc)
  parens e he l l' v hl hsites position := by
    rw [Expr.spelled, Expr.tokens, Expr.tokens]
    exact (he l l' v hl hsites _).bind fun _ _ hts => .ok hts.parenthesized
  verbatim s l l' v _ _ position := .ok (.refl _)
  select s parts := Select.spellsAlike hw parts
  combined c parts := SetOperation.spellsAlike hw parts
  query q hq ctx ctx' between columns entity hctx hsites := by
    obtain ⟨-, hsites⟩ := List.forall_mem_cons.1 hsites
    have hquery := hq ctx ctx' between true hctx (Query.onEntity_memberSites hsites)
    rw [CteBody.spelled, CteBody.tokens, CteBody.tokens, Query.limitedAnywhere_spelled]
    exact .guard (fun _ => rfl) fun _ => hquery.rendered.bind fun _ _ hbody => .ok hbody.tokens
  update u hassignments hcondition := Update.spellsAlike hw hassignments hcondition
  collectionDelete d hcondition := CollectionDelete.spellsAlike hw hcondition

end EntityQuery
