import Mathlib.Tactic.Tauto
import EntityQuery.Expr.Traversal
import EntityQuery.Proofs.Induction
import EntityQuery.Proofs.Joins.Order
import EntityQuery.Proofs.Render.Mentions

/-!
What a text consists of. Whatever is written of an expression or of a clause is written of the
expressions in it, one after another, and besides them mentions no parameter; what is left out is
left out here, once for each writer.
-/

namespace EntityQuery

open Token (mentions)

theorem forall_mem_pairs {α : Type} {p : α → Prop} {bs : List (α × α)}
    (h : ∀ b ∈ bs, p b.1 ∧ p b.2) : ∀ a ∈ bs.flatMap fun b => [b.1, b.2], p a := by
  intro a ha
  obtain ⟨b, hb, ha⟩ := List.mem_flatMap.1 ha
  have hboth : ∀ a ∈ [b.1, b.2], p a := by simpa using h b hb
  exact hboth a ha

namespace Level

/-- Whether tokens are what is written of an expression somewhere on a level. -/
def Writes (l : Level) (e : Expr) (ts : List Token) : Prop :=
  ∃ position, e.tokens l position = .ok ts

/-- Whether names are what expressions mention, all of them written on a level one after another. -/
def Mentions (l : Level) (es : List Expr) (names : List String) : Prop :=
  ∃ tss, List.Forall₂ l.Writes es tss ∧ names = tss.flatMap mentions

namespace Mentions

variable {l : Level} {es es' : List Expr} {names names' : List String}

theorem nil : l.Mentions [] [] := ⟨[], .nil, rfl⟩

theorem single {e : Expr} {position : Position} {ts : List Token}
    (h : e.tokens l position = .ok ts) : l.Mentions [e] (mentions ts) :=
  ⟨[ts], .cons ⟨position, h⟩ .nil, (List.flatMap_singleton mentions ts).symm⟩

theorem append (h : l.Mentions es names) (h' : l.Mentions es' names') :
    l.Mentions (es ++ es') (names ++ names') := by
  obtain ⟨tss, htss, rfl⟩ := h
  obtain ⟨tss', htss', rfl⟩ := h'
  exact ⟨tss ++ tss', List.rel_append htss htss', List.flatMap_append.symm⟩

/-- A list of parts mentions what each of its members mentions. -/
theorem flatMap {α β : Type} {r : α → β → Prop} {as : List α} {bs : List β} {f : α → List Expr}
    {g : β → List String} (h : List.Forall₂ r as bs)
    (hparts : ∀ a b, r a b → l.Mentions (f a) (g b)) :
    l.Mentions (as.flatMap f) (bs.flatMap g) := by
  induction h with
  | nil => exact nil
  | cons hstep _ ih =>
      rw [List.flatMap_cons, List.flatMap_cons]
      exact (hparts _ _ hstep).append ih

end Mentions

variable {l : Level}

theorem mentions_listTokens {es : List Expr} {tss : List (List Token)}
    (h : Expr.listTokens l es = .ok tss) : l.Mentions es (tss.flatMap mentions) := by
  rw [Expr.listTokens_eq_mapM, mapM_eq_ok] at h
  exact ⟨tss, h.imp fun _ _ hwritten => ⟨.value, hwritten⟩, rfl⟩

theorem mentions_optionTokens {e? : Option Expr} {position : Position} {ts? : Option (List Token)}
    (h : Expr.optionTokens l position e? = .ok ts?) :
    l.Mentions e?.toList (ts?.toList.flatMap mentions) := by
  cases e? with
  | none =>
      cases h
      exact Mentions.nil
  | some e =>
      simp only [Expr.optionTokens, bind_eq_ok, pure_eq_ok] at h
      obtain ⟨ts, hwritten, rfl⟩ := h
      simpa using Mentions.single hwritten

theorem mentions_branchTokens {bs : List (Expr × Expr)} {position : Position} {ts : List Token}
    (h : Expr.branchTokens l position bs = .ok ts) :
    l.Mentions (bs.flatMap fun b => [b.1, b.2]) (mentions ts) := by
  induction bs generalizing ts with
  | nil =>
      cases h
      exact Mentions.nil
  | cons b rest ih =>
      rw [Expr.branchTokens] at h
      simp only [bind_eq_ok, pure_eq_ok] at h
      obtain ⟨test, htest, result, hresult, others, hothers, rfl⟩ := h
      simpa using (Mentions.single htest).append ((Mentions.single hresult).append (ih hothers))

theorem mentions_assignmentTokens {bs : List (Expr × Expr)} {tss : List (List Token)}
    (h : Expr.assignmentTokens l bs = .ok tss) :
    l.Mentions (bs.flatMap fun b => [b.1, b.2]) (tss.flatMap mentions) := by
  rw [Expr.assignmentTokens_eq_mapM, mapM_eq_ok] at h
  refine Mentions.flatMap h fun b ts hwritten => ?_
  simp only [assignmentTokens, bind_eq_ok, pure_eq_ok] at hwritten
  obtain ⟨path, hpath, value, hvalue, rfl⟩ := hwritten
  simpa using (Mentions.single hpath).append (Mentions.single hvalue)

theorem mentions_selectItemTokens {is : List (SelectItem Expr)} {tss : List (List Token)}
    (h : SelectItem.listTokens l is = .ok tss) :
    l.Mentions (is.map fun i => i.expr) (tss.flatMap mentions) := by
  rw [SelectItem.listTokens_eq_mapM, mapM_eq_ok] at h
  rw [List.map_eq_flatMap]
  refine Mentions.flatMap h fun i ts hwritten => ?_
  simp only [selectItemTokens, bind_eq_ok, pure_eq_ok] at hwritten
  obtain ⟨item, hitem, rfl⟩ := hwritten
  cases i.aliasName with
  | none => simpa using Mentions.single hitem
  | some a => simpa using Mentions.single hitem

theorem mentions_orderItemTokens {is : List (OrderItem Expr)} {tss : List (List Token)}
    (h : OrderItem.listTokens l is = .ok tss) :
    l.Mentions (is.map fun i => i.expr) (tss.flatMap mentions) := by
  rw [OrderItem.listTokens_eq_mapM, mapM_eq_ok] at h
  rw [List.map_eq_flatMap]
  refine Mentions.flatMap h fun i ts hwritten => ?_
  simp only [orderItemTokens, bind_eq_ok, pure_eq_ok] at hwritten
  obtain ⟨item, hitem, rfl⟩ := hwritten
  simpa using Mentions.single hitem

end Level

theorem JoinGraph.require_eq_ok {g : JoinGraph Expr} {id : NodeId} {n : JoinNode Expr} :
    g.require id = .ok n ↔ g.node? id = some n := by
  rw [require]
  cases g.node? id <;> simp

namespace Level

variable {l : Level}

/-- A join mentions what its condition mentions. -/
theorem mentions_joinTokens {id : NodeId} {ts : List Token}
    (h : l.joinTokens id ((l.joins.condition? id).map (Expr.tokens l .predicate)) = .ok ts) :
    l.Mentions (l.joins.condition? id).toList (mentions ts) := by
  rw [joinTokens_eq, bind_eq_ok] at h
  obtain ⟨n, hn, h⟩ := h
  have hcondition : l.joins.condition? id = n.condition := by
    rw [JoinGraph.condition?, JoinGraph.require_eq_ok.1 hn, Option.bind_some]
  rw [hcondition] at h ⊢
  split at h
  · obtain ⟨hmentions, hnone⟩ := mentions_crossJoinTokens h
    rw [hmentions, hnone]
    exact Mentions.nil
  · rw [keywordJoinTokens] at h
    split at h
    · cases h
    · simp only [bind_eq_ok, pure_eq_ok] at h
      obtain ⟨joined, hjoined, clause, hclause, rfl⟩ := h
      have hwords (p : Prop) [Decidable p] (word : Keyword) :
          mentions (if p then [.space, .keyword word] else []) = [] :=
        Token.mentions_optional p (by simp)
      simp only [Token.mentions_append, hwords, mentions_joinedTokens hjoined]
      cases he : n.condition with
      | none =>
          simp only [he, Option.map_none, conditionClause, Except.ok.injEq] at hclause
          subst hclause
          simpa using Mentions.nil
      | some e =>
          simp only [he, Option.map_some, conditionClause, bind_eq_ok, pure_eq_ok] at hclause
          obtain ⟨written, hwritten, rfl⟩ := hclause
          simpa using Mentions.single hwritten

theorem mentions_joinListTokens {ids : List NodeId} {ts : List Token}
    (h : l.joinListTokens (JoinNode.conditionTokens l l.joins.nodes) ids = .ok ts) :
    l.Mentions (ids.flatMap fun id => (l.joins.condition? id).toList) (mentions ts) := by
  induction ids generalizing ts with
  | nil =>
      cases h
      exact Mentions.nil
  | cons id rest ih =>
      rw [joinListTokens, join_conditionTokens] at h
      simp only [bind_eq_ok, pure_eq_ok] at h
      obtain ⟨first, hfirst, others, hothers, rfl⟩ := h
      simpa using (mentions_joinTokens hfirst).append (ih hothers)

/-- The FROM clause mentions what the conditions below its roots mention. Those of the roots are
not written. -/
theorem mentions_fromTokens {ts : List Token}
    (h : l.fromTokens (JoinNode.conditionTokens l l.joins.nodes) = .ok ts) :
    l.Mentions (l.scope.joined.flatMap fun id => (l.joins.condition? id).toList) (mentions ts) := by
  rw [fromTokens] at h
  simp only [bind_eq_ok, pure_eq_ok, mapM_eq_ok] at h
  obtain ⟨entries, hentries, rfl⟩ := h
  rw [Token.mentions_joined_listSeparator, Scope.joined, List.flatMap_assoc]
  refine Mentions.flatMap hentries fun root ts hentry => ?_
  rw [entryTokens, JoinGraph.subtree_ne_nil] at hentry
  simp only [bind_eq_ok, pure_eq_ok] at hentry
  obtain ⟨opening, hopening, joins, hjoins, rfl⟩ := hentry
  simpa [mentions_rootTokens hopening] using mentions_joinListTokens hjoins

theorem mentions_deleteTokens {e? : Option Expr} {entity aliasName : String}
    {collection : Option String} {returning : List String} {ts : List Token}
    (h : l.deleteTokens entity aliasName collection (Expr.optionTokens l .predicate e?) returning =
      .ok ts) : l.Mentions e?.toList (mentions ts) := by
  simp only [deleteTokens, bind_eq_ok, pure_eq_ok] at h
  obtain ⟨condition, hcondition, reported, hreported, rfl⟩ := h
  cases collection <;>
    simpa [mentions_returningTokens hreported] using mentions_optionTokens hcondition

end Level

namespace Expr

/-- The expressions directly inside an expression that are written with it. The index of an element
and the operand of an IN predicate without values are not. -/
def writtenChildren : Expr → List Expr
  | .indexed _ _ => []
  | .oneOf e values _ => if values.isEmpty then [] else e :: values
  | e => e.children

variable {l : Level} {position : Position} {ts : List Token}

/-- A call mentions what its arguments mention. The name in a call of a function by its name is a
literal, so it may count as one of them. -/
theorem mentions_call {f : String} {args : List Expr}
    (h : (call f args).tokens l position = .ok ts) : l.Mentions args (mentions ts) := by
  rw [tokens] at h
  split at h
  next houter =>
    rw [isOuterCall, Bool.and_eq_true, beq_iff_eq] at houter
    obtain ⟨e, rfl⟩ := List.length_eq_one_iff.1 houter.2
    exact Level.Mentions.single h
  next =>
    cases hname : genericName? f args with
    | none =>
        simp only [hname, bind_eq_ok, pure_eq_ok] at h
        obtain ⟨written, hwritten, rfl⟩ := h
        simpa using Level.mentions_listTokens hwritten
    | some name =>
        simp only [hname] at h
        obtain ⟨written, hwritten, hmentions⟩ := RenderContext.mentions_invocation h
        rw [restTokens_eq_mapM, ← listTokens_eq_mapM] at hwritten
        have hrest := Level.mentions_listTokens hwritten
        rw [hmentions]
        cases args with
        | nil => exact hrest
        | cons first rest =>
            obtain ⟨v, rfl⟩ : ∃ v, first = .literal (.string v) := by
              cases first with
              | literal v => cases v with
                | string s => exact ⟨s, rfl⟩
                | _ => simp [genericName?] at hname
              | _ => simp [genericName?] at hname
            have hname : (literal (.string v)).tokens l .value = .ok [.string v] := by
              rw [tokens, Level.literalTokens]
            have hfirst : l.Mentions [.literal (.string v)] (mentions [.string v]) :=
              Level.Mentions.single hname
            simpa using hfirst.append hrest

/-- Any expression that is not itself a parameter or a subquery mentions what the expressions
written with it mention. -/
theorem mentions_writtenChildren {e : Expr} (hparameter : ∀ p, e ≠ .parameter p)
    (hsubquery : ∀ q, e ≠ .subquery q) (h : e.tokens l position = .ok ts) :
    l.Mentions e.writtenChildren (mentions ts) := by
  cases e with
  | path p =>
      rw [tokens] at h
      rw [Level.mentions_pathTokens h]
      exact Level.Mentions.nil
  | literal v =>
      rw [tokens] at h
      rw [Level.mentions_literalTokens h]
      exact Level.Mentions.nil
  | parameter p => exact absurd rfl (hparameter p)
  | call f args => exact mentions_call h
  | aggregate f args d =>
      rw [tokens] at h
      split at h
      next hcount =>
        rw [isCountStar, Bool.and_eq_true, List.isEmpty_iff] at hcount
        rw [mentions_countStarTokens h, writtenChildren, children, hcount.1]
        · exact Level.Mentions.nil
        all_goals simp
      next =>
        simp only [bind_eq_ok, pure_eq_ok] at h
        obtain ⟨written, hwritten, rfl⟩ := h
        rw [mentions_callTokens]
        exact Level.mentions_listTokens hwritten
  | subquery q => exact absurd rfl (hsubquery q)
  | indexed base index =>
      rw [tokens, Except.ok.injEq] at h
      rw [← h]
      exact Level.Mentions.nil
  | null =>
      rw [tokens, Except.ok.injEq] at h
      rw [← h]
      exact Level.Mentions.nil
  | caseWhen operand branches otherwise =>
      rw [tokens] at h
      simp only [bind_eq_ok, pure_eq_ok] at h
      obtain ⟨first, hfirst, middle, hmiddle, last, hlast, rfl⟩ := h
      have hparts := ((Level.mentions_optionTokens hfirst).append
        (Level.mentions_branchTokens hmiddle)).append (Level.mentions_optionTokens hlast)
      cases first <;> simpa [writtenChildren, children] using hparts
  | binary left op right =>
      rw [tokens] at h
      simp only [bind_eq_ok, pure_eq_ok] at h
      obtain ⟨a, ha, b, hb, rfl⟩ := h
      simpa [writtenChildren, children, mentions_operator] using
        (Level.Mentions.single ha).append (Level.Mentions.single hb)
  | not e =>
      rw [tokens] at h
      simp only [bind_eq_ok, pure_eq_ok] at h
      obtain ⟨written, hwritten, rfl⟩ := h
      simpa [writtenChildren, children] using Level.Mentions.single hwritten
  | isNull e negated =>
      rw [tokens] at h
      simp only [bind_eq_ok, pure_eq_ok] at h
      obtain ⟨written, hwritten, rfl⟩ := h
      simpa [writtenChildren, children] using Level.Mentions.single hwritten
  | like e pattern escape negated =>
      cases escape <;>
      · rw [tokens] at h
        simp only [bind_eq_ok, pure_eq_ok] at h
        obtain ⟨a, ha, b, hb, rfl⟩ := h
        simpa [writtenChildren, children] using
          (Level.Mentions.single ha).append (Level.Mentions.single hb)
  | oneOf e values negated =>
      rw [tokens] at h
      rw [writtenChildren]
      split at h
      next hempty =>
        rw [Except.ok.injEq] at h
        rw [if_pos hempty, ← h]
        exact Level.Mentions.nil
      next hvalues =>
        simp only [bind_eq_ok, pure_eq_ok] at h
        obtain ⟨a, ha, written, hwritten, rfl⟩ := h
        have hparts := (Level.Mentions.single ha).append (Level.mentions_listTokens hwritten)
        rw [if_neg hvalues]
        split <;> simpa using hparts
  | between e low high negated =>
      rw [tokens] at h
      simp only [bind_eq_ok, pure_eq_ok] at h
      obtain ⟨a, ha, b, hb, c, hc, rfl⟩ := h
      simpa [writtenChildren, children] using (Level.Mentions.single ha).append
        ((Level.Mentions.single hb).append (Level.Mentions.single hc))
  | parens e =>
      rw [tokens] at h
      simp only [bind_eq_ok, pure_eq_ok] at h
      obtain ⟨written, hwritten, rfl⟩ := h
      simpa [writtenChildren, children] using Level.Mentions.single hwritten
  | verbatim s =>
      rw [tokens, Except.ok.injEq] at h
      rw [← h]
      exact Level.Mentions.nil

end Expr

/-- Common tables mention what their bodies mention. -/
theorem Cte.mentions_listTokens {ctx : RenderContext} {cs : List Cte} {tables : List (List Token)}
    (h : Cte.listTokens ctx cs = .ok tables) :
    ∃ bodies,
      List.Forall₂ (fun c body => c.body.tokens ctx.nested c.entity = .ok body) cs bodies ∧
      tables.flatMap mentions = bodies.flatMap mentions := by
  rw [Cte.listTokens_eq_mapM, mapM_eq_ok] at h
  induction h with
  | nil => exact ⟨[], .nil, rfl⟩
  | @cons c table _ _ htable _ ih =>
      obtain ⟨bodies, hbodies, hmentions⟩ := ih
      simp only [Cte.tokens, bind_eq_ok, pure_eq_ok] at htable
      obtain ⟨-, -, body, hbody, rfl⟩ := htable
      have hcolumns : (c.columns.map fun c => [Token.name c]).flatMap mentions = [] := by
        simp [List.flatMap_map]
      refine ⟨body :: bodies, .cons hbody hbodies, ?_⟩
      rw [List.flatMap_cons, List.flatMap_cons, hmentions]
      simp [hcolumns]

/-- The expressions of a query level that are written with it, in the order of its clauses. The
conditions of its roots are not. -/
def Select.writtenParts (s : Select) : List Expr :=
  s.items.map (fun i => i.expr) ++ s.scope.joined.flatMap (fun id => (s.joins.condition? id).toList)
    ++ s.condition.toList ++ s.groupBy ++ s.having.toList ++ s.orderBy.map fun i => i.expr

theorem Select.Parts.of_writtenParts {P : Expr → Prop} {B : CteBody → Prop} {s : Select}
    (parts : s.Parts P B) : ∀ e ∈ s.writtenParts, P e := by
  intro e he
  simp only [writtenParts, List.mem_append, List.mem_map, List.mem_flatMap, Option.mem_toList] at he
  rcases he with ((((⟨i, hi, rfl⟩ | ⟨id, -, he⟩) | he) | he) | he) | ⟨i, hi, rfl⟩
  · exact parts.items i hi
  · exact parts.of_condition he
  · exact parts.condition e he
  · exact parts.groupBy e he
  · exact parts.having e he
  · exact parts.orderBy i hi

/-- A query level mentions what its common tables mention, and then what its clauses mention. -/
theorem Select.mentions_tokens {ctx : RenderContext} {s : Select} {ts : List Token}
    (h : s.tokens ctx = .ok ts) :
    ∃ tables names,
      List.Forall₂ (fun c body => c.body.tokens ctx.nested c.entity = .ok body) s.ctes tables ∧
      (s.level ctx).Mentions s.writtenParts names ∧
      mentions ts = tables.flatMap mentions ++ names := by
  rw [tokens_eq] at h
  split at h
  · cases h
  split at h
  · cases h
  simp only [bind_eq_ok, pure_eq_ok] at h
  obtain ⟨tables, htables, selected, hselected, entries, hentries, condition, hcondition, groups,
    hgroups, having?, hhaving, orders, horders, rfl⟩ := h
  have hnoTables : s.ctes = [] → tables = [] := by
    intro hempty
    rw [hempty, Cte.listTokens, Except.ok.injEq] at htables
    exact htables.symm
  have hnoItems : s.items = [] → selected = [] := by
    intro hempty
    rw [hempty, SelectItem.listTokens, Except.ok.injEq] at hselected
    exact hselected.symm
  obtain ⟨bodies, hbodies, hmentions⟩ := Cte.mentions_listTokens htables
  have hparts := (((((Level.mentions_selectItemTokens hselected).append
    (Level.mentions_fromTokens hentries)).append (Level.mentions_optionTokens hcondition)).append
    (Level.mentions_listTokens hgroups)).append (Level.mentions_optionTokens hhaving)).append
    (Level.mentions_orderItemTokens horders)
  refine ⟨bodies, _, hbodies, hparts, ?_⟩
  rw [mentions_assembled hnoTables hnoItems, hmentions]
  simp only [List.append_assoc]

/-- An update mentions what its assignments mention, and then what its condition mentions. -/
theorem Update.mentions_tokens {ctx : RenderContext} {u : Update} {ts : List Token}
    (h : u.tokens ctx = .ok ts) :
    Level.Mentions ⟨ctx, u.target.aliases, u.target.joins⟩
      ((u.assignments.flatMap fun a => [a.1, a.2]) ++ u.condition.toList) (mentions ts) := by
  rw [tokens_eq] at h
  split at h
  · cases h
  simp only [bind_eq_ok, pure_eq_ok] at h
  obtain ⟨pairs, hpairs, condition, hcondition, reported, hreported, rfl⟩ := h
  simpa [Level.mentions_returningTokens hreported] using
    (Level.mentions_assignmentTokens hpairs).append (Level.mentions_optionTokens hcondition)

theorem CollectionDelete.mentions_tokens {ctx : RenderContext} {d : CollectionDelete}
    {ts : List Token} (h : d.tokens ctx = .ok ts) :
    Level.Mentions ⟨ctx, d.target.aliases, d.target.joins⟩ d.condition.toList (mentions ts) := by
  rw [tokens_eq] at h
  split at h
  · exact Level.mentions_deleteTokens h
  · cases h

theorem Delete.mentions_tokens {ctx : RenderContext} {d : Delete} {ts : List Token}
    (h : d.tokens ctx = .ok ts) :
    Level.Mentions ⟨ctx, d.target.aliases, d.target.joins⟩ d.condition.toList (mentions ts) := by
  rw [tokens] at h
  exact Level.mentions_deleteTokens h

/-- The order of a combined result mentions what its items mention. -/
theorem OrderItem.mentions_resultTokens {ctx : RenderContext} {is : List (OrderItem Expr)}
    {tss : List (List Token)} (h : resultTokens ctx is = .ok tss) :
    Level.Mentions ⟨ctx, {}, {}⟩ (is.map fun i => i.expr) (tss.flatMap mentions) := by
  rw [resultTokens_eq] at h
  exact Level.mentions_orderItemTokens h

namespace SetOperation

theorem Parts.members {P : Expr → Prop} {Q : Query → Prop} {c : SetOperation}
    (parts : c.Parts P Q) : ∀ q ∈ c.members, Q q :=
  List.forall_mem_cons.2 ⟨parts.start, parts.operands⟩

variable {ctx : RenderContext} {c : SetOperation} {op : SetOperator}

theorem unlimited_of_writtenBetween (h : c.writtenBetween ctx = true) :
    ∀ q ∈ c.members, q.limitedAnywhere = false := by
  rw [writtenBetween, Query.anyLimited_eq_any] at h
  simp only [Bool.and_eq_true, Bool.not_eq_true', List.any_eq_false] at h
  exact List.forall_mem_cons.2 ⟨h.1.2, fun q hq => by simpa using h.2 q hq⟩

theorem unlimited_of_limitedAnywhere (h : c.limitedAnywhere = false) :
    c.limits.any = false ∧ ∀ q ∈ c.members, q.limitedAnywhere = false := by
  rw [limitedAnywhere_eq, Query.anyLimited_eq_any] at h
  simp only [Bool.or_eq_false_iff, List.any_eq_false] at h
  exact ⟨h.1.1, List.forall_mem_cons.2 ⟨h.1.2, fun q hq => by simpa using h.2 q hq⟩⟩

theorem memberTokens_of_inactive {ts : List Token}
    (hinactive : activeOperator c.operator c.operands = none) :
    c.memberTokens ctx = .ok ts ↔
      ∃ start orders, c.start.memberTokens ctx = .ok start ∧
        OrderItem.resultTokens ctx c.orderBy = .ok orders ∧
          nativeTokens none [start] orders = ts := by
  rw [memberTokens_eq, hinactive]
  simp only [bind_eq_ok, pure_eq_ok, exists_and_left]

/-- A set operation between its queries has each of them in it, and its order. -/
theorem memberTokens_of_active {ts : List Token}
    (hactive : activeOperator c.operator c.operands = some op) :
    c.memberTokens ctx = .ok ts ↔
      ∃ members orders,
        List.Forall₂ (fun q member => q.memberTokens ctx = .ok member) c.members members ∧
        OrderItem.resultTokens ctx c.orderBy = .ok orders ∧
        nativeTokens (some op) members orders = ts := by
  rw [memberTokens_eq, hactive]
  simp only [Query.memberListTokens_eq_mapM, bind_eq_ok, pure_eq_ok, mapM_eq_ok, members,
    List.forall₂_cons_left_iff]
  constructor
  · rintro ⟨start, hstart, operands, hoperands, orders, horders, hts⟩
    exact ⟨start :: operands, orders, ⟨start, operands, hstart, hoperands, rfl⟩, horders, hts⟩
  · rintro ⟨_, orders, ⟨start, operands, hstart, hoperands, rfl⟩, horders, hts⟩
    exact ⟨start, hstart, operands, hoperands, orders, horders, hts⟩

theorem functionForm_of_inactive {form : FunctionForm}
    (hinactive : activeOperator c.operator c.operands = none) :
    c.functionForm ctx = .ok form ↔
      ∃ start, c.start.functionForm ctx = .ok start ∧
        FunctionForm.limited start c.limits = .ok form := by
  rw [functionForm_eq, hinactive]
  simp only [bind_eq_ok]

/-- A set operation as a call has each of its queries among the arguments, and its order. -/
theorem functionForm_of_active {form : FunctionForm}
    (hactive : activeOperator c.operator c.operands = some op) :
    c.functionForm ctx = .ok form ↔
      ∃ members orders,
        List.Forall₂ (fun q member => q.functionForm ctx = .ok member) c.members members ∧
        OrderItem.resultTokens ctx c.orderBy = .ok orders ∧
        FunctionForm.combined op members orders c.limits = form := by
  rw [functionForm_eq, hactive]
  simp only [Query.functionForms_eq_mapM, bind_eq_ok, pure_eq_ok, mapM_eq_ok, members,
    List.forall₂_cons_left_iff]
  constructor
  · rintro ⟨start, hstart, operands, hoperands, orders, horders, hform⟩
    exact ⟨start :: operands, orders, ⟨start, operands, hstart, hoperands, rfl⟩, horders, hform⟩
  · rintro ⟨_, orders, ⟨start, operands, hstart, hoperands, rfl⟩, horders, hform⟩
    exact ⟨start, hstart, operands, hoperands, orders, horders, hform⟩

end SetOperation

end EntityQuery
