import EntityQuery.Proofs.SetOperations.Orders

/-!
Where in a text its parts stand. Whatever is written of a clause stands in the text of the clause,
as a piece of it; only the order of a combined result stands in a text literal, where that result is
the argument of a call. So every expression that is written with another one has its own text in it.
-/

namespace EntityQuery

open Token (joined parenthesized spaced listSeparator)

namespace Token

/-- Whether tokens stand in others, as a piece of them or of what is quoted there. -/
inductive Within (us : List Token) : List Token → Prop
  | refl : Within us us
  | left {a : List Token} (h : Within us a) (b : List Token) : Within us (a ++ b)
  | right (a : List Token) {b : List Token} (h : Within us b) : Within us (a ++ b)
  | quoted {ts : List Token} (h : Within us ts) : Within us [.quoted ts]

namespace Within

variable {us vs ts : List Token}

theorem trans (h : Within us vs) (h' : Within vs ts) : Within us ts := by
  induction h' with
  | refl => exact h
  | left _ b ih => exact ih.left b
  | right a _ ih => exact ih.right a
  | quoted _ ih => exact ih.quoted

theorem of_isInfix (h : us <:+: ts) : Within us ts := by
  obtain ⟨before, after, rfl⟩ := h
  exact (refl.right before).left after

theorem joined {part : List Token} (h : Within us part) {parts : List (List Token)}
    (hpart : part ∈ parts) (separator : List Token) : Within us (joined separator parts) :=
  h.trans (of_isInfix (infix_joined hpart))

theorem parenthesized (h : Within us ts) : Within us (parenthesized ts) :=
  h.trans (of_isInfix (infix_parenthesized ts))

theorem parenthesizeLooser (h : Within us ts) (precedence : Nat) (operand : Expr) :
    Within us (parenthesizeLooser precedence operand ts) := by
  unfold EntityQuery.parenthesizeLooser
  split
  · split
    · exact h.parenthesized
    · exact h
  · exact h

theorem callTokens {part : List Token} (h : Within us part) {parts : List (List Token)}
    (hpart : part ∈ parts) (function : String) (distinct : Bool) :
    Within us (callTokens function distinct parts) :=
  (((h.joined hpart listSeparator).right _).parenthesized).right [.function function]

theorem clauseTokens (h : Within us ts) (word : Keyword) :
    Within us (clauseTokens word (some ts)) :=
  h.right (spaced word)

theorem listClauseTokens {part : List Token} (h : Within us part) {parts : List (List Token)}
    (hpart : part ∈ parts) (word : Keyword) : Within us (listClauseTokens word parts) := by
  unfold EntityQuery.listClauseTokens
  rw [if_neg (by simpa using List.ne_nil_of_mem hpart)]
  exact (h.joined hpart listSeparator).right (spaced word)

/-- Native queries have each query in them, and each item of their order. -/
theorem nativeTokens_member {part : List Token} (h : Within us part) {members : List (List Token)}
    (hpart : part ∈ members) (operator : Option SetOperator) (orders : List (List Token)) :
    Within us (nativeTokens operator members orders) :=
  h.trans (of_isInfix (infix_nativeTokens hpart operator orders))

theorem nativeTokens_order {part : List Token} (h : Within us part) {orders : List (List Token)}
    (hpart : part ∈ orders) (operator : Option SetOperator) (members : List (List Token)) :
    Within us (nativeTokens operator members orders) :=
  (h.listClauseTokens hpart .ORDER_BY).right _

end Within

end Token

open Token (Within)

namespace Level

/-- Whether expressions have what is written of them on a level somewhere in a text. Nothing is said
of literals: one may be the name of a function, which need not be written. -/
def Holds (l : Level) (es : List Expr) (ts : List Token) : Prop :=
  ∀ e ∈ es, (∀ v, e ≠ .literal v) → ∃ us, l.Writes e us ∧ Within us ts

namespace Holds

variable {l : Level} {es es' : List Expr} {ts us : List Token}

theorem nil : l.Holds [] ts := by simp [Holds]

theorem single {e : Expr} {position : Position} (h : e.tokens l position = .ok us)
    (hus : Within us ts) : l.Holds [e] ts :=
  List.forall_mem_singleton.2 fun _ => ⟨us, ⟨position, h⟩, hus⟩

theorem append (h : l.Holds es ts) (h' : l.Holds es' ts) : l.Holds (es ++ es') ts :=
  List.forall_mem_append.2 ⟨h, h'⟩

theorem within (h : l.Holds es us) (hus : Within us ts) : l.Holds es ts := by
  intro e he hliteral
  obtain ⟨vs, hvs, hwithin⟩ := h e he hliteral
  exact ⟨vs, hvs, hwithin.trans hus⟩

end Holds

variable {l : Level} {ts : List Token}

theorem holds_listTokens {es : List Expr} {tss : List (List Token)}
    (h : Expr.listTokens l es = .ok tss) (hts : ∀ us ∈ tss, Within us ts) : l.Holds es ts := by
  rw [Expr.listTokens_eq_mapM, mapM_eq_ok] at h
  intro e he _
  obtain ⟨us, hus, hwritten⟩ := exists_of_mem_forall₂ h.flip he
  exact ⟨us, ⟨.value, hwritten⟩, hts us hus⟩

theorem holds_optionTokens {e? : Option Expr} {position : Position} {ts? : Option (List Token)}
    (h : Expr.optionTokens l position e? = .ok ts?) (hts : ∀ us ∈ ts?, Within us ts) :
    l.Holds e?.toList ts := by
  cases e? with
  | none => exact Holds.nil
  | some e =>
      simp only [Expr.optionTokens, bind_eq_ok, pure_eq_ok] at h
      obtain ⟨us, hwritten, rfl⟩ := h
      exact Holds.single hwritten (hts us rfl)

theorem holds_branchTokens {bs : List (Expr × Expr)} {position : Position}
    (h : Expr.branchTokens l position bs = .ok ts) :
    l.Holds (bs.flatMap fun b => [b.1, b.2]) ts := by
  induction bs generalizing ts with
  | nil => exact Holds.nil
  | cons b rest ih =>
      rw [Expr.branchTokens] at h
      simp only [bind_eq_ok, pure_eq_ok] at h
      obtain ⟨test, htest, result, hresult, others, hothers, rfl⟩ := h
      have htests : Within test (spaced .WHEN ++ test ++ spaced .THEN ++ result ++ others) :=
        (((Within.refl.right _).left _).left _).left _
      have hresults : Within result (spaced .WHEN ++ test ++ spaced .THEN ++ result ++ others) :=
        (Within.refl.right _).left _
      exact ((Holds.single htest htests).append (Holds.single hresult hresults)).append
        ((ih hothers).within (Within.refl.right _))

theorem holds_assignmentTokens {bs : List (Expr × Expr)} {tss : List (List Token)}
    (h : Expr.assignmentTokens l bs = .ok tss) (hts : ∀ us ∈ tss, Within us ts) :
    l.Holds (bs.flatMap fun b => [b.1, b.2]) ts := by
  rw [Expr.assignmentTokens_eq_mapM, mapM_eq_ok] at h
  intro e he
  obtain ⟨b, hb, he⟩ := List.mem_flatMap.1 he
  obtain ⟨us, hus, hwritten⟩ := exists_of_mem_forall₂ h.flip hb
  simp only [assignmentTokens, bind_eq_ok, pure_eq_ok] at hwritten
  obtain ⟨path, hpath, value, hvalue, rfl⟩ := hwritten
  have hboth : l.Holds [b.1, b.2] (path ++ [.space, .mark .equal, .space] ++ value) :=
    (Holds.single hpath ((Within.refl.left _).left _)).append
      (Holds.single hvalue (Within.refl.right _))
  exact hboth.within (hts _ hus) e he

theorem holds_selectItemTokens {is : List (SelectItem Expr)} {tss : List (List Token)}
    (h : SelectItem.listTokens l is = .ok tss) (hts : ∀ us ∈ tss, Within us ts) :
    l.Holds (is.map fun i => i.expr) ts := by
  rw [SelectItem.listTokens_eq_mapM, mapM_eq_ok] at h
  refine List.forall_mem_map.2 fun i hi _ => ?_
  obtain ⟨us, hus, hwritten⟩ := exists_of_mem_forall₂ h.flip hi
  simp only [selectItemTokens, bind_eq_ok, pure_eq_ok] at hwritten
  obtain ⟨item, hitem, rfl⟩ := hwritten
  exact ⟨item, ⟨.value, hitem⟩, (Within.refl.left _).trans (hts _ hus)⟩

theorem holds_orderItemTokens {is : List (OrderItem Expr)} {tss : List (List Token)}
    (h : OrderItem.listTokens l is = .ok tss) (hts : ∀ us ∈ tss, Within us ts) :
    l.Holds (is.map fun i => i.expr) ts := by
  rw [OrderItem.listTokens_eq_mapM, mapM_eq_ok] at h
  refine List.forall_mem_map.2 fun i hi _ => ?_
  obtain ⟨us, hus, hwritten⟩ := exists_of_mem_forall₂ h.flip hi
  simp only [orderItemTokens, bind_eq_ok, pure_eq_ok] at hwritten
  obtain ⟨item, hitem, rfl⟩ := hwritten
  exact ⟨item, ⟨.value, hitem⟩, (Within.refl.left _).trans (hts _ hus)⟩

/-- A join has its condition in it. -/
theorem holds_joinTokens {id : NodeId}
    (h : l.joinTokens id ((l.joins.condition? id).map (Expr.tokens l .predicate)) = .ok ts) :
    l.Holds (l.joins.condition? id).toList ts := by
  rw [joinTokens_eq, bind_eq_ok] at h
  obtain ⟨n, hn, h⟩ := h
  have hcondition : l.joins.condition? id = n.condition := by
    rw [JoinGraph.condition?, JoinGraph.require_eq_ok.1 hn, Option.bind_some]
  rw [hcondition] at h ⊢
  split at h
  · rw [(mentions_crossJoinTokens h).2]
    exact Holds.nil
  · rw [keywordJoinTokens] at h
    split at h
    · cases h
    · simp only [bind_eq_ok, pure_eq_ok] at h
      obtain ⟨joined, -, clause, hclause, rfl⟩ := h
      cases he : n.condition with
      | none => exact Holds.nil
      | some e =>
          simp only [he, Option.map_some, conditionClause, bind_eq_ok, pure_eq_ok] at hclause
          obtain ⟨written, hwritten, rfl⟩ := hclause
          exact Holds.single hwritten ((Within.refl.right _).right _)

theorem holds_joinListTokens {ids : List NodeId}
    (h : l.joinListTokens (JoinNode.conditionTokens l l.joins.nodes) ids = .ok ts) :
    l.Holds (ids.flatMap fun id => (l.joins.condition? id).toList) ts := by
  induction ids generalizing ts with
  | nil => exact Holds.nil
  | cons id rest ih =>
      rw [joinListTokens, join_conditionTokens] at h
      simp only [bind_eq_ok, pure_eq_ok] at h
      obtain ⟨first, hfirst, others, hothers, rfl⟩ := h
      exact ((holds_joinTokens hfirst).within (.left .refl _)).append
        ((ih hothers).within (.right _ .refl))

/-- The FROM clause has the conditions below its roots in it. -/
theorem holds_fromTokens
    (h : l.fromTokens (JoinNode.conditionTokens l l.joins.nodes) = .ok ts) :
    l.Holds (l.scope.joined.flatMap fun id => (l.joins.condition? id).toList) ts := by
  rw [fromTokens] at h
  simp only [bind_eq_ok, pure_eq_ok, mapM_eq_ok] at h
  obtain ⟨entries, hentries, rfl⟩ := h
  rw [Scope.joined, List.flatMap_assoc]
  intro e he
  obtain ⟨root, hroot, he⟩ := List.mem_flatMap.1 he
  obtain ⟨entry, hentry, hwritten⟩ := exists_of_mem_forall₂ hentries.flip hroot
  rw [entryTokens, JoinGraph.subtree_ne_nil] at hwritten
  simp only [bind_eq_ok, pure_eq_ok] at hwritten
  obtain ⟨opening, -, joins, hjoins, rfl⟩ := hwritten
  have hwithin : Within joins (joined listSeparator entries) :=
    (Within.refl.right opening).joined hentry listSeparator
  exact (holds_joinListTokens hjoins).within hwithin e he

theorem holds_deleteTokens {e? : Option Expr} {entity aliasName : String}
    {collection : Option String} {returning : List String}
    (h : l.deleteTokens entity aliasName collection (Expr.optionTokens l .predicate e?) returning =
      .ok ts) : l.Holds e?.toList ts := by
  simp only [deleteTokens, bind_eq_ok, pure_eq_ok] at h
  obtain ⟨condition, hcondition, reported, -, rfl⟩ := h
  refine holds_optionTokens hcondition fun us hus => ?_
  obtain rfl := Option.mem_def.1 hus
  exact ((Within.refl.clauseTokens .WHERE).right _).left _

end Level

namespace Expr

variable {l : Level} {position : Position} {ts : List Token}

theorem holds_call {f : String} {args : List Expr}
    (h : (call f args).tokens l position = .ok ts) : l.Holds args ts := by
  rw [tokens] at h
  split at h
  next houter =>
    rw [isOuterCall, Bool.and_eq_true, beq_iff_eq] at houter
    obtain ⟨e, rfl⟩ := List.length_eq_one_iff.1 houter.2
    exact Level.Holds.single h .refl
  next =>
    cases hname : genericName? f args with
    | none =>
        simp only [hname, bind_eq_ok, pure_eq_ok] at h
        obtain ⟨written, hwritten, rfl⟩ := h
        exact Level.holds_listTokens hwritten fun us hus => Within.refl.callTokens hus f false
    | some name =>
        simp only [hname] at h
        obtain ⟨written, hwritten, hpiece⟩ := RenderContext.infix_invocation h
        rw [restTokens_eq_mapM, ← listTokens_eq_mapM] at hwritten
        have hrest := Level.holds_listTokens hwritten fun us hus => Within.of_isInfix (hpiece us hus)
        cases args with
        | nil => exact hrest
        | cons first rest =>
            have hname : ∃ v, first = .literal v := by
              cases first with
              | literal v => exact ⟨v, rfl⟩
              | _ => simp [genericName?] at hname
            obtain ⟨v, rfl⟩ := hname
            exact List.forall_mem_cons.2 ⟨fun hliteral => absurd rfl (hliteral v), hrest⟩

/-- Any expression that is not itself a parameter or a subquery has in its text what is written of
the expressions in it. -/
theorem holds_writtenChildren {e : Expr} (hparameter : ∀ p, e ≠ .parameter p)
    (hsubquery : ∀ q, e ≠ .subquery q) (h : e.tokens l position = .ok ts) :
    l.Holds e.writtenChildren ts := by
  cases e with
  | path p => exact Level.Holds.nil
  | literal v => exact Level.Holds.nil
  | parameter p => exact absurd rfl (hparameter p)
  | call f args => exact holds_call h
  | aggregate f args d =>
      rw [tokens] at h
      split at h
      next hcount =>
        rw [isCountStar, Bool.and_eq_true, List.isEmpty_iff] at hcount
        obtain rfl := hcount.1
        exact Level.Holds.nil
      next =>
        simp only [bind_eq_ok, pure_eq_ok] at h
        obtain ⟨written, hwritten, rfl⟩ := h
        exact Level.holds_listTokens hwritten fun us hus => Within.refl.callTokens hus _ d
  | subquery q => exact absurd rfl (hsubquery q)
  | indexed base index => exact Level.Holds.nil
  | null => exact Level.Holds.nil
  | caseWhen operand branches otherwise =>
      rw [tokens] at h
      simp only [bind_eq_ok, pure_eq_ok] at h
      obtain ⟨first, hfirst, middle, hmiddle, last, hlast, rfl⟩ := h
      refine ((Level.holds_optionTokens hfirst fun us hus => ?_).append
        ((Level.holds_branchTokens hmiddle).within ?_)).append
          (Level.holds_optionTokens hlast fun us hus => ?_)
      · obtain rfl := Option.mem_def.1 hus
        exact (((((Within.refl.right [.space]).left _).left _).left _).right [.keyword .CASE])
      · exact ((((Within.refl.right _).left _).left _).right [.keyword .CASE])
      · obtain rfl := Option.mem_def.1 hus
        exact ((((Within.refl.clauseTokens .ELSE).right _).left _).right [.keyword .CASE])
  | binary left op right =>
      rw [tokens] at h
      simp only [bind_eq_ok, pure_eq_ok] at h
      obtain ⟨a, ha, b, hb, rfl⟩ := h
      exact (Level.Holds.single ha (((Within.refl.parenthesizeLooser _ _).left _).left _)).append
        (Level.Holds.single hb ((Within.refl.parenthesizeLooser _ _).right _))
  | not e =>
      rw [tokens] at h
      simp only [bind_eq_ok, pure_eq_ok] at h
      obtain ⟨written, hwritten, rfl⟩ := h
      exact Level.Holds.single hwritten ((Within.refl.parenthesizeLooser _ _).right _)
  | isNull e negated =>
      rw [tokens] at h
      simp only [bind_eq_ok, pure_eq_ok] at h
      obtain ⟨written, hwritten, rfl⟩ := h
      exact Level.Holds.single hwritten (Within.refl.left _)
  | like e pattern escape negated =>
      rw [tokens.eq_def] at h
      simp only [bind_eq_ok, pure_eq_ok] at h
      obtain ⟨a, ha, b, hb, rfl⟩ := h
      exact (Level.Holds.single ha (((((Within.refl.left _).left _).left _).left _).left _)).append
        (Level.Holds.single hb ((Within.refl.right _).left _))
  | oneOf e values negated =>
      rw [tokens] at h
      rw [writtenChildren]
      split at h
      next hempty =>
        rw [if_pos hempty]
        exact Level.Holds.nil
      next hvalues =>
        simp only [bind_eq_ok, pure_eq_ok] at h
        obtain ⟨a, ha, written, hwritten, rfl⟩ := h
        rw [if_neg hvalues]
        refine (Level.Holds.single ha ((((Within.refl.left _).left _).left _).left _)).append
          (Level.holds_listTokens hwritten fun us hus => Within.right _ ?_)
        split
        · exact Within.refl.joined hus listSeparator
        · exact (Within.refl.joined hus listSeparator).parenthesized
  | between e low high negated =>
      rw [tokens] at h
      simp only [bind_eq_ok, pure_eq_ok] at h
      obtain ⟨a, ha, b, hb, c, hc, rfl⟩ := h
      exact (Level.Holds.single ha
        ((((((Within.refl.left _).left _).left _).left _).left _).left _)).append
          ((Level.Holds.single hb (((Within.refl.right _).left _).left _)).append
            (Level.Holds.single hc (Within.refl.right _)))
  | parens e =>
      rw [tokens] at h
      simp only [bind_eq_ok, pure_eq_ok] at h
      obtain ⟨written, hwritten, rfl⟩ := h
      exact Level.Holds.single hwritten Within.refl.parenthesized
  | verbatim s => exact Level.Holds.nil

end Expr

/-- A query level has the body of each of its common tables in it. -/
theorem Cte.within_listTokens {ctx : RenderContext} {cs : List Cte} {tables : List (List Token)}
    (h : Cte.listTokens ctx cs = .ok tables) {c : Cte} (hc : c ∈ cs) :
    ∃ body table, c.body.tokens ctx.nested c.entity = .ok body ∧ table ∈ tables ∧
      Within body table := by
  rw [Cte.listTokens_eq_mapM, mapM_eq_ok] at h
  obtain ⟨table, htable, hwritten⟩ := exists_of_mem_forall₂ h.flip hc
  simp only [Cte.tokens, bind_eq_ok, pure_eq_ok] at hwritten
  obtain ⟨-, -, body, hbody, rfl⟩ := hwritten
  exact ⟨body, _, hbody, htable, Within.refl.parenthesized.right _⟩

/-- A query level has its common tables in it, and the expressions of its clauses. -/
theorem Select.holds_tokens {ctx : RenderContext} {s : Select} {ts : List Token}
    (h : s.tokens ctx = .ok ts) :
    (∀ c ∈ s.ctes, ∃ body, c.body.tokens ctx.nested c.entity = .ok body ∧ Within body ts) ∧
      (s.level ctx).Holds s.writtenParts ts := by
  rw [tokens_eq] at h
  split at h
  · cases h
  split at h
  · cases h
  simp only [bind_eq_ok, pure_eq_ok] at h
  obtain ⟨tables, htables, selected, hselected, entries, hentries, condition, hcondition, groups,
    hgroups, having?, hhaving, orders, horders, rfl⟩ := h
  -- the clauses one by one, from the last to the first
  have horder : ∀ us ∈ orders, Within us
      (s.assembled ctx tables selected entries condition groups having? orders) := fun us hus =>
    (Within.refl.listClauseTokens hus .ORDER_BY).right _
  have hhavings : ∀ us ∈ having?, Within us
      (s.assembled ctx tables selected entries condition groups having? orders) := by
    rintro us ⟨⟩
    exact ((Within.refl.clauseTokens .HAVING).right _).left _
  have hgroup : ∀ us ∈ groups, Within us
      (s.assembled ctx tables selected entries condition groups having? orders) := fun us hus =>
    (((Within.refl.listClauseTokens hus .GROUP_BY).right _).left _).left _
  have hconditions : ∀ us ∈ condition, Within us
      (s.assembled ctx tables selected entries condition groups having? orders) := by
    rintro us ⟨⟩
    exact ((((Within.refl.clauseTokens .WHERE).right _).left _).left _).left _
  have hfrom : Within entries
      (s.assembled ctx tables selected entries condition groups having? orders) :=
    ((((Within.refl.right _).left _).left _).left _).left _
  have hitems : ∀ us ∈ selected, Within us
      (s.assembled ctx tables selected entries condition groups having? orders) := by
    intro us hus
    have hne : ¬s.items.isEmpty = true := by
      intro hempty
      rw [List.isEmpty_iff.1 hempty, SelectItem.listTokens, Except.ok.injEq] at hselected
      rw [← hselected] at hus
      cases hus
    rw [assembled, if_neg hne]
    exact (((((((Within.refl.joined hus listSeparator).right _).left _).left _).left _).left
      _).left _).left _
  refine ⟨fun c hc => ?_, ?_⟩
  · obtain ⟨body, table, hbody, htable, hwithin⟩ := Cte.within_listTokens htables hc
    refine ⟨body, hbody, ?_⟩
    rw [assembled, if_neg (by simpa using List.ne_nil_of_mem hc)]
    exact (((((((((((hwithin.joined htable listSeparator).right _).left _).left _).left _).left
      _).left _).left _).left _).left _).left _).left _
  · exact (((((Level.holds_selectItemTokens hselected hitems).append
      ((Level.holds_fromTokens hentries).within hfrom)).append
      (Level.holds_optionTokens hcondition hconditions)).append
      (Level.holds_listTokens hgroups hgroup)).append
      (Level.holds_optionTokens hhaving hhavings)).append
      (Level.holds_orderItemTokens horders horder)

theorem Update.holds_tokens {ctx : RenderContext} {u : Update} {ts : List Token}
    (h : u.tokens ctx = .ok ts) :
    Level.Holds ⟨ctx, u.target.aliases, u.target.joins⟩
      ((u.assignments.flatMap fun a => [a.1, a.2]) ++ u.condition.toList) ts := by
  rw [tokens_eq] at h
  split at h
  · cases h
  simp only [bind_eq_ok, pure_eq_ok] at h
  obtain ⟨pairs, hpairs, condition, hcondition, reported, -, rfl⟩ := h
  refine (Level.holds_assignmentTokens hpairs fun us hus => ?_).append
    (Level.holds_optionTokens hcondition ?_)
  · exact (((Within.refl.joined hus listSeparator).right _).left _).left _
  · rintro us ⟨⟩
    exact ((Within.refl.clauseTokens .WHERE).right _).left _

theorem CollectionDelete.holds_tokens {ctx : RenderContext} {d : CollectionDelete}
    {ts : List Token} (h : d.tokens ctx = .ok ts) :
    Level.Holds ⟨ctx, d.target.aliases, d.target.joins⟩ d.condition.toList ts := by
  rw [tokens_eq] at h
  split at h
  · exact Level.holds_deleteTokens h
  · cases h

theorem Delete.holds_tokens {ctx : RenderContext} {d : Delete} {ts : List Token}
    (h : d.tokens ctx = .ok ts) :
    Level.Holds ⟨ctx, d.target.aliases, d.target.joins⟩ d.condition.toList ts := by
  rw [tokens] at h
  exact Level.holds_deleteTokens h

theorem OrderItem.holds_resultTokens {ctx : RenderContext} {is : List (OrderItem Expr)}
    {tss : List (List Token)} (h : resultTokens ctx is = .ok tss) {ts : List Token}
    (hts : ∀ us ∈ tss, Within us ts) :
    Level.Holds ⟨ctx, {}, {}⟩ (is.map fun i => i.expr) ts := by
  rw [resultTokens_eq] at h
  exact Level.holds_orderItemTokens h hts

namespace FunctionForm

variable {form whole : FunctionForm} {ctx : RenderContext} {us ts : List Token}

/-- What is written of a function form stands in the text of every form that it is an argument
of. -/
theorem Within.tokens (h : form.Within whole) (hwhole : whole.tokens ctx = .ok ts) :
    ∃ us, form.tokens ctx = .ok us ∧ Token.Within us ts := by
  obtain ⟨us, hus, hpiece⟩ := h.infix_tokens hwhole
  exact ⟨us, hus, .of_isInfix hpiece⟩

/-- The order of a combined result stands in the text of its call, item by item, in quotes. -/
theorem within_order {op : SetOperator} {members : List FunctionForm} {orders : List (List Token)}
    {limits : Limits} (h : (combined op members orders limits).tokens ctx = .ok ts) :
    ∀ order ∈ orders, Token.Within order ts := by
  intro order horder
  have hmem : FunctionForm.order order ∈
      members ++ orderArguments orders ++ limitArguments limits := by
    rw [orderArguments, if_neg (by simpa using List.ne_nil_of_mem horder)]
    exact List.mem_append_left _ (List.mem_append_right _
      (List.mem_cons_of_mem _ (List.mem_map_of_mem horder)))
  obtain ⟨us, hus, hwithin⟩ := (Within.argument hmem .refl).tokens h
  rw [FunctionForm.tokens, Except.ok.injEq] at hus
  rw [← hus] at hwithin
  exact (Token.Within.refl.quoted).trans hwithin

end FunctionForm

end EntityQuery
