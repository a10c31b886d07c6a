import EntityQuery.Proofs.Outcome
import EntityQuery.Proofs.Render.Equations
import EntityQuery.Proofs.Render.Sites

/-!
The parameters that a text mentions, token by token, and how they relate to the parameters that are
known to whoever runs it. What is written of names and joins mentions no parameter.
-/

namespace EntityQuery

open Token (parenthesized spaced listSeparator joined)

namespace Token

mutual

/-- The parameters that a token mentions, inside text literals too. -/
def parameters : Token → List String
  | .parameter p => [p]
  | .quoted tokens => mentions tokens
  | .keyword _ | .mark _ | .space | .booleanValue _ | .booleanCondition _ | .nullValue
  | .nullComparison _ | .escapeCharacter _ | .conditionKeyword | .name _ | .integer _ | .float _
  | .string _ | .function _ | .raw _ => []

/-- The parameters that tokens mention, in the order of the text. -/
def mentions : List Token → List String
  | [] => []
  | t :: rest => t.parameters ++ mentions rest

end

attribute [simp] parameters mentions

@[simp] theorem mentions_append (ts us : List Token) :
    mentions (ts ++ us) = mentions ts ++ mentions us := by
  induction ts with
  | nil => rfl
  | cons t rest ih => simp [ih]

@[simp] theorem mentions_parenthesized (ts : List Token) :
    mentions (parenthesized ts) = mentions ts := by
  simp [parenthesized]

theorem mentions_optional (p : Prop) [Decidable p] {ts : List Token} (h : mentions ts = []) :
    mentions (if p then ts else []) = [] := by
  split
  · exact h
  · rfl

@[simp] theorem mentions_spaced (word : Keyword) : mentions (spaced word) = [] := by
  simp [spaced]

@[simp] theorem mentions_listSeparator : mentions listSeparator = [] := by
  simp [listSeparator, comma]

theorem mentions_joined {separator : List Token} (h : mentions separator = [])
    (parts : List (List Token)) : mentions (joined separator parts) = parts.flatMap mentions := by
  induction parts with
  | nil => rfl
  | cons part rest ih =>
      cases rest with
      | nil => simp [joined]
      | cons next rest =>
          rw [joined_cons_cons, mentions_append, mentions_append, h, List.nil_append, ih]
          rfl

@[simp] theorem mentions_joined_listSeparator (parts : List (List Token)) :
    mentions (joined listSeparator parts) = parts.flatMap mentions :=
  mentions_joined mentions_listSeparator parts

@[simp] theorem mentions_joined_comma (parts : List (List Token)) :
    mentions (joined [comma] parts) = parts.flatMap mentions :=
  mentions_joined (by simp [comma]) parts

end Token

open Token (mentions)

@[simp] theorem mentions_negation (negated : Bool) : mentions (negation negated) = [] := by
  cases negated <;> simp [negation]

@[simp] theorem mentions_parenthesizeLooser (precedence : Nat) (operand : Expr) (ts : List Token) :
    mentions (parenthesizeLooser precedence operand ts) = mentions ts := by
  cases operand with
  | binary left op right =>
      rw [parenthesizeLooser]
      split
      · exact Token.mentions_parenthesized ts
      · rfl
  | _ => rfl

@[simp] theorem mentions_callTokens (function : String) (distinct : Bool)
    (args : List (List Token)) :
    mentions (callTokens function distinct args) = args.flatMap mentions := by
  cases distinct <;> simp [callTokens]

@[simp] theorem mentions_clauseTokens (word : Keyword) (content : Option (List Token)) :
    mentions (clauseTokens word content) = content.toList.flatMap mentions := by
  cases content <;> simp [clauseTokens]

@[simp] theorem mentions_listClauseTokens (word : Keyword) (items : List (List Token)) :
    mentions (listClauseTokens word items) = items.flatMap mentions := by
  cases items <;> simp [listClauseTokens]

@[simp] theorem mentions_orderTokens (direction : SortDirection) (nulls : Option NullsOrder) :
    mentions (OrderItem.orderTokens direction nulls) = [] := by
  cases nulls <;> simp [OrderItem.orderTokens]

@[simp] theorem mentions_nativeTokens (operator : Option SetOperator)
    (members orders : List (List Token)) :
    mentions (nativeTokens operator members orders) =
      members.flatMap mentions ++ orders.flatMap mentions := by
  have hseparated (separator : List Token) (h : mentions separator = []) :
      mentions (joined separator members ++
          if orders.isEmpty then [] else spaced .ORDER_BY ++ joined listSeparator orders) =
        members.flatMap mentions ++ orders.flatMap mentions := by
    rw [Token.mentions_append, Token.mentions_joined h]
    cases orders <;> simp
  cases operator with
  | none => exact hseparated [] rfl
  | some op =>
      refine hseparated ([.space] ++ op.tokens ++ [.space]) ?_
      cases op <;> simp [SetOperator.tokens, SetOperator.keepsAll]

theorem RenderContext.mentions_invocation {ctx : RenderContext} {name : String} {count : Nat}
    {args : Except QueryError (List (List Token))} {ts : List Token}
    (h : ctx.invocation name count args = .ok ts) :
    ∃ written, args = .ok written ∧ mentions ts = written.flatMap mentions := by
  rw [invocation] at h
  split at h
  · obtain ⟨written, hargs, rfl⟩ := by simpa using h
    exact ⟨written, hargs, by simp⟩
  · split at h
    · obtain ⟨written, hargs, rfl⟩ := by simpa using h
      refine ⟨written, hargs, ?_⟩
      cases written <;> simp [Token.mentions_joined_comma]
    · cases h

namespace FunctionForm

mutual

/-- The parameters that a function form mentions. -/
def mentions : FunctionForm → List String
  | level ts => Token.mentions ts
  | word _ => []
  | order ts => Token.mentions ts
  | number _ => []
  | call _ args => mentionsList args

def mentionsList : List FunctionForm → List String
  | [] => []
  | form :: rest => form.mentions ++ mentionsList rest

end

theorem mentionsList_eq (forms : List FunctionForm) :
    mentionsList forms = forms.flatMap mentions := by
  induction forms with
  | nil => rfl
  | cons form rest ih => rw [mentionsList, ih, List.flatMap_cons]

mutual

theorem mentions_tokens {ctx : RenderContext} (form : FunctionForm) {ts : List Token}
    (h : form.tokens ctx = .ok ts) : Token.mentions ts = form.mentions := by
  cases form with
  | level tokens =>
      rw [FunctionForm.tokens, Except.ok.injEq] at h
      rw [← h, mentions]
  | word s =>
      rw [FunctionForm.tokens, Except.ok.injEq] at h
      simp [← h, mentions]
  | order tokens =>
      rw [FunctionForm.tokens, Except.ok.injEq] at h
      simp [← h, mentions]
  | number n =>
      rw [FunctionForm.tokens, Except.ok.injEq] at h
      simp [← h, mentions]
  | call f args =>
      rw [FunctionForm.tokens] at h
      obtain ⟨written, hargs, hmentions⟩ := RenderContext.mentions_invocation h
      rw [hmentions, mentions]
      exact mentions_tokensList args hargs

theorem mentions_tokensList {ctx : RenderContext} (forms : List FunctionForm)
    {tss : List (List Token)} (h : tokensList ctx forms = .ok tss) :
    tss.flatMap Token.mentions = mentionsList forms := by
  cases forms with
  | nil =>
      rw [tokensList, Except.ok.injEq] at h
      rw [← h, mentionsList, List.flatMap_nil]
  | cons form rest =>
      rw [tokensList] at h
      simp only [bind_eq_ok, pure_eq_ok] at h
      obtain ⟨ts, hform, tss', hrest, rfl⟩ := h
      rw [List.flatMap_cons, mentionsList, mentions_tokens form hform,
        mentions_tokensList rest hrest]

end

theorem mentions_limited {form limitedForm : FunctionForm} {limits : Limits}
    (h : limited form limits = .ok limitedForm) : limitedForm.mentions = form.mentions := by
  obtain ⟨first, max⟩ := limits
  cases max with
  | none =>
      cases first with
      | none => cases h; rfl
      | some _ => cases h
  | some m =>
      cases first with
      | none => cases h; simp [mentions, mentionsList]
      | some f => cases h; simp [mentions, mentionsList]

theorem mentions_combined (operator : SetOperator) (members : List FunctionForm)
    (orders : List (List Token)) (limits : Limits) :
    (combined operator members orders limits).mentions =
      members.flatMap mentions ++ orders.flatMap Token.mentions := by
  have horders : (orderArguments orders).flatMap mentions = orders.flatMap Token.mentions := by
    cases orders with
    | nil => rfl
    | cons first rest => simp [orderArguments, mentions, List.flatMap_map]
  have hlimits : (limitArguments limits).flatMap mentions = [] := by
    obtain ⟨first, max⟩ := limits
    cases first <;> cases max <;> simp [limitArguments, mentions]
  rw [combined, mentions, mentionsList_eq, List.flatMap_append, List.flatMap_append, horders,
    hlimits, List.append_nil]

end FunctionForm

namespace Level

variable {l : Level} {ts : List Token}

theorem mentions_prefixTokens (ctx : RenderContext) : mentions ctx.prefixTokens = [] := by
  rw [RenderContext.prefixTokens]
  cases ctx.options.aliasPrefix <;> simp

theorem mentions_outerPrefixTokens (ctx : RenderContext) (path : String) :
    mentions (ctx.outerPrefixTokens path) = [] := by
  rw [RenderContext.outerPrefixTokens]
  cases ctx.outer with
  | none => rfl
  | some scope =>
      dsimp only
      split <;> simp

@[simp] theorem parameters_declared (l : Level) (aliasName : String) :
    (l.declared aliasName).parameters = [] := by
  simp [declared]

theorem mentions_nodeTokens {node : NodeId} {field : Option String} {p : Path}
    (h : l.nodeTokens node field p = .ok ts) : mentions ts = [] := by
  simp only [nodeTokens] at h
  cases hnode : l.joins.node? node with
  | none => simp [hnode] at h
  | some n =>
      simp only [hnode, Except.ok.injEq] at h
      rw [← h]
      cases l.context.capabilities.mapValueFunction with
      | none => cases field <;> simp [mentions_prefixTokens, Token.dot]
      | some function =>
          dsimp only
          split <;> cases field <;> simp [mentions_prefixTokens, Token.dot]

theorem mentions_resolvedTokens {p : Path} (h : l.resolvedTokens p = .ok ts) :
    mentions ts = [] := by
  rw [resolvedTokens] at h
  cases hbase : p.base with
  | some node =>
      simp only [hbase] at h
      exact mentions_nodeTokens h
  | none =>
      simp only [hbase] at h
      cases hentry : l.aliases.find? p.head with
      | none =>
          simp only [hentry, Except.ok.injEq] at h
          simp [← h, mentions_outerPrefixTokens]
      | some entry =>
          cases entry with
          | join aliasName node implicit =>
              simp only [hentry] at h
              exact mentions_nodeTokens h
          | select aliasName expr =>
              simp only [hentry, Except.ok.injEq] at h
              simp [← h]

theorem mentions_pathTokens {p : Path} (h : l.pathTokens p = .ok ts) : mentions ts = [] := by
  rw [pathTokens] at h
  split at h
  · cases hend : l.aliases.chainEnd p with
    | path target =>
        simp only [hend] at h
        exact mentions_resolvedTokens h
    | cycle aliasName =>
        simp only [hend, Except.ok.injEq] at h
        simp [← h]
  · exact mentions_resolvedTokens h

theorem mentions_literalTokens {position : Position} {v : Literal}
    (h : literalTokens position v = .ok ts) : mentions ts = [] := by
  cases v with
  | float x =>
      rw [literalTokens] at h
      split at h
      · cases h
        simp
      · cases h
  | bool b =>
      cases position <;>
      · cases h
        simp
  | _ =>
      cases h
      simp

theorem mentions_parameterTokens {p : Parameter} (h : l.parameterTokens p = .ok ts) :
    mentions ts = p.name.toList := by
  rw [parameterTokens] at h
  cases hname : p.name with
  | none => simp [hname] at h
  | some name =>
      simp only [hname] at h
      split at h
      · cases h
        simp
      · cases h
        simp

theorem mentions_rootTokens {id : NodeId} (h : l.rootTokens id = .ok ts) : mentions ts = [] := by
  rw [rootTokens] at h
  obtain ⟨n, -, h⟩ := bind_eq_ok.1 h
  cases hsource : n.source with
  | root entity =>
      simp only [hsource, pure_bind, pure_eq_ok] at h
      simp [← h]
  | correlated path =>
      simp only [hsource, pure_bind, pure_eq_ok] at h
      simp [← h, mentions_outerPrefixTokens]
  | _ =>
      simp only [hsource] at h
      cases h

theorem mentions_joinedTokens {n : JoinNode Expr} (h : l.joinedTokens n = .ok ts) :
    mentions ts = [] := by
  rw [joinedTokens] at h
  cases hsource : n.source with
  | ofAttribute name relation =>
      simp only [hsource] at h
      split at h
      · cases h
        simp [Token.dot]
      · cases h
  | ofEntity entity =>
      simp only [hsource, Except.ok.injEq] at h
      simp [← h]
  | _ =>
      simp only [hsource] at h
      cases h

theorem mentions_crossJoinTokens {n : JoinNode Expr} (h : l.crossJoinTokens n = .ok ts) :
    mentions ts = [] ∧ n.condition = none := by
  rw [crossJoinTokens] at h
  cases hsource : n.source with
  | ofEntity entity =>
      simp only [hsource] at h
      split at h
      · cases h
      · next hcondition =>
          cases h
          exact ⟨by simp, by simpa using hcondition⟩
  | _ =>
      simp only [hsource] at h
      cases h

theorem mentions_rootListTokens (l : Level) : mentions l.rootListTokens = [] := by
  rw [rootListTokens, Token.mentions_joined_listSeparator, List.flatMap_eq_nil_iff]
  intro tokens htokens
  obtain ⟨root, -, rfl⟩ := List.mem_map.1 htokens
  cases l.joins.node? root <;> simp

theorem mentions_returningTokens {paths : List String} (h : l.returningTokens paths = .ok ts) :
    mentions ts = [] := by
  rw [returningTokens] at h
  split at h
  · cases h
    rfl
  · split at h
    · cases h
    · obtain ⟨items, hitems, hts⟩ := bind_eq_ok.1 h
      rw [pure_eq_ok] at hts
      rw [← hts, mentions_listClauseTokens, List.flatMap_eq_nil_iff]
      intro item hitem
      obtain ⟨path, -, hpath⟩ := exists_of_mem_mapM hitems hitem
      exact mentions_pathTokens hpath

end Level

theorem mentions_operator (op : BinaryOperator) : op.token.parameters = [] := by
  cases op <;> rfl

theorem mentions_countStarTokens {ctx : RenderContext} {ts : List Token}
    (h : ctx.countStarTokens = .ok ts) : mentions ts = [] := by
  rw [RenderContext.countStarTokens] at h
  split at h
  · cases h
    simp
  · obtain ⟨written, hwritten, hmentions⟩ := RenderContext.mentions_invocation h
    cases hwritten
    simpa using hmentions

theorem Select.mentions_assembled {ctx : RenderContext} {s : Select}
    {tables selected groups orders : List (List Token)} {entries : List Token}
    {condition groupCondition : Option (List Token)} (htables : s.ctes = [] → tables = [])
    (hselected : s.items = [] → selected = []) :
    mentions (s.assembled ctx tables selected entries condition groups groupCondition orders) =
      tables.flatMap mentions ++ selected.flatMap mentions ++ mentions entries
        ++ condition.toList.flatMap mentions ++ groups.flatMap mentions
        ++ groupCondition.toList.flatMap mentions ++ orders.flatMap mentions := by
  have hwords (p : Prop) [Decidable p] (word : Keyword) :
      mentions (if p then [.keyword word, .space] else []) = [] :=
    Token.mentions_optional p (by simp)
  have hopening : mentions (if s.ctes.isEmpty then []
      else [Token.keyword .WITH, .space]
        ++ (if s.ctes.any Cte.recursive then [Token.keyword .RECURSIVE, .space] else [])
        ++ joined listSeparator tables ++ [Token.space]) = tables.flatMap mentions := by
    by_cases hempty : s.ctes = []
    · simp [hempty, htables hempty]
    · simp [hempty, hwords]
  have hlist : mentions (if s.items.isEmpty then (s.level ctx).rootListTokens
      else joined listSeparator selected) = selected.flatMap mentions := by
    by_cases hempty : s.items = []
    · simp [hempty, hselected hempty, Level.mentions_rootListTokens]
    · simp [hempty]
  simp only [assembled, Token.mentions_append, hopening, hlist, hwords]
  simp

end EntityQuery
