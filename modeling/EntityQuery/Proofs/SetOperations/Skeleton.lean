import EntityQuery.Proofs.Render.Parts
import EntityQuery.Proofs.Rewriting.Agreement
import EntityQuery.Proofs.SetOperations.Tree

/-!
What an expression says about the query that it is the function form of. The queries, the order and
the limits of a set operation share one list of arguments without lengths. Still each part is told
from the next: no query is a literal, and no item of an order is a word that announces a limit. So
the skeleton of the query, which is all of it but the inside of its levels, is read off the
expression, and queries with different skeletons have different expressions.
-/

namespace EntityQuery

/-- What a query is put together from, with the texts of its levels and of its orders. -/
inductive Skeleton where
  | level (text : String) (limits : Limits)
  | combined (operator : SetOperator) (members : List Skeleton) (orders : List String)
      (limits : Limits)

mutual

/-- The skeleton of a query, with its levels and orders as the dialect writes them. -/
def Query.skeleton (ctx : RenderContext) : Query → Except QueryError Skeleton
  | .select s => do
      let level ← s.tokens ctx.nested
      return .level (tokensText ctx.dialect level) s.limits
  | .combined c => c.skeleton ctx

def Query.skeletons (ctx : RenderContext) : List Query → Except QueryError (List Skeleton)
  | [] => .ok []
  | q :: rest => do
      let first ← q.skeleton ctx
      let rest ← Query.skeletons ctx rest
      return first :: rest

def SetOperation.skeleton (ctx : RenderContext) : SetOperation → Except QueryError Skeleton
  | ⟨operator, start, operands, orderBy, limits⟩ =>
      match operator with
      | none => start.skeleton ctx
      | some op => do
          let start ← start.skeleton ctx
          let operands ← Query.skeletons ctx operands
          let orders ← OrderItem.resultTokens ctx orderBy
          return .combined op (start :: operands) (orders.map (tokensText ctx.dialect)) limits

end

/-- The operator that a function stands for. -/
def SetOperator.ofMarker? (name : String) : Option SetOperator :=
  [union, unionAll, intersect, intersectAll, except, exceptAll].find? fun op => op.marker = name

theorem SetOperator.ofMarker?_marker (op : SetOperator) : ofMarker? op.marker = some op := by
  cases op <;> decide

/-- The limits that groups of arguments state, each a word and a number. -/
def Limits.ofGroups? : List Expr → Option Limits
  | [] => some {}
  | [.literal (.string word), .literal (.int n)] =>
      if word = "LIMIT" then some { max := some n.toUInt64 }
      else some { first := some n.toUInt64 }
  | [_, .literal (.int max), _, .literal (.int first)] =>
      some { max := some max.toUInt64, first := some first.toUInt64 }
  | _ => none

namespace Skeleton

/-- The texts that arguments start with, up to a word that announces a limit. -/
def splitTexts : List Expr → List String × List Expr
  | .literal (.string s) :: rest =>
      if s = "LIMIT" ∨ s = "OFFSET" then ([], .literal (.string s) :: rest)
      else (s :: (splitTexts rest).1, (splitTexts rest).2)
  | args => ([], args)

/-- The skeleton of a query level with the numbers after it. -/
def ofLimited? : List Skeleton → List Expr → Option Skeleton
  | [level text _], [.literal (.int max)] => some (level text { max := some max.toUInt64 })
  | [level text _], [.literal (.int max), .literal (.int first)] =>
      some (level text { max := some max.toUInt64, first := some first.toUInt64 })
  | _, _ => none

/-- The skeleton of a set operation with the words after its queries. The first of their texts says
that the others are an order. -/
def ofCombined? (operator : SetOperator) (members : List Skeleton) (words : List Expr) :
    Option Skeleton :=
  (Limits.ofGroups? (splitTexts words).2).map
    (combined operator members (splitTexts words).1.tail)

mutual

/-- The skeleton of the query that an expression is the function form of. -/
def ofExpr? : Expr → Option Skeleton
  | .verbatim text => some (level (String.ofList text.toList.tail.dropLast) {})
  | .call _ (.literal (.string name) :: args) =>
      match ofArguments? args with
      | some (members, words) =>
          match SetOperator.ofMarker? name with
          | some operator => ofCombined? operator members words
          | none => ofLimited? members words
      | none => none
  | _ => none

/-- The skeletons that arguments start with, and the arguments after them. -/
def ofArguments? : List Expr → Option (List Skeleton × List Expr)
  | [] => some ([], [])
  | .literal v :: rest => some ([], .literal v :: rest)
  | e :: rest =>
      match ofExpr? e, ofArguments? rest with
      | some first, some (members, words) => some (first :: members, words)
      | _, _ => none

end

/-- Whether a text tells itself apart from the words that announce limits. -/
def IsItem (text : String) : Prop := ' ' ∈ text.toList

/-- Texts of items come out as they are, and what announces a limit stays behind. -/
theorem splitTexts_append {texts : List String} (h : ∀ text ∈ texts, IsItem text)
    (groups : List Expr) :
    splitTexts (texts.map Expr.string ++ groups) =
      (texts ++ (splitTexts groups).1, (splitTexts groups).2) := by
  induction texts with
  | nil => rfl
  | cons text rest ih =>
      obtain ⟨hitem, hrest⟩ := List.forall_mem_cons.1 h
      have hword : ¬(text = "LIMIT" ∨ text = "OFFSET") := by
        rintro (rfl | rfl)
        · exact absurd hitem (by simp [IsItem])
        · exact absurd hitem (by simp [IsItem])
      rw [List.map_cons, List.cons_append, Expr.string, splitTexts, if_neg hword, ih hrest,
        List.cons_append]

theorem splitTexts_arguments (limits : Limits) :
    splitTexts limits.arguments = ([], limits.arguments) := by
  obtain ⟨first, max⟩ := limits
  cases max <;> cases first <;> rfl

theorem ofGroups?_arguments (limits : Limits) :
    Limits.ofGroups? limits.arguments = some limits := by
  obtain ⟨first, max⟩ := limits
  cases max <;> cases first <;>
    simp [Limits.arguments, Limits.group, Limits.ofGroups?, Expr.string, Expr.int]

/-- The order and the limits of a set operation are read off the arguments after its queries. -/
theorem ofCombined?_words (d : Dialect) (operator : SetOperator) (members : List Skeleton)
    {orders : List (List Token)} (h : ∀ order ∈ orders, IsItem (tokensText d order))
    (limits : Limits) :
    ofCombined? operator members (SetTree.orderGroup d orders ++ limits.arguments) =
      some (combined operator members (orders.map (tokensText d)) limits) := by
  have hsplit : splitTexts (SetTree.orderGroup d orders ++ limits.arguments) =
      ((if orders.isEmpty then [] else "ORDER_BY" :: orders.map (tokensText d)),
        limits.arguments) := by
    cases orders with
    | nil => exact splitTexts_arguments limits
    | cons order rest =>
        have hitems : ∀ text ∈ (order :: rest).map (tokensText d), IsItem text :=
          List.forall_mem_map.2 h
        have htexts := splitTexts_append hitems limits.arguments
        rw [splitTexts_arguments, List.append_nil, List.map_map] at htexts
        rw [SetTree.orderGroup, List.isEmpty_cons, if_neg Bool.false_ne_true,
          if_neg Bool.false_ne_true, List.cons_append, Expr.string, splitTexts, if_neg (by decide)]
        exact congrArg (fun split => ("ORDER_BY" :: split.1, split.2)) htexts
  rw [ofCombined?, hsplit, ofGroups?_arguments]
  cases orders <;> rfl

/-- The skeletons of queries are read up to the words after them. -/
theorem ofArguments?_append {es : List Expr} {members : List Skeleton} {words : List Expr}
    (h : List.Forall₂ (fun e member => ofExpr? e = some member) es members)
    (hwords : ofArguments? words = some ([], words)) :
    ofArguments? (es ++ words) = some (members, words) := by
  induction h with
  | nil => exact hwords
  | @cons e member rest _ he _ ih =>
      cases e with
      | literal v => simp [ofExpr?] at he
      | _ => simp [ofArguments?, he, ih]

theorem ofArguments?_words (d : Dialect) (orders : List (List Token)) (limits : Limits) :
    ofArguments? (SetTree.orderGroup d orders ++ limits.arguments) =
      some ([], SetTree.orderGroup d orders ++ limits.arguments) := by
  obtain ⟨first, max⟩ := limits
  cases orders <;> cases max <;> cases first <;> rfl

theorem ofExpr?_parenthesized (d : Dialect) (tokens : List Token) :
    ofExpr? (.verbatim (tokensText d (Token.parenthesized tokens))) =
      some (level (tokensText d tokens) {}) := by
  have htext : (tokensText d (Token.parenthesized tokens)).toList.tail.dropLast =
      (tokensText d tokens).toList := by
    simp [Token.parenthesized, tokensText, tokensText_append, Token.text, Mark.text]
  rw [ofExpr?, htext, String.ofList_toList]

end Skeleton

/-- The text of an item of an order ends with its direction, which stands after a space. -/
theorem OrderItem.isItem_resultTokens {ctx : RenderContext} {is : List (OrderItem Expr)}
    {orders : List (List Token)} (h : OrderItem.resultTokens ctx is = .ok orders) :
    ∀ order ∈ orders, Skeleton.IsItem (tokensText ctx.dialect order) := by
  rw [resultTokens_eq, listTokens_eq_mapM] at h
  intro order horder
  obtain ⟨i, -, hi⟩ := exists_of_mem_mapM h horder
  simp only [Level.orderItemTokens, bind_eq_ok, pure_eq_ok] at hi
  obtain ⟨ts, -, rfl⟩ := hi
  rw [Skeleton.IsItem, tokensText_append, String.toList_append]
  refine List.mem_append_right _ ?_
  simp [orderTokens, tokensText, Token.text]

namespace Skeleton

theorem ofExpr?_generic {name : String} {args words : List Expr} {members : List Skeleton}
    (h : ofArguments? args = some (members, words)) :
    ofExpr? (Expr.generic name args) =
      match SetOperator.ofMarker? name with
      | some operator => ofCombined? operator members words
      | none => ofLimited? members words := by
  rw [Expr.generic, Expr.string, ofExpr?, h]

/-- A query level within limits is read with them. -/
theorem ofExpr?_limited {d : Dialect} {tokens : List Token} {limits : Limits} {form : FunctionForm}
    (h : FunctionForm.limited (.level (Token.parenthesized tokens)) limits = .ok form) :
    ofExpr? (form.toExpr d) = some (level (tokensText d tokens) limits) := by
  have hlevel := ofExpr?_parenthesized d tokens
  have hlimit : SetOperator.ofMarker? "LIMIT" = none := by decide
  have hcall (words : List Expr) (hwords : ofArguments? words = some ([], words)) :
      ofExpr? (Expr.generic "LIMIT"
        (.verbatim (tokensText d (Token.parenthesized tokens)) :: words)) =
        ofLimited? [level (tokensText d tokens) {}] words := by
    have hread : ofArguments? (.verbatim (tokensText d (Token.parenthesized tokens)) :: words) =
        some ([level (tokensText d tokens) {}], words) :=
      ofArguments?_append (.cons hlevel .nil) hwords
    rw [ofExpr?_generic hread, hlimit]
  obtain ⟨first, max⟩ := limits
  cases max with
  | none =>
      cases first with
      | none =>
          cases h
          exact hlevel
      | some first => cases h
  | some max =>
      cases first with
      | none =>
          cases h
          refine (hcall [Expr.int max.toInt64] rfl).trans ?_
          simp [ofLimited?, Expr.int]
      | some first =>
          cases h
          refine (hcall [Expr.int max.toInt64, Expr.int first.toInt64] rfl).trans ?_
          simp [ofLimited?, Expr.int]

end Skeleton

theorem Query.skeletons_eq_mapM (ctx : RenderContext) (qs : List Query) :
    Query.skeletons ctx qs = qs.mapM (Query.skeleton ctx) := by
  induction qs with
  | nil => rfl
  | cons q rest ih => rw [Query.skeletons, List.mapM_cons, ih]

theorem SetOperation.skeleton_of_operator {ctx : RenderContext} {c : SetOperation}
    {op : SetOperator} {members : List Skeleton} {orders : List (List Token)}
    (hop : c.operator = some op)
    (hmembers : List.Forall₂ (fun q member => q.skeleton ctx = .ok member) c.members members)
    (horders : OrderItem.resultTokens ctx c.orderBy = .ok orders) :
    c.skeleton ctx =
      .ok (.combined op members (orders.map (tokensText ctx.dialect)) c.limits) := by
  obtain ⟨operator, start, operands, orderBy, limits⟩ := c
  obtain rfl : operator = some op := hop
  cases hmembers with
  | cons hstart hoperands =>
      rw [skeleton]
      rw [hstart, Query.skeletons_eq_mapM, mapM_eq_ok.2 hoperands, horders]
      rfl

/-- Whether the function form of a query tells its skeleton. -/
def Query.Tells (ctx : RenderContext) (q : Query) : Prop :=
  q.Complete → ∀ form, q.functionForm ctx = .ok form →
    ∃ skeleton, q.skeleton ctx = .ok skeleton ∧
      Skeleton.ofExpr? (form.toExpr ctx.dialect) = some skeleton

/-- The queries of a set operation tell their skeletons one by one. -/
theorem Query.Tells.members {ctx : RenderContext} {qs : List Query} {forms : List FunctionForm}
    (h : List.Forall₂ (fun q form => q.functionForm ctx = .ok form) qs forms)
    (htells : ∀ q ∈ qs, q.Tells ctx) (hcomplete : ∀ q ∈ qs, q.Complete) :
    ∃ members, List.Forall₂ (fun q member => q.skeleton ctx = .ok member) qs members ∧
      List.Forall₂ (fun e member => Skeleton.ofExpr? e = some member)
        (FunctionForm.toExprList ctx.dialect forms) members := by
  induction h with
  | nil => exact ⟨[], .nil, .nil⟩
  | cons hform _ ih =>
      obtain ⟨hfirst, hrest⟩ := List.forall_mem_cons.1 htells
      obtain ⟨hcfirst, hcrest⟩ := List.forall_mem_cons.1 hcomplete
      obtain ⟨first, hskeleton, hread⟩ := hfirst hcfirst _ hform
      obtain ⟨rest, hskeletons, hreads⟩ := ih hrest hcrest
      refine ⟨first :: rest, .cons hskeleton hskeletons, ?_⟩
      rw [FunctionForm.toExprList]
      exact .cons hread hreads

theorem Query.tells (ctx : RenderContext) : ∀ q : Query, q.Tells ctx := by
  refine Query.memberInduction (fun s _ form hform => ?_) fun c hstart hoperands hcomplete form
    hform => ?_
  · rw [functionForm] at hform
    obtain ⟨tokens, htokens, hform⟩ := bind_eq_ok.1 hform
    refine ⟨.level (tokensText ctx.dialect tokens) s.limits, ?_, Skeleton.ofExpr?_limited hform⟩
    rw [skeleton, htokens]
    rfl
  · obtain ⟨hoperator, hne, hcstart, hcrest⟩ := c.complete_iff.1 hcomplete
    obtain ⟨op, hop⟩ := Option.isSome_iff_exists.1 hoperator
    have hactive := SetOperation.activeOperator_of_operator hop hne
    rw [functionForm] at hform
    obtain ⟨forms, orders, hforms, horders, rfl⟩ :=
      (SetOperation.functionForm_of_active hactive).1 hform
    obtain ⟨members, hskeletons, hreads⟩ := Query.Tells.members hforms
      (List.forall_mem_cons.2 ⟨hstart, hoperands⟩) (List.forall_mem_cons.2 ⟨hcstart, hcrest⟩)
    refine ⟨_, SetOperation.skeleton_of_operator hop hskeletons horders, ?_⟩
    have hwords := Skeleton.ofArguments?_words ctx.dialect orders c.limits
    rw [FunctionForm.combined, FunctionForm.toExpr, FunctionForm.toExprList_append,
      FunctionForm.toExprList_append, FunctionForm.toExprList_orderArguments,
      Limits.toExprList_limitArguments, List.append_assoc,
      Skeleton.ofExpr?_generic (Skeleton.ofArguments?_append hreads hwords),
      SetOperator.ofMarker?_marker]
    exact Skeleton.ofCombined?_words ctx.dialect op members
      (OrderItem.isItem_resultTokens horders) c.limits

/-- The function form of a query says what the query is put together from: its skeleton is read off
the expression alone, and a query with another skeleton never has the same expression. -/
theorem Query.skeleton_of_asExpression {ctx : RenderContext} {q : Query} {e : Expr}
    (hcomplete : q.Complete) (h : q.asExpression ctx = .ok e) :
    ∃ skeleton, q.skeleton ctx = .ok skeleton ∧ Skeleton.ofExpr? e = some skeleton ∧
      ∀ (ctx' : RenderContext) (q' : Query), q'.Complete → q'.asExpression ctx' = .ok e →
        q'.skeleton ctx' = .ok skeleton := by
  have hread (ctx : RenderContext) (q : Query) (hcomplete : q.Complete)
      (h : q.asExpression ctx = .ok e) :
      ∃ skeleton, q.skeleton ctx = .ok skeleton ∧ Skeleton.ofExpr? e = some skeleton := by
    rw [asExpression] at h
    simp only [bind_eq_ok, pure_eq_ok] at h
    obtain ⟨form, hform, rfl⟩ := h
    exact q.tells ctx hcomplete form hform
  obtain ⟨skeleton, hskeleton, hexpr⟩ := hread ctx q hcomplete h
  refine ⟨skeleton, hskeleton, hexpr, fun ctx' q' hcomplete' h' => ?_⟩
  obtain ⟨other, hother, hsame⟩ := hread ctx' q' hcomplete' h'
  obtain rfl : skeleton = other := Option.some.inj (hexpr.symm.trans hsame)
  exact hother

/-- A page of employees and, after it, more of the staff than a signed integer counts. -/
def SetOperation.pagedStaff : SetOperation where
  operator := some .unionAll
  start := .select { Select.addRoot {} "Employee" "e" with
    limits := { max := some 10, first := some 2 } }
  operands := [.combined (staff 9223372036854775808)]
  limits := { first := some 3 }

theorem Query.skeleton_of_asExpression_pagedStaff :
    (Query.combined SetOperation.pagedStaff).Complete ∧
      ∃ e, (Query.combined SetOperation.pagedStaff).asExpression { dialect := .hibernate } = .ok e ∧
        Skeleton.ofExpr? e =
          some (.combined .unionAll
            [.level "SELECT e FROM Employee e" { max := some 10, first := some 2 },
              .combined .union
                [.level "SELECT e FROM Employee e" {},
                  .combined .except
                    [.level "SELECT p FROM Person p ORDER BY p.name DESC" {},
                      .level "SELECT g FROM Guest g" {}] [] {}]
                ["name ASC NULLS LAST"] { max := some 9223372036854775808, first := some 5 }]
            [] { first := some 3 }) := by
  have hcomplete : (Query.combined SetOperation.pagedStaff).Complete :=
    ⟨rfl, by simp, trivial, SetOperation.complete_staff 9223372036854775808, trivial⟩
  have hform : Succeeds
      ((Query.combined SetOperation.pagedStaff).asExpression { dialect := .hibernate }) := ⟨_, rfl⟩
  obtain ⟨e, he⟩ := hform
  obtain ⟨skeleton, hskeleton, hread, -⟩ := Query.skeleton_of_asExpression hcomplete he
  refine ⟨hcomplete, e, he, hread.trans (congrArg some ?_)⟩
  exact Except.ok.inj (hskeleton.symm.trans rfl)

end EntityQuery
