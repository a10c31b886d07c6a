import EntityQuery.Proofs.Induction
import EntityQuery.Proofs.Render.Success

/-!
The two forms of a set operation print one tree. The tree has the written levels and orders of a
set operation and nothing of how a dialect combines them: the native form puts the operator between
its queries, the function form makes a call of every set operation in it.

The limits of the result are reported beside the native form, and are arguments of the function
form. They are the same numbers there as long as a signed integer holds them.
-/

namespace EntityQuery

open Token (parenthesized listSeparator joined)

/-- What a set operation combines, once its query levels and its orders are written. -/
inductive SetTree where
  /-- A query level, and whether it has an order of its own. -/
  | level (tokens : List Token) (ordered : Bool)
  | combined (operator : SetOperator) (members : List SetTree) (orders : List (List Token))

namespace SetTree

/-- What is written for a tree between operators. A set operation stands in parentheses there, and
a query level if it has an order. -/
def enclosed (tokens : List Token) : SetTree → List Token
  | level _ ordered => if ordered then parenthesized tokens else tokens
  | combined .. => parenthesized tokens

mutual

/-- A tree with the operators between what they combine. -/
def native : SetTree → List Token
  | level tokens _ => tokens
  | combined operator members orders =>
      joined ([.space] ++ operator.tokens ++ [.space]) (nativeMembers members)
        ++ listClauseTokens .ORDER_BY orders

def nativeMembers : List SetTree → List (List Token)
  | [] => []
  | tree :: rest => tree.enclosed tree.native :: nativeMembers rest

end

/-- The order of a combined result as arguments: the text of each item. -/
def orderGroup (d : Dialect) (orders : List (List Token)) : List Expr :=
  if orders.isEmpty then []
  else Expr.string "ORDER_BY" :: orders.map fun tokens => Expr.string (tokensText d tokens)

mutual

/-- A tree as calls of functions, one for each set operation in it. The outermost call ends with
`groups`. -/
def call (d : Dialect) (groups : List Expr) : SetTree → Expr
  | level tokens _ => .verbatim (tokensText d (parenthesized tokens))
  | combined operator members orders =>
      Expr.generic operator.marker (calls d members ++ orderGroup d orders ++ groups)

def calls (d : Dialect) : List SetTree → List Expr
  | [] => []
  | tree :: rest => tree.call d [] :: calls d rest

end

end SetTree

mutual

/-- Whether every set operation in a query has an operator and something to combine. -/
def Query.Complete : Query → Prop
  | .select _ => True
  | .combined c => c.Complete

def Query.AllComplete : List Query → Prop
  | [] => True
  | q :: rest => q.Complete ∧ Query.AllComplete rest

def SetOperation.Complete : SetOperation → Prop
  | ⟨operator, start, operands, _, _⟩ =>
      operator.isSome ∧ operands ≠ [] ∧ start.Complete ∧ Query.AllComplete operands

end

mutual

/-- The tree that a query combines, with its levels and orders as the dialect writes them. -/
def Query.setTree (ctx : RenderContext) : Query → Except QueryError SetTree
  | .select s => do
      let level ← s.tokens ctx.nested
      return .level level (!s.orderBy.isEmpty)
  | .combined c => c.setTree ctx

def Query.setTrees (ctx : RenderContext) : List Query → Except QueryError (List SetTree)
  | [] => .ok []
  | q :: rest => do
      let tree ← q.setTree ctx
      let rest ← Query.setTrees ctx rest
      return tree :: rest

def SetOperation.setTree (ctx : RenderContext) : SetOperation → Except QueryError SetTree
  | ⟨operator, start, operands, orderBy, _⟩ =>
      match operator with
      | none => start.setTree ctx
      | some op => do
          let start ← start.setTree ctx
          let operands ← Query.setTrees ctx operands
          let orders ← OrderItem.resultTokens ctx orderBy
          return .combined op (start :: operands) orders

end

/-- The arguments that state one limit of a combined result. -/
def Limits.group (word : String) (limit : Option Int64) : List Expr :=
  match limit with
  | some n => [Expr.string word, Expr.int n]
  | none => []

/-- Whether arguments state limits: a group for each limit that is set, with its number. -/
def Limits.StatedBy (limits : Limits) (groups : List Expr) : Prop :=
  ∃ max first : Option Int64, groups = group "LIMIT" max ++ group "OFFSET" first ∧
    max.map Int64.toInt = limits.max.map (fun n => (n.toNat : Int)) ∧
    first.map Int64.toInt = limits.first.map (fun n => (n.toNat : Int))

/-- Whether a signed integer holds each of the limits. -/
def Limits.Signed (limits : Limits) : Prop :=
  (∀ n ∈ limits.max, n.toNat < 0x8000000000000000) ∧ ∀ n ∈ limits.first, n.toNat < 0x8000000000000000

theorem Query.allComplete_iff (qs : List Query) : AllComplete qs ↔ ∀ q ∈ qs, q.Complete := by
  induction qs with
  | nil => simp [AllComplete]
  | cons q rest ih => rw [AllComplete, ih, List.forall_mem_cons]

theorem SetOperation.complete_iff (c : SetOperation) :
    c.Complete ↔ c.operator.isSome ∧ c.operands ≠ [] ∧ c.start.Complete ∧
      ∀ q ∈ c.operands, q.Complete := by
  obtain ⟨operator, start, operands, orderBy, limits⟩ := c
  rw [Complete, Query.allComplete_iff]

theorem SetOperation.activeOperator_of_operator {c : SetOperation} {op : SetOperator}
    (hop : c.operator = some op) (hoperands : c.operands ≠ []) :
    activeOperator c.operator c.operands = some op := by
  rw [activeOperator, if_neg (by simpa using hoperands), hop]

namespace FunctionForm

variable (d : Dialect)

theorem toExprList_append (forms others : List FunctionForm) :
    toExprList d (forms ++ others) = toExprList d forms ++ toExprList d others := by
  induction forms with
  | nil => rfl
  | cons form rest ih => rw [List.cons_append, toExprList, ih, toExprList, List.cons_append]

theorem toExprList_orderArguments (orders : List (List Token)) :
    toExprList d (orderArguments orders) = SetTree.orderGroup d orders := by
  have hmap : toExprList d (orders.map order) =
      orders.map fun tokens => Expr.string (tokensText d tokens) := by
    induction orders with
    | nil => rfl
    | cons tokens rest ih => rw [List.map_cons, toExprList, ih, toExpr, List.map_cons]
  rw [orderArguments, SetTree.orderGroup]
  split
  · rfl
  · rw [toExprList, hmap, toExpr]

theorem limited_of_any {limits : Limits} (h : limits.any = false) (form : FunctionForm) :
    limited form limits = .ok form := by
  obtain ⟨first, max⟩ := limits
  cases first <;> cases max <;> first | rfl | cases h

end FunctionForm

namespace Limits

/-- The arguments that the function form states limits with. -/
def arguments (limits : Limits) : List Expr :=
  group "LIMIT" (limits.max.map UInt64.toInt64) ++ group "OFFSET" (limits.first.map UInt64.toInt64)

theorem toExprList_limitArguments (d : Dialect) (limits : Limits) :
    FunctionForm.toExprList d (FunctionForm.limitArguments limits) = limits.arguments := by
  obtain ⟨first, max⟩ := limits
  cases first <;> cases max <;> rfl

theorem arguments_of_any {limits : Limits} (h : limits.any = false) : limits.arguments = [] := by
  obtain ⟨first, max⟩ := limits
  cases first <;> cases max <;> first | rfl | cases h

/-- The groups say which limits they state. -/
theorem group_append_inj {max max' first first' : Option Int64}
    (h : group "LIMIT" max ++ group "OFFSET" first = group "LIMIT" max' ++ group "OFFSET" first') :
    max = max' ∧ first = first' := by
  cases max <;> cases max' <;> cases first <;> cases first' <;>
    simp_all [group, Expr.int, Expr.string]

/-- Passing a limit as a signed integer keeps the number if and only if it is not too great. -/
theorem toInt_toInt64_iff (n : UInt64) :
    n.toInt64.toInt = (n.toNat : Int) ↔ n.toNat < 0x8000000000000000 := by
  have hbits : n.toInt64.toInt = n.toBitVec.toInt := rfl
  have hsmall := n.toNat_lt
  rw [hbits, BitVec.toInt_eq_toNat_cond, UInt64.toNat_toBitVec]
  split <;> omega

theorem map_toInt_iff (limit : Option UInt64) :
    (limit.map UInt64.toInt64).map Int64.toInt = limit.map (fun n => (n.toNat : Int)) ↔
      ∀ n ∈ limit, n.toNat < 0x8000000000000000 := by
  cases limit with
  | none => simp
  | some n =>
      rw [Option.map_some, Option.map_some, Option.map_some, Option.some_inj, toInt_toInt64_iff]
      simp

theorem statedBy_arguments_iff (limits : Limits) :
    limits.StatedBy limits.arguments ↔ limits.Signed := by
  rw [Signed, ← map_toInt_iff, ← map_toInt_iff]
  constructor
  · rintro ⟨max, first, hgroups, hmax, hfirst⟩
    obtain ⟨rfl, rfl⟩ := group_append_inj hgroups
    exact ⟨hmax, hfirst⟩
  · rintro ⟨hmax, hfirst⟩
    exact ⟨_, _, rfl, hmax, hfirst⟩

end Limits

/-- A query prints a tree in both forms. -/
structure Query.Prints (ctx : RenderContext) (q : Query) (tree : SetTree) : Prop where
  built : q.setTree ctx = .ok tree
  native : q.memberTokens ctx = .ok (tree.enclosed tree.native)
  call : ∃ form, q.functionForm ctx = .ok form ∧ form.toExpr ctx.dialect = tree.call ctx.dialect []

/-- A set operation prints a tree in both forms, with its limits in the function form. -/
structure SetOperation.Prints (ctx : RenderContext) (c : SetOperation) (tree : SetTree) : Prop where
  built : c.setTree ctx = .ok tree
  native : c.memberTokens ctx = .ok tree.native
  call : ∃ form, c.functionForm ctx = .ok form ∧
    form.toExpr ctx.dialect = tree.call ctx.dialect c.limits.arguments

/-- What the queries of a set operation print, one after another. -/
theorem Query.prints_list {ctx : RenderContext} {qs : List Query} {trees : List SetTree}
    (h : List.Forall₂ (Query.Prints ctx) qs trees) :
    Query.setTrees ctx qs = .ok trees ∧
      Query.memberListTokens ctx qs = .ok (SetTree.nativeMembers trees) ∧
      ∃ forms, Query.functionForms ctx qs = .ok forms ∧
        FunctionForm.toExprList ctx.dialect forms = SetTree.calls ctx.dialect trees := by
  induction h with
  | nil => exact ⟨rfl, rfl, [], rfl, rfl⟩
  | cons hq _ ih =>
      obtain ⟨hbuilt, hnative, forms, hforms, hcalls⟩ := ih
      obtain ⟨form, hform, hcall⟩ := hq.call
      refine ⟨?_, ?_, form :: forms, ?_, ?_⟩
      · rw [setTrees, hq.built, hbuilt]
        rfl
      · rw [memberListTokens, hq.native, hnative]
        rfl
      · rw [functionForms, hform, hforms]
        rfl
      · rw [FunctionForm.toExprList, hcall, hcalls, SetTree.calls]

/-- A set operation prints what its queries print. -/
theorem SetOperation.prints_combined {ctx : RenderContext} {c : SetOperation} {op : SetOperator}
    {first : SetTree} {trees : List SetTree} {orders : List (List Token)}
    (hop : c.operator = some op) (hoperands : c.operands ≠ [])
    (hstart : c.start.Prints ctx first) (hrest : List.Forall₂ (Query.Prints ctx) c.operands trees)
    (horders : OrderItem.resultTokens ctx c.orderBy = .ok orders) :
    c.Prints ctx (.combined op (first :: trees) orders) := by
  obtain ⟨hbuilt, hnative, forms, hforms, hcalls⟩ := Query.prints_list hrest
  obtain ⟨form, hform, hcall⟩ := hstart.call
  have hactive := activeOperator_of_operator hop hoperands
  refine ⟨?_, ?_, .combined op (form :: forms) orders c.limits, ?_, ?_⟩
  · obtain ⟨operator, start, operands, orderBy, limits⟩ := c
    obtain rfl : operator = some op := hop
    rw [setTree]
    rw [hstart.built, hbuilt, horders]
    rfl
  · rw [memberTokens_eq, hactive]
    simp only
    rw [hstart.native, hnative, horders]
    rfl
  · rw [functionForm_eq, hactive]
    simp only
    rw [hform, hforms, horders]
    rfl
  · rw [FunctionForm.combined, FunctionForm.toExpr, FunctionForm.toExprList_append,
      FunctionForm.toExprList_append, FunctionForm.toExprList, hcall, hcalls,
      FunctionForm.toExprList_orderArguments, Limits.toExprList_limitArguments, SetTree.call,
      SetTree.calls]

/-- Queries without limits inside print one tree in both forms if the native form exists. -/
def Query.PrintsOnce (ctx : RenderContext) (q : Query) : Prop :=
  q.Complete → q.limitedAnywhere = false → Succeeds (q.memberTokens ctx) → ∃ tree, q.Prints ctx tree

theorem SetOperation.exists_prints {ctx : RenderContext} {c : SetOperation}
    (hmembers : ∀ q ∈ c.members, q.PrintsOnce ctx) (hcomplete : c.Complete)
    (hunlimited : ∀ q ∈ c.members, q.limitedAnywhere = false) (h : Succeeds (c.memberTokens ctx)) :
    ∃ op members orders, c.Prints ctx (.combined op members orders) := by
  obtain ⟨hoperator, hne, hcstart, hcrest⟩ := c.complete_iff.1 hcomplete
  obtain ⟨op, hop⟩ := Option.isSome_iff_exists.1 hoperator
  have hactive := activeOperator_of_operator hop hne
  rw [memberTokens_eq, hactive, Query.memberListTokens_eq_mapM] at h
  simp only [succeeds_bind, succeeds_pure, and_true, exists_and_right, exists_eq_ok,
    succeeds_mapM] at h
  obtain ⟨hstart, hrest, orders, horders⟩ := h
  have hmember (q : Query) (hq : q ∈ c.members) (hc : q.Complete)
      (hs : Succeeds (q.memberTokens ctx)) : ∃ tree, q.Prints ctx tree :=
    hmembers q hq hc (hunlimited q hq) hs
  obtain ⟨first, hfirst⟩ := hmember c.start List.mem_cons_self hcstart hstart
  obtain ⟨trees, htrees⟩ := exists_forall₂ fun q hq =>
    hmember q (List.mem_cons_of_mem c.start hq) (hcrest q hq) (hrest q hq)
  exact ⟨op, first :: trees, orders, prints_combined hop hne hfirst htrees horders⟩

theorem Select.exists_prints {ctx : RenderContext} {s : Select} (hunlimited : s.limits.any = false)
    (h : Succeeds ((Query.select s).memberTokens ctx)) :
    ∃ tree, (Query.select s).Prints ctx tree := by
  have hlevel : Succeeds (s.tokens ctx.nested) := by
    rw [Query.memberTokens] at h
    simpa using h
  obtain ⟨tokens, htokens⟩ := hlevel
  refine ⟨.level tokens (!s.orderBy.isEmpty), ?_, ?_, .level (parenthesized tokens), ?_, rfl⟩
  · rw [Query.setTree, htokens]
    rfl
  · rw [Query.memberTokens, htokens, SetTree.enclosed, SetTree.native]
    cases s.orderBy.isEmpty <;> rfl
  · rw [Query.functionForm, htokens]
    exact FunctionForm.limited_of_any hunlimited _

theorem Query.printsOnce (ctx : RenderContext) : ∀ q : Query, q.PrintsOnce ctx := by
  refine Query.memberInduction (fun s _ => Select.exists_prints)
    fun c hstart hoperands hcomplete hunlimited h => ?_
  have hmembers : ∀ q ∈ c.members, q.PrintsOnce ctx := List.forall_mem_cons.2 ⟨hstart, hoperands⟩
  rw [limitedAnywhere, SetOperation.limitedAnywhere_eq, anyLimited_eq_any] at hunlimited
  simp only [Bool.or_eq_false_iff, List.any_eq_false] at hunlimited
  obtain ⟨⟨hlimits, hfirst⟩, hrest⟩ := hunlimited
  have hinside : ∀ q ∈ c.members, q.limitedAnywhere = false :=
    List.forall_mem_cons.2 ⟨hfirst, fun q hq => by simpa using hrest q hq⟩
  have htokens : Succeeds (c.memberTokens ctx) := by
    rw [memberTokens] at h
    simpa using h
  obtain ⟨op, members, orders, hprints⟩ := c.exists_prints hmembers hcomplete hinside htokens
  refine ⟨.combined op members orders, ?_, ?_, ?_⟩
  · rw [setTree, hprints.built]
  · rw [memberTokens, hprints.native]
    rfl
  · rw [functionForm]
    rw [← Limits.arguments_of_any hlimits]
    exact hprints.call

/-- A dialect that writes operators between queries reports the limits beside the native form. -/
theorem SetOperation.rendered_of_memberTokens {ctx : RenderContext} {c : SetOperation}
    {op : SetOperator} {tokens : List Token}
    (hactive : activeOperator c.operator c.operands = some op)
    (hbetween : c.writtenBetween ctx = true) (h : c.memberTokens ctx = .ok tokens) :
    c.rendered ctx = .ok ⟨tokens, c.limits⟩ := by
  rw [rendered_of_active hactive, if_pos hbetween, h]
  rfl

/-- Wherever a set operation can be written with its operators between its queries, it can also be
written as calls, and both are the same tree: the same queries in the same order, under the same
operators, with the same orders at every depth. The limits that are reported beside the first are
the arguments of the second exactly if a signed integer holds them. -/
theorem SetOperation.native_and_call_of_memberTokens {ctx : RenderContext} {c : SetOperation}
    {tokens : List Token} (hcomplete : c.Complete)
    (hunlimited : ∀ q ∈ c.members, q.limitedAnywhere = false)
    (h : c.memberTokens ctx = .ok tokens) :
    ∃ op members orders groups,
      c.setTree ctx = .ok (.combined op members orders) ∧
      tokens = (SetTree.combined op members orders).native ∧
      (Query.combined c).asExpression ctx =
        .ok ((SetTree.combined op members orders).call ctx.dialect groups) ∧
      (c.limits.StatedBy groups ↔ c.limits.Signed) ∧
      (ctx.capabilities.nativeSetOperations = true → c.rendered ctx = .ok ⟨tokens, c.limits⟩) := by
  obtain ⟨op, members, orders, hprints⟩ :=
    c.exists_prints (fun q _ => q.printsOnce ctx) hcomplete hunlimited ⟨tokens, h⟩
  refine ⟨op, members, orders, c.limits.arguments, hprints.built, ?_, ?_,
    c.limits.statedBy_arguments_iff, fun hnative => ?_⟩
  · exact Except.ok.inj (h.symm.trans hprints.native)
  · obtain ⟨form, hform, hcall⟩ := hprints.call
    rw [Query.asExpression, Query.functionForm, hform, ← hcall]
    rfl
  · obtain ⟨hoperator, hoperands, -, -⟩ := c.complete_iff.1 hcomplete
    obtain ⟨active, hactive⟩ := Option.isSome_iff_exists.1 hoperator
    have hbetween : c.writtenBetween ctx = true := by
      obtain ⟨hstart, hrest⟩ := List.forall_mem_cons.1 hunlimited
      simpa [writtenBetween, hnative, hstart, Query.anyLimited_eq_any] using hrest
    exact rendered_of_memberTokens (activeOperator_of_operator hactive hoperands) hbetween h

namespace SetOperation

/-- Every row of two entities, with a second operation in it, ordered and limited. -/
def staff (max : UInt64) : SetOperation where
  operator := some .union
  start := .select (Select.addRoot {} "Employee" "e")
  operands := [.combined {
    operator := some .except
    start := .select ((Select.addRoot {} "Person" "p").order [⟨.ofPath "p.name", .desc, none⟩])
    operands := [.select (Select.addRoot {} "Guest" "g")] }]
  orderBy := [⟨.ofPath "name", .asc, some .last⟩]
  limits := { max := some max, first := some 5 }

theorem complete_staff (max : UInt64) : (staff max).Complete :=
  ⟨rfl, by simp, trivial, ⟨rfl, by simp, trivial, trivial, trivial⟩, trivial⟩

theorem unlimited_staff (max : UInt64) : ∀ q ∈ (staff max).members, q.limitedAnywhere = false :=
  List.forall_mem_cons.2 ⟨rfl, List.forall_mem_singleton.2 rfl⟩

theorem native_and_call_staff :
    (staff 10).Complete ∧ (∀ q ∈ (staff 10).members, q.limitedAnywhere = false) ∧
      ∃ tokens op members orders groups,
        (staff 10).memberTokens { dialect := .hibernate } = .ok tokens ∧
        tokens = (SetTree.combined op members orders).native ∧
        (Query.combined (staff 10)).asExpression { dialect := .hibernate } =
          .ok ((SetTree.combined op members orders).call .hibernate groups) ∧
        (staff 10).limits.StatedBy groups ∧
        (staff 10).rendered { dialect := .hibernate } = .ok ⟨tokens, (staff 10).limits⟩ := by
  have hsigned : (staff 10).limits.Signed := ⟨by simp [staff], by simp [staff]⟩
  have htokens : Succeeds ((staff 10).memberTokens { dialect := .hibernate }) := ⟨_, rfl⟩
  obtain ⟨tokens, htokens⟩ := htokens
  obtain ⟨op, members, orders, groups, -, hnative, hcall, hstated, hrendered⟩ :=
    native_and_call_of_memberTokens (complete_staff 10) (unlimited_staff 10) htokens
  exact ⟨complete_staff 10, unlimited_staff 10, tokens, op, members, orders, groups, htokens, hnative,
    hcall, hstated.2 hsigned, hrendered rfl⟩

/-- A limit that no signed integer holds is not the number that the function form states. -/
theorem not_statedBy_staff :
    ¬∀ (ctx : RenderContext) (c : SetOperation) (tokens : List Token), c.Complete →
      (∀ q ∈ c.members, q.limitedAnywhere = false) → c.memberTokens ctx = .ok tokens →
        ∃ op members orders groups,
          tokens = (SetTree.combined op members orders).native ∧
          (Query.combined c).asExpression ctx =
            .ok ((SetTree.combined op members orders).call ctx.dialect groups) ∧
          c.limits.StatedBy groups := by
  intro h
  obtain ⟨op, members, orders, groups, -, -, max, first, -, hmax, -⟩ :=
    h { dialect := .eclipseLink } (staff 9223372036854775808) _ (complete_staff _)
      (unlimited_staff _) rfl
  cases max with
  | none => cases hmax
  | some n =>
      have hn : n.toInt = 9223372036854775808 := Option.some.inj hmax
      have hlt := n.toInt_lt
      omega

end SetOperation

end EntityQuery
