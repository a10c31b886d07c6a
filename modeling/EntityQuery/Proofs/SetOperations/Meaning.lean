import Mathlib.Data.List.Dedup
import EntityQuery.Proofs.Limits.Windows

/-!
What combined queries mean. An interpretation values query levels, and says what operators, orders
and limits do to values; every query then has a value. Combining two queries applies the operator to
their values, be it that a chain is made longer or that a new one begins. So calls that combine
queries one after another have the value that they have from left to right.
-/

namespace EntityQuery

universe u

/-- Values of query levels, and what operators, orders and limits do to values. -/
structure Interpretation (V : Type u) where
  level : Select → V
  operate : SetOperator → V → V → V
  modify : List (OrderItem Expr) → Limits → V → V
  /-- A result without an order and limits of its own stays as it is. -/
  modify_none : ∀ v, modify [] {} v = v

/-- Calls that combine queries. What a query is combined with may come from calls, too. -/
inductive Combination where
  | query (query : Query)
  | call (receiver : Combination) (operator : SetOperator) (argument : Combination)

variable {V : Type u}

/-- Values combined from left to right, if there is an operator, and otherwise the first of them. -/
def Interpretation.fold (I : Interpretation V) (operator : Option SetOperator) (first : V)
    (others : List V) : V :=
  match operator with
  | some op => others.foldl (I.operate op) first
  | none => first

mutual

/-- The value of a query. -/
def Query.meaning (I : Interpretation V) : Query → V
  | .select s => I.level s
  | .combined c => c.meaning I

def Query.meaningList (I : Interpretation V) : List Query → List V
  | [] => []
  | q :: rest => q.meaning I :: Query.meaningList I rest

/-- What the order and the limits of an operation make of the values that it combines. -/
def SetOperation.meaning (I : Interpretation V) : SetOperation → V
  | ⟨operator, start, operands, orderBy, limits⟩ =>
      I.modify orderBy limits
        (I.fold operator (start.meaning I) (Query.meaningList I operands))

end

namespace Combination

/-- The query that calls put together. -/
def built : Combination → Query
  | query q => q
  | call receiver operator argument => receiver.built.combine operator argument.built

/-- The value of calls, evaluated from left to right. -/
def evaluated (I : Interpretation V) : Combination → V
  | query q => q.meaning I
  | call receiver operator argument =>
      I.operate operator (receiver.evaluated I) (argument.evaluated I)

end Combination

section Combining

variable (I : Interpretation V)

theorem Query.meaningList_eq_map (qs : List Query) : meaningList I qs = qs.map (meaning I) := by
  induction qs with
  | nil => rfl
  | cons q rest ih => rw [meaningList, ih, List.map_cons]

namespace SetOperation

theorem meaning_eq (c : SetOperation) :
    c.meaning I = I.modify c.orderBy c.limits
      (I.fold c.operator (c.start.meaning I) (c.operands.map (Query.meaning I))) := by
  obtain ⟨operator, start, operands, orderBy, limits⟩ := c
  rw [meaning, Query.meaningList_eq_map]

/-- Without an order and limits of its own, an operation means what its queries mean together. -/
theorem meaning_of_plain {c : SetOperation} (h : c.hasModifiers = false) :
    c.meaning I = I.fold c.operator (c.start.meaning I) (c.operands.map (Query.meaning I)) := by
  obtain ⟨operator, start, operands, orderBy, ⟨first, max⟩⟩ := c
  simp only [hasModifiers, Limits.any, Bool.or_eq_false_iff, Bool.not_eq_false', List.isEmpty_iff,
    Option.isSome_eq_false_iff, Option.isNone_iff_eq_none] at h
  obtain ⟨rfl, rfl, rfl⟩ := h
  rw [meaning_eq, I.modify_none]

/-- One more query at the end of a chain is combined with all that are there. -/
theorem meaning_push {c : SetOperation} {operator : SetOperator}
    (hoperator : c.operator = some operator) (hplain : c.hasModifiers = false) (r : Query) :
    (c.push r).meaning I = I.operate operator (c.meaning I) (r.meaning I) := by
  have hlonger : (c.push r).hasModifiers = false := hplain
  rw [meaning_of_plain I hlonger, meaning_of_plain I hplain, push, hoperator, List.map_append]
  exact List.foldl_append

/-- The first two queries of a new chain, whatever the first one is. -/
theorem meaning_pair (q : Query) (operator : SetOperator) (r : Query) :
    meaning I { operator := some operator, start := q, operands := [r] } =
      I.operate operator (q.meaning I) (r.meaning I) := by
  rw [meaning_of_plain I rfl]
  rfl

end SetOperation

/-- Whether a chain is made longer or a new one begins, its value is that of the operator. -/
theorem Query.meaning_combine_eq (q : Query) (operator : SetOperator) (r : Query) :
    (q.combine operator r).meaning I = I.operate operator (q.meaning I) (r.meaning I) := by
  cases q with
  | select s => exact SetOperation.meaning_pair I (.select s) operator r
  | combined c =>
      rw [combine]
      split
      next h =>
        have hplain : c.hasModifiers = false := by simpa using h.2
        exact SetOperation.meaning_push I h.1 hplain r
      next => exact SetOperation.meaning_pair I (.combined c) operator r

theorem Combination.meaning_built (p : Combination) : p.built.meaning I = p.evaluated I := by
  induction p with
  | query q => rfl
  | call receiver operator argument hreceiver hargument =>
      rw [built, Query.meaning_combine_eq, hreceiver, hargument, evaluated]

/-- Combining two queries applies the operator to their values, whatever levels, operators, orders
and limits stand for. Calls that combine queries have the value that they have from left to
right. -/
theorem Query.meaning_combine :
    (∀ (q : Query) (operator : SetOperator) (r : Query),
      (q.combine operator r).meaning I = I.operate operator (q.meaning I) (r.meaning I)) ∧
    ∀ (p : Combination) (calls : List (SetOperator × Combination)),
      (calls.foldl (fun q call => q.combine call.1 call.2.built) p.built).meaning I =
        calls.foldl (fun v call => I.operate call.1 v (call.2.evaluated I)) (p.evaluated I) := by
  refine ⟨Query.meaning_combine_eq I, fun p calls => ?_⟩
  induction calls generalizing p with
  | nil => exact p.meaning_built I
  | cons call rest ih => exact ih (.call p call.1 call.2)

end Combining

section Rows

variable {α : Type} [DecidableEq α]

/-- What an operator makes of two lists of rows. -/
def SetOperator.ofRows : SetOperator → List α → List α → List α
  | union, rows, others => (rows ++ others).dedup
  | unionAll, rows, others => rows ++ others
  | intersect, rows, others => (rows.filter (· ∈ others)).dedup
  | intersectAll, rows, others => rows.bagInter others
  | except, rows, others => (rows.filter (· ∉ others)).dedup
  | exceptAll, rows, others => rows.diff others

/-- Queries that yield rows: limits open a window on them once they are sorted. -/
def Interpretation.ofRows (level : Select → List α)
    (sort : List (OrderItem Expr) → List α → List α) (sort_none : ∀ rows, sort [] rows = rows) :
    Interpretation (List α) where
  level := level
  operate := SetOperator.ofRows
  modify orderBy limits rows := limits.window.cut (sort orderBy rows)
  modify_none rows := sort_none rows

end Rows

/-- Four people, of whom one is a guest and two are staff. -/
def Interpretation.town : Interpretation (List Nat) :=
  .ofRows (fun s =>
    match s.joins.nodes.map JoinNode.aliasName with
    | ["p"] => [1, 2, 3, 4]
    | ["g"] => [2]
    | ["s"] => [1, 3]
    | _ => []) (fun _ rows => rows) fun _ => rfl

/-- The first people who are no guests, without those who are staff. -/
def Query.outsiders (count : UInt64) : Query :=
  (((Query.select (Select.addRoot {} "Person" "p")).combine .except
    (.select (Select.addRoot {} "Guest" "g"))).take count).combine .except
      (.select (Select.addRoot {} "Staff" "s"))

/-- Both of the first two are staff, and the third is not. -/
theorem Query.meaning_combine_outsiders :
    (outsiders 2).meaning .town = [] ∧ (outsiders 3).meaning .town = [4] := by
  constructor
  · rw [outsiders, (meaning_combine .town).1]
    decide
  · rw [outsiders, (meaning_combine .town).1]
    decide

end EntityQuery
