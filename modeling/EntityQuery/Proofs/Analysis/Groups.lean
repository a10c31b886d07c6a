import Mathlib.Data.List.Induction
import EntityQuery.Analysis.Grouping
import EntityQuery.Proofs.Induction

/-!
The implicit groups of a query. A query that aggregates has to group by every selected or sorted
expression that holds no aggregate, no size and no subquery, unless it is a bare value; and, if it
selects nothing, by its roots. What it does not list of these is added, each once, and nothing else
changes. Membership is that of equal values, so it takes that no literal is NaN.
-/

namespace EntityQuery

/-- Whether a value is a float that is not a number. -/
def Literal.isNaN : Literal → Bool
  | float x => x.isNaN
  | int _ | string _ | bool _ => false

/-- Whether a value that is bound to a parameter is not a number, or one of several is not. -/
def ParameterValue.holdsNaN : ParameterValue → Bool
  | scalar v => v.isNaN
  | list vs => vs.any Literal.isNaN

theorem Literal.agrees_self {v : Literal} (h : v.isNaN = false) : v.agrees v = true := by
  cases v with
  | float x =>
      have hx : x.isNaN = false := h
      simp [agrees, Double.agrees, hx]
  | int | string | bool => simp [agrees]

theorem Literal.listAgrees_self {vs : List Literal} (h : vs.any isNaN = false) :
    listAgrees vs vs = true := by
  induction vs with
  | nil => rfl
  | cons v rest ih =>
      rw [List.any_cons, Bool.or_eq_false_iff] at h
      rw [listAgrees, agrees_self h.1, ih h.2, Bool.and_self]

theorem Parameter.agrees_self {p : Parameter} (h : p.value.any ParameterValue.holdsNaN = false) :
    p.agrees p = true := by
  obtain ⟨name, value⟩ := p
  cases value with
  | none => simp [agrees]
  | some value =>
      have hvalue : value.agrees value = true := by
        cases value with
        | scalar v => exact Literal.agrees_self h
        | list vs => exact Literal.listAgrees_self h
      simp [agrees, hvalue]

namespace Expr

/-- Whether an expression is itself a literal, or a parameter with a value, that is not a
number. -/
def isNaN : Expr → Bool
  | .literal v => v.isNaN
  | .parameter p => p.value.any ParameterValue.holdsNaN
  | _ => false

/-- Whether no literal in an expression is NaN, outside subqueries. -/
def NaNFree (e : Expr) : Prop := ∀ part ∈ e.subexpressions, part.isNaN = false

instance (e : Expr) : Decidable e.NaNFree :=
  inferInstanceAs (Decidable (∀ part ∈ e.subexpressions, part.isNaN = false))

/-- Expressions that hold an aggregate, a size or a subquery, however deep. -/
inductive Aggregating : Expr → Prop
  | aggregate (function : String) (args : List Expr) (distinct : Bool) :
      Aggregating (.aggregate function args distinct)
  | size {function : String} (args : List Expr) (h : isSizeCall function = true) :
      Aggregating (.call function args)
  | subquery (q : Query) : Aggregating (.subquery q)
  | inside {e child : Expr} (hchild : child ∈ e.children) (h : child.Aggregating) : Aggregating e

variable {e e' : Expr} {es es' : List Expr}

theorem NaNFree.child {child : Expr} (h : e.NaNFree) (hchild : child ∈ e.children) :
    child.NaNFree := by
  intro part hpart
  refine h part ?_
  rw [subexpressions_eq]
  exact List.mem_cons_of_mem e (List.mem_flatMap_of_mem hchild hpart)

theorem NaNFree.self (h : e.NaNFree) : e.isNaN = false := h e (mem_subexpressions_self e)

theorem aggregates_eq (sizes : Bool) (e : Expr) :
    e.aggregates sizes = (e.isAggregated sizes || e.children.any (aggregates sizes)) := by
  rw [aggregates, subexpressions_eq, List.any_cons, List.any_flatMap]
  rfl

/-- The search through an expression finds what makes it aggregate. -/
theorem aggregates_iff (e : Expr) : e.aggregates true = true ↔ e.Aggregating := by
  constructor
  · induction e using childInduction with
    | h e ih =>
      intro h
      rw [aggregates_eq, Bool.or_eq_true, List.any_eq_true] at h
      rcases h with hself | ⟨child, hchild, h⟩
      · cases e <;> first
          | exact .aggregate _ _ _
          | exact .size _ hself
          | exact .subquery _
          | cases hself
      · exact .inside hchild (ih child hchild h)
  · intro h
    induction h with
    | aggregate => rfl
    | size args h => simp [aggregates_eq, isAggregated, h]
    | subquery => rfl
    | inside hchild _ ih =>
        rw [aggregates_eq, List.any_eq_true.2 ⟨_, hchild, ih⟩, Bool.or_true]

theorem aggregates_eq_false_iff (e : Expr) : e.aggregates true = false ↔ ¬e.Aggregating := by
  rw [← aggregates_iff, Bool.not_eq_true]

theorem agreesList_self (h : ∀ e ∈ es, e.agrees e = true) : agreesList es es = true := by
  induction es with
  | nil => simp [agreesList]
  | cons e rest ih =>
      obtain ⟨he, hrest⟩ := List.forall_mem_cons.1 h
      rw [agreesList, he, ih hrest, Bool.and_self]

theorem agreesOption_self {e? : Option Expr} (h : ∀ e ∈ e?, e.agrees e = true) :
    agreesOption e? e? = true := by
  cases e? with
  | none => simp [agreesOption]
  | some e => simpa [agreesOption] using h

theorem agreesPairs_self {bs : List (Expr × Expr)}
    (h : ∀ b ∈ bs, b.1.agrees b.1 = true ∧ b.2.agrees b.2 = true) : agreesPairs bs bs = true := by
  induction bs with
  | nil => simp [agreesPairs]
  | cons b rest ih =>
      obtain ⟨hb, hrest⟩ := List.forall_mem_cons.1 h
      rw [agreesPairs, hb.1, hb.2, ih hrest, Bool.and_self, Bool.and_self]

/-- An expression is equal to itself unless it holds a float that is not. What subqueries hold is
left aside: an expression that holds one aggregates. -/
theorem agrees_self (hnan : e.NaNFree) (hplain : ¬e.Aggregating) : e.agrees e = true := by
  induction e using childInduction with
  | h e ih =>
    have hchildren : ∀ child ∈ e.children, child.agrees child = true := fun child hchild =>
      ih child hchild (hnan.child hchild) (mt (.inside hchild) hplain)
    cases e with
    | literal v => exact Literal.agrees_self hnan.self
    | parameter p => exact Parameter.agrees_self hnan.self
    | subquery q => exact absurd (.subquery q) hplain
    | caseWhen operand branches otherwise =>
        obtain ⟨hoperand, hbranches, hotherwise⟩ := forall_children_caseWhen.1 hchildren
        simp [agrees, agreesOption_self hoperand, agreesPairs_self hbranches,
          agreesOption_self hotherwise]
    | call f args =>
        have hargs : ∀ e ∈ args, e.agrees e = true := hchildren
        simp [agrees, agreesList_self hargs]
    | aggregate f args d =>
        have hargs : ∀ e ∈ args, e.agrees e = true := hchildren
        simp [agrees, agreesList_self hargs]
    | oneOf e values negated =>
        obtain ⟨he, hvalues⟩ := List.forall_mem_cons.1 hchildren
        simp [agrees, he, agreesList_self hvalues]
    | path | indexed | null | binary | not | isNull | like | between | parens | verbatim =>
        simp_all [agrees, children]

theorem agrees_path_iff {p : Path} : e.agrees (.path p) = true ↔ e = .path p := by
  cases e <;> simp [agrees]

theorem isIn_path_iff {p : Path} :
    (path p).isIn es = true ↔ path p ∈ es := by
  rw [isIn, List.any_eq_true]
  constructor
  · rintro ⟨e, he, hagrees⟩
    exact agrees_path_iff.1 hagrees ▸ he
  · exact fun h => ⟨_, h, agrees_path_iff.2 rfl⟩

theorem isIn_of_mem (h : e ∈ es) (hself : e.agrees e = true) : e.isIn es = true :=
  List.any_eq_true.2 ⟨e, h, hself⟩

theorem isIn_append (e : Expr) (es es' : List Expr) :
    e.isIn (es ++ es') = (e.isIn es || e.isIn es') := List.any_append

end Expr

namespace Select

/-- What a query that aggregates has to group by. -/
inductive Requires (s : Select) : Expr → Prop
  | item {i : SelectItem Expr} (hi : i ∈ s.items) (hvalue : i.expr.isConstant = false)
      (hplain : ¬i.expr.Aggregating) : Requires s i.expr
  | order {i : OrderItem Expr} (hi : i ∈ s.orderBy) (hvalue : i.expr.isConstant = false)
      (hplain : ¬i.expr.Aggregating) : Requires s i.expr
  | root {id : NodeId} {n : JoinNode Expr} (hitems : s.items = []) (hid : id ∈ s.joins.roots)
      (hn : s.joins.node? id = some n) : Requires s (Expr.bound id n.aliasName none)

/-- Groups that complete those of a query: all that are required and not listed, each once. -/
structure CompletedBy (s : Select) (groups : List Expr) : Prop where
  complete : ∀ e, s.Requires e → e.isIn (s.groupBy ++ groups) = true
  required : ∀ e ∈ groups, s.Requires e
  new : ∀ e ∈ groups, e.isIn s.groupBy = false
  once : groups.Pairwise fun e e' => e.agrees e' = false

variable {s : Select} {e : Expr}

theorem aggregates_iff (s : Select) : s.aggregates = true ↔
    (∃ i ∈ s.items, i.expr.Aggregating) ∨ ∃ i ∈ s.orderBy, i.expr.Aggregating := by
  rw [aggregates, Bool.or_eq_true, List.any_eq_true, List.any_eq_true]
  exact or_congr
    (exists_congr fun i => and_congr_right fun _ => i.expr.aggregates_iff)
    (exists_congr fun i => and_congr_right fun _ => i.expr.aggregates_iff)

theorem Requires.not_aggregating (h : s.Requires e) : ¬e.Aggregating := by
  cases h with
  | item _ _ hplain => exact hplain
  | order _ _ hplain => exact hplain
  | root =>
      rw [← Expr.aggregates_eq_false_iff]
      rfl

theorem mem_groupCandidates_iff (s : Select) (e : Expr) :
    e ∈ s.groupCandidates ∧ e.isConstant = false ↔ s.Requires e := by
  simp only [groupCandidates, selectedRoots, List.mem_append, List.mem_filter, List.mem_map,
    Bool.not_eq_true', ClauseKind.sizesAggregate, Expr.aggregates_eq_false_iff]
  constructor
  · rintro ⟨(hroot | ⟨⟨i, hi, rfl⟩, hplain⟩) | ⟨⟨i, hi, rfl⟩, hplain⟩, hvalue⟩
    · split at hroot
      next hitems =>
        obtain ⟨id, hid, hbound⟩ := List.mem_filterMap.1 hroot
        obtain ⟨n, hn, rfl⟩ := Option.map_eq_some_iff.1 hbound
        exact .root (List.isEmpty_iff.1 hitems) hid hn
      next => cases hroot
    · exact .item hi hvalue hplain
    · exact .order hi hvalue hplain
  · rintro (⟨hi, hvalue, hplain⟩ | ⟨hi, hvalue, hplain⟩ | ⟨hitems, hid, hn⟩)
    · exact ⟨.inl (.inr ⟨⟨_, hi, rfl⟩, hplain⟩), hvalue⟩
    · exact ⟨.inr ⟨⟨_, hi, rfl⟩, hplain⟩, hvalue⟩
    · refine ⟨.inl (.inl ?_), rfl⟩
      rw [if_pos (List.isEmpty_iff.2 hitems)]
      exact List.mem_filterMap.2 ⟨_, hid, Option.map_eq_some_iff.2 ⟨_, hn, rfl⟩⟩

/-- One step of the collection: a candidate is required unless it is a bare value, is listed, or has
been collected. -/
def collect (s : Select) (required : List Expr) (e : Expr) : List Expr :=
  if e.isConstant || e.isIn s.groupBy || e.isIn required then required else required ++ [e]

/-- What has been collected of some candidates. -/
structure Collects (s : Select) (candidates required : List Expr) : Prop where
  complete : ∀ e ∈ candidates, e.isConstant = false → e.isIn s.groupBy = false →
    e ∈ required ∨ e.isIn required = true
  needed : ∀ e ∈ required, e ∈ candidates ∧ e.isConstant = false ∧ e.isIn s.groupBy = false
  once : required.Pairwise fun e e' => e.agrees e' = false

theorem Collects.skip {candidates required : List Expr} (h : s.Collects candidates required)
    (hskip : e.isConstant = false → e.isIn s.groupBy = false → e.isIn required = true) :
    s.Collects (candidates ++ [e]) required where
  complete e' he' hvalue hlisted := by
    rcases List.mem_append.1 he' with he' | he'
    · exact h.complete e' he' hvalue hlisted
    · obtain rfl := List.mem_singleton.1 he'
      exact .inr (hskip hvalue hlisted)
  needed e' he' := (h.needed e' he').imp_left (List.mem_append_left _)
  once := h.once

theorem Collects.add {candidates required : List Expr} (h : s.Collects candidates required)
    (hvalue : e.isConstant = false) (hlisted : e.isIn s.groupBy = false)
    (hnew : e.isIn required = false) : s.Collects (candidates ++ [e]) (required ++ [e]) where
  complete e' he' hvalue' hlisted' := by
    rcases List.mem_append.1 he' with he' | he'
    · refine (h.complete e' he' hvalue' hlisted').imp (List.mem_append_left _) fun hin => ?_
      rw [Expr.isIn_append, hin, Bool.true_or]
    · exact .inl (List.mem_append_right _ he')
  needed e' he' := by
    rcases List.mem_append.1 he' with he' | he'
    · exact (h.needed e' he').imp_left (List.mem_append_left _)
    · obtain rfl := List.mem_singleton.1 he'
      exact ⟨List.mem_append_right _ List.mem_cons_self, hvalue, hlisted⟩
  once := by
    refine List.pairwise_append.2 ⟨h.once, List.pairwise_singleton _ _, fun e' he' other ho => ?_⟩
    obtain rfl := List.mem_singleton.1 ho
    exact Bool.eq_false_iff.2 fun hagrees =>
      Bool.eq_false_iff.1 hnew (List.any_eq_true.2 ⟨e', he', hagrees⟩)

theorem Collects.collect {candidates required : List Expr} (h : s.Collects candidates required)
    (e : Expr) : s.Collects (candidates ++ [e]) (s.collect required e) := by
  rw [Select.collect]
  split
  next hskip =>
    refine h.skip fun hvalue hlisted => ?_
    simpa [hvalue, hlisted] using hskip
  next hadd =>
    simp only [Bool.or_eq_true, not_or, Bool.not_eq_true] at hadd
    exact h.add hadd.1.1 hadd.1.2 hadd.2

/-- All candidates, from the first to the last. -/
theorem collects_foldl (s : Select) (candidates : List Expr) :
    s.Collects candidates (candidates.foldl s.collect []) := by
  induction candidates using List.reverseRecOn with
  | nil => exact ⟨by simp, by simp, .nil⟩
  | append_singleton front e ih =>
      rw [List.foldl_append, List.foldl_cons, List.foldl_nil]
      exact ih.collect e

theorem implicitGroups_of_aggregates (h : s.aggregates = true) :
    s.implicitGroups = s.groupCandidates.foldl s.collect [] := by
  rw [implicitGroups, if_pos h]
  rfl

theorem implicitGroups_of_not_aggregates (h : ¬s.aggregates = true) : s.implicitGroups = [] := by
  rw [implicitGroups, if_neg h]

/-- What a query has to group by is listed, or is implicit, as itself or as an equal value. -/
theorem isIn_of_requires (haggregates : s.aggregates = true) (h : s.Requires e)
    (hlisted : e.isIn s.groupBy = false) :
    e ∈ s.implicitGroups ∨ e.isIn s.implicitGroups = true := by
  obtain ⟨hcandidate, hvalue⟩ := (mem_groupCandidates_iff s e).2 h
  rw [implicitGroups_of_aggregates haggregates]
  exact (s.collects_foldl s.groupCandidates).complete e hcandidate hvalue hlisted

/-- An implicit group is required and not listed. -/
theorem requires_of_mem_implicitGroups (h : e ∈ s.implicitGroups) :
    s.aggregates = true ∧ s.Requires e ∧ e.isIn s.groupBy = false := by
  by_cases haggregates : s.aggregates = true
  · rw [implicitGroups_of_aggregates haggregates] at h
    obtain ⟨hcandidate, hvalue, hlisted⟩ := (s.collects_foldl s.groupCandidates).needed e h
    exact ⟨haggregates, (mem_groupCandidates_iff s e).1 ⟨hcandidate, hvalue⟩, hlisted⟩
  · rw [implicitGroups_of_not_aggregates haggregates] at h
    cases h

/-- What is required is equal to itself if no literal is NaN. -/
theorem Requires.agrees_self (h : s.Requires e) (hitems : ∀ i ∈ s.items, i.expr.NaNFree)
    (horder : ∀ i ∈ s.orderBy, i.expr.NaNFree) : e.agrees e = true := by
  cases h with
  | item hi _ hplain => exact Expr.agrees_self (hitems _ hi) hplain
  | order hi _ hplain => exact Expr.agrees_self (horder _ hi) hplain
  | root => simp [Expr.bound, Expr.agrees]

theorem completedBy_implicitGroups (hitems : ∀ i ∈ s.items, i.expr.NaNFree)
    (horder : ∀ i ∈ s.orderBy, i.expr.NaNFree) (haggregates : s.aggregates = true) :
    s.CompletedBy s.implicitGroups where
  complete e h := by
    rw [Expr.isIn_append, Bool.or_eq_true]
    by_cases hlisted : e.isIn s.groupBy = true
    · exact .inl hlisted
    · refine .inr ?_
      rcases isIn_of_requires haggregates h (Bool.not_eq_true _ ▸ hlisted) with hmem | hin
      · exact Expr.isIn_of_mem hmem (h.agrees_self hitems horder)
      · exact hin
  required e he := (requires_of_mem_implicitGroups he).2.1
  new e he := (requires_of_mem_implicitGroups he).2.2
  once := by
    rw [implicitGroups_of_aggregates haggregates]
    exact (s.collects_foldl s.groupCandidates).once

/-- Where the groups are complete, none is implicit. -/
theorem implicitGroups_eq_nil (h : ∀ e, s.Requires e → e.isIn s.groupBy = true) :
    s.implicitGroups = [] := by
  refine List.eq_nil_iff_forall_not_mem.2 fun e he => ?_
  obtain ⟨-, hrequires, hlisted⟩ := requires_of_mem_implicitGroups he
  rw [h e hrequires] at hlisted
  cases hlisted

/-- More groups do not change what is required. -/
theorem Requires.of_groupBy {groups : List Expr}
    (h : Requires { s with groupBy := groups } e) : s.Requires e := by
  cases h with
  | item hi hvalue hplain => exact .item hi hvalue hplain
  | order hi hvalue hplain => exact .order hi hvalue hplain
  | root hitems hid hn => exact .root hitems hid hn

theorem applyImplicitGroups_of_nil (h : s.implicitGroups = []) : s.applyImplicitGroups = s := by
  rw [applyImplicitGroups, h, List.append_nil]
  cases s
  rfl

/-- A query that holds no aggregate, size or subquery in what it selects and sorts by stays as it
is. Of any other, the groups are completed after those that it lists, and nothing else changes. A
second time nothing is added. -/
theorem groups_completed (hitems : ∀ i ∈ s.items, i.expr.NaNFree)
    (horder : ∀ i ∈ s.orderBy, i.expr.NaNFree) :
    ((∀ i ∈ s.items, ¬i.expr.Aggregating) ∧ (∀ i ∈ s.orderBy, ¬i.expr.Aggregating) →
      s.applyImplicitGroups = s) ∧
    ((∃ i ∈ s.items, i.expr.Aggregating) ∨ (∃ i ∈ s.orderBy, i.expr.Aggregating) →
      ∃ groups, s.applyImplicitGroups = { s with groupBy := s.groupBy ++ groups } ∧
        s.CompletedBy groups) ∧
    s.applyImplicitGroups.applyImplicitGroups = s.applyImplicitGroups := by
  refine ⟨fun ⟨hitems, horder⟩ => ?_, fun h => ?_, ?_⟩
  · have hplain : ¬s.aggregates = true := by
      rw [aggregates_iff]
      rintro (⟨i, hi, h⟩ | ⟨i, hi, h⟩)
      · exact hitems i hi h
      · exact horder i hi h
    exact applyImplicitGroups_of_nil (implicitGroups_of_not_aggregates hplain)
  · have haggregates := s.aggregates_iff.2 h
    exact ⟨s.implicitGroups, rfl, completedBy_implicitGroups hitems horder haggregates⟩
  · by_cases haggregates : s.aggregates = true
    · refine applyImplicitGroups_of_nil (implicitGroups_eq_nil fun e he => ?_)
      exact (completedBy_implicitGroups hitems horder haggregates).complete e he.of_groupBy
    · rw [applyImplicitGroups_of_nil (implicitGroups_of_not_aggregates haggregates),
        applyImplicitGroups_of_nil (implicitGroups_of_not_aggregates haggregates)]

/-- `SELECT p.name, COUNT(p.id), 1 FROM Person p GROUP BY p.name ORDER BY p.age ASC` -/
def peopleByName : Select where
  items := [⟨.ofPath "p.name", none⟩, ⟨.count (.ofPath "p.id"), none⟩, ⟨.int 1, none⟩]
  joins := { nodes := [{ aliasName := "p", source := .root "Person" }], roots := [0] }
  aliases := ⟨[("p", .join "p" 0 false)]⟩
  groupBy := [.ofPath "p.name"]
  orderBy := [{ expr := .ofPath "p.age" }]

/-- Of what people are selected and sorted by, their age is not yet a group. -/
theorem groups_completed_peopleByName :
    (∀ i ∈ peopleByName.items, i.expr.NaNFree) ∧ (∀ i ∈ peopleByName.orderBy, i.expr.NaNFree) ∧
    (∃ i ∈ peopleByName.items, i.expr.Aggregating) ∧
    peopleByName.CompletedBy [.ofPath "p.age"] := by
  have hitems : ∀ i ∈ peopleByName.items, i.expr.NaNFree := by decide
  have horder : ∀ i ∈ peopleByName.orderBy, i.expr.NaNFree := by decide
  have hcount : ∃ i ∈ peopleByName.items, i.expr.Aggregating :=
    ⟨⟨.count (.ofPath "p.id"), none⟩, List.mem_cons_of_mem _ List.mem_cons_self, .aggregate _ _ _⟩
  obtain ⟨groups, hgroups, hcompleted⟩ := (groups_completed hitems horder).2.1 (.inl hcount)
  have hlisted : peopleByName.applyImplicitGroups.groupBy =
      peopleByName.groupBy ++ [.ofPath "p.age"] := rfl
  rw [hgroups] at hlisted
  obtain rfl := List.append_cancel_left hlisted
  exact ⟨hitems, horder, hcount, hcompleted⟩

end Select

end EntityQuery
