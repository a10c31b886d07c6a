import EntityQuery.Proofs.Analysis.Groups
import EntityQuery.Proofs.Copy.Paths
import EntityQuery.Proofs.Query.Calls

/-!
Implicit groups that aggregate through aliases. No implicit group holds an aggregate, a size or a
subquery itself. But a path that consists of a select alias is required like any other, whatever
the alias names: what is sorted by the alias of an aggregate is grouped by the aggregate.
-/

namespace EntityQuery

namespace Expr

/-- Expressions that hold an aggregate, a size or a subquery, or a path that consists of a select
alias which names such an expression. -/
inductive AggregatesIn (t : AliasTable Expr) : Expr → Prop
  | direct {e : Expr} (h : e.Aggregating) : AggregatesIn t e
  | throughAlias {e target : Expr} {p : Path} {a name : String} (hp : p ∈ e.paths)
      (hbase : p.base = none) (helements : p.elements = [a])
      (hfind : t.find? a = some (.select name target)) (h : AggregatesIn t target) :
      AggregatesIn t e

variable {e e' : Expr} {es es' : List Expr}

/-- Expressions that are equal as values. -/
abbrev Agrees (e e' : Expr) : Prop := e.agrees e' = true

theorem forall₂_of_agreesList (h : agreesList es es' = true) : List.Forall₂ Agrees es es' := by
  refine forall₂_of_check (fun _ _ => rfl) (fun _ _ => rfl) (fun e es e' es' h => ?_) h
  rwa [agreesList, Bool.and_eq_true] at h

theorem forall₂_of_agreesOption {e? e?' : Option Expr} (h : agreesOption e? e?' = true) :
    List.Forall₂ Agrees e?.toList e?'.toList := by
  cases e? <;> cases e?' <;> simp_all [agreesOption, Agrees]

theorem forall₂_of_agreesPairs {bs bs' : List (Expr × Expr)} (h : agreesPairs bs bs' = true) :
    List.Forall₂ Agrees (bs.flatMap fun b => [b.1, b.2]) (bs'.flatMap fun b => [b.1, b.2]) := by
  have hpairs : List.Forall₂ (fun b b' => Agrees b.1 b'.1 ∧ Agrees b.2 b'.2) bs bs' := by
    refine forall₂_of_check (fun _ _ => rfl) (fun _ _ => rfl) (fun b bs b' bs' h => ?_) h
    simpa only [agreesPairs, Bool.and_eq_true] using h
  clear h
  induction hpairs with
  | nil => exact .nil
  | cons hfirst _ ih => exact .cons hfirst.1 (.cons hfirst.2 ih)

theorem path?_of_agrees (h : e.agrees e' = true) : e.path? = e'.path? := by
  cases e <;> cases e' <;> simp_all [agrees, path?]

/-- Equal expressions are put together from equal ones. -/
theorem children_of_agrees (h : e.agrees e' = true) :
    List.Forall₂ Agrees e.children e'.children := by
  cases e <;> cases e' <;> simp only [agrees, Bool.and_eq_true, Bool.false_eq_true] at h
  case call.call => exact forall₂_of_agreesList h.2
  case aggregate.aggregate => exact forall₂_of_agreesList h.1.2
  case oneOf.oneOf => exact .cons h.1.1 (forall₂_of_agreesList h.1.2)
  case caseWhen.caseWhen =>
    exact List.rel_append (List.rel_append (forall₂_of_agreesOption h.1.1)
      (forall₂_of_agreesPairs h.1.2)) (forall₂_of_agreesOption h.2)
  all_goals simp_all [children, Agrees]

/-- Equal expressions hold the same paths. -/
theorem paths_of_agrees (h : e.agrees e' = true) : e.paths = e'.paths := by
  induction e using childInduction generalizing e' with
  | h e ih =>
    have hchildren : e.children.flatMap paths = e'.children.flatMap paths := by
      have hagree := children_of_agrees h
      generalize e.children = es, e'.children = es' at ih hagree
      induction hagree with
      | nil => rfl
      | cons hfirst _ ihrest =>
          obtain ⟨hpaths, hothers⟩ := List.forall_mem_cons.1 ih
          rw [List.flatMap_cons, List.flatMap_cons, hpaths hfirst, ihrest hothers]
    rw [paths_eq e, paths_eq e', path?_of_agrees h, hchildren]

theorem AggregatesIn.of_agrees {t : AliasTable Expr} (hagrees : e'.agrees e = true)
    (hplain : ¬e.Aggregating) (h : e.AggregatesIn t) : e'.AggregatesIn t := by
  cases h with
  | direct h => exact absurd h hplain
  | throughAlias hp hbase helements hfind h =>
      exact .throughAlias (paths_of_agrees hagrees ▸ hp) hbase helements hfind h

end Expr

namespace Select

/-- No implicit group aggregates by itself. One aggregates through an alias if and only if the query
aggregates, and something that aggregates through an alias is required and not listed. -/
theorem aggregatesIn_implicitGroups (s : Select) :
    (∀ e ∈ s.implicitGroups, ¬e.Aggregating) ∧
    ((∃ e ∈ s.implicitGroups, e.AggregatesIn s.aliases) ↔
      ((∃ i ∈ s.items, i.expr.Aggregating) ∨ ∃ i ∈ s.orderBy, i.expr.Aggregating) ∧
      ∃ e, s.Requires e ∧ e.isIn s.groupBy = false ∧ e.AggregatesIn s.aliases) := by
  refine ⟨fun e he => (requires_of_mem_implicitGroups he).2.1.not_aggregating, ?_⟩
  rw [← aggregates_iff]
  constructor
  · rintro ⟨e, he, h⟩
    obtain ⟨haggregates, hrequires, hlisted⟩ := requires_of_mem_implicitGroups he
    exact ⟨haggregates, e, hrequires, hlisted, h⟩
  · rintro ⟨haggregates, e, hrequires, hlisted, h⟩
    rcases isIn_of_requires haggregates hrequires hlisted with hmem | hin
    · exact ⟨e, hmem, h⟩
    · obtain ⟨e', he', hagrees⟩ := List.any_eq_true.1 hin
      exact ⟨e', he', h.of_agrees hagrees hrequires.not_aggregating⟩

/-- `SELECT p.name, COUNT(p.id) AS n FROM Person p ORDER BY n DESC` -/
def namesByCount : Select := ofCalls
  [.addRoot "Person" "p", .select (.ofPath "p.name") none,
    .select (.count (.ofPath "p.id")) (some "n"), .order [⟨.ofPath "n", .desc, none⟩]]

/-- The names that are sorted by their count are grouped by it, too. -/
theorem exists_aggregatesIn_namesByCount :
    ¬∀ e ∈ namesByCount.implicitGroups, ¬e.AggregatesIn namesByCount.aliases := by
  have hgroups : namesByCount.implicitGroups = [.ofPath "p.name", .ofPath "n"] := rfl
  have hfind : namesByCount.aliases.find? "n" = some (.select "n" (.count (.ofPath "p.id"))) := rfl
  intro h
  refine h (.ofPath "n") (by simp [hgroups]) ?_
  exact .throughAlias List.mem_cons_self rfl rfl hfind (.direct (.aggregate _ _ _))

end Select

end EntityQuery
