import EntityQuery.Proofs.Analysis.Groups
import EntityQuery.Proofs.Copy.Expression

/-!
Binding as substitution. An expression is what is left of it when its paths are unbound, together
with the nodes that the paths start from, in their order. Binding it to new numbers keeps the one
and replaces each node of the other once. So bindings compose as their numbers do, and whatever does
not ask for nodes is left as it is.
-/

namespace EntityQuery

variable {m : Renumbering}

section Lists

variable {α : Type}

theorem option_eq_of_toList {a? a?' : Option α} (h : a?.toList = a?'.toList) : a? = a?' := by
  cases a? <;> cases a?' <;> simp_all

theorem pairs_eq_of_flatMap {ps ps' : List (α × α)}
    (h : (ps.flatMap fun p => [p.1, p.2]) = ps'.flatMap fun p => [p.1, p.2]) : ps = ps' := by
  induction ps generalizing ps' with
  | nil => cases ps' <;> simp_all
  | cons p rest ih =>
      cases ps' with
      | nil => simp at h
      | cons p' rest' =>
          simp only [List.flatMap_cons, List.cons_append, List.nil_append, List.cons.injEq] at h
          rw [Prod.ext h.1 h.2.1, ih h.2.2]

end Lists

namespace Renumbering

/-- The numbers of `m` and then those of `m'`. A node that `m` does not know has the number that it
gets from `m'`. -/
def andThen (m m' : Renumbering) : Renumbering :=
  m.entries.foldr (fun entry numbers => numbers.insert entry.1 (m'.apply entry.2)) m'

theorem find?_andThen (m m' : Renumbering) (id : NodeId) :
    (m.andThen m').find? id = ((m.find? id).map m'.apply).or (m'.find? id) := by
  obtain ⟨entries⟩ := m
  induction entries with
  | nil => rfl
  | cons entry rest ih =>
      have hfirst : find? ⟨entry :: rest⟩ id = if id = entry.1 then some entry.2
          else find? ⟨rest⟩ id := find?_insert ⟨rest⟩ entry.1 entry.2 id
      have hstep : andThen ⟨entry :: rest⟩ m' =
          (andThen ⟨rest⟩ m').insert entry.1 (m'.apply entry.2) := rfl
      rw [hstep, find?_insert, ih, hfirst]
      split <;> rfl

theorem apply_andThen (m m' : Renumbering) (id : NodeId) :
    (m.andThen m').apply id = m'.apply (m.apply id) := by
  simp only [apply, find?_andThen]
  cases m.find? id <;> rfl

end Renumbering

namespace Path

/-- A path that starts from no node. -/
def unbound (p : Path) : Path := { p with base := none }

theorem unbound_rebind (m : Renumbering) (p : Path) : (p.rebind m).unbound = p.unbound := rfl

theorem eq_of_unbound {p p' : Path} (h : p.unbound = p'.unbound) (hbase : p.base = p'.base) :
    p = p' := by
  cases p
  cases p'
  simp_all [unbound]

theorem option_eq_of_unbound {p? p?' : Option Path} (h : p?.map unbound = p?'.map unbound)
    (hbase : p?.map base = p?'.map base) : p? = p?' := by
  cases p? with
  | none => exact (Option.map_eq_none_iff.1 h.symm).symm
  | some p =>
      cases p?' with
      | none => cases h
      | some p' =>
          rw [eq_of_unbound (Option.some.inj h) (Option.some.inj hbase)]

end Path

namespace Expr

mutual

/-- An expression with the paths of its own level unbound. -/
def unbound : Expr → Expr
  | .path p => .path p.unbound
  | .literal v => .literal v
  | .parameter p => .parameter p
  | .call f args => .call f (unboundList args)
  | .aggregate f args d => .aggregate f (unboundList args) d
  | .subquery q => .subquery q
  | .indexed base index => .indexed base.unbound index.unbound
  | .null => .null
  | .caseWhen operand branches otherwise =>
      .caseWhen (unboundOption operand) (unboundPairs branches) (unboundOption otherwise)
  | .binary left op right => .binary left.unbound op right.unbound
  | .not e => .not e.unbound
  | .isNull e negated => .isNull e.unbound negated
  | .like e pattern escape negated => .like e.unbound pattern.unbound escape negated
  | .oneOf e values negated => .oneOf e.unbound (unboundList values) negated
  | .between e low high negated => .between e.unbound low.unbound high.unbound negated
  | .parens e => .parens e.unbound
  | .verbatim s => .verbatim s

def unboundList : List Expr → List Expr
  | [] => []
  | e :: rest => e.unbound :: unboundList rest

def unboundOption : Option Expr → Option Expr
  | none => none
  | some e => some e.unbound

def unboundPairs : List (Expr × Expr) → List (Expr × Expr)
  | [] => []
  | (a, b) :: rest => (a.unbound, b.unbound) :: unboundPairs rest

end

/-- The nodes that the paths of an expression start from, none for an unbound path. -/
def bases (e : Expr) : List (Option NodeId) := e.paths.map Path.base

theorem unboundList_eq_map (es : List Expr) : unboundList es = es.map unbound := by
  induction es with
  | nil => rfl
  | cons e rest ih => rw [unboundList, ih, List.map_cons]

theorem unboundOption_eq_map (e? : Option Expr) : unboundOption e? = e?.map unbound := by
  cases e? <;> rfl

theorem unboundPairs_eq_map (bs : List (Expr × Expr)) :
    unboundPairs bs = bs.map fun b => (b.1.unbound, b.2.unbound) := by
  induction bs with
  | nil => rfl
  | cons b rest ih => rw [unboundPairs, ih, List.map_cons]

theorem path?_unbound (e : Expr) : e.unbound.path? = e.path?.map Path.unbound := by
  cases e <;> rfl

theorem children_unbound (e : Expr) : e.unbound.children = e.children.map unbound := by
  cases e with
  | call f args => exact unboundList_eq_map args
  | aggregate f args d => exact unboundList_eq_map args
  | caseWhen operand branches otherwise =>
      simp only [unbound, children, unboundOption_eq_map, unboundPairs_eq_map, List.map_append,
        Option.toList_map, List.flatMap_map, List.map_flatMap, List.map_cons, List.map_nil]
  | oneOf e values negated => simp only [unbound, children, unboundList_eq_map, List.map_cons]
  | _ => rfl

theorem bases_eq (e : Expr) :
    e.bases = (e.path?.map Path.base).toList ++ e.children.flatMap bases := by
  rw [bases, paths_eq, List.map_append, List.map_flatMap, Option.toList_map]
  rfl

theorem length_bases_unbound (e : Expr) : e.unbound.bases.length = e.bases.length := by
  rw [bases, bases, List.length_map, List.length_map,
    paths_of_children path?_unbound children_unbound, List.length_map]

/-- What is unbound alike has its expressions at the same places of a CASE. -/
theorem caseWhen_eq_of_children {operand operand' otherwise otherwise' : Option Expr}
    {branches branches' : List (Expr × Expr)}
    (hoperand : operand.map unbound = operand'.map unbound)
    (hbranches : (branches.map fun b => (b.1.unbound, b.2.unbound)) =
      branches'.map fun b => (b.1.unbound, b.2.unbound))
    (hchildren : (caseWhen operand branches otherwise).children =
      (caseWhen operand' branches' otherwise').children) :
    caseWhen operand branches otherwise = caseWhen operand' branches' otherwise' := by
  have hfirst : operand.toList.length = operand'.toList.length := by
    simpa only [Option.toList_map, List.length_map] using
      congrArg (fun e? => e?.toList.length) hoperand
  have hmiddle : branches.length = branches'.length := by
    simpa only [List.length_map] using congrArg List.length hbranches
  obtain ⟨hfront, hlast⟩ := List.append_inj hchildren (by simp [hfirst, hmiddle])
  obtain ⟨hfirst, hmiddle⟩ := List.append_inj hfront hfirst
  rw [option_eq_of_toList hfirst, pairs_eq_of_flatMap hmiddle, option_eq_of_toList hlast]

/-- An expression is put together from its paths and the expressions inside it. -/
theorem eq_of_parts {e e' : Expr} (h : e.unbound = e'.unbound) (hpath : e.path? = e'.path?)
    (hchildren : e.children = e'.children) : e = e' := by
  cases e <;> cases e' <;> simp only [unbound, reduceCtorEq] at h
  case caseWhen.caseWhen =>
    simp only [caseWhen.injEq, unboundOption_eq_map, unboundPairs_eq_map] at h
    exact caseWhen_eq_of_children h.1 h.2.1 hchildren
  all_goals simp_all [path?, children]

theorem list_eq_of_unbound {es es' : List Expr}
    (ih : ∀ e ∈ es, ∀ e', e.unbound = e'.unbound → e.bases = e'.bases → e = e')
    (h : es.map unbound = es'.map unbound) (hbases : es.flatMap bases = es'.flatMap bases) :
    es = es' := by
  induction es generalizing es' with
  | nil => exact (List.map_eq_nil_iff.1 h.symm).symm
  | cons e rest ihrest =>
      cases es' with
      | nil => cases h
      | cons e' rest' =>
          obtain ⟨hfirst, hothers⟩ := List.cons.inj h
          have hlength : e.bases.length = e'.bases.length := by
            rw [← length_bases_unbound, hfirst, length_bases_unbound]
          obtain ⟨hbase, hrest⟩ := List.append_inj hbases hlength
          obtain ⟨he, hes⟩ := List.forall_mem_cons.1 ih
          rw [he e' hfirst hbase, ihrest hes hothers hrest]

/-- Unbound, an expression has lost its nodes and nothing else. -/
theorem eq_of_unbound {e e' : Expr} (h : e.unbound = e'.unbound) (hbases : e.bases = e'.bases) :
    e = e' := by
  induction e using childInduction generalizing e' with
  | h e ih =>
      -- Both have a path of their own or neither has, so the nodes split at the same place.
      have hpath : e.path?.map Path.unbound = e'.path?.map Path.unbound := by
        rw [← path?_unbound, h, path?_unbound]
      have hlength : (e.path?.map Path.base).toList.length =
          (e'.path?.map Path.base).toList.length := by
        simpa only [Option.toList_map, List.length_map] using
          congrArg (fun p? => p?.toList.length) hpath
      rw [bases_eq, bases_eq] at hbases
      obtain ⟨hbase, hothers⟩ := List.append_inj hbases hlength
      have hinside : e.children.map unbound = e'.children.map unbound := by
        rw [← children_unbound, h, children_unbound]
      have hchildren : e.children = e'.children :=
        list_eq_of_unbound (fun child hchild _ => ih child hchild) hinside hothers
      exact eq_of_parts h (Path.option_eq_of_unbound hpath (option_eq_of_toList hbase)) hchildren

theorem unboundList_rebindList {es : List Expr}
    (h : ∀ e ∈ es, (e.rebind m).unbound = e.unbound) :
    unboundList (rebindList m es) = unboundList es := by
  rw [rebindList_eq_map, unboundList_eq_map, unboundList_eq_map, List.map_map]
  exact List.map_congr_left h

theorem unboundOption_rebindOption {e? : Option Expr}
    (h : ∀ e ∈ e?, (e.rebind m).unbound = e.unbound) :
    unboundOption (rebindOption m e?) = unboundOption e? := by
  cases e? with
  | none => rfl
  | some e => exact congrArg some (h e rfl)

theorem unboundPairs_rebindPairs {bs : List (Expr × Expr)}
    (h : ∀ b ∈ bs, (b.1.rebind m).unbound = b.1.unbound ∧ (b.2.rebind m).unbound = b.2.unbound) :
    unboundPairs (rebindPairs m bs) = unboundPairs bs := by
  rw [rebindPairs_eq_map, unboundPairs_eq_map, unboundPairs_eq_map, List.map_map]
  exact List.map_congr_left fun b hb => Prod.ext (h b hb).1 (h b hb).2

/-- Binding changes nothing but the nodes that paths start from. -/
theorem unbound_rebind (e : Expr) : (e.rebind m).unbound = e.unbound := by
  induction e using childInduction with
  | h e ih =>
      cases e with
      | call f args =>
          have hargs : unboundList (rebindList m args) = unboundList args :=
            unboundList_rebindList ih
          rw [rebind, unbound, unbound, hargs]
      | aggregate f args d =>
          have hargs : unboundList (rebindList m args) = unboundList args :=
            unboundList_rebindList ih
          rw [rebind, unbound, unbound, hargs]
      | caseWhen operand branches otherwise =>
          obtain ⟨hoperand, hbranches, hotherwise⟩ := forall_children_caseWhen.1 ih
          rw [rebind, unbound, unbound, unboundOption_rebindOption hoperand,
            unboundPairs_rebindPairs hbranches, unboundOption_rebindOption hotherwise]
      | oneOf e values negated =>
          obtain ⟨he, hvalues⟩ := List.forall_mem_cons.1 ih
          rw [rebind, unbound, unbound, he, unboundList_rebindList hvalues]
      | _ => simp_all [rebind, unbound, children, Path.unbound_rebind]

/-- Each node that a path starts from is replaced once, at its place. -/
theorem bases_rebind (e : Expr) : (e.rebind m).bases = e.bases.map (Option.map m.apply) := by
  rw [bases, bases, paths_rebind, List.map_map, List.map_map]
  rfl

/-- Binding is substitution: its result is the expression that differs in nodes only and starts
from the new nodes. -/
theorem eq_rebind_iff {e e' : Expr} : e' = e.rebind m ↔
    e'.unbound = e.unbound ∧ e'.bases = e.bases.map (Option.map m.apply) := by
  constructor
  · rintro rfl
    exact ⟨e.unbound_rebind, e.bases_rebind⟩
  · rintro ⟨hunbound, hbases⟩
    exact eq_of_unbound (hunbound.trans e.unbound_rebind.symm) (hbases.trans e.bases_rebind.symm)

theorem rebind_rebind (m m' : Renumbering) (e : Expr) :
    (e.rebind m).rebind m' = e.rebind (m.andThen m') := by
  refine eq_rebind_iff.2 ⟨?_, ?_⟩
  · rw [unbound_rebind, unbound_rebind]
  · have hnumbers : Option.map m'.apply ∘ Option.map m.apply = Option.map (m.andThen m').apply := by
      rw [Option.map_comp_map]
      exact congrArg Option.map (funext fun id => (m.apply_andThen m' id).symm)
    rw [bases_rebind, bases_rebind, List.map_map, hnumbers]

theorem subexpressions_rebind (e : Expr) :
    (e.rebind m).subexpressions = e.subexpressions.map (rebind m) := by
  induction e using childInduction with
  | h e ih =>
      rw [subexpressions_eq, subexpressions_eq, children_rebind, List.map_cons, List.flatMap_map,
        List.map_flatMap, List.flatMap_congr ih]

theorem isAggregated_rebind (sizes : Bool) (e : Expr) :
    (e.rebind m).isAggregated sizes = e.isAggregated sizes := by
  cases e <;> rfl

/-- What counts as aggregated does not depend on nodes. -/
theorem aggregates_rebind (sizes : Bool) (e : Expr) :
    (e.rebind m).aggregates sizes = e.aggregates sizes := by
  rw [aggregates, aggregates, subexpressions_rebind, List.any_map]
  exact congrArg e.subexpressions.any (funext fun part => part.isAggregated_rebind sizes)

/-- Binding an expression substitutes the nodes that its paths start from, outside subqueries, each
once and at its place, and nothing else: no other expression has these nodes and is otherwise the
same. It composes as the numbers do, no numbers leave everything as it is, and neither the mentions
of parameters nor aggregates depend on it. -/
theorem rebind_substitutes (m m' : Renumbering) (e : Expr) :
    (∀ e', e' = e.rebind m ↔ e'.unbound = e.unbound ∧
      e'.bases = e.bases.map (Option.map fun id => (m.find? id).getD id)) ∧
    (e.rebind m).rebind m' = e.rebind (m.andThen m') ∧
    (∀ id, (m.andThen m').apply id = m'.apply (m.apply id)) ∧
    e.rebind {} = e ∧
    (e.rebind m).markers = e.markers ∧ (e.rebind m).parameters = e.parameters ∧
    ∀ sizes, (e.rebind m).aggregates sizes = e.aggregates sizes := by
  refine ⟨fun e' => eq_rebind_iff, rebind_rebind m m' e, m.apply_andThen m', ?_,
    e.markers_rebind m, ?_, fun sizes => e.aggregates_rebind sizes⟩
  · exact rebind_of_fixes (fun _ => rfl) e
  · rw [parameters, parameters, markers_rebind]

/-- Numbers of the old and of the new nodes may coincide. -/
example : ((binary (bound 0 "p" none) .eq (bound 1 "q" none)).rebind ⟨[(0, 1), (1, 2)]⟩).bases =
    [some 1, some 2] := by decide

end Expr

/-- What aliases name is bound like any expression. -/
theorem AliasTable.rebind_rebind (m m' : Renumbering) (t : AliasTable Expr) :
    (t.rebind Expr.rebind m).rebind Expr.rebind m' = t.rebind Expr.rebind (m.andThen m') := by
  have hentry (entry : AliasEntry Expr) :
      (entry.rebind Expr.rebind m).rebind Expr.rebind m' =
        entry.rebind Expr.rebind (m.andThen m') := by
    cases entry with
    | join aliasName node implicit =>
        exact congrArg (AliasEntry.join aliasName · implicit) (m.apply_andThen m' node).symm
    | select aliasName e => exact congrArg (AliasEntry.select aliasName) (e.rebind_rebind m m')
  rw [rebind, rebind, rebind, List.map_map]
  exact congrArg AliasTable.mk
    (List.map_congr_left fun entry _ => Prod.ext rfl (hentry entry.2))

end EntityQuery
