import EntityQuery.Proofs.Induction

/-!
The paths of an expression, and what binding it to new numbers does to them. Every path outside
subqueries is bound once and stays where it is, and an expression whose paths keep their nodes is
left as it is.
-/

namespace EntityQuery

variable {m : Renumbering}

namespace Path

/-- A path keeps its node if the node keeps its number. -/
theorem rebind_eq_self {p : Path} (h : ∀ id ∈ p.base, m.apply id = id) : p.rebind m = p := by
  obtain ⟨elements, base, field, inCollectionFunction, keySide⟩ := p
  cases base with
  | none => rfl
  | some id => rw [rebind, Option.map_some, h id rfl]

end Path

namespace Expr

/-- The path that an expression is, or takes an element of. -/
def path? : Expr → Option Path
  | .path p => some p
  | .indexed base _ => some base
  | _ => none

/-- The paths in an expression, outside subqueries. -/
def paths (e : Expr) : List Path := e.subexpressions.filterMap path?

theorem paths_eq (e : Expr) : e.paths = e.path?.toList ++ e.children.flatMap paths := by
  rw [paths, subexpressions_eq, List.filterMap_cons, List.filterMap_flatMap]
  cases e.path? <;> rfl

theorem rebindList_eq_map (es : List Expr) : rebindList m es = es.map (rebind m) := by
  induction es with
  | nil => rfl
  | cons e rest ih => rw [rebindList, ih, List.map_cons]

theorem rebindOption_eq_map (e? : Option Expr) : rebindOption m e? = e?.map (rebind m) := by
  cases e? <;> rfl

theorem rebindPairs_eq_map (bs : List (Expr × Expr)) :
    rebindPairs m bs = bs.map fun b => (b.1.rebind m, b.2.rebind m) := by
  induction bs with
  | nil => rfl
  | cons b rest ih => rw [rebindPairs, ih, List.map_cons]

theorem path?_rebind (e : Expr) : (e.rebind m).path? = e.path?.map (Path.rebind m) := by
  cases e <;> rfl

/-- Binding reaches the expressions directly inside an expression, each at its place. -/
theorem children_rebind (e : Expr) : (e.rebind m).children = e.children.map (rebind m) := by
  cases e with
  | call f args => exact rebindList_eq_map args
  | aggregate f args d => exact rebindList_eq_map args
  | caseWhen operand branches otherwise =>
      simp only [rebind, children, rebindOption_eq_map, rebindPairs_eq_map, List.map_append,
        Option.toList_map, List.flatMap_map, List.map_flatMap, List.map_cons, List.map_nil]
  | oneOf e values negated => simp only [rebind, children, rebindList_eq_map, List.map_cons]
  | _ => rfl

/-- What changes the path of an expression and goes on to the expressions inside it changes every
path once. -/
theorem paths_of_children {φ : Expr → Expr} {f : Path → Path}
    (hpath : ∀ e, (φ e).path? = e.path?.map f) (hchildren : ∀ e, (φ e).children = e.children.map φ)
    (e : Expr) : (φ e).paths = e.paths.map f := by
  induction e using childInduction with
  | h e ih =>
      rw [paths_eq, paths_eq, hpath, hchildren, Option.toList_map, List.map_append,
        List.flatMap_map, List.map_flatMap, List.flatMap_congr ih]

/-- Every path is bound once, and none is moved, added or lost. -/
theorem paths_rebind (e : Expr) : (e.rebind m).paths = e.paths.map (Path.rebind m) :=
  paths_of_children path?_rebind children_rebind e

theorem map_rebind_eq_self {es : List Expr} (h : ∀ e ∈ es, e.rebind m = e) :
    es.map (rebind m) = es :=
  (List.map_congr_left (g := id) h).trans (List.map_id es)

theorem rebindOption_eq_self {e? : Option Expr} (h : ∀ e ∈ e?, e.rebind m = e) :
    rebindOption m e? = e? := by
  cases e? with
  | none => rfl
  | some e => rw [rebindOption, h e rfl]

theorem rebindPairs_eq_self {bs : List (Expr × Expr)}
    (h : ∀ b ∈ bs, b.1.rebind m = b.1 ∧ b.2.rebind m = b.2) : rebindPairs m bs = bs := by
  rw [rebindPairs_eq_map]
  exact (List.map_congr_left (g := id) fun b hb => Prod.ext (h b hb).1 (h b hb).2).trans
    (List.map_id bs)

/-- An expression is bound where it is a path, and where the expressions inside it are. -/
theorem rebind_eq_self_of_children {e : Expr} (hpath : ∀ p ∈ e.path?, p.rebind m = p)
    (hchildren : ∀ child ∈ e.children, child.rebind m = child) : e.rebind m = e := by
  cases e with
  | path p => rw [rebind, hpath p rfl]
  | indexed base index =>
      rw [rebind, hpath base rfl, hchildren index List.mem_cons_self]
  | call f args =>
      have hargs : args.map (rebind m) = args := map_rebind_eq_self hchildren
      rw [rebind, rebindList_eq_map, hargs]
  | aggregate f args d =>
      have hargs : args.map (rebind m) = args := map_rebind_eq_self hchildren
      rw [rebind, rebindList_eq_map, hargs]
  | caseWhen operand branches otherwise =>
      obtain ⟨hoperand, hbranches, hotherwise⟩ := forall_children_caseWhen.1 hchildren
      rw [rebind, rebindOption_eq_self hoperand, rebindPairs_eq_self hbranches,
        rebindOption_eq_self hotherwise]
  | oneOf e values negated =>
      obtain ⟨he, hvalues⟩ := List.forall_mem_cons.1 hchildren
      rw [rebind, rebindList_eq_map, he, map_rebind_eq_self hvalues]
  | _ => simp_all [rebind, children]

/-- An expression whose paths keep their nodes is left as it is. -/
theorem rebind_eq_self {e : Expr} (h : ∀ p ∈ e.paths, p.rebind m = p) : e.rebind m = e := by
  induction e using childInduction with
  | h e ih =>
      rw [paths_eq, List.forall_mem_append, List.forall_mem_flatMap] at h
      obtain ⟨hpath, hchildren⟩ := h
      refine rebind_eq_self_of_children (fun p hp => hpath p (Option.mem_toList.2 hp)) ?_
      exact fun child hchild => ih child hchild (hchildren child hchild)

theorem rebind_of_fixes (h : ∀ id, m.apply id = id) (e : Expr) : e.rebind m = e :=
  rebind_eq_self fun _ _ => Path.rebind_eq_self fun id _ => h id

end Expr

end EntityQuery
