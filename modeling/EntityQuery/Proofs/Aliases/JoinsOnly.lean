import Mathlib.Data.List.Sort
import EntityQuery.Proofs.Aliases.Table
import EntityQuery.Proofs.Copy.Expression

/-!
Alias tables without their select aliases. As long as select aliases are not replaced, a level that
no prefixed level encloses is written as if they were not in its table: a path that starts with one
is written as one that starts with nothing known. Changes of a table go along with leaving its
select aliases out.
-/

namespace EntityQuery

namespace AliasTable

variable {ε : Type} {t t' : AliasTable ε} {a : String}

theorem Sorted.find?_eq_some (h : t.Sorted) {entry : AliasEntry ε} :
    t.find? a = some entry ↔ (a, entry) ∈ t.entries := by
  refine ⟨mem_of_find?, fun hentry => ?_⟩
  obtain ⟨found, hfound⟩ :=
    Option.isSome_iff_exists.1 (find?_isSome_of_mem_keys (List.mem_map_of_mem hentry))
  have hsame := List.inj_on_of_nodup_map h.nodup (mem_of_find? hfound) hentry rfl
  exact hfound.trans (congrArg (fun e => some e.2) hsame)

/-- Tables that answer the same are the same. -/
theorem Sorted.ext (h : t.Sorted) (h' : t'.Sorted) (hfind : ∀ a, t'.find? a = t.find? a) :
    t' = t := by
  have hirrefl : Std.Irrefl fun e e' : String × AliasEntry ε => e.1 < e'.1 :=
    ⟨fun e => String.lt_irrefl e.1⟩
  have hantisymm : Std.Antisymm fun e e' : String × AliasEntry ε => e.1 < e'.1 :=
    ⟨fun e e' hlt hgt => absurd (String.lt_trans hlt hgt) (String.lt_irrefl e.1)⟩
  have hentries : t'.entries = t.entries := by
    refine List.Pairwise.eq_of_mem_iff (List.pairwise_map.1 h') (List.pairwise_map.1 h) fun e => ?_
    rw [← h'.find?_eq_some, ← h.find?_eq_some, hfind]
  rw [← AliasTable.mk.injEq] at hentries
  exact hentries

/-- A table without its select aliases. -/
def joinsOnly (t : AliasTable ε) : AliasTable ε := ⟨t.entries.filter fun e => e.2.isJoin⟩

theorem Sorted.joinsOnly (h : t.Sorted) : t.joinsOnly.Sorted :=
  List.Pairwise.sublist (List.filter_sublist.map Prod.fst) h

theorem Sorted.find?_joinsOnly (h : t.Sorted) (a : String) :
    t.joinsOnly.find? a = (t.find? a).filter AliasEntry.isJoin := by
  refine Option.ext fun entry => ?_
  rw [h.joinsOnly.find?_eq_some, Option.filter_eq_some_iff, h.find?_eq_some, AliasTable.joinsOnly,
    List.mem_filter]

theorem joinAliases_joinsOnly (t : AliasTable ε) : t.joinsOnly.joinAliases = t.joinAliases := by
  simp [joinAliases, values, joinsOnly, List.filter_map, Function.comp_def, List.filter_filter]

theorem Sorted.joinNode?_joinsOnly (h : t.Sorted) (a : String) :
    t.joinsOnly.joinNode? a = t.joinNode? a := by
  rw [joinNode?, joinNode?, h.find?_joinsOnly]
  cases t.find? a with
  | none => rfl
  | some entry => cases entry <;> rfl

theorem find?_erase (t : AliasTable ε) (key a : String) :
    (t.erase key).find? a = if a = key then none else t.find? a := by
  rw [find?, find?, erase]
  induction t.entries with
  | nil => simp
  | cons entry rest ih =>
      obtain ⟨k, e⟩ := entry
      by_cases hk : k = key
      · rw [List.filter_cons_of_neg (by simp [hk]), ih, lookup_cons_if]
        by_cases ha : a = key <;> simp [ha, hk]
      · rw [List.filter_cons_of_pos (by simp [hk]), lookup_cons_if, lookup_cons_if, ih]
        by_cases ha : a = k
        · simp [ha, hk]
        · simp [ha]

theorem Sorted.erase (h : t.Sorted) (key : String) : (t.erase key).Sorted :=
  List.Pairwise.sublist (List.filter_sublist.map Prod.fst) h

theorem Sorted.joinsOnly_insertJoin (h : t.Sorted) (key : String) (node : NodeId)
    (implicit : Bool) :
    (t.insertJoin key node implicit).joinsOnly = t.joinsOnly.insertJoin key node implicit := by
  refine (h.joinsOnly.insert _ _).ext (h.insert _ _).joinsOnly fun a => ?_
  rw [insertJoin, (h.insert _ _).find?_joinsOnly, find?_insert, find?_insert,
    h.find?_joinsOnly]
  split <;> rfl

/-- A select alias takes the place of a join alias that was there. -/
theorem Sorted.joinsOnly_insertSelect (h : t.Sorted) (key : String) (e : ε) :
    (t.insertSelect key e).joinsOnly = t.joinsOnly.erase key := by
  refine (h.joinsOnly.erase key).ext (h.insert _ _).joinsOnly fun a => ?_
  rw [insertSelect, (h.insert _ _).find?_joinsOnly, find?_insert, find?_erase, h.find?_joinsOnly]
  split <;> rfl

/-- A select alias that no join has leaves the join aliases as they are. -/
theorem Sorted.joinsOnly_insertSelect_of_free (h : t.Sorted) {key : String}
    (hfree : t.joinNode? key = none) (e : ε) : (t.insertSelect key e).joinsOnly = t.joinsOnly := by
  rw [h.joinsOnly_insertSelect]
  refine h.joinsOnly.ext (h.joinsOnly.erase key) fun a => ?_
  rw [find?_erase]
  split
  next ha =>
    subst ha
    rw [joinNode?] at hfree
    rw [h.find?_joinsOnly]
    split at hfree
    · cases hfree
    next hother =>
      cases hentry : t.find? a with
      | none => rfl
      | some entry =>
          cases entry with
          | join name node implicit => exact absurd hentry (hother name node implicit)
          | select name e => rfl
  next => rfl

theorem joinsOnly_rebind (m : Renumbering) (t : AliasTable Expr) :
    (t.rebind Expr.rebind m).joinsOnly = t.joinsOnly.rebind Expr.rebind m := by
  simp [joinsOnly, rebind, List.filter_map, Function.comp_def]

theorem Sorted.rebind {t : AliasTable Expr} (h : t.Sorted) (m : Renumbering) :
    (t.rebind Expr.rebind m).Sorted := by
  rw [Sorted, AliasTable.rebind, List.map_map]
  exact h

/-- Tables that differ in their select aliases alone. -/
structure SameJoins (t t' : AliasTable ε) : Prop where
  sorted : t.Sorted
  sorted' : t'.Sorted
  joinsOnly : t'.joinsOnly = t.joinsOnly

namespace SameJoins

theorem insertJoin (h : t.SameJoins t') (key : String) (node : NodeId) (implicit : Bool) :
    (t.insertJoin key node implicit).SameJoins (t'.insertJoin key node implicit) where
  sorted := h.sorted.insert _ _
  sorted' := h.sorted'.insert _ _
  joinsOnly := by
    rw [h.sorted.joinsOnly_insertJoin, h.sorted'.joinsOnly_insertJoin, h.joinsOnly]

theorem insertSelect (h : t.SameJoins t') (key : String) (e : ε) :
    (t.insertSelect key e).SameJoins (t'.insertSelect key e) where
  sorted := h.sorted.insert _ _
  sorted' := h.sorted'.insert _ _
  joinsOnly := by
    rw [h.sorted.joinsOnly_insertSelect, h.sorted'.joinsOnly_insertSelect, h.joinsOnly]

theorem of_free (h : t.Sorted) {key : String} (hfree : t.joinNode? key = none) (e : ε) :
    t.SameJoins (t.insertSelect key e) :=
  ⟨h, h.insert _ _, h.joinsOnly_insertSelect_of_free hfree e⟩

theorem rebind {t t' : AliasTable Expr} (h : t.SameJoins t') (m : Renumbering) :
    (t.rebind Expr.rebind m).SameJoins (t'.rebind Expr.rebind m) where
  sorted := h.sorted.rebind m
  sorted' := h.sorted'.rebind m
  joinsOnly := by rw [joinsOnly_rebind, joinsOnly_rebind, h.joinsOnly]

theorem joinNode? (h : t.SameJoins t') (a : String) : t'.joinNode? a = t.joinNode? a := by
  rw [← h.sorted'.joinNode?_joinsOnly, h.joinsOnly, h.sorted.joinNode?_joinsOnly]

theorem requireJoin (h : t.SameJoins t') (a : String) : t'.requireJoin a = t.requireJoin a := by
  rw [AliasTable.requireJoin, AliasTable.requireJoin, h.joinNode?]

theorem joinAliases (h : t.SameJoins t') : t'.joinAliases = t.joinAliases := by
  rw [← t'.joinAliases_joinsOnly, h.joinsOnly, t.joinAliases_joinsOnly]

end SameJoins

end AliasTable

section Level

variable {ctx : RenderContext} {t t' : AliasTable Expr}

/-- Nothing but the conditions of joins depends on the aliases in a FROM clause. -/
theorem Level.fromTokens_aliases (g : JoinGraph Expr)
    (conditions : List (Option (Except QueryError (List Token)))) :
    fromTokens ⟨ctx, t', g⟩ conditions = fromTokens ⟨ctx, t, g⟩ conditions := by
  have hlist (ids : List NodeId) :
      joinListTokens ⟨ctx, t', g⟩ conditions ids = joinListTokens ⟨ctx, t, g⟩ conditions ids := by
    induction ids with
    | nil => rfl
    | cons id rest ih =>
        rw [joinListTokens, joinListTokens, ih]
        rfl
  have hentry : entryTokens ⟨ctx, t', g⟩ conditions = entryTokens ⟨ctx, t, g⟩ conditions := by
    funext root
    simp only [entryTokens, hlist]
    rfl
  rw [fromTokens, fromTokens, hentry]

/-- A path that no join alias starts is written as it is. -/
theorem Level.resolvedTokens_eq (houter : ctx.outer = none) (h : t.Sorted) (g : JoinGraph Expr)
    (p : Path) :
    resolvedTokens ⟨ctx, t, g⟩ p =
      match p.base with
      | some node => nodeTokens ⟨ctx, {}, g⟩ node p.field p
      | none =>
          match t.joinsOnly.find? p.head with
          | some (.join _ node _) => nodeTokens ⟨ctx, {}, g⟩ node p.tail? p
          | _ => .ok [.name p.text] := by
  rw [h.find?_joinsOnly]
  unfold resolvedTokens
  cases p.base with
  | some node => rfl
  | none =>
      cases t.find? p.head with
      | none => simp [RenderContext.outerPrefixTokens, houter]
      | some entry => cases entry <;> rfl

variable (hinline : ctx.options.inlineAliases = false) (houter : ctx.outer = none)
variable (h : t.SameJoins t')
include hinline houter h

theorem Level.pathTokens_sameJoins (g : JoinGraph Expr) (p : Path) :
    pathTokens ⟨ctx, t', g⟩ p = pathTokens ⟨ctx, t, g⟩ p := by
  unfold pathTokens
  rw [hinline, resolvedTokens_eq houter h.sorted, resolvedTokens_eq houter h.sorted', h.joinsOnly]
  rfl

theorem Expr.tokens_sameJoins (g : JoinGraph Expr) :
    Expr.tokens ⟨ctx, t', g⟩ = Expr.tokens ⟨ctx, t, g⟩ := by
  have hpath (p : Path) :
      Level.pathTokens ⟨ctx, t', g⟩ (p.rebind {}) = Level.pathTokens ⟨ctx, t, g⟩ p := by
    rw [Path.rebind_eq_self fun _ _ => rfl]
    exact Level.pathTokens_sameJoins hinline houter h g p
  funext position e
  have htokens := (Level.tokens_rebind hpath h.joinAliases).expr e position
  rwa [Expr.rebind_of_fixes fun _ => rfl] at htokens

end Level

end EntityQuery
