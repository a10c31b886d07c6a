import Mathlib.Data.List.Find
import EntityQuery.Proofs.Aliases.Chains
import EntityQuery.Proofs.Query.Built
import EntityQuery.Proofs.Rewriting.Levels

/-!
Renaming the join aliases of the outermost level. The aliases get the prefix that they would be
written with; a path is renamed by its first element, on whatever level it stands. Where no other
name is mistaken for a renamed one, a path and its renamed form name the same, and the chains of
select aliases that start with them run side by side.
-/

namespace EntityQuery

namespace OuterScope

variable (outer : OuterScope)

/-- A name, with the prefix if it is one of the aliases. -/
def rename (name : String) : String :=
  if outer.aliases.contains name then outer.aliasPrefix ++ name else name

/-- A path with its first element renamed. -/
def renamePath (p : Path) : Path :=
  match p.elements with
  | [] => p
  | first :: rest => { p with elements := outer.rename first :: rest }

/-- The path of an enclosing query, with its first element renamed. -/
def renameSource (path : String) : String :=
  if outer.aliases.contains (Dotted.head path) then outer.aliasPrefix ++ path else path

def rewriting : Rewriting where
  path _ := outer.renamePath
  source := outer.renameSource

/-- An entry of the outermost level, with its alias renamed if it names a join. -/
def renameEntry : AliasEntry Expr → AliasEntry Expr
  | .join a node implicit => .join (outer.rename a) node implicit
  | .select a e => .select a (e.rewrite outer.rewriting outer.renamePath)

/-- The aliases of the outermost level, under their new names. -/
def renameTable (t : AliasTable Expr) : AliasTable Expr := .ofEntries (t.values.map outer.renameEntry)

/-- A node of the outermost level under its new name. -/
def renameNode (n : JoinNode Expr) : JoinNode Expr :=
  { n with
    aliasName := outer.rename n.aliasName
    condition := n.condition.map (Expr.rewrite outer.rewriting outer.renamePath) }

/-- Whether a name is not that of a renamed alias. -/
def Fresh (name : String) : Prop := ∀ a ∈ outer.aliases, name ≠ outer.aliasPrefix ++ a

instance : DecidablePred outer.Fresh := fun name =>
  inferInstanceAs (Decidable (∀ a ∈ outer.aliases, name ≠ outer.aliasPrefix ++ a))

/-- Whether renaming keeps a path apart from all others: its first element has no dot and is not
that of a renamed alias. -/
def Spares (p : Path) : Prop := Dotted.head p.head = p.head ∧ outer.Fresh p.head

instance : DecidablePred outer.Spares := fun p =>
  inferInstanceAs (Decidable (Dotted.head p.head = p.head ∧ outer.Fresh p.head))

variable {outer} {name other : String} {p : Path}

theorem rename_of_mem (h : name ∈ outer.aliases) : outer.rename name = outer.aliasPrefix ++ name :=
  if_pos (List.contains_iff_mem.2 h)

theorem rename_of_notMem (h : name ∉ outer.aliases) : outer.rename name = name :=
  if_neg (mt List.contains_iff_mem.1 h)

/-- Fresh names stay different. -/
theorem rename_inj (hname : outer.Fresh name) (hother : outer.Fresh other) :
    outer.rename name = outer.rename other ↔ name = other := by
  refine ⟨fun h => ?_, congrArg outer.rename⟩
  by_cases hn : name ∈ outer.aliases <;> by_cases ho : other ∈ outer.aliases
  · rw [rename_of_mem hn, rename_of_mem ho] at h
    exact String.append_right_inj _ |>.1 h
  · rw [rename_of_mem hn, rename_of_notMem ho] at h
    exact absurd h.symm (hother name hn)
  · rw [rename_of_notMem hn, rename_of_mem ho] at h
    exact absurd h (hname other ho)
  · rwa [rename_of_notMem hn, rename_of_notMem ho] at h

theorem renamePath_of_notMem (h : p.head ∉ outer.aliases) : outer.renamePath p = p := by
  obtain ⟨elements, base, field, inCollectionFunction, keySide⟩ := p
  cases elements with
  | nil => rfl
  | cons first rest =>
      have hfirst : outer.rename first = first := rename_of_notMem h
      simp only [renamePath, hfirst]

theorem head_renamePath (hempty : "" ∉ outer.aliases) (p : Path) :
    (outer.renamePath p).head = outer.rename p.head := by
  obtain ⟨elements, base, field, inCollectionFunction, keySide⟩ := p
  cases elements with
  | nil => exact (rename_of_notMem hempty).symm
  | cons first rest => rfl

/-- The prefix before the first element stands before the path as a whole. -/
theorem text_renamePath_of_mem (hempty : "" ∉ outer.aliases) (h : p.head ∈ outer.aliases) :
    (outer.renamePath p).text = outer.aliasPrefix ++ p.text := by
  obtain ⟨elements, base, field, inCollectionFunction, keySide⟩ := p
  cases elements with
  | nil => exact absurd h hempty
  | cons first rest =>
      have hfirst : outer.rename first = outer.aliasPrefix ++ first := rename_of_mem h
      simp only [renamePath, hfirst, Path.text, Dotted.join]
      refine String.toList_injective ?_
      cases rest <;> simp [List.intercalate]

/-- A renamed path differs in its first element alone. -/
theorem paired_renamePath (p : Path) : p.Paired (outer.renamePath p) := by
  obtain ⟨elements, base, field, inCollectionFunction, keySide⟩ := p
  match elements with
  | [] => exact ⟨rfl, rfl, rfl, rfl, rfl⟩
  | [first] => exact ⟨rfl, rfl, rfl, rfl, rfl⟩
  | first :: second :: rest => exact ⟨rfl, rfl, rfl, rfl, rfl⟩

theorem isSingle_renamePath (p : Path) : (outer.renamePath p).isSingle = p.isSingle := by
  obtain ⟨elements, base, field, inCollectionFunction, keySide⟩ := p
  cases elements <;> rfl

end OuterScope

/-- An entry and what it becomes: a join alias may get another name, and the expression of a select
alias is rewritten. -/
inductive AliasEntry.Renamed (outer : OuterScope) : AliasEntry Expr → AliasEntry Expr → Prop
  | join (a a' : String) (node : NodeId) (implicit : Bool) :
      Renamed outer (.join a node implicit) (.join a' node implicit)
  | select (a : String) (e : Expr) :
      Renamed outer (.select a e) (.select a (e.rewrite outer.rewriting outer.renamePath))

theorem AliasEntry.Renamed.paired {outer : OuterScope} {entry entry' : AliasEntry Expr}
    (h : entry.Renamed outer entry') : entry.Paired entry' := by
  cases h with
  | join a a' node implicit => exact .join a a' node implicit implicit
  | select a e => exact .select a a e _

namespace AliasTable

/-- The paths that select aliases name. -/
def targets (t : AliasTable Expr) : List Path :=
  t.values.filterMap fun
    | .select _ (.path target) => some target
    | _ => none

/-- Two tables in which a name and the renamed name stand for the same. Names of expressions are not
renamed. -/
structure Renamed (outer : OuterScope) (t t' : AliasTable Expr) : Prop where
  length : t'.entries.length = t.entries.length
  find? : ∀ name, outer.Fresh name →
    Option.Rel (AliasEntry.Renamed outer) (t.find? name) (t'.find? (outer.rename name))
  select : ∀ name a e, t.find? name = some (.select a e) → name ∉ outer.aliases
  target : ∀ target ∈ t.targets, outer.Spares target

namespace Renamed

variable {outer : OuterScope} {t t' : AliasTable Expr} {p : Path} (h : t.Renamed outer t')
include h

/-- Only what is not renamed is replaced. -/
theorem renamePath_of_replacement? {target : Path} (hp : t.replacement? p = some target) :
    outer.renamePath p = p := by
  obtain ⟨-, -, a, hfind⟩ := replacement?_eq_some hp
  exact OuterScope.renamePath_of_notMem (h.select _ _ _ hfind)

theorem spares_of_replacement? {target : Path} (hp : t.replacement? p = some target) :
    outer.Spares target := by
  obtain ⟨-, -, a, hfind⟩ := replacement?_eq_some hp
  exact h.target target (List.mem_filterMap.2 ⟨_, mem_values hfind, rfl⟩)

variable (hempty : "" ∉ outer.aliases)
include hempty

theorem find?_paired (hp : outer.Spares p) :
    Option.Rel AliasEntry.Paired (t.find? p.head) (t'.find? (outer.renamePath p).head) := by
  have hfind := h.find? p.head hp.2
  rw [OuterScope.head_renamePath hempty]
  generalize t.find? p.head = entry, t'.find? (outer.rename p.head) = entry' at hfind
  cases hfind with
  | none => exact .none
  | some hentry => exact .some hentry.paired

theorem replacement? (hp : outer.Spares p) :
    t'.replacement? (outer.renamePath p) = (t.replacement? p).map outer.renamePath := by
  have hfind := h.find? p.head hp.2
  rw [AliasTable.replacement?, AliasTable.replacement?, (OuterScope.paired_renamePath p).base,
    OuterScope.isSingle_renamePath, OuterScope.head_renamePath hempty]
  split
  · generalize t.find? p.head = entry, t'.find? (outer.rename p.head) = entry' at hfind
    cases hfind with
    | none => rfl
    | some hentry =>
        cases hentry with
        | join a a' node implicit => rfl
        | select a e => cases e <;> rfl
  · rfl

/-- Both chains take the same steps. -/
theorem followChain (steps : Nat) (passed : List String) (hp : outer.Spares p) :
    match t.followChain steps passed p with
    | .path target => outer.Spares target ∧
        t'.followChain steps passed (outer.renamePath p) = .path (outer.renamePath target)
    | .cycle a => t'.followChain steps passed (outer.renamePath p) = .cycle a := by
  induction steps generalizing passed p with
  | zero => exact ⟨hp, rfl⟩
  | succ steps ih =>
      rw [AliasTable.followChain, AliasTable.followChain, h.replacement? hempty hp]
      cases hreplaced : t.replacement? p with
      | none => exact ⟨hp, rfl⟩
      | some target =>
          have hsame := h.renamePath_of_replacement? hreplaced
          simp only [Option.map_some, hsame]
          cases passed.contains p.head with
          | true => rfl
          | false => exact ih (p.head :: passed) (h.spares_of_replacement? hreplaced)

end Renamed

variable {outer : OuterScope} {t : AliasTable Expr}

/-- A level that knows none of the names keeps its own. -/
theorem renamed_rewrite (hnames : ∀ a ∈ outer.aliases, t.find? a = none ∧
      t.find? (outer.aliasPrefix ++ a) = none) (htargets : ∀ p ∈ t.targets, outer.Spares p) :
    t.Renamed outer (t.rewrite outer.rewriting outer.renamePath) where
  length := List.length_map _
  find? name hname := by
    have hfind (a : String) : (t.rewrite outer.rewriting outer.renamePath).find? a =
        (t.find? a).map (AliasEntry.rewrite outer.rewriting outer.renamePath) := find?_map _ t a
    by_cases hmem : name ∈ outer.aliases
    · obtain ⟨hnone, hrenamed⟩ := hnames name hmem
      rw [OuterScope.rename_of_mem hmem, hfind, hrenamed, hnone]
      exact .none
    · rw [OuterScope.rename_of_notMem hmem, hfind]
      cases t.find? name with
      | none => exact .none
      | some entry =>
          cases entry with
          | join a node implicit => exact .some (.join a a node implicit)
          | select a e => exact .some (.select a e)
  select name a e hname hmem := by
    rw [(hnames name hmem).1] at hname
    cases hname
  target := htargets

/-- The outermost level, with the join aliases renamed. -/
theorem renamed_renameTable (hown : ∀ e ∈ t.entries, e.1 = e.2.aliasName)
    (hsorted : t.Sorted) (hselect : ∀ a e, .select a e ∈ t.values → a ∉ outer.aliases)
    (hfresh : ∀ a ∈ t.entries.map Prod.fst, outer.Fresh a)
    (htargets : ∀ p ∈ t.targets, outer.Spares p) : t.Renamed outer (outer.renameTable t) := by
  have hkeys : t.entries.map Prod.fst = t.values.map AliasEntry.aliasName := by
    rw [values, List.map_map]
    exact List.map_congr_left hown
  have hname : ∀ entry ∈ t.values, (outer.renameEntry entry).aliasName =
      outer.rename entry.aliasName := by
    intro entry hentry
    cases entry with
    | join a node implicit => rfl
    | select a e => exact (OuterScope.rename_of_notMem (hselect a e hentry)).symm
  rw [hkeys] at hfresh
  refine ⟨?_, fun name hnamefresh => ?_, fun name a e hfind => ?_, htargets⟩
  · have hnodup : ((t.values.map outer.renameEntry).map AliasEntry.aliasName).Nodup := by
      have hnames : (t.values.map outer.renameEntry).map AliasEntry.aliasName =
          (t.values.map AliasEntry.aliasName).map outer.rename := by
        rw [List.map_map, List.map_map]
        exact List.map_congr_left hname
      rw [hnames]
      refine List.Nodup.map_on (fun a ha b hb => ?_) (hkeys ▸ hsorted.nodup)
      exact (OuterScope.rename_inj (hfresh a ha) (hfresh b hb)).1
    rw [OuterScope.renameTable, length_ofEntries hnodup, List.length_map, values, List.length_map]
  · have hsame : ∀ entry ∈ t.values, ((outer.renameEntry entry).aliasName == outer.rename name) =
        (entry.aliasName == name) := by
      intro entry hentry
      have hentryfresh := hfresh _ (List.mem_map_of_mem hentry)
      rw [hname entry hentry]
      exact Bool.eq_iff_iff.2 (by
        rw [beq_iff_eq, beq_iff_eq, OuterScope.rename_inj hentryfresh hnamefresh])
    have hfound : t.values.find? ((fun entry => entry.aliasName == outer.rename name) ∘
        outer.renameEntry) = t.values.find? fun entry => entry.aliasName == name :=
      List.find?_congr hsame
    rw [OuterScope.renameTable, find?_ofEntries, List.find?_map, find?_eq_values hown, hfound]
    cases t.values.find? fun entry => entry.aliasName == name with
    | none => exact .none
    | some entry =>
        cases entry with
        | join a node implicit => exact .some (.join a _ node implicit)
        | select a e => exact .some (.select a e)
  · have hentry := mem_of_find? hfind
    have hnamed : name = a := hown _ hentry
    exact hnamed ▸ hselect a e (mem_values hfind)

end AliasTable

end EntityQuery
