import EntityQuery.Proofs.Joins.Fresh
import EntityQuery.Proofs.Query.ItemAliases

/-!
Names that counting takes over. A collection that is joined for counting has an alias that no node
carries. It is not looked for among the selected items: an item of that alias loses its entry in the
table, and what referred to the item refers to the collection. If there is no such item, everything
refers to what it referred to before.
-/

namespace EntityQuery

/-- What a path may refer to on its level. -/
inductive Referent where
  | node (id : NodeId)
  | selected (expr : Expr)

/-- What an alias refers to. -/
def AliasEntry.referent : AliasEntry Expr → Referent
  | .join _ node _ => .node node
  | .select _ expr => .selected expr

namespace AliasTable

/-- What a path refers to: the node that it is bound to, or what its first element names. -/
def referent? (t : AliasTable Expr) (p : Path) : Option Referent :=
  match p.base with
  | some id => some (.node id)
  | none => (t.find? p.head).map AliasEntry.referent

/-- Whether every path that refers to something refers to the same in another table. -/
def KeepsReferents (t t' : AliasTable Expr) : Prop :=
  ∀ p r, t.referent? p = some r → t'.referent? p = some r

variable {t t' : AliasTable Expr} {a : String} {node : NodeId} {implicit : Bool}

/-- A path that consists of an alias refers to what the alias does. -/
theorem referent?_alias (t : AliasTable Expr) (a : String) :
    t.referent? { elements := [a] } = (t.find? a).map AliasEntry.referent := rfl

/-- An alias that names a node refers to it. -/
theorem referent?_of_joinNode? (h : t.joinNode? a = some node) :
    t.referent? { elements := [a] } = some (.node node) := by
  rw [referent?_alias]
  rw [joinNode?] at h
  split at h
  next hfind =>
    cases h
    rw [hfind]
    rfl
  next => cases h

/-- A new name for a node takes nothing over exactly if it named no expression before. -/
theorem keepsReferents_insertJoin_iff
    (hselect : ∀ entry, t.find? a = some entry → ∃ e, entry = .select a e) :
    t.KeepsReferents (t.insertJoin a node implicit) ↔ t.find? a = none := by
  constructor
  · intro h
    refine Option.eq_none_iff_forall_ne_some.2 fun entry hfind => ?_
    obtain ⟨e, rfl⟩ := hselect entry hfind
    have hbefore : t.referent? { elements := [a] } = some (.selected e) := by
      rw [referent?_alias, hfind]
      rfl
    have hafter := h _ _ hbefore
    rw [referent?_alias, insertJoin, find?_insert, if_pos rfl] at hafter
    cases hafter
  · intro hnone p r hp
    rw [referent?] at hp ⊢
    split at hp
    next => exact hp
    next hbase =>
      obtain ⟨entry, hfind, rfl⟩ := Option.map_eq_some_iff.1 hp
      have hne : p.head ≠ a := by
        rintro rfl
        rw [hnone] at hfind
        cases hfind
      rw [insertJoin, find?_insert, if_neg hne, hfind, Option.map_some]

end AliasTable

namespace Select

variable {s s' : Select}

/-- A level to which a node has been added last, under an alias that no node carries, with an entry
for the alias. -/
structure Adds (s s' : Select) (a : String) : Prop where
  nodes : s'.nodeAliases = s.nodeAliases ++ [a]
  free : a ∉ s.nodeAliases
  aliases : s'.aliases = s.aliases.insertJoin a s.joins.size true

theorem nodeAliases_of_forall₂ {nodes nodes' : List (JoinNode Expr)}
    (h : List.Forall₂ JoinNode.Resized nodes nodes') :
    nodes'.map JoinNode.aliasName = nodes.map JoinNode.aliasName := by
  induction h with
  | nil => rfl
  | cons hn _ ih => rw [List.map_cons, List.map_cons, hn.same, ih]

/-- A replacement adds no name, or that of one node. -/
theorem adds_of_replaceSizesAfter (h : s.Named) {counted : Bool}
    (hok : s.replaceSizesAfter counted = .ok s') :
    s'.nodeAliases = s.nodeAliases ∧ s'.aliases = s.aliases ∨ ∃ a, s.Adds s' a := by
  obtain ⟨replaced, state, hcounts, -, -, hnodes, -, haliases, rfl⟩ :=
    exists_of_replaceSizesAfter h hok
  have hkept : ∀ grouped : Bool,
      (if grouped then replaced.applyImplicitGroups else replaced).nodeAliases =
        replaced.nodeAliases ∧
      (if grouped then replaced.applyImplicitGroups else replaced).aliases = replaced.aliases := by
    rintro (_ | _) <;> exact ⟨rfl, rfl⟩
  have hnames : replaced.nodeAliases = state.joins.nodes.map JoinNode.aliasName :=
    nodeAliases_of_forall₂ hnodes
  obtain ⟨hnodes', haliases'⟩ := hkept state.counted
  rw [hnames] at hnodes'
  rw [haliases] at haliases'
  cases hcounts with
  | nothing => exact .inl ⟨hnodes', haliases'⟩
  | @collection _ owner collection parent =>
      have hadded := nodeAliases_push s (s.joins.countNode parent owner collection)
      exact .inr ⟨_, hnodes'.trans hadded, s.joins.freshAlias_notMem _, haliases'⟩

/-- On a level that was put together by calls, a replacement of sizes names nothing anew, or it adds
a node under an alias that no node carries. The alias is free, and every path refers to what it
referred to before, exactly if no selected item has it. -/
theorem replaceSizes_captures (calls : List BuilderCall) (counted : Bool) :
    ∃ s', (ofCalls calls).replaceSizesAfter counted = .ok s' ∧
      (s'.nodeAliases = (ofCalls calls).nodeAliases ∧ s'.aliases = (ofCalls calls).aliases ∨
        ∃ a, (ofCalls calls).Adds s' a ∧
          ((ofCalls calls).aliases.find? a = none ↔ a ∉ (ofCalls calls).itemAliases) ∧
          ((ofCalls calls).aliases.KeepsReferents s'.aliases ↔
            a ∉ (ofCalls calls).itemAliases)) := by
  have hnamed : (ofCalls calls).Named := named_foldl_run (s := {}) AliasTable.Names.empty calls
  obtain ⟨s', hok, -⟩ := names_replaceSizesAfter hnamed counted
  refine ⟨s', hok, ?_⟩
  rcases adds_of_replaceSizesAfter hnamed hok with hsame | ⟨a, hadds⟩
  · exact .inl hsame
  · have hfree := (labelled_ofCalls calls).find?_eq_none_iff hnamed hadds.free
    refine .inr ⟨a, hadds, hfree, ?_⟩
    rw [hadds.aliases, ← hfree]
    exact AliasTable.keepsReferents_insertJoin_iff fun entry =>
      exists_select_of_find? hnamed hadds.free

/-- `SELECT d.name AS d_people, SIZE(d.people) FROM Document d WHERE d_people = 'x'` -/
def namesAsPeople : List BuilderCall :=
  [.addRoot "Document" "d", .select (.ofPath "d.name") (some "d_people"),
    .select (.size (.ofPath "d.people")) none,
    .filter (.binary (.ofPath "d_people") .eq (.string "x"))]

/-- The people that are counted take the alias of the names, and what was compared with the names
is compared with the people. -/
theorem not_keepsReferents_namesAsPeople :
    ¬∀ s', (ofCalls namesAsPeople).replaceSizes = .ok s' →
      (ofCalls namesAsPeople).aliases.KeepsReferents s'.aliases := by
  have hbefore : (ofCalls namesAsPeople).aliases.referent? { elements := ["d_people"] } =
      some (.selected (.ofPath "d.name")) := rfl
  have hnode : (ofCalls namesAsPeople).replaceSizes.toOption.map
      (fun s' => s'.aliases.joinNode? "d_people") = some (some 1) := by decide +kernel
  intro h
  cases hok : (ofCalls namesAsPeople).replaceSizes with
  | error failure =>
      rw [hok] at hnode
      cases hnode
  | ok s' =>
      rw [hok] at hnode
      have hafter := AliasTable.referent?_of_joinNode? (Option.some.inj hnode)
      rw [h s' hok _ _ hbefore] at hafter
      cases hafter

end Select

end EntityQuery
