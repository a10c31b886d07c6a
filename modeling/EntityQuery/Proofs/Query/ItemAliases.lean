import EntityQuery.Proofs.Analysis.Removal
import EntityQuery.Proofs.Query.Built

/-!
The aliases of selected items. Whatever is called, the table of a level has all of them, and it
names expressions by no others. So an alias that neither a node nor an item carries names nothing.
-/

namespace EntityQuery

namespace Select

/-- The aliases of the selected items. -/
def itemAliases (s : Select) : List String := s.items.filterMap SelectItem.aliasName

/-- Whether the table of a level has the aliases of its items, and names expressions by no
others. -/
structure Labelled (s : Select) : Prop where
  declared : ∀ a ∈ s.itemAliases, a ∈ s.aliases.entries.map Prod.fst
  selected : ∀ key a e, (key, .select a e) ∈ s.aliases.entries → a ∈ s.itemAliases

variable {s s' : Select} {a : String}

theorem labelled_empty : Labelled {} where
  declared := by simp [itemAliases]
  selected := by simp

theorem Labelled.congr (h : s.Labelled) (hitems : s'.itemAliases = s.itemAliases)
    (haliases : s'.aliases = s.aliases) : s'.Labelled where
  declared := by
    rw [hitems, haliases]
    exact h.declared
  selected := by
    rw [hitems, haliases]
    exact h.selected

theorem Labelled.insertJoin (h : s.Labelled) {node : NodeId} {implicit : Bool}
    (hitems : s'.itemAliases = s.itemAliases)
    (haliases : s'.aliases = s.aliases.insertJoin a node implicit) : s'.Labelled where
  declared b hb := by
    rw [haliases]
    exact (AliasTable.mem_keys_insert _ _ _ _).2 (.inr (h.declared b (hitems ▸ hb)))
  selected key b e he := by
    rw [haliases] at he
    rw [hitems]
    rcases AliasTable.mem_insertEntry he with heq | he
    · cases heq
    · exact h.selected key b e he

theorem itemAliases_select (s : Select) (e : Expr) (aliasName : Option String) :
    (s.select e aliasName).itemAliases = s.itemAliases ++ aliasName.toList := by
  cases aliasName <;> simp [itemAliases, Select.select]

theorem Labelled.select (h : s.Labelled) (e : Expr) (aliasName : Option String) :
    (s.select e aliasName).Labelled := by
  cases aliasName with
  | none => exact h.congr (by simp [itemAliases_select]) rfl
  | some a =>
      refine ⟨fun b hb => ?_, fun key b e' he => ?_⟩
      · rw [itemAliases_select] at hb
        refine (AliasTable.mem_keys_insert _ _ _ _).2 ?_
        rcases List.mem_append.1 hb with hb | hb
        · exact .inr (h.declared b hb)
        · exact .inl (List.mem_singleton.1 hb)
      · rw [itemAliases_select]
        rcases AliasTable.mem_insertEntry he with heq | he
        · cases heq
          exact List.mem_append_right _ List.mem_cons_self
        · exact List.mem_append_left _ (h.selected key b e' he)

theorem Labelled.rebound (h : s.Labelled) (m : Renumbering) (g : JoinGraph Expr)
    (ctes : List Cte) : (s.rebound m g ctes).Labelled := by
  have hitems : (s.rebound m g ctes).itemAliases = s.itemAliases := by
    simp [itemAliases, Select.rebound, List.filterMap_map, Function.comp_def, SelectItem.rebind]
  have hkeys : (s.rebound m g ctes).aliases.entries.map Prod.fst =
      s.aliases.entries.map Prod.fst := by
    rw [Select.rebound, AliasTable.rebind, List.map_map]
    rfl
  refine ⟨?_, fun key a e he => ?_⟩
  · rw [hitems, hkeys]
    exact h.declared
  · obtain ⟨⟨key, entry⟩, hold, heq⟩ := List.mem_map.1 he
    rw [hitems]
    cases entry with
    | join => cases heq
    | select a e =>
        cases heq
        exact h.selected key a e hold

/-- A node that is joined, with its alias. -/
theorem Labelled.named (h : s.Labelled) (aliasName : String) (added : NodeId × JoinGraph Expr) :
    (s.named aliasName added).2.Labelled := h.insertJoin rfl rfl

theorem Labelled.join (h : s.Labelled) {path aliasName : String} {relation : Relation}
    {type : JoinType} {r : NodeId × Select}
    (hok : s.join path aliasName relation type = .ok r) : r.2.Labelled := by
  rw [Select.join] at hok
  cases hattr : Dotted.rest? path with
  | none =>
      rw [hattr] at hok
      cases hok
  | some attr =>
      rw [hattr] at hok
      simp only [bind_eq_ok, pure_eq_ok] at hok
      obtain ⟨_, -, parent, -, added, -, rfl⟩ := hok
      exact h.named aliasName added

/-- Items whose sizes are replaced keep their aliases, and so does everything that the table names.
A collection that is counted comes with an alias of its own. -/
theorem Labelled.replaceSizesAfter (h : s.Labelled) (hnamed : s.Named) {counted : Bool}
    (hok : s.replaceSizesAfter counted = .ok s') : s'.Labelled := by
  obtain ⟨replaced, state, hcounts, hclauses, -, -, -, haliases, rfl⟩ :=
    exists_of_replaceSizesAfter hnamed hok
  have hitems : replaced.itemAliases = s.itemAliases := by
    have hforall := hclauses.items
    rw [itemAliases, itemAliases]
    generalize s.items = is, replaced.items = is' at hforall
    induction hforall with
    | nil => rfl
    | cons hi _ ih => rw [List.filterMap_cons, List.filterMap_cons, hi.aliasName, ih]
  have hreplaced : replaced.Labelled := by
    cases hcounts with
    | nothing => exact h.congr hitems haliases
    | collection => exact h.insertJoin hitems haliases
  split
  · exact hreplaced.congr rfl rfl
  · exact hreplaced

theorem labelled_run (h : s.Labelled) (hnamed : s.Named) (call : BuilderCall) :
    (call.run s).Labelled := by
  cases call with
  | addRoot | correlate => exact h.insertJoin rfl rfl
  | join path aliasName relation type =>
      refine BuilderCall.of_succeedOr h fun s' hok => ?_
      obtain ⟨r, hr, rfl⟩ := map_eq_ok.1 hok
      exact h.join hr
  | joinFetch path aliasName relation =>
      refine BuilderCall.of_succeedOr h fun s' hok => ?_
      obtain ⟨r, hr, rfl⟩ := map_eq_ok.1 hok
      rw [Select.joinFetch] at hr
      simp only [bind_eq_ok, pure_eq_ok] at hr
      obtain ⟨joined, hjoined, rfl⟩ := hr
      exact (h.join hjoined).congr rfl rfl
  | joinEntity parent entity aliasName type condition =>
      refine BuilderCall.of_succeedOr h fun s' hok => ?_
      obtain ⟨r, hr, rfl⟩ := map_eq_ok.1 hok
      rw [Select.joinEntity] at hr
      simp only [bind_eq_ok, pure_eq_ok] at hr
      obtain ⟨_, -, added, -, rfl⟩ := hr
      exact h.named aliasName added
  | crossJoin parent entity aliasName =>
      refine BuilderCall.of_succeedOr h fun s' hok => ?_
      obtain ⟨r, hr, rfl⟩ := map_eq_ok.1 hok
      rw [Select.crossJoin] at hr
      simp only [bind_eq_ok, pure_eq_ok] at hr
      obtain ⟨_, -, added, -, rfl⟩ := hr
      exact h.named aliasName added
  | on node condition =>
      refine BuilderCall.of_succeedOr h fun s' hok => ?_
      rw [Select.on] at hok
      simp only [bind_eq_ok, pure_eq_ok] at hok
      obtain ⟨_, -, rfl⟩ := hok
      exact h.congr rfl rfl
  | select expr aliasName => exact h.select expr aliasName
  | copy =>
      refine BuilderCall.of_succeedOr h fun s' hok => ?_
      rw [Select.copy_eq hnamed.grown.wellFormed] at hok
      obtain ⟨ctes, -, rfl⟩ := map_eq_ok.1 hok
      exact h.rebound _ _ _
  | replaceSizes counted =>
      obtain ⟨replaced, hok, -⟩ := names_replaceSizesAfter hnamed counted
      rw [BuilderCall.run, hok]
      exact h.replaceSizesAfter hnamed hok
  | distinct | filter | group | filterGroups | order | take | drop | withCte
  | applyImplicitGroups => exact h.congr rfl rfl

/-- Whatever has been called, the select aliases of a level are those of its items. -/
theorem labelled_ofCalls (calls : List BuilderCall) : (ofCalls calls).Labelled := by
  induction calls using List.reverseRecOn with
  | nil => exact labelled_empty
  | append_singleton before call ih =>
      rw [ofCalls, List.foldl_append, List.foldl_cons, List.foldl_nil, ← ofCalls]
      have hnamed : (ofCalls before).Named :=
        named_foldl_run (s := {}) AliasTable.Names.empty before
      exact labelled_run ih hnamed call

/-- An alias that no node carries names an expression, if anything. -/
theorem exists_select_of_find? (hnamed : s.Named) (ha : a ∉ s.nodeAliases)
    {entry : AliasEntry Expr} (hfind : s.aliases.find? a = some entry) :
    ∃ e, entry = .select a e := by
  have hentry := AliasTable.mem_of_find? hfind
  have hown : a = entry.aliasName := hnamed.own _ hentry
  subst hown
  cases entry with
  | join name node implicit =>
      obtain ⟨n, hn, hname⟩ := Option.map_eq_some_iff.1 (hnamed.nodes _ _ _ _ hentry)
      exact absurd (hname ▸ List.mem_map_of_mem (List.mem_of_getElem? hn)) ha
  | select name e => exact ⟨e, rfl⟩

/-- An alias that neither a node nor an item carries names nothing. -/
theorem Labelled.find?_eq_none_iff (h : s.Labelled) (hnamed : s.Named) (ha : a ∉ s.nodeAliases) :
    s.aliases.find? a = none ↔ a ∉ s.itemAliases := by
  constructor
  · intro hnone hitem
    have hsome := AliasTable.find?_isSome_of_mem_keys (h.declared a hitem)
    rw [hnone] at hsome
    cases hsome
  · intro hitem
    refine Option.eq_none_iff_forall_ne_some.2 fun entry hfind => ?_
    obtain ⟨e, rfl⟩ := exists_select_of_find? hnamed ha hfind
    exact hitem (h.selected _ _ _ (AliasTable.mem_of_find? hfind))

end Select

end EntityQuery
