import EntityQuery.Proofs.Aliases.Renaming
import EntityQuery.Proofs.Rewriting.Queries

/-!
The prefix of the outermost level is a renaming of its join aliases. A query that is written with a
prefix has the text of the query in which every join alias of the outermost level carries the prefix
by its name: where it is declared, in the alias table, and in every path that starts with it, on the
outermost level and in subqueries at any depth.
-/

namespace EntityQuery

namespace Select

/-- The join aliases of a level, to be written with a prefix. -/
def outerScope (s : Select) (pre : String) : OuterScope := ⟨pre, s.aliases.joinAliases⟩

/-- A query level whose join aliases carry a prefix by their names, and everything in it that
mentions them. -/
def prefixed (s : Select) (pre : String) : Select :=
  let outer := s.outerScope pre
  { s.rewriteBy outer.rewriting outer.renamePath with
    joins := { s.joins with nodes := s.joins.nodes.map outer.renameNode }
    aliases := outer.renameTable s.aliases }

end Select

/-- The context of a statement, with a prefix or without. -/
def RenderContext.outermost (ctx : RenderContext) (aliasPrefix : Option String) : RenderContext :=
  { ctx with options := { ctx.options with aliasPrefix := aliasPrefix }, outer := none }

/-- Whether a place of a text has no name that a renamed alias could be mistaken for. Common tables
stand in subqueries only, and get their rows from queries. -/
def Site.Spared (outer : OuterScope) : Site → Prop
  | .level sc => (∀ a ∈ sc.aliases.entries.map Prod.fst, outer.Fresh a) ∧
      ∀ p ∈ sc.aliases.targets, outer.Spares p
  | .path _ p => outer.Spares p
  | .table _ body => ∃ q, body = .query q
  | _ => True

instance (outer : OuterScope) : DecidablePred (Site.Spared outer)
  | .level sc => inferInstanceAs (Decidable ((∀ a ∈ sc.aliases.entries.map Prod.fst, outer.Fresh a) ∧
      ∀ p ∈ sc.aliases.targets, outer.Spares p))
  | .path _ p => inferInstanceAs (Decidable (outer.Spares p))
  | .table _ body => inferInstanceAs (Decidable (∃ q, body = .query q))
  | .literal _ | .parameter _ | .function _ | .countStar | .element | .emptyChoice | .nested _
  | .operation .. | .withClause | .assignments _ | .returning | .collectionDelete => isTrue trivial

/-- Whether a level does not reuse the aliases. -/
def Site.Apart (outer : OuterScope) : Site → Prop
  | .level sc => ∀ a ∈ outer.aliases, a ∉ sc.aliases.entries.map Prod.fst
  | _ => True

instance (outer : OuterScope) : DecidablePred (Site.Apart outer)
  | .level sc =>
      inferInstanceAs (Decidable (∀ a ∈ outer.aliases, a ∉ sc.aliases.entries.map Prod.fst))
  | .path .. | .literal _ | .parameter _ | .function _ | .countStar | .element | .emptyChoice
  | .nested _ | .operation .. | .withClause | .table .. | .assignments _ | .returning
  | .collectionDelete => isTrue trivial

/-- What makes the prefix of a level the same as a renaming. -/
structure Select.Prefixable (s : Select) (pre : String) : Prop where
  built : s.Built
  ctes : s.ctes = []
  /-- No selected item takes the alias of a join. -/
  items : ∀ i ∈ s.items, ∀ a ∈ i.aliasName, a ∉ s.nodeAliases
  nonempty : "" ∉ s.nodeAliases
  /-- Subqueries have aliases of their own. -/
  apart : ∀ site ∈ s.sites.tail, site.Apart (s.outerScope pre)
  spared : ∀ site ∈ s.sites, site.Spared (s.outerScope pre)

section Paths

variable {exact : Prop} {d : Dialect} {outer : OuterScope} {l l' : Level} {g : String → String}

/-- A path is written with the prefix as its renamed form is written without. -/
theorem Level.Paired.pathTokens_renamed (h : Level.Paired False d g l l')
    (haliases : l.aliases.Renamed outer l'.aliases) (hempty : "" ∉ outer.aliases)
    (hinline : l'.context.options.inlineAliases = l.context.options.inlineAliases)
    (hunknown : ∀ p, outer.Spares p → l.aliases.find? p.head = none →
      SameText d (l.context.outerPrefixTokens p.head ++ [.name p.text])
        (l'.context.outerPrefixTokens (outer.renamePath p).head
          ++ [.name (outer.renamePath p).text]))
    {p : Path} (hp : outer.Spares p) :
    Agree False (SameText d) (l.pathTokens p) (l'.pathTokens (outer.renamePath p)) := by
  have hresolved {p : Path} (hp : outer.Spares p) :
      Agree False (SameText d) (l.resolvedTokens p) (l'.resolvedTokens (outer.renamePath p)) := by
    refine h.resolvedTokens (OuterScope.paired_renamePath p) False.elim
      (haliases.find?_paired hempty hp) (fun a e hfind => ?_) (hunknown p hp)
    rw [OuterScope.renamePath_of_notMem (haliases.select _ _ _ hfind)]
  rw [Level.pathTokens, Level.pathTokens, hinline]
  split
  · have hchain := haliases.followChain hempty (l.aliases.entries.length + 1) [] hp
    rw [AliasTable.chainEnd, AliasTable.chainEnd, haliases.length]
    generalize l.aliases.followChain (l.aliases.entries.length + 1) [] p = chainEnd at hchain
    cases chainEnd with
    | path target =>
        rw [hchain.2]
        exact hresolved hchain.1
    | cycle a =>
        rw [hchain]
        exact .ok (.refl _)
  · exact hresolved hp

end Paths

/-- Subqueries of a level that is written with a prefix, beside subqueries of the level with its
aliases renamed. -/
def Comparison.prefixing (d : Dialect) (outer : OuterScope) : Comparison where
  rewriting := outer.rewriting
  dialect := d
  exact := False
  contexts ctx ctx' := ctx.dialect = d ∧ ctx.options.aliasPrefix = none ∧ ctx.outer = some outer ∧
    ctx' = { ctx with outer := none }
  levels sc := (∀ a ∈ outer.aliases, sc.aliases.find? a = none ∧
    sc.aliases.find? (outer.aliasPrefix ++ a) = none) ∧ ∀ p ∈ sc.aliases.targets, outer.Spares p
  paths := outer.Spares

/-- Where the context has the prefix of an outer level, a name of that level is written like the
renamed one is without. -/
theorem RenderContext.outerPrefixTokens_renamed {ctx : RenderContext} {outer : OuterScope}
    (houter : ctx.outer = some outer) {name text text' : String}
    (hrenamed : Dotted.head name ∈ outer.aliases → text' = outer.aliasPrefix ++ text)
    (hkept : Dotted.head name ∉ outer.aliases → text' = text) (d : Dialect) (name' : String) :
    SameText d (ctx.outerPrefixTokens name ++ [.name text])
      (outerPrefixTokens { ctx with outer := none } name' ++ [.name text']) := by
  rw [outerPrefixTokens.eq_def, houter]
  by_cases hmem : Dotted.head name ∈ outer.aliases
  · simp [outerPrefixTokens, hmem, hrenamed hmem, SameText, tokensText, Token.text]
  · simp [outerPrefixTokens, hmem, hkept hmem, SameText]

/-- So is the path of that level that a FROM entry starts from. -/
theorem RenderContext.source_renamed {ctx : RenderContext} {outer : OuterScope}
    (houter : ctx.outer = some outer) (d : Dialect) (path : String) :
    SameText d (ctx.outerPrefixTokens path ++ [.name path])
      (outerPrefixTokens { ctx with outer := none } (outer.renameSource path)
        ++ [.name (outer.renameSource path)]) := by
  refine outerPrefixTokens_renamed houter (fun hmem => ?_) (fun hmem => ?_) d _
  · exact if_pos (List.contains_iff_mem.2 hmem)
  · exact if_neg (mt List.contains_iff_mem.1 hmem)

theorem Comparison.sound_prefixing (d : Dialect) {outer : OuterScope}
    (hempty : "" ∉ outer.aliases) : (prefixing d outer).Sound where
  paired := by
    rintro ctx _ ⟨hd, -, -, rfl⟩
    exact ⟨hd, hd, rfl⟩
  nested := by
    rintro ctx _ ⟨hd, -, houter, rfl⟩
    exact ⟨hd, rfl, houter, rfl⟩
  correlated := by
    rintro ctx _ sc ⟨hd, hpre, houter, rfl⟩ -
    rw [RenderContext.correlated.eq_def, RenderContext.correlated.eq_def]
    simp only [hpre]
    exact ⟨hd, rfl, houter, rfl⟩
  declared := by
    rintro ctx _ ⟨-, -, -, rfl⟩ a
    rfl
  source := by
    rintro ctx _ ⟨-, -, houter, rfl⟩ path
    exact RenderContext.source_renamed houter d path
  path := by
    rintro ctx _ sc p ⟨hd, -, houter, rfl⟩ ⟨hnames, htargets⟩ hp
    have hctx : ctx.Paired d { ctx with outer := none } := ⟨hd, hd, rfl⟩
    have hpaired : Level.Paired False d outer.renameSource (sc.level ctx)
        ((sc.rewrite outer.rewriting).level { ctx with outer := none }) :=
      Scope.paired_rewrite (r := outer.rewriting) hctx (fun _ => rfl)
        (RenderContext.source_renamed houter d) sc
    refine hpaired.pathTokens_renamed (AliasTable.renamed_rewrite hnames htargets) hempty rfl
      (fun p hp _ => ?_) hp
    refine RenderContext.outerPrefixTokens_renamed houter (fun hmem => ?_) (fun hmem => ?_) d _
    · rw [hp.1] at hmem
      exact OuterScope.text_renamePath_of_mem hempty hmem
    · rw [hp.1] at hmem
      rw [OuterScope.renamePath_of_notMem hmem]
  empty := ⟨fun _ _ => ⟨rfl, rfl⟩, fun _ h => absurd h List.not_mem_nil⟩

namespace Select

variable {s : Select} {pre : String}

theorem Prefixable.mem_joinAliases_iff (h : s.Prefixable pre) {a : String} :
    a ∈ (s.outerScope pre).aliases ↔ a ∈ s.nodeAliases :=
  h.built.consistent.mem_joinAliases_iff h.items

theorem Prefixable.empty_notMem (h : s.Prefixable pre) : "" ∉ (s.outerScope pre).aliases :=
  fun hmem => h.nonempty (h.mem_joinAliases_iff.1 hmem)

/-- What stands on the level itself and in its subqueries may occur. -/
theorem Prefixable.within (h : s.Prefixable pre) (d : Dialect) :
    ∀ site ∈ s.sites.tail, site.Within (.prefixing d (s.outerScope pre)) := by
  intro site hsite
  have hspared := h.spared site (List.mem_of_mem_tail hsite)
  have hapart := h.apart site hsite
  cases site with
  | level sc =>
      have hnone {a : String} (ha : a ∉ sc.aliases.entries.map Prod.fst) :
          sc.aliases.find? a = none := by
        by_contra hfound
        obtain ⟨entry, hentry⟩ := Option.ne_none_iff_exists'.1 hfound
        exact ha (List.mem_map_of_mem (AliasTable.mem_of_find? hentry))
      refine ⟨fun a ha => ⟨hnone (hapart a ha), hnone fun hkey => ?_⟩, hspared.2⟩
      exact hspared.1 _ hkey a ha rfl
  | path sc p => exact hspared
  | table columns body => exact hspared
  | _ => trivial

/-- Under their new names, the aliases of the level name the same. -/
theorem Prefixable.renamed (h : s.Prefixable pre) :
    s.aliases.Renamed (s.outerScope pre) (s.prefixed pre).aliases := by
  have hconsistent := h.built.consistent
  have hlevel : Site.Spared (s.outerScope pre) (.level s.scope) := by
    refine h.spared _ ?_
    rw [sites_eq]
    exact List.mem_cons_self
  refine AliasTable.renamed_renameTable hconsistent.own hconsistent.sorted (fun a e he hmem => ?_)
    hlevel.1 hlevel.2
  obtain ⟨⟨key, entry⟩, hentry, rfl⟩ := List.mem_map.1 he
  exact h.items _ (hconsistent.selected key a e hentry) a rfl (h.mem_joinAliases_iff.1 hmem)

/-- With the prefix, nodes are declared by their new names. -/
theorem Prefixable.paired (h : s.Prefixable pre) (ctx : RenderContext) :
    Level.Paired False ctx.dialect id (s.level (ctx.outermost (some pre)))
      ((s.prefixed pre).level (ctx.outermost none)) where
  context := ⟨rfl, rfl, rfl⟩
  roots := rfl
  nodes := List.forall₂_map_right_iff.2 (List.forall₂_same.2 fun n hn => {
    declared := OuterScope.rename_of_mem (h.mem_joinAliases_iff.2 (List.mem_map_of_mem hn))
    aliasName := False.elim
    source := by cases hsource : n.source <;> simp [OuterScope.renameNode, JoinSource.rewrite, hsource]
    parent := rfl
    type := rfl
    fetch := rfl
    condition := Option.isSome_map })
  source _ := .refl _

theorem Prefixable.linked (h : s.Prefixable pre) (ctx : RenderContext) :
    (s.level (ctx.outermost (some pre))).Linked (.prefixing ctx.dialect (s.outerScope pre))
      (s.outerScope pre).renamePath ((s.prefixed pre).level (ctx.outermost none)) where
  context := ⟨rfl, rfl, rfl⟩
  inner := ⟨rfl, rfl, rfl, rfl⟩
  path p hp := by
    refine (h.paired ctx).pathTokens_renamed h.renamed h.empty_notMem rfl (fun p _ hnone => ?_) hp
    have hunnamed : p.head ∉ (s.outerScope pre).aliases := by
      intro hmem
      obtain ⟨key, node, implicit, hentry⟩ := AliasTable.mem_joinAliases.1 hmem
      have hkey : key = p.head := h.built.consistent.own _ hentry
      have hfound := AliasTable.find?_isSome_of_mem_keys (List.mem_map_of_mem hentry)
      have hnone : s.aliases.find? key = none := hkey ▸ hnone
      rw [hnone] at hfound
      cases hfound
    rw [OuterScope.renamePath_of_notMem hunnamed]
    exact .refl _

theorem Prefixable.tokens_prefixed (h : s.Prefixable pre) (ctx : RenderContext) :
    Agree False (SameText ctx.dialect) (s.tokens (ctx.outermost (some pre)))
      ((s.prefixed pre).tokens (ctx.outermost none)) := by
  have hsound := Comparison.sound_prefixing ctx.dialect h.empty_notMem
  exact tokens_agree ((Expr.hereditary_follows hsound).parts s) (h.within ctx.dialect)
    (fun hctes => absurd h.ctes hctes) (JoinGraph.condition?_map (fun _ => rfl) s.joins) (h.paired ctx)
    (h.linked ctx)

theorem markers_prefixed (s : Select) (pre : String) : (s.prefixed pre).markers = s.markers := by
  have hrewrite : (s.rewrite (s.outerScope pre).rewriting).markers = s.markers :=
    (Query.select s).markers_rewrite _
  have hmarkers (e : Expr) : (e.rewrite _ (s.outerScope pre).renamePath).markers = e.markers :=
    (Expr.hereditary_markers_rewrite (s.outerScope pre).rewriting).expr e _
  have hnodes : (s.prefixed pre).joins =
      ⟨s.joins.nodes.map (s.outerScope pre).renameNode, s.joins.roots⟩ := rfl
  have hrewritten : (s.rewriteBy (s.outerScope pre).rewriting (s.outerScope pre).renamePath).joins =
      ⟨s.joins.nodes.map (JoinNode.rewrite _ _), s.joins.roots⟩ := rfl
  have hjoins := JoinGraph.markers_map hnodes (fun _ => rfl) (fun _ => rfl) fun _ e _ => hmarkers e
  rw [← JoinGraph.markers_map hrewritten (fun _ => rfl) (fun _ => rfl) fun _ e _ => hmarkers e]
    at hjoins
  rw [← hrewrite, rewrite_eq, markers_eq, markers_eq, hjoins]
  rfl

end Select

/-- Writing a query with a prefix gives what writing it with its aliases renamed gives. -/
theorem Statement.render_prefixed (ctx : RenderContext) {s : Select} {pre : String}
    (h : s.Prefixable pre) {r : RenderedQuery}
    (hr : (Statement.select (.select s)).render (ctx.outermost (some pre)) = .ok r) :
    (Statement.select (.select (s.prefixed pre))).render (ctx.outermost none) = .ok r := by
  let k := Comparison.prefixing ctx.dialect (s.outerScope pre)
  have hrendered : Agree False (RenderedLevel.Same k)
      ((Query.select s).rendered (ctx.outermost (some pre)))
      ((Query.select (s.prefixed pre)).rendered (ctx.outermost none)) := by
    rw [Query.rendered, Query.rendered]
    exact (h.tokens_prefixed ctx).bind fun _ _ hts => .ok ⟨hts, rfl⟩
  have hcontext : (ctx.outermost (some pre)).Paired k.dialect (ctx.outermost none) :=
    ⟨rfl, rfl, rfl⟩
  have hmarkers : (Query.select (s.prefixed pre)).markers = (Query.select s).markers :=
    s.markers_prefixed pre
  obtain ⟨r', hr', rfl⟩ := (render_agree hcontext hmarkers hrendered).exists_ok hr
  exact hr'

namespace Select

/-- The tasks of someone that belong to the head of a department. The query starts from a join alias
of the enclosing query and mentions another one. -/
def headTasks : Select where
  items := [⟨.ofPath "t.title", none⟩]
  joins := { nodes := [{ aliasName := "t", source := .correlated "m.tasks" }], roots := [0] }
  aliases := ⟨[("t", .join "t" 0 false)]⟩
  condition := some (.binary (.ofPath "t.owner") .eq (.ofPath "d.head"))

/-- The staff of departments that has such tasks, by name. -/
def roster : Select where
  items := [⟨.ofPath "m.name", some "label"⟩]
  joins :=
    { nodes := [{ aliasName := "d", source := .root "Department" },
        { aliasName := "m", source := .ofAttribute "staff" .collection, parent := some 0,
          type := some .left }]
      roots := [0] }
  aliases := ⟨[("d", .join "d" 0 false), ("label", .select "label" (.ofPath "m.name")),
    ("m", .join "m" 1 false)]⟩
  condition := some (.call "EXISTS" [.subquery (.select headTasks)])
  orderBy := [⟨.ofPath "label", .asc, none⟩]

theorem built_roster : roster.Built :=
  let joined := (Built.empty.addRoot "Department" "d").join "d.staff" "m" .collection .left rfl
  let selected := joined.select (.ofPath "m.name") (some "label")
  let filtered := selected.filter (.call "EXISTS" [.subquery (.select headTasks)])
  filtered.order [⟨.ofPath "label", .asc, none⟩]

theorem prefixable_roster : roster.Prefixable "x_" where
  built := built_roster
  ctes := rfl
  items := by decide
  nonempty := by decide
  apart := by decide
  spared := by decide

end Select

theorem Statement.render_prefixed_roster :
    Select.roster.Prefixable "x_" ∧
      ∃ r, (Statement.select (.select .roster)).render
          (RenderContext.outermost { dialect := .hibernate } (some "x_")) = .ok r ∧
        (Statement.select (.select (Select.roster.prefixed "x_"))).render
          (RenderContext.outermost { dialect := .hibernate } none) = .ok r := by
  obtain ⟨r, hr⟩ : ∃ r, (Statement.select (.select .roster)).render
      (RenderContext.outermost { dialect := .hibernate } (some "x_")) = .ok r := ⟨_, rfl⟩
  exact ⟨Select.prefixable_roster, r, hr, render_prefixed _ Select.prefixable_roster hr⟩

end EntityQuery
