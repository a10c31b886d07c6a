import EntityQuery.Proofs.Aliases.Prefix
import EntityQuery.Proofs.Aliases.Subqueries
import EntityQuery.Proofs.Query.Calls

/-!
Which references of subqueries carry the prefix of the outermost level: those that lead there. A
query that is written with a prefix has the text of the query in which the prefix is spelled out,
before the aliases of the outermost joins and before the references to them.
-/

namespace EntityQuery

section Rules

/-- Whether a select alias of a level has a name. -/
def Scope.selects (sc : Scope) (a : String) : Bool :=
  match sc.aliases.find? a with
  | some (.select ..) => true
  | _ => false

variable (outermost : Scope) (undecided : List Scope → String → Bool) (between : List Scope)

/-- Whether an alias of an outermost join may stand for something else: a level between joins
something under it as well, or a select alias has taken it. -/
def Scope.disputed (a : String) : Bool :=
  outermost.declares a && (between.any (·.declares a) || outermost.selects a)

/-- Whether a name that is none of its own level leads to the outermost one. -/
def Scope.outward (a : String) : Bool :=
  if outermost.disputed between a then undecided between a else outermost.declares a

variable (pre : String) (inline : Bool)

/-- The prefix goes to the paths that start with an alias of the outermost level and with none of
their own level. The path that a FROM entry starts from is one of the enclosing levels. What is
disputed is left open. -/
def Spelling.scoped : Spelling where
  aliasPrefix := pre
  inlineAliases := inline
  path between own a :=
    !own.aliases.contains a && outermost.outward undecided between (Dotted.head a)
  source between _ a := outermost.outward undecided between a

/-- The innermost level that declares a name decides, the level of the reference first, whatever
kind of reference it is. -/
def Spelling.innermost : Spelling where
  aliasPrefix := pre
  inlineAliases := inline
  path between own a := !(own :: between).any (·.declares a) && outermost.declares a
  source between own a := !(own :: between).any (·.declares a) && outermost.declares a

end Rules

section Outermost

variable {s : Select}

theorem AliasTable.Names.declares_of_mem (h : s.aliases.Names s.joins) {a : String}
    (ha : a ∈ s.aliases.joinAliases) : s.scope.declares a = true := by
  obtain ⟨key, node, implicit, hentry⟩ := AliasTable.mem_joinAliases.1 ha
  obtain ⟨n, hn, halias⟩ := Option.map_eq_some_iff.1 (h.nodes key a node implicit hentry)
  exact List.any_eq_true.2 ⟨n, List.mem_of_getElem? hn, beq_iff_eq.2 halias⟩

/-- An alias that no select alias has taken is listed if something is joined under it. -/
theorem AliasTable.Names.mem_joinAliases (h : s.aliases.Names s.joins) {a : String}
    (ha : s.scope.selects a = false) (hdeclared : s.scope.declares a = true) :
    a ∈ s.aliases.joinAliases := by
  obtain ⟨n, hn, halias⟩ := List.any_eq_true.1 hdeclared
  rw [beq_iff_eq] at halias
  obtain ⟨entry, hentry⟩ := Option.isSome_iff_exists.1
    (AliasTable.find?_isSome_of_mem_keys (halias ▸ h.declared n hn))
  have hmem := AliasTable.mem_of_find? hentry
  have hown : a = entry.aliasName := h.own _ hmem
  cases entry with
  | join name node implicit =>
      obtain rfl : a = name := hown
      exact AliasTable.mem_joinAliases.2 ⟨a, node, implicit, hmem⟩
  | select name e =>
      have hselects : s.scope.selects a = true := by rw [Scope.selects, Select.scope, hentry]
      rw [hselects] at ha
      cases ha

/-- What is looked up is the rule. -/
theorem AliasTable.Names.outward (h : s.aliases.Names s.joins) (between : List Scope) (a : String) :
    s.scope.outward (fun _ a => s.aliases.joinAliases.contains a) between a =
      s.aliases.joinAliases.contains a := by
  rw [Scope.outward]
  split
  · rfl
  next hdisputed =>
    rw [Scope.disputed, Bool.and_eq_true, Bool.or_eq_true, not_and_or, not_or] at hdisputed
    refine Bool.eq_iff_iff.2 ?_
    rw [List.contains_iff_mem]
    refine ⟨fun hdeclared => ?_, h.declares_of_mem⟩
    rcases hdisputed with hnot | ⟨-, hnot⟩
    · exact absurd hdeclared hnot
    · exact h.mem_joinAliases (Bool.eq_false_iff.2 hnot) hdeclared

theorem AliasTable.Names.looks (h : s.aliases.Names s.joins) (pre : String) (inline : Bool) :
    (Spelling.scoped s.scope (fun _ a => s.aliases.joinAliases.contains a) pre inline).Looks
      s.aliases.joinAliases where
  path between own a := congrArg (!own.aliases.contains a && ·) (h.outward between (Dotted.head a))
  source between _ path := h.outward between (Dotted.head path)

variable {w : Spelling}

/-- The joins of the outermost level are declared alike. -/
theorem Select.paired_spelledOut (w : Spelling) (ctx : RenderContext) (s : Select) :
    Level.Paired False ctx.dialect id (s.level (ctx.outermost (some w.aliasPrefix)))
      ((s.spelledOut w).level (ctx.outermost none)) where
  context := ⟨rfl, rfl, rfl⟩
  roots := rfl
  nodes := List.forall₂_map_right_iff.2 (List.forall₂_same.2 fun _ _ => {
    declared := rfl
    aliasName := False.elim
    source := rfl
    parent := rfl
    type := rfl
    fetch := rfl
    condition := Option.isSome_map })
  source _ := .refl _

/-- The paths of the outermost level lead to the same joins, and its subqueries stand below it. -/
theorem Select.spells_spelledOut (ctx : RenderContext) (s : Select)
    (hinline : ctx.options.inlineAliases = w.inlineAliases) :
    Level.Spells w s.aliases.joinAliases .outermost (s.level (ctx.outermost (some w.aliasPrefix)))
      ((s.spelledOut w).level (ctx.outermost none)) where
  context := ⟨rfl, rfl, rfl⟩
  inner := ⟨hinline, rfl, rfl, rfl⟩
  path p position := by
    have hspelled : (Expr.reference p (LevelSpelling.outermost.text? p)).tokens
        ((s.spelledOut w).level (ctx.outermost none)) position =
          ((s.spelledOut w).level (ctx.outermost none)).pathTokens p := by
      rw [LevelSpelling.outermost, Expr.reference, Option.map_none, Option.getD_none, Expr.tokens]
    have hentry (found : Option (AliasEntry Expr)) :
        Option.Rel AliasEntry.Paired found found := by
      rcases found with _ | entry
      · exact .none
      · cases entry <;> exact .some (by constructor)
    have hresolved (target : Path) := (s.paired_spelledOut w ctx).resolvedTokens
      (⟨rfl, rfl, rfl, rfl, rfl⟩ : target.Paired target) False.elim
      (hentry (s.aliases.find? target.head)) (fun _ _ _ => rfl) fun _ => .refl _
    rw [hspelled, Level.pathTokens_eq, Level.pathTokens_eq]
    dsimp only [Select.level, Select.spelledOut, Select.spelledBy, RenderContext.outermost]
    cases s.aliases.endOf ctx.options.inlineAliases p with
    | path target => exact hresolved target
    | cycle a => exact .ok (.refl _)

theorem Select.tokens_spelledOut (ctx : RenderContext) (s : Select)
    (hinline : ctx.options.inlineAliases = w.inlineAliases) (hw : w.Looks s.aliases.joinAliases)
    (hsites : ∀ site ∈ s.sites, site.OnEntity) :
    (Comparison.texts ctx.dialect).Tokens (s.tokens (ctx.outermost (some w.aliasPrefix)))
      ((s.spelledOut w).tokens (ctx.outermost none)) := by
  have htables : Cte.listTokens (ctx.outermost none) s.ctes =
      Cte.listTokens (ctx.outermost (some w.aliasPrefix)) s.ctes := by
    rw [Cte.listTokens_eq_mapM, Cte.listTokens_eq_mapM]
    rfl
  exact tokens_spelledBy ((Expr.hereditary_spellsAlike hw).parts s) hsites (fun _ => rfl) rfl
    (.of_eq (fun _ => List.forall₂_same.2 fun _ _ => .refl _) htables)
    (s.paired_spelledOut w ctx) (s.spells_spelledOut ctx hinline)

end Outermost

/-- Whatever calls have built a query, its subqueries carry the prefix where a reference leads to the
outermost level. -/
theorem Select.render_prefix_scoped (ctx : RenderContext) (pre : String) (calls : List BuilderCall)
    (h : ∀ site ∈ (ofCalls calls).sites, site.OnEntity) :
    ∃ undecided, ∀ r,
      (Statement.select (.select (ofCalls calls))).render (ctx.outermost (some pre)) = .ok r ↔
        (Statement.select (.select ((ofCalls calls).spelledOut (.scoped (ofCalls calls).scope
          undecided pre ctx.options.inlineAliases)))).render (ctx.outermost none) = .ok r := by
  have hnamed : (ofCalls calls).Named := named_foldl_run (s := {}) AliasTable.Names.empty calls
  generalize ofCalls calls = s at h hnamed
  let aliases := s.aliases.joinAliases
  let w := Spelling.scoped s.scope (fun _ a => aliases.contains a) pre ctx.options.inlineAliases
  have htokens := s.tokens_spelledOut (w := w) ctx rfl (hnamed.looks pre _) h
  have hcontext : (ctx.outermost (some pre)).Paired ctx.dialect (ctx.outermost none) :=
    ⟨rfl, rfl, rfl⟩
  have hrendered : Agree False (RenderedLevel.Same (.texts ctx.dialect))
      ((Query.select s).rendered (ctx.outermost (some pre)))
      ((Query.select (s.spelledOut w)).rendered (ctx.outermost none)) := by
    rw [Query.rendered, Query.rendered]
    exact htokens.bind fun _ _ hts => .ok ⟨hts, rfl⟩
  have hmarkers : (Query.select (s.spelledOut w)).markers = (Query.select s).markers :=
    s.markers_spelledOut w
  have hagree := Statement.render_agree (k := .texts ctx.dialect) hcontext hmarkers hrendered
  refine ⟨fun _ a => aliases.contains a, fun r => ⟨fun hr => ?_, fun hr => ?_⟩⟩
  · obtain ⟨r', hr', rfl⟩ := hagree.exists_ok hr
    exact hr'
  · obtain ⟨r', hr', rfl⟩ := hagree.exists_ok_left hr
    exact hr'

/-- Whether a place of a text is a common table. -/
def Site.isTable : Site → Bool
  | .table .. => true
  | _ => false

theorem Site.onEntity_of_not_isTable {site : Site} (h : site.isTable = false) : site.OnEntity := by
  cases site with
  | table => cases h
  | _ => trivial

namespace Select

/-- Departments with someone to whom a task of the department belongs. -/
def tasked : List BuilderCall :=
  let owned := ofCalls [.correlate "d.tasks" "t",
    .filter (.binary (.ofPath "t.owner") .eq (.ofPath "p.id"))]
  let busy := ofCalls [.addRoot "Person" "p",
    .filter (.binary (.ofPath "p.unit") .eq (.ofPath "d.id")),
    .filter (.call "EXISTS" [.subquery (.select owned)])]
  [.addRoot "Department" "d", .filter (.call "EXISTS" [.subquery (.select busy)])]

set_option maxRecDepth 2000 in
/-- What is two levels further in carries the prefix, as a path and as the start of a FROM entry. -/
theorem render_prefix_scoped_tasked :
    (∀ site ∈ (ofCalls tasked).sites, site.OnEntity) ∧
      ∃ undecided, ∃ r,
        (Statement.select (.select (ofCalls tasked))).render
            (RenderContext.outermost { dialect := .hibernate } (some "x_")) = .ok r ∧
          (Statement.select (.select ((ofCalls tasked).spelledOut (.scoped (ofCalls tasked).scope
            undecided "x_" true)))).render
              (RenderContext.outermost { dialect := .hibernate } none) = .ok r ∧
          r.text = "SELECT x_d FROM Department x_d WHERE EXISTS((SELECT p FROM Person p WHERE " ++
            "p.unit = x_d.id AND EXISTS((SELECT t FROM x_d.tasks t WHERE t.owner = p.id))))" := by
  have htables : (ofCalls tasked).sites.any Site.isTable = false := rfl
  have hsites : ∀ site ∈ (ofCalls tasked).sites, site.OnEntity := fun site hsite =>
    Site.onEntity_of_not_isTable (Bool.eq_false_iff.2 (List.any_eq_false.1 htables site hsite))
  have hwritten : ((Statement.select (.select (ofCalls tasked))).render
      (RenderContext.outermost { dialect := .hibernate } (some "x_"))).map RenderedQuery.text =
        .ok ("SELECT x_d FROM Department x_d WHERE EXISTS((SELECT p FROM Person p WHERE " ++
          "p.unit = x_d.id AND EXISTS((SELECT t FROM x_d.tasks t WHERE t.owner = p.id))))") := by
    rfl
  obtain ⟨r, hr, htext⟩ := map_eq_ok.1 hwritten
  obtain ⟨undecided, hscoped⟩ := render_prefix_scoped { dialect := .hibernate } "x_" tasked hsites
  exact ⟨hsites, undecided, r, hr, (hscoped r).1 hr, htext⟩

/-- Persons with items, whose items go by the alias of their owner. -/
def propertied : List BuilderCall :=
  [.addRoot "Person" "p",
    .filter (.call "EXISTS" [.subquery (.select (ofCalls [.correlate "p.items" "p"]))])]

set_option maxRecDepth 2000 in
/-- The path `p.items` leads to the enclosing level, though its own level joins `p` as well. -/
theorem not_render_prefix_innermost_propertied :
    ¬∀ r, (Statement.select (.select (ofCalls propertied))).render
          (RenderContext.outermost { dialect := .hibernate } (some "x_")) = .ok r ↔
        (Statement.select (.select ((ofCalls propertied).spelledOut
          (.innermost (ofCalls propertied).scope "x_" true)))).render
            (RenderContext.outermost { dialect := .hibernate } none) = .ok r := by
  intro h
  have hwritten : ((Statement.select (.select (ofCalls propertied))).render
      (RenderContext.outermost { dialect := .hibernate } (some "x_"))).map RenderedQuery.text =
        .ok "SELECT x_p FROM Person x_p WHERE EXISTS((SELECT p FROM x_p.items p))" := by rfl
  have hexpected : ((Statement.select (.select ((ofCalls propertied).spelledOut
      (.innermost (ofCalls propertied).scope "x_" true)))).render
        (RenderContext.outermost { dialect := .hibernate } none)).map RenderedQuery.text =
          .ok "SELECT x_p FROM Person x_p WHERE EXISTS((SELECT p FROM p.items p))" := by rfl
  obtain ⟨r, hr, htext⟩ := map_eq_ok.1 hwritten
  rw [(h r).1 hr, Except.map, htext] at hexpected
  exact absurd (Except.ok.inj hexpected) (by decide)

end Select

end EntityQuery
