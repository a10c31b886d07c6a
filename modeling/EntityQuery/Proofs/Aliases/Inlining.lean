import EntityQuery.Proofs.Aliases.Chains
import EntityQuery.Proofs.Rewriting.Queries

/-!
Inlining select aliases while a query is written is the same as replacing them before. Every path
that consists of a select alias of its own level is replaced by the end of the chain that starts
there; other levels have their own aliases, and the order of a combined result has none.
-/

namespace EntityQuery

/-- The rewriting that replaces select aliases by the paths that they stand for. -/
def Rewriting.inlining : Rewriting where
  path := AliasTable.target

/-- A query with its select aliases replaced, level by level. -/
def Query.inlined (q : Query) : Query := q.rewrite .inlining

/-- The same context, with select aliases replaced while a query is written or not. -/
def RenderContext.inlining (ctx : RenderContext) (inline : Bool) : RenderContext :=
  { ctx with options := { ctx.options with inlineAliases := inline } }

namespace RenderContext

variable (ctx : RenderContext) (inline : Bool)

theorem outerPrefixTokens_inlining (a : String) :
    (ctx.inlining inline).outerPrefixTokens a = ctx.outerPrefixTokens a := rfl

theorem declaredAlias_inlining (a : String) :
    (ctx.inlining inline).declaredAlias a = ctx.declaredAlias a := rfl

end RenderContext

namespace AliasTable

variable (r : Rewriting) (f : Path → Path) (t : AliasTable Expr)

theorem find?_rewrite (a : String) : (t.rewrite r f).find? a = (t.find? a).map (AliasEntry.rewrite r f) :=
  find?_map _ t a

theorem joinAliases_rewrite : (t.rewrite r f).joinAliases = t.joinAliases := by
  have hjoin (entry : AliasEntry Expr) : (entry.rewrite r f).isJoin = entry.isJoin := by
    cases entry <;> rfl
  have hname (entry : AliasEntry Expr) : (entry.rewrite r f).aliasName = entry.aliasName := by
    cases entry <;> rfl
  simp [joinAliases, values, rewrite, List.filter_map, Function.comp_def, hjoin, hname]

end AliasTable

theorem AliasEntry.paired_rewrite (r : Rewriting) (f : Path → Path) (entry : AliasEntry Expr) :
    entry.Paired (entry.rewrite r f) := by
  cases entry with
  | join a node implicit => exact .join a a node implicit implicit
  | select a e => exact .select a a e (e.rewrite r f)

/-- The aliases of a level name the same after a rewriting. -/
theorem AliasTable.find?_paired (r : Rewriting) (f : Path → Path) (t : AliasTable Expr) (a : String) :
    Option.Rel AliasEntry.Paired (t.find? a) ((t.rewrite r f).find? a) := by
  rw [find?_rewrite]
  cases t.find? a with
  | none => exact .none
  | some entry => exact .some (entry.paired_rewrite r f)

/-- Texts with aliases inlined, beside texts with aliases replaced before. -/
def Comparison.inlining (d : Dialect) : Comparison where
  rewriting := .inlining
  dialect := d
  exact := True
  contexts ctx ctx' := ctx.dialect = d ∧ ctx.options.inlineAliases = true ∧ ctx' = ctx.inlining false
  levels sc := sc.aliases.Acyclic
  paths _ := True

/-- The joins of a level are written alike in both contexts. -/
theorem Scope.paired_inlined {exact : Prop} {d : Dialect} {ctx : RenderContext}
    (hd : ctx.dialect = d) (sc : Scope) :
    Level.Paired exact d id (sc.level ctx) ((sc.rewrite .inlining).level (ctx.inlining false)) := by
  have hctx : ctx.Paired d (ctx.inlining false) := ⟨hd, hd, rfl⟩
  refine Scope.paired_rewrite (r := .inlining) hctx (ctx.declaredAlias_inlining false) ?_ sc
  intro path
  rw [ctx.outerPrefixTokens_inlining false]
  exact .refl _

/-- With aliases inlined, a path is written as the end of its chain is written without. -/
theorem Scope.pathTokens_inlined {exact : Prop} {d : Dialect} {ctx : RenderContext} {sc : Scope}
    (hd : ctx.dialect = d) (hinline : ctx.options.inlineAliases = true)
    (hacyclic : sc.aliases.Acyclic) (p : Path) :
    Agree exact (SameText d) ((sc.level ctx).pathTokens p)
      (((sc.rewrite .inlining).level (ctx.inlining false)).pathTokens (sc.aliases.target p)) := by
  have hsame : (sc.aliases.target p).Paired (sc.aliases.target p) := ⟨rfl, rfl, rfl, rfl, rfl⟩
  have hleft : (sc.level ctx).pathTokens p = (sc.level ctx).resolvedTokens (sc.aliases.target p) := by
    have hend : (sc.level ctx).aliases.chainEnd p = .path (sc.aliases.target p) :=
      AliasTable.chainEnd_eq hacyclic p
    rw [Level.pathTokens, hend]
    exact if_pos hinline
  rw [hleft]
  refine (sc.paired_inlined hd).resolvedTokens hsame (fun _ => rfl) (sc.aliases.find?_paired _ _ _)
    (fun _ _ _ => rfl) fun _ => .of_eq ?_
  rw [Scope.level, Scope.level, ctx.outerPrefixTokens_inlining false]

theorem RenderContext.correlated_inlining (ctx : RenderContext) (inline : Bool)
    {t t' : AliasTable Expr} (h : t'.joinAliases = t.joinAliases) :
    (ctx.inlining inline).correlated t' = (ctx.correlated t).inlining inline := by
  rw [correlated.eq_def, correlated.eq_def, h]
  have hpre : (ctx.inlining inline).options.aliasPrefix = ctx.options.aliasPrefix := rfl
  rw [hpre]
  cases ctx.options.aliasPrefix <;> rfl

theorem RenderContext.correlated_options (ctx : RenderContext) (t : AliasTable Expr) :
    (ctx.correlated t).dialect = ctx.dialect ∧
      (ctx.correlated t).options.inlineAliases = ctx.options.inlineAliases := by
  rw [correlated.eq_def]
  cases ctx.options.aliasPrefix <;> exact ⟨rfl, rfl⟩

theorem Comparison.sound_inlining (d : Dialect) : (inlining d).Sound where
  paired := by
    rintro ctx _ ⟨hd, -, rfl⟩
    exact ⟨hd, hd, rfl⟩
  nested := by
    rintro ctx _ ⟨hd, hinline, rfl⟩
    exact ⟨hd, hinline, rfl⟩
  correlated := by
    rintro ctx _ sc ⟨hd, hinline, rfl⟩ -
    obtain ⟨hdialect, hoptions⟩ := ctx.correlated_options sc.aliases
    exact ⟨hdialect.trans hd, hoptions.trans hinline,
      ctx.correlated_inlining false (sc.aliases.joinAliases_rewrite _ _)⟩
  declared := by
    rintro ctx _ ⟨-, -, rfl⟩ a
    exact ctx.declaredAlias_inlining false a
  source := by
    rintro ctx _ ⟨-, -, rfl⟩ path
    rw [ctx.outerPrefixTokens_inlining false]
    exact .refl _
  path := by
    rintro ctx _ sc p ⟨hd, hinline, rfl⟩ hacyclic -
    exact Scope.pathTokens_inlined hd hinline hacyclic p
  empty := AliasTable.acyclic_empty

/-- What inlining asks for: no select alias of a level leads back to itself, and the rows of common
tables come from queries. -/
def Site.Inlinable : Site → Prop
  | .level sc => sc.aliases.Acyclic
  | .table _ body => ∃ q, body = .query q
  | _ => True

instance : DecidablePred Site.Inlinable
  | .level sc => inferInstanceAs (Decidable sc.aliases.Acyclic)
  | .table _ body => inferInstanceAs (Decidable (∃ q, body = .query q))
  | .path .. | .literal _ | .parameter _ | .function _ | .countStar | .element | .emptyChoice
  | .nested _ | .operation .. | .withClause | .assignments _ | .returning | .collectionDelete =>
      isTrue trivial

/-- Inlining select aliases while a query is written gives what replacing them before gives, errors
included, for any dialect, functions and prefix. -/
theorem Statement.render_inlined (ctx : RenderContext) {q : Query}
    (h : ∀ site ∈ q.sites, site.Inlinable) :
    (Statement.select q).render (ctx.inlining true) =
      (Statement.select q.inlined).render (ctx.inlining false) := by
  have hctx : (Comparison.inlining ctx.dialect).contexts (ctx.inlining true) (ctx.inlining false) :=
    ⟨rfl, rfl, rfl⟩
  have hwithin : ∀ site ∈ q.sites, site.Within (.inlining ctx.dialect) := by
    intro site hsite
    have hsite := h site hsite
    cases site with
    | level sc => exact hsite
    | table columns body => exact hsite
    | _ => trivial
  exact (render_rewrite (Comparison.sound_inlining ctx.dialect) hctx hwithin).eq

namespace Query

/-- People by an alias of an alias of their name, if a manager has the same name. The subquery uses
one of the two aliases for a path of its own. -/
def namesakes : Query :=
  .select {
    items := [⟨.bound 0 "p" (some "name"), some "name"⟩, ⟨.ofPath "name", some "label"⟩]
    joins := { nodes := [{ aliasName := "p", source := .root "Person" }], roots := [0] }
    aliases := ⟨[
      ("label", .select "label" (.ofPath "name")),
      ("name", .select "name" (.bound 0 "p" (some "name"))),
      ("p", .join "p" 0 false)]⟩
    condition := some (.oneOf (.ofPath "label") [.subquery (.select {
      items := [⟨.ofPath "m.name", some "label"⟩]
      joins := { nodes := [{ aliasName := "m", source := .root "Manager" }], roots := [0] }
      aliases := ⟨[("label", .select "label" (.ofPath "m.name")), ("m", .join "m" 0 false)]⟩
      groupBy := [.ofPath "label", .ofPath "name"] })] false)
    orderBy := [⟨.ofPath "label", .desc, none⟩] }

theorem render_inlined_namesakes :
    (∀ site ∈ namesakes.sites, site.Inlinable) ∧
      (Statement.select namesakes).render
          { dialect := .openJpa, options := { aliasPrefix := some "x_" } } =
        (Statement.select namesakes.inlined).render
          { dialect := .openJpa
            options := { inlineAliases := false, aliasPrefix := some "x_" } } := by
  have inlinable : ∀ site ∈ namesakes.sites, site.Inlinable := by decide
  exact ⟨inlinable, Statement.render_inlined
    { dialect := .openJpa, options := { aliasPrefix := some "x_" } } inlinable⟩

end Query

end EntityQuery
