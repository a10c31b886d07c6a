import EntityQuery.Proofs.Render.Success

/-!
What the choice of a dialect decides. Hibernate can say every shape, so what it rejects is wrong in
itself; any other dialect writes what Hibernate writes, as long as it has what the sites of the
statement ask for.
-/

namespace EntityQuery

/-- Whether an alias, if it names a node, names one that exists. -/
def AliasEntry.LeadsInto (g : JoinGraph Expr) : AliasEntry Expr → Prop
  | .join _ node _ => (g.node? node).isSome
  | .select _ _ => True

/-- Roots and parents exist, every node is reached once, and the nodes without a parent, which are
then the roots, are those that can open an entry; join aliases name nodes. -/
structure Scope.WellFormed (sc : Scope) : Prop where
  graph : sc.joins.WellFormed
  sources : ∀ n ∈ sc.joins.nodes, n.parent = none ↔ n.source.opensEntry = true
  aliases : ∀ entry ∈ sc.aliases.values, entry.LeadsInto sc.joins

instance (g : JoinGraph Expr) : DecidablePred (AliasEntry.LeadsInto g)
  | .join _ node _ => inferInstanceAs (Decidable (g.node? node).isSome)
  | .select _ _ => inferInstanceAs (Decidable True)

instance (sc : Scope) : Decidable sc.WellFormed :=
  decidable_of_iff (sc.joins.WellFormed
    ∧ (∀ n ∈ sc.joins.nodes, n.parent = none ↔ n.source.opensEntry = true)
    ∧ ∀ entry ∈ sc.aliases.values, entry.LeadsInto sc.joins)
    ⟨fun ⟨graph, sources, aliases⟩ => ⟨graph, sources, aliases⟩,
      fun ⟨graph, sources, aliases⟩ => ⟨graph, sources, aliases⟩⟩

namespace Site

/-- Whether the names that a site depends on lead somewhere. -/
def WellFormed : Site → Prop
  | level sc | path sc _ => sc.WellFormed
  | _ => True

/-- What is wrong with a site whatever the dialect is: a level without a root, or with a cross join
of something other than an entity or with a condition; a literal that is no number; a parameter
without a name; a path from a node that does not exist; rows skipped of a nested query that takes
no number of them; a common table without columns, with other columns than values, or with limits; an
update that assigns nothing. -/
def Defective (inline : Bool) : Site → Prop
  | level sc => sc.joins.roots = [] ∨ ∃ id ∈ sc.joined, ∃ n ∈ sc.joins.node? id,
      n.type.getD .inner = .cross ∧ ¬Scope.CanCross n
  | literal v => ¬v.Writable
  | parameter p => p.name = none
  | path sc p => ∃ target ∈ sc.finalPath? inline p, ∃ node ∈ target.base,
      sc.joins.node? node = none
  | nested limits => limits.first.isSome ∧ limits.max = none
  | table columns body => columns = [] ∨ body.width ≠ columns.length ∨ body.limited = true
  | assignments count => count = 0
  | function _ | countStar | element | emptyChoice | operation _ _ _ | withClause | returning
  | collectionDelete => False

instance : DecidablePred WellFormed
  | level sc | path sc _ => inferInstanceAs (Decidable sc.WellFormed)
  | literal _ | parameter _ | function _ | countStar | element | emptyChoice | nested _
  | operation _ _ _ | withClause | table _ _ | assignments _ | returning | collectionDelete =>
      inferInstanceAs (Decidable True)

instance (inline : Bool) : DecidablePred (Defective inline)
  | level sc => inferInstanceAs (Decidable (sc.joins.roots = [] ∨ ∃ id ∈ sc.joined,
      ∃ n ∈ sc.joins.node? id, n.type.getD .inner = .cross ∧ ¬Scope.CanCross n))
  | literal v => inferInstanceAs (Decidable (¬v.Writable))
  | parameter p => inferInstanceAs (Decidable (p.name = none))
  | path sc p => inferInstanceAs (Decidable (∃ target ∈ sc.finalPath? inline p,
      ∃ node ∈ target.base, sc.joins.node? node = none))
  | nested limits => inferInstanceAs (Decidable (limits.first.isSome ∧ limits.max = none))
  | table columns body => inferInstanceAs (Decidable
      (columns = [] ∨ body.width ≠ columns.length ∨ body.limited = true))
  | assignments count => inferInstanceAs (Decidable (count = 0))
  | function _ | countStar | element | emptyChoice | operation _ _ _ | withClause | returning
  | collectionDelete => inferInstanceAs (Decidable False)

end Site

namespace Scope.WellFormed

variable {sc : Scope} (h : sc.WellFormed)
include h

theorem rootSound {id : NodeId} (hid : id ∈ sc.joins.roots) : sc.RootSound id := by
  obtain ⟨n, hn⟩ := Option.isSome_iff_exists.1 (JoinGraph.node?_isSome.2 (h.graph.roots id hid))
  refine ⟨n, hn, (h.sources n (List.mem_of_getElem? hn)).1 ?_⟩
  simpa [JoinGraph.parent?, hn] using h.graph.parent?_of_root hid

/-- What is written as a join exists, and hangs under another node. -/
theorem parent_of_joined {id : NodeId} (hid : id ∈ sc.joined) :
    ∃ n ∈ sc.joins.node? id, ∃ parent ∈ n.parent, (sc.joins.node? parent).isSome := by
  obtain ⟨root, -, hbelow⟩ := List.mem_flatMap.1 hid
  obtain ⟨parent, hparent⟩ := JoinGraph.exists_parent_of_mem_tail hbelow
  have hlt := h.graph.lt_of_parent hparent
  obtain ⟨n, hn, hp⟩ := Option.bind_eq_some_iff.1 hparent
  exact ⟨n, hn, parent, hp, JoinGraph.node?_isSome.2 hlt⟩

theorem canJoin {n : JoinNode Expr} (hn : n ∈ sc.joins.nodes) {parent : NodeId}
    (hparent : parent ∈ n.parent) (hexists : (sc.joins.node? parent).isSome) : sc.CanJoin n := by
  have hclosed : ¬n.source.opensEntry = true := by
    intro hopen
    rw [(h.sources n hn).2 hopen] at hparent
    cases hparent
  rw [Scope.CanJoin]
  rw [Option.mem_def] at hparent
  cases hsource : n.source with
  | ofAttribute name relation => simpa [hparent] using hexists
  | ofEntity name => trivial
  | _ => simp [hsource, JoinSource.opensEntry] at hclosed

theorem resolves_iff (p : Path) :
    sc.Resolves p ↔ ∀ node ∈ p.base, (sc.joins.node? node).isSome := by
  rw [Scope.Resolves]
  cases p.base with
  | some node => simp
  | none =>
      simp only [Option.not_mem_none, false_implies, implies_true, iff_true]
      intro node hnode
      rw [AliasTable.joinNode?] at hnode
      cases hentry : sc.aliases.find? p.head with
      | none => simp [hentry] at hnode
      | some entry =>
          cases entry with
          | select aliasName expr => simp [hentry] at hnode
          | join aliasName other implicit =>
              obtain rfl : other = node := by simpa [hentry] using hnode
              obtain ⟨front, rest, hsplit, -⟩ := List.lookup_eq_some_iff.1 hentry
              refine h.aliases (.join aliasName other implicit) ?_
              simp [AliasTable.values, hsplit]

end Scope.WellFormed

/-- Where graphs are well formed, nothing else can be wrong. -/
theorem Site.sound_iff_not_defective {site : Site} (h : site.WellFormed) (inline : Bool) :
    site.Sound inline ↔ ¬site.Defective inline := by
  cases site with
  | level sc =>
      have wf : sc.WellFormed := h
      have hjoin : (∀ id ∈ sc.joined, sc.JoinSound id) ↔
          ¬∃ id ∈ sc.joined, ∃ n ∈ sc.joins.node? id,
            n.type.getD .inner = .cross ∧ ¬Scope.CanCross n := by
        constructor
        · rintro hsound ⟨id, hid, n, hn, hcross, hcannot⟩
          obtain ⟨other, hother, hjoins⟩ := hsound id hid
          obtain rfl : other = n := Option.mem_unique hother hn
          rw [if_pos hcross] at hjoins
          exact hcannot hjoins
        · intro hnone id hid
          obtain ⟨n, hn, parent, hparent, hexists⟩ := wf.parent_of_joined hid
          refine ⟨n, hn, ?_⟩
          split
          · next hcross =>
              by_contra hcannot
              exact hnone ⟨id, hid, n, hn, hcross, hcannot⟩
          · exact wf.canJoin (List.mem_of_getElem? hn) hparent hexists
      rw [Sound, Defective, not_or, ← hjoin, and_iff_right fun id hid => wf.rootSound hid]
  | path sc p =>
      have wf : sc.WellFormed := h
      simp only [Sound, Defective, wf.resolves_iff, not_exists, not_and, Option.isSome_iff_ne_none,
        ne_eq]
  | literal v => simp [Sound, Defective]
  | parameter p => simp [Sound, Defective, Option.isSome_iff_ne_none]
  | nested limits => simp [Sound, Defective, Option.isSome_iff_ne_none]
  | table columns body => simp [Sound, Defective]
  | assignments count => simp [Sound, Defective]
  | _ => simp [Sound, Defective]

theorem Site.supportedBy_hibernate (site : Site) {ctx : RenderContext}
    (h : ctx.dialect = .hibernate) : site.SupportedBy ctx := by
  have hcapabilities : ctx.capabilities = Dialect.hibernateCapabilities := by
    rw [RenderContext.capabilities, h, Dialect.capabilities]
  cases site <;>
    simp [SupportedBy, RenderContext.CanCall, Scope.JoinSupported, hcapabilities,
      Dialect.hibernateCapabilities]

/-- Whether a site makes sense is not a matter of the dialect. -/
theorem Site.writable_iff (ctx : RenderContext) (site : Site) :
    site.Writable ctx ↔
      site.Writable { ctx with dialect := .hibernate } ∧ site.SupportedBy ctx := by
  have hsupported : site.SupportedBy { ctx with dialect := .hibernate } :=
    site.supportedBy_hibernate rfl
  rw [Writable, Writable, and_iff_left hsupported]

namespace Statement

/-- Hibernate rejects a statement for a defect, and for nothing else. -/
theorem succeeds_render_hibernate_iff {s : Statement} {ctx : RenderContext}
    (hdialect : ctx.dialect = .hibernate) (complete : ∀ site ∈ s.sites, site.Complete)
    (wf : ∀ site ∈ s.sites, site.WellFormed) :
    (∃ r, s.render ctx = .ok r) ↔
      ∀ site ∈ s.sites, ¬site.Defective ctx.options.inlineAliases := by
  refine (s.verdict_render ctx complete).trans (forall₂_congr fun site hsite => ?_)
  have hsupported := site.supportedBy_hibernate hdialect
  rw [Site.Writable, and_iff_left hsupported]
  exact Site.sound_iff_not_defective (wf site hsite) ctx.options.inlineAliases

/-- The names of people whose manager is among three, together with the names of companies. -/
def directory : Statement :=
  .select (.combined {
    operator := some .union
    start := .select {
      items := [⟨.bound 0 "p" (some "name"), some "name"⟩]
      joins := { nodes := [{ aliasName := "p", source := .root "Person" }], roots := [0] }
      aliases := ⟨[("p", .join "p" 0 false)]⟩
      condition := some (.oneOf (.bound 0 "p" (some "manager")) [.subquery (.select {
        joins := { nodes := [{ aliasName := "m", source := .root "Manager" }], roots := [0] }
        limits := { max := some 3 } })] false) }
    operands := [.select {
      items := [⟨.bound 1 "c" (some "name"), some "name"⟩]
      joins := {
        nodes := [
          { aliasName := "o", source := .root "Office" },
          { aliasName := "c", source := .ofAttribute "company" .singular, parent := some 0 }]
        roots := [0] } }]
    orderBy := [⟨.ofPath "name", .desc, none⟩] })

theorem succeeds_render_hibernate_directory :
    (∀ site ∈ directory.sites, site.Complete) ∧ (∀ site ∈ directory.sites, site.WellFormed) ∧
      ∃ r, directory.render { dialect := .hibernate } = .ok r := by
  have complete : ∀ site ∈ directory.sites, site.Complete := by decide
  have wf : ∀ site ∈ directory.sites, site.WellFormed := by decide
  have hsound : ∀ site ∈ directory.sites, ¬site.Defective true := by decide
  exact ⟨complete, wf, (succeeds_render_hibernate_iff rfl complete wf).2 hsound⟩

/-- A dialect writes what Hibernate writes, if it supports every site, and nothing else. -/
theorem succeeds_render_iff_supported {s : Statement} (complete : ∀ site ∈ s.sites, site.Complete)
    (ctx : RenderContext) :
    (∃ r, s.render ctx = .ok r) ↔
      (∃ r, s.render { ctx with dialect := .hibernate } = .ok r) ∧
        ∀ site ∈ s.sites, site.SupportedBy ctx := by
  have hhere := s.verdict_render ctx complete
  have hthere := s.verdict_render { ctx with dialect := .hibernate } complete
  refine hhere.trans (Iff.trans ?_ (and_congr_left fun _ => hthere.symm))
  rw [← forall₂_and]
  exact forall₂_congr fun site _ => site.writable_iff ctx

/-- Without functions of its own, OpenJPA has no words for the set operation and for the limit; with
both functions registered it has. -/
theorem succeeds_render_directory :
    (¬∃ r, directory.render { dialect := .openJpa } = .ok r) ∧
      ∃ r, directory.render { dialect := .openJpa, functions := ⟨["limit", "set_union"]⟩ } =
        .ok r := by
  have complete : ∀ site ∈ directory.sites, site.Complete := by decide
  constructor
  · intro hrender
    have hsupported :=
      ((succeeds_render_iff_supported complete { dialect := .openJpa }).1 hrender).2
    revert hsupported
    decide
  · refine (succeeds_render_iff_supported complete
      { dialect := .openJpa, functions := ⟨["limit", "set_union"]⟩ }).2 ⟨?_, by decide⟩
    exact ⟨_, rfl⟩

end Statement

end EntityQuery
