import EntityQuery.Proofs.Aliases.Chains

/-!
Where a chain of select aliases ends, in every table. A chain passes each alias at most once, since
only aliases of the table are passed: it comes to a path that names no further path, or back to an
alias that it has passed. With cycles or without, and however many steps are allowed beyond that,
this is where the walk ends.
-/

namespace EntityQuery

namespace AliasTable

/-- A path that consists of a select alias, and the path that the alias names. -/
def Refers (t : AliasTable Expr) (p : Path) (a : String) (next : Path) : Prop :=
  p.base = none ∧ p.elements = [a] ∧ ∃ name, t.find? a = some (.select name (.path next))

/-- The aliases that are passed on the way from a path to another, in their order. -/
inductive Visits (t : AliasTable Expr) : Path → List String → Path → Prop
  | here (p : Path) : Visits t p [] p
  | next {p next q : Path} {a : String} {as : List String} (hp : t.Refers p a next)
      (h : Visits t next as q) : Visits t p (a :: as) q

/-- Whether a path stands at the end of its chain. -/
def Ends (t : AliasTable Expr) (p : Path) : Prop := ∀ a next, ¬t.Refers p a next

variable {t : AliasTable Expr} {p q next : Path} {a : String} {as passed : List String}

theorem Refers.head_eq (h : t.Refers p a next) : p.head = a := by
  rw [Path.head, h.2.1, List.headD_cons]

theorem replacement?_eq_some_iff : t.replacement? p = some next ↔ ∃ a, t.Refers p a next := by
  constructor
  · intro h
    obtain ⟨hbase, hsingle, name, hfind⟩ := replacement?_eq_some h
    rw [Path.isSingle, beq_iff_eq, List.length_eq_one_iff] at hsingle
    obtain ⟨a, helements⟩ := hsingle
    refine ⟨a, hbase, helements, name, ?_⟩
    rwa [Path.head, helements, List.headD_cons] at hfind
  · rintro ⟨a, h⟩
    obtain ⟨hbase, helements, name, hfind⟩ := h
    simp [replacement?, Path.isSingle, Path.head, hbase, helements, hfind]

theorem Refers.replacement? (h : t.Refers p a next) : t.replacement? p = some next :=
  replacement?_eq_some_iff.2 ⟨a, h⟩

theorem replacement?_eq_none_iff : t.replacement? p = none ↔ t.Ends p := by
  rw [Option.eq_none_iff_forall_ne_some]
  constructor
  · exact fun h a next hp => h next hp.replacement?
  · intro h next hnext
    obtain ⟨a, hp⟩ := replacement?_eq_some_iff.1 hnext
    exact h a next hp

/-- An alias that a path refers to is one of the table. -/
theorem Refers.mem_keys (h : t.Refers p a next) : a ∈ t.entries.map Prod.fst := by
  obtain ⟨-, -, name, hfind⟩ := h
  exact List.mem_map_of_mem (mem_of_find? hfind)

/-- Distinct aliases of the table are no more than it has entries. -/
theorem length_le_of_nodup (hpassed : passed.Nodup) (hkeys : passed ⊆ t.entries.map Prod.fst) :
    passed.length ≤ t.entries.length := by
  have hlength : (t.entries.map Prod.fst).length = t.entries.length := List.length_map _
  rw [← hlength]
  exact (hpassed.subperm hkeys).length_le

theorem Visits.subset_keys (h : t.Visits p as q) : as ⊆ t.entries.map Prod.fst := by
  induction h with
  | here p => exact List.nil_subset _
  | next hp _ ih => exact List.cons_subset.2 ⟨hp.mem_keys, ih⟩

/-- From every path, with some aliases passed, the chain comes to its end or to an alias that has
been passed. The induction is on the number of aliases that have not been. -/
theorem exists_visits_of_passed (n : Nat) (hn : t.entries.length ≤ passed.length + n)
    (hpassed : passed.Nodup) (hkeys : passed ⊆ t.entries.map Prod.fst) (p : Path) :
    ∃ as q, t.Visits p as q ∧ (as.reverse ++ passed).Nodup ∧
      (t.Ends q ∨ ∃ a next, t.Refers q a next ∧ a ∈ as.reverse ++ passed) := by
  induction n generalizing passed p with
  | zero =>
      refine ⟨[], p, .here p, hpassed, ?_⟩
      by_cases hend : t.Ends p
      · exact .inl hend
      · simp only [Ends, not_forall, not_not] at hend
        obtain ⟨a, next, hp⟩ := hend
        have hmet : a ∈ passed := by
          -- a further alias would be one more than there are
          by_contra hfresh
          have hlength := length_le_of_nodup (List.nodup_cons.2 ⟨hfresh, hpassed⟩)
            (List.cons_subset.2 ⟨hp.mem_keys, hkeys⟩)
          rw [List.length_cons] at hlength
          omega
        exact .inr ⟨a, next, hp, hmet⟩
  | succ n ih =>
      by_cases hend : t.Ends p
      · exact ⟨[], p, .here p, hpassed, .inl hend⟩
      · simp only [Ends, not_forall, not_not] at hend
        obtain ⟨a, next, hp⟩ := hend
        by_cases hmet : a ∈ passed
        · exact ⟨[], p, .here p, hpassed, .inr ⟨a, next, hp, hmet⟩⟩
        · have hlonger : t.entries.length ≤ (a :: passed).length + n := by
            rw [List.length_cons]
            omega
          obtain ⟨as, q, hvisits, hnodup, hq⟩ := ih hlonger (List.nodup_cons.2 ⟨hmet, hpassed⟩)
            (List.cons_subset.2 ⟨hp.mem_keys, hkeys⟩) next
          have hlist : (a :: as).reverse ++ passed = as.reverse ++ a :: passed := by
            rw [List.reverse_cons, List.append_assoc, List.singleton_append]
          exact ⟨a :: as, q, .next hp hvisits, hlist ▸ hnodup, hlist ▸ hq⟩

/-- Every chain ends, or comes back to an alias that it has passed, before it passes any alias a
second time. -/
theorem exists_visits (t : AliasTable Expr) (p : Path) :
    ∃ as q, t.Visits p as q ∧ as.Nodup ∧
      (t.Ends q ∨ ∃ a next, t.Refers q a next ∧ a ∈ as) := by
  have hall : t.entries.length ≤ ([] : List String).length + t.entries.length :=
    Nat.le_add_left _ _
  obtain ⟨as, q, hvisits, hnodup, hq⟩ :=
    exists_visits_of_passed t.entries.length hall List.nodup_nil (List.nil_subset _) p
  simp only [List.append_nil, List.nodup_reverse, List.mem_reverse] at hnodup hq
  exact ⟨as, q, hvisits, hnodup, hq⟩

/-- The walk goes along the chain as long as it meets new aliases. -/
theorem Visits.followChain (h : t.Visits p as q) (hfresh : (as.reverse ++ passed).Nodup)
    (steps : Nat) :
    t.followChain (as.length + steps) passed p = t.followChain steps (as.reverse ++ passed) q := by
  induction h generalizing passed with
  | here p => rw [List.length_nil, Nat.zero_add, List.reverse_nil, List.nil_append]
  | @next p next q a as hp _ ih =>
      rw [List.reverse_cons, List.append_assoc, List.singleton_append] at hfresh ⊢
      have hnew : passed.contains p.head = false := by
        rw [hp.head_eq, List.contains_eq_mem, decide_eq_false_iff_not]
        exact (List.nodup_cons.1 (List.nodup_append.1 hfresh).2.1).1
      rw [List.length_cons, Nat.add_right_comm, AliasTable.followChain, hp.replacement?]
      simp only [hnew, Bool.false_eq_true, if_false]
      rw [hp.head_eq]
      exact ih hfresh

/-- At the end of its chain the walk stops. -/
theorem Visits.followChain_of_ends (h : t.Visits p as q) (hnodup : as.Nodup) (hq : t.Ends q)
    {steps : Nat} (hsteps : as.length < steps) : t.followChain steps [] p = .path q := by
  obtain ⟨k, rfl⟩ := Nat.exists_eq_add_of_lt hsteps
  rw [Nat.add_assoc, h.followChain (by simpa using hnodup), AliasTable.followChain,
    replacement?_eq_none_iff.2 hq]

/-- So it does where it comes back to an alias. -/
theorem Visits.followChain_of_met (h : t.Visits p as q) (hnodup : as.Nodup)
    (hq : t.Refers q a next) (hmet : a ∈ as) {steps : Nat} (hsteps : as.length < steps) :
    t.followChain steps [] p = .cycle a := by
  obtain ⟨k, rfl⟩ := Nat.exists_eq_add_of_lt hsteps
  have hcontains : (as.reverse ++ []).contains q.head = true := by
    rw [List.contains_iff_mem, hq.head_eq]
    simpa using hmet
  rw [Nat.add_assoc, h.followChain (by simpa using hnodup), AliasTable.followChain,
    hq.replacement?]
  simp only [hcontains, if_true]
  rw [hq.head_eq]

/-- A chain passes no more aliases than the table has entries. -/
theorem Visits.length_lt (h : t.Visits p as q) (hnodup : as.Nodup) :
    as.length < t.entries.length + 1 :=
  Nat.lt_succ_of_le (length_le_of_nodup hnodup h.subset_keys)

theorem Visits.chainEnd_of_ends (h : t.Visits p as q) (hnodup : as.Nodup) (hq : t.Ends q) :
    t.chainEnd p = .path q :=
  h.followChain_of_ends hnodup hq (h.length_lt hnodup)

theorem Visits.chainEnd_of_met (h : t.Visits p as q) (hnodup : as.Nodup)
    (hq : t.Refers q a next) (hmet : a ∈ as) : t.chainEnd p = .cycle a :=
  h.followChain_of_met hnodup hq hmet (h.length_lt hnodup)

/-- An alias names one path, whichever path refers to it. -/
theorem Refers.next_eq {r next' : Path} (h : t.Refers p a next) (h' : t.Refers r a next') :
    next = next' := by
  obtain ⟨-, -, name, hfind⟩ := h
  obtain ⟨-, -, name', hfind'⟩ := h'
  rw [hfind] at hfind'
  cases hfind'
  rfl

/-- A chain that ends does so in one way. -/
theorem Visits.unique {as' : List String} {q' : Path} (h : t.Visits p as q)
    (h' : t.Visits p as' q') (hq : t.Ends q) (hq' : t.Ends q') : as = as' ∧ q = q' := by
  induction h generalizing as' with
  | here p =>
      cases h' with
      | here => exact ⟨rfl, rfl⟩
      | next hp _ => exact absurd hp (hq _ _)
  | @next p next q a as hp _ ih =>
      cases h' with
      | here => exact absurd hp (hq' _ _)
      | next hp' hrest =>
          obtain rfl := hp.head_eq.symm.trans hp'.head_eq
          obtain rfl := hp.next_eq hp'
          obtain ⟨rfl, rfl⟩ := ih hrest hq
          exact ⟨rfl, rfl⟩

/-- What is left of a chain after an alias. -/
theorem Visits.exists_after (h : t.Visits p as q) (ha : a ∈ as) :
    ∃ before after r next, as = before ++ a :: after ∧ t.Refers r a next ∧
      t.Visits next after q := by
  induction h with
  | here p => cases ha
  | @next p next q b as hp hrest ih =>
      rcases List.mem_cons.1 ha with rfl | ha
      · exact ⟨[], as, p, next, rfl, hp, hrest⟩
      · obtain ⟨before, after, r, last, rfl, hr, hlast⟩ := ih ha
        exact ⟨b :: before, after, r, last, rfl, hr, hlast⟩

/-- A chain that ends has passed no alias twice: it would go on from there for ever. -/
theorem Visits.nodup (h : t.Visits p as q) (hq : t.Ends q) : as.Nodup := by
  induction h with
  | here p => exact List.nodup_nil
  | @next p next q a as hp hrest ih =>
      refine List.nodup_cons.2 ⟨fun ha => ?_, ih hq⟩
      obtain ⟨before, after, r, again, hsplit, hr, hafter⟩ := hrest.exists_after ha
      obtain rfl := hp.next_eq hr
      have hshorter := congrArg List.length ((hrest.unique hafter hq hq).1.symm.trans hsplit)
      simp only [List.length_append, List.length_cons] at hshorter
      omega

/-- The walk comes to the end of every chain that has one. -/
theorem Visits.chainEnd_eq (h : t.Visits p as q) (hq : t.Ends q) : t.chainEnd p = .path q :=
  h.chainEnd_of_ends (h.nodup hq) hq

end AliasTable

namespace Level

variable {l : Level} {p q : Path}

/-- Where aliases are inlined, a path is written as the end of its chain is. -/
theorem pathTokens_of_visits (hinline : l.context.options.inlineAliases = true) {as : List String}
    (h : l.aliases.Visits p as q) (hq : l.aliases.Ends q) :
    l.pathTokens p = l.resolvedTokens q := by
  rw [pathTokens, if_pos hinline, h.chainEnd_eq hq]

/-- In every table, with cycles or without, a path passes each alias at most once before it is
written, however many more steps are allowed. It is written as the first path of its chain that
refers to no further path; or, if the chain comes back to an alias that it has passed, as the name
of this alias. -/
theorem pathTokens_chain (l : Level) (hinline : l.context.options.inlineAliases = true)
    (p : Path) :
    ∃ as q, l.aliases.Visits p as q ∧ as.Nodup ∧
      (∀ steps, as.length < steps → l.aliases.followChain steps [] p = l.aliases.chainEnd p) ∧
      (l.aliases.Ends q ∧ l.pathTokens p = l.pathTokens q ∧ l.pathTokens q = l.resolvedTokens q ∨
        ∃ a next, l.aliases.Refers q a next ∧ a ∈ as ∧ l.pathTokens p = .ok [.name a]) := by
  obtain ⟨as, q, hvisits, hnodup, hq | ⟨a, next, hq, hmet⟩⟩ := l.aliases.exists_visits p
  · have hwritten := pathTokens_of_visits hinline (.here q) hq
    refine ⟨as, q, hvisits, hnodup, fun steps hsteps => ?_, .inl ⟨hq, ?_, hwritten⟩⟩
    · rw [hvisits.followChain_of_ends hnodup hq hsteps, hvisits.chainEnd_of_ends hnodup hq]
    · rw [pathTokens_of_visits hinline hvisits hq, hwritten]
  · refine ⟨as, q, hvisits, hnodup, fun steps hsteps => ?_, .inr ⟨a, next, hq, hmet, ?_⟩⟩
    · rw [hvisits.followChain_of_met hnodup hq hmet hsteps,
        hvisits.chainEnd_of_met hnodup hq hmet]
    · rw [pathTokens, if_pos hinline, hvisits.chainEnd_of_met hnodup hq hmet]

/-- Two select aliases that name each other, and a third that leads to them. -/
def looped : Level where
  context := { dialect := .hibernate }
  aliases := .ofEntries [.select "a" (.path { elements := ["b"] }),
    .select "b" (.path { elements := ["a"] }), .select "x" (.path { elements := ["a"] })]
  joins := {}

theorem pathTokens_chain_looped : looped.context.options.inlineAliases = true ∧
    ∃ as q, looped.aliases.Visits { elements := ["x"] } as q ∧ as.Nodup ∧
      (∀ steps, as.length < steps →
        looped.aliases.followChain steps [] { elements := ["x"] } =
          looped.aliases.chainEnd { elements := ["x"] }) ∧
      (looped.aliases.Ends q ∧ looped.pathTokens { elements := ["x"] } = looped.pathTokens q ∧
          looped.pathTokens q = looped.resolvedTokens q ∨
        ∃ a next, looped.aliases.Refers q a next ∧ a ∈ as ∧
          looped.pathTokens { elements := ["x"] } = .ok [.name a]) :=
  ⟨rfl, pathTokens_chain looped rfl _⟩

example : looped.pathTokens { elements := ["x"] } = .ok [.name "a"] := rfl

end Level

end EntityQuery
