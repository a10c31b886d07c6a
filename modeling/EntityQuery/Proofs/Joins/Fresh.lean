import Mathlib
import EntityQuery.Joins

/-!
Fresh aliases of join nodes. The candidates for an alias are different texts, so a graph cannot
carry all of one more than it has nodes: the first of them that is free is taken, and a search that
tries one after another comes to it.
-/

namespace EntityQuery.JoinGraph

variable {ε : Type} {g : JoinGraph ε} {base a : String}

theorem findAlias?_isNone_iff : (g.findAlias? a).isNone = true ↔
    a ∉ g.nodes.map JoinNode.aliasName := by
  simp [findAlias?]

theorem aliasCandidate_ne (base : String) (k : Nat) :
    aliasCandidate base (k + 1) ≠ aliasCandidate base 0 := by
  intro h
  have hlength := congrArg String.length h
  simp only [aliasCandidate, String.length_append] at hlength
  have hmark : "_".length = 1 := rfl
  omega

/-- Every base has different candidates, also one that ends in a number. -/
theorem aliasCandidate_injective (base : String) : Function.Injective (aliasCandidate base) := by
  intro i j h
  cases i with
  | zero =>
      cases j with
      | zero => rfl
      | succ j => exact absurd h.symm (aliasCandidate_ne base j)
  | succ i =>
      cases j with
      | zero => exact absurd h (aliasCandidate_ne base i)
      | succ j => exact Nat.repr_inj.1 (String.append_right_inj _ |>.1 h)

/-- A graph does not carry all of the first candidates. -/
theorem exists_aliasCandidate_notMem (g : JoinGraph ε) (base : String) :
    ∃ k ≤ g.size, aliasCandidate base k ∉ g.nodes.map JoinNode.aliasName := by
  by_contra hall
  push Not at hall
  have hnodup : ((List.range (g.size + 1)).map (aliasCandidate base)).Nodup :=
    List.nodup_range.map (aliasCandidate_injective base)
  have hsubset : (List.range (g.size + 1)).map (aliasCandidate base) ⊆
      g.nodes.map JoinNode.aliasName := by
    intro a ha
    obtain ⟨k, hk, rfl⟩ := List.mem_map.1 ha
    exact hall k (Nat.lt_succ_iff.1 (List.mem_range.1 hk))
  have hlength := (List.subperm_of_subset hnodup hsubset).length_le
  rw [List.length_map, List.length_map, List.length_range] at hlength
  exact Nat.not_succ_le_self _ hlength

/-- The first candidate that no node carries is taken. -/
theorem exists_freshAlias_eq (g : JoinGraph ε) (base : String) :
    ∃ k ≤ g.size, g.freshAlias base = aliasCandidate base k ∧
      aliasCandidate base k ∉ g.nodes.map JoinNode.aliasName ∧
      ∀ j < k, aliasCandidate base j ∈ g.nodes.map JoinNode.aliasName := by
  obtain ⟨free, hfree, hnone⟩ := g.exists_aliasCandidate_notMem base
  have hfound : ((List.range (g.size + 1)).find? fun k =>
      (g.findAlias? (aliasCandidate base k)).isNone).isSome :=
    List.find?_isSome.2 ⟨free, List.mem_range.2 (Nat.lt_succ_iff.2 hfree),
      findAlias?_isNone_iff.2 hnone⟩
  obtain ⟨k, hk⟩ := Option.isSome_iff_exists.1 hfound
  obtain ⟨hfirst, hrange, hbefore⟩ := List.find?_range_eq_some.1 hk
  refine ⟨k, Nat.lt_succ_iff.1 (List.mem_range.1 hrange), ?_, findAlias?_isNone_iff.1 hfirst,
    fun j hj => ?_⟩
  · rw [freshAlias, List.find?_map]
    exact congrArg (fun found => (found.map (aliasCandidate base)).getD base) hk
  · have htaken := hbefore j hj
    rw [Bool.not_eq_true'] at htaken
    by_contra hnotMem
    rw [findAlias?_isNone_iff.2 hnotMem] at htaken
    cases htaken

theorem freshAlias_notMem (g : JoinGraph ε) (base : String) :
    g.freshAlias base ∉ g.nodes.map JoinNode.aliasName := by
  obtain ⟨k, -, hfresh, hfree, -⟩ := g.exists_freshAlias_eq base
  rwa [hfresh]

/-- What a search among the candidates tests, from number `k` on and with no end set, and the alias
that it ends with. A search that goes on forever has neither. -/
inductive Searches (g : JoinGraph ε) (base : String) : Nat → List String → String → Prop
  | free {k : Nat} (h : (g.findAlias? (aliasCandidate base k)).isNone = true) :
      Searches g base k [aliasCandidate base k] (aliasCandidate base k)
  | taken {k : Nat} {tested : List String} {a : String}
      (h : (g.findAlias? (aliasCandidate base k)).isNone = false)
      (rest : Searches g base (k + 1) tested a) :
      Searches g base k (aliasCandidate base k :: tested) a

theorem Searches.unique {k : Nat} {tested tested' : List String} {a' : String}
    (h : g.Searches base k tested a) (h' : g.Searches base k tested' a') :
    tested = tested' ∧ a = a' := by
  induction h generalizing tested' with
  | free hfree =>
      cases h' with
      | free => exact ⟨rfl, rfl⟩
      | taken htaken => simp [hfree] at htaken
  | taken htaken _ ih =>
      cases h' with
      | free hfree => simp [htaken] at hfree
      | taken _ rest =>
          obtain ⟨htested, ha⟩ := ih rest
          exact ⟨congrArg _ htested, ha⟩

/-- A search ends when it comes to a free candidate. -/
theorem searches_of_first {k n : Nat}
    (hfree : aliasCandidate base (k + n) ∉ g.nodes.map JoinNode.aliasName)
    (htaken : ∀ j < n, aliasCandidate base (k + j) ∈ g.nodes.map JoinNode.aliasName) :
    g.Searches base k ((List.range' k (n + 1)).map (aliasCandidate base))
      (aliasCandidate base (k + n)) := by
  induction n generalizing k with
  | zero => exact .free (findAlias?_isNone_iff.2 hfree)
  | succ n ih =>
      -- Seen from the next number, the one that the search ends at is a step nearer.
      have hlast : k + 1 + n = k + (n + 1) := by omega
      rw [← hlast] at hfree ⊢
      have hfirst : (g.findAlias? (aliasCandidate base k)).isNone = false := by
        rw [Bool.eq_false_iff, Ne, findAlias?_isNone_iff, not_not]
        exact htaken 0 n.succ_pos
      have hrest : ∀ j < n, aliasCandidate base (k + 1 + j) ∈ g.nodes.map JoinNode.aliasName := by
        intro j hj
        rw [Nat.add_right_comm]
        exact htaken (j + 1) (Nat.succ_lt_succ hj)
      exact .taken hfirst (ih hfree hrest)

/-- The unbounded search for a fresh alias ends, whatever graph and text it is given, after at most
one test more than the graph has nodes; with the text itself if no node carries it, and otherwise
with the text and the least number from 1 on that make an alias that no node carries. This number is
not greater than that of the nodes. -/
theorem searches_freshAlias (g : JoinGraph ε) (base : String) :
    (∃ tested : List String, tested.length ≤ g.size + 1 ∧
      ∀ ts a, g.Searches base 0 ts a ↔ ts = tested ∧ a = g.freshAlias base) ∧
    g.freshAlias base ∉ g.nodes.map JoinNode.aliasName ∧
    (base ∉ g.nodes.map JoinNode.aliasName → g.freshAlias base = base) ∧
    (base ∈ g.nodes.map JoinNode.aliasName →
      ∃ k, 1 ≤ k ∧ k ≤ g.size ∧ g.freshAlias base = base ++ "_" ++ toString k ∧
        ∀ j, 1 ≤ j → j < k → base ++ "_" ++ toString j ∈ g.nodes.map JoinNode.aliasName) := by
  obtain ⟨k, hk, hfresh, hfree, htaken⟩ := g.exists_freshAlias_eq base
  have hsearch := searches_of_first (k := 0) (by rwa [Nat.zero_add]) fun j hj => by
    rw [Nat.zero_add]
    exact htaken j hj
  rw [Nat.zero_add, ← hfresh] at hsearch
  refine ⟨⟨_, ?_, fun ts a => ⟨fun h => h.unique hsearch, ?_⟩⟩, g.freshAlias_notMem base, ?_, ?_⟩
  · rw [List.length_map, List.length_range']
    exact Nat.succ_le_succ hk
  · rintro ⟨rfl, rfl⟩
    exact hsearch
  · intro hbase
    cases k with
    | zero => exact hfresh
    | succ k => exact absurd (htaken 0 k.succ_pos) hbase
  · intro hbase
    cases k with
    | zero => exact absurd hbase hfree
    | succ k =>
        refine ⟨k + 1, k.succ_pos, hk, hfresh, fun j hpos hj => ?_⟩
        obtain ⟨j, rfl⟩ := Nat.exists_eq_succ_of_ne_zero (Nat.ne_of_gt hpos)
        exact htaken (j + 1) hj

/-- Aliases that look like numbered ones, and a number that is left out. -/
def crowded : JoinGraph Unit where
  nodes := ["p_1", "p_1_3", "p", "p_1_1"].map fun a => { aliasName := a, source := .root "Person" }
  roots := [0, 1, 2, 3]

theorem searches_freshAlias_crowded :
    "p_1" ∈ crowded.nodes.map JoinNode.aliasName ∧ crowded.freshAlias "p_1" = "p_1_2" ∧
      (∃ tested : List String, tested.length ≤ 5 ∧
        ∀ ts a, crowded.Searches "p_1" 0 ts a ↔ ts = tested ∧ a = "p_1_2") ∧
      ∃ k, 1 ≤ k ∧ k ≤ 4 ∧ "p_1_2" = "p_1" ++ "_" ++ toString k ∧
        ∀ j, 1 ≤ j → j < k → "p_1" ++ "_" ++ toString j ∈ crowded.nodes.map JoinNode.aliasName := by
  have hcarried : "p_1" ∈ crowded.nodes.map JoinNode.aliasName := by decide
  have hfresh : crowded.freshAlias "p_1" = "p_1_2" := by decide
  obtain ⟨hsearch, -, -, hnumber⟩ := crowded.searches_freshAlias "p_1"
  rw [hfresh] at hsearch hnumber
  exact ⟨hcarried, hfresh, hsearch, hnumber hcarried⟩

end EntityQuery.JoinGraph
