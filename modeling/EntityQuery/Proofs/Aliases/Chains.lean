import Mathlib.Data.Fintype.Card
import Mathlib.Logic.Function.Iterate
import Mathlib.Logic.Relation
import EntityQuery.Proofs.Aliases.Table
import EntityQuery.Render.Level

/-!
Chains of select aliases. Where no alias leads back to itself, a chain ends after as many steps as
the table has entries, and its end does not depend on how it is followed.
-/

namespace EntityQuery.AliasTable

variable {t : AliasTable Expr} {p next : Path}

/-- Whether an alias names a path that consists of another alias. -/
def Leads (t : AliasTable Expr) (a b : String) : Prop :=
  ∃ name target, t.find? a = some (.select name (.path target)) ∧ target.base = none ∧
    target.isSingle = true ∧ target.head = b

/-- No alias leads back to itself, however many others are on the way. -/
def Acyclic (t : AliasTable Expr) : Prop := ∀ a, ¬Relation.TransGen t.Leads a a

/-- One step along a chain; its end stays where it is. -/
def step (t : AliasTable Expr) (p : Path) : Path := (t.replacement? p).getD p

/-- The end of the chain of select aliases that starts with a path. -/
def target (t : AliasTable Expr) (p : Path) : Path := t.step^[t.entries.length] p

theorem replacement?_eq_some (h : t.replacement? p = some next) :
    p.base = none ∧ p.isSingle = true ∧
      ∃ name, t.find? p.head = some (.select name (.path next)) := by
  rw [replacement?] at h
  split at h
  next hsingle =>
    rw [Bool.and_eq_true, Option.isNone_iff_eq_none] at hsingle
    split at h
    next name _ hfind =>
      cases h
      exact ⟨hsingle.1, hsingle.2, name, hfind⟩
    next => cases h
  next => cases h

theorem step_of_none (h : t.replacement? p = none) : t.step p = p := by
  rw [step, h, Option.getD_none]

theorem step_of_some (h : t.replacement? p = some next) : t.step p = next := by
  rw [step, h, Option.getD_some]

/-- A path that is replaced twice leads from one alias to another. -/
theorem leads_step (h : (t.replacement? p).isSome) (hstep : (t.replacement? (t.step p)).isSome) :
    t.Leads p.head (t.step p).head := by
  obtain ⟨next, hnext⟩ := Option.isSome_iff_exists.1 h
  obtain ⟨last, hlast⟩ := Option.isSome_iff_exists.1 hstep
  obtain ⟨-, -, name, hfind⟩ := replacement?_eq_some hnext
  obtain ⟨hbase, hsingle, -⟩ := replacement?_eq_some hlast
  rw [step_of_some hnext] at hbase hsingle ⊢
  exact ⟨name, next, hfind, hbase, hsingle, rfl⟩

/-- Without cycles, no alias on the way is met a second time. -/
theorem followChain_eq (ht : t.Acyclic) (steps : Nat) {passed : List String}
    (hpassed : (t.replacement? p).isSome → ∀ a ∈ passed, Relation.TransGen t.Leads a p.head) :
    t.followChain steps passed p = .path (t.step^[steps] p) := by
  induction steps generalizing passed p with
  | zero => rfl
  | succ steps ih =>
      rw [followChain, Function.iterate_succ_apply]
      cases hp : t.replacement? p with
      | none => rw [step_of_none hp, Function.iterate_fixed (step_of_none hp)]
      | some next =>
          have hreplaced : (t.replacement? p).isSome := Option.isSome_of_eq_some hp
          have hfresh : passed.contains p.head = false := by
            refine Bool.eq_false_iff.2 fun hmet => ?_
            exact ht p.head (hpassed hreplaced p.head (List.contains_iff_mem.1 hmet))
          simp only [hfresh, Bool.false_eq_true, if_false]
          rw [← step_of_some hp]
          refine ih fun hstep a ha => ?_
          have hleads := leads_step hreplaced hstep
          rcases List.mem_cons.1 ha with rfl | ha
          · exact .single hleads
          · exact (hpassed hreplaced a ha).tail hleads

/-- If a chain goes on after some steps, it went on before. -/
theorem isSome_iterate_step {i n : Nat} (hi : i ≤ n)
    (h : (t.replacement? (t.step^[n] p)).isSome) : (t.replacement? (t.step^[i] p)).isSome := by
  by_contra hend
  have hfixed := step_of_none (Option.not_isSome_iff_eq_none.1 hend)
  obtain ⟨k, rfl⟩ := Nat.exists_eq_add_of_le' hi
  rw [Function.iterate_add_apply, Function.iterate_fixed hfixed] at h
  exact hend h

/-- Along a chain, every alias leads to all later ones. -/
theorem transGen_iterate_step {i j : Nat} (hij : i < j)
    (h : (t.replacement? (t.step^[j] p)).isSome) :
    Relation.TransGen t.Leads (t.step^[i] p).head (t.step^[j] p).head := by
  have hleads (k : Nat) (hk : k < j) : t.Leads (t.step^[k] p).head (t.step^[k + 1] p).head := by
    have hnow := isSome_iterate_step hk.le h
    have hnext := isSome_iterate_step hk h
    rw [Function.iterate_succ_apply'] at hnext ⊢
    exact leads_step hnow hnext
  obtain ⟨k, rfl⟩ := Nat.exists_eq_add_of_lt hij
  induction k with
  | zero => exact .single (hleads i (Nat.lt_succ_self i))
  | succ k ih =>
      have hbefore := ih (by omega) (isSome_iterate_step (by omega) h)
        fun m hm => hleads m (by omega)
      exact hbefore.tail (hleads _ (by omega))

/-- Without cycles, a chain has reached its end after as many steps as there are aliases. -/
theorem replacement?_target (ht : t.Acyclic) (p : Path) : t.replacement? (t.target p) = none := by
  by_contra hgoes
  have hsome : (t.replacement? (t.step^[t.entries.length] p)).isSome :=
    Option.isSome_iff_ne_none.2 hgoes
  let heads := (List.range (t.entries.length + 1)).map fun i => (t.step^[i] p).head
  have hnodup : heads.Nodup := by
    refine List.pairwise_map.2 (List.pairwise_lt_range.imp_of_mem fun {i j} _ hj hij heq => ?_)
    have hlater := transGen_iterate_step hij
      (isSome_iterate_step (Nat.lt_succ_iff.1 (List.mem_range.1 hj)) hsome)
    exact ht _ (heq ▸ hlater)
  have hkeys : heads ⊆ t.entries.map Prod.fst := by
    intro a ha
    obtain ⟨i, hi, rfl⟩ := List.mem_map.1 ha
    have hreplaced := isSome_iterate_step (Nat.lt_succ_iff.1 (List.mem_range.1 hi)) hsome
    obtain ⟨next, hnext⟩ := Option.isSome_iff_exists.1 hreplaced
    obtain ⟨-, -, name, hfind⟩ := replacement?_eq_some hnext
    exact List.mem_map_of_mem (mem_of_find? hfind)
  have hlength := (hnodup.subperm hkeys).length_le
  rw [List.length_map, List.length_map, List.length_range] at hlength
  exact absurd hlength (Nat.not_succ_le_self _)

/-- The walk with a list of passed aliases comes to the end of the chain. -/
theorem chainEnd_eq (ht : t.Acyclic) (p : Path) : t.chainEnd p = .path (t.target p) := by
  rw [chainEnd, followChain_eq ht _ (by simp), Function.iterate_succ_apply',
    ← target, step_of_none (replacement?_target ht p)]

theorem Leads.replacement? {a b : String} (h : t.Leads a b) (hbase : p.base = none)
    (hsingle : p.isSingle = true) (hhead : p.head = a) :
    (t.replacement? p).isSome ∧ (t.step p).base = none ∧ (t.step p).isSingle = true ∧
      (t.step p).head = b := by
  obtain ⟨name, next, hfind, hnext⟩ := h
  have hp : t.replacement? p = some next := by
    simp [AliasTable.replacement?, hbase, hsingle, hhead, hfind]
  rw [step_of_some hp]
  exact ⟨Option.isSome_of_eq_some hp, hnext⟩

/-- A chain that enters a cycle goes on for ever. -/
theorem isSome_of_cycle (n : Nat) (hcycle : Relation.TransGen t.Leads p.head p.head)
    (hbase : p.base = none) (hsingle : p.isSingle = true) :
    (t.replacement? (t.step^[n] p)).isSome := by
  induction n generalizing p with
  | zero =>
      obtain ⟨b, hleads, -⟩ := Relation.TransGen.head'_iff.1 hcycle
      exact (hleads.replacement? hbase hsingle rfl).1
  | succ n ih =>
      obtain ⟨b, hleads, hback⟩ := Relation.TransGen.head'_iff.1 hcycle
      obtain ⟨-, hbase, hsingle, hhead⟩ := hleads.replacement? hbase hsingle rfl
      exact ih (hhead ▸ Relation.TransGen.tail' hback hleads) hbase hsingle

/-- Cycles are found by following the chain of each alias of the table. -/
theorem acyclic_iff : t.Acyclic ↔
    ∀ key ∈ t.entries.map Prod.fst, t.replacement? (t.target { elements := [key] }) = none := by
  constructor
  · exact fun ht key _ => replacement?_target ht _
  · intro hends a hcycle
    obtain ⟨b, ⟨name, next, hfind, -⟩, -⟩ := Relation.TransGen.head'_iff.1 hcycle
    have hgoes : (t.replacement? (t.target { elements := [a] })).isSome :=
      isSome_of_cycle (p := { elements := [a] }) _ hcycle rfl rfl
    rw [hends a (List.mem_map_of_mem (mem_of_find? hfind))] at hgoes
    cases hgoes

instance : Decidable t.Acyclic := decidable_of_iff _ acyclic_iff.symm

theorem acyclic_empty : ({} : AliasTable Expr).Acyclic := by decide

end EntityQuery.AliasTable
