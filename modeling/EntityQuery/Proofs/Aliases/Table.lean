import Mathlib.Data.List.Induction
import EntityQuery.Aliases

/-!
What an alias table answers after it has been changed. Its entries stay in ascending order of their
keys, so no key has two of them.
-/

namespace EntityQuery.AliasTable

variable {ε : Type} {t : AliasTable ε} {key a : String} {entry : AliasEntry ε}

theorem mem_of_find? (h : t.find? key = some entry) : (key, entry) ∈ t.entries := by
  obtain ⟨front, rest, hentries, -⟩ := List.lookup_eq_some_iff.1 h
  rw [hentries]
  exact List.mem_append_right front List.mem_cons_self

theorem find?_isSome_of_mem_keys (h : key ∈ t.entries.map Prod.fst) : (t.find? key).isSome := by
  obtain ⟨entry, hentry, hkey⟩ := List.mem_map.1 h
  exact List.lookup_isSome_iff.2 ⟨entry, hentry, by simp [hkey]⟩

/-- Changing what the aliases name, and not the aliases. -/
theorem find?_map {δ : Type} (f : AliasEntry ε → AliasEntry δ) (t : AliasTable ε) (key : String) :
    find? ⟨t.entries.map fun entry => (entry.1, f entry.2)⟩ key = (t.find? key).map f := by
  rw [find?, find?]
  induction t.entries with
  | nil => rfl
  | cons entry rest ih =>
      rw [List.map_cons, List.lookup_cons, List.lookup_cons, ih]
      cases key == entry.1 <;> rfl

theorem lookup_cons_if (key a : String) (entry : AliasEntry ε)
    (es : List (String × AliasEntry ε)) :
    ((key, entry) :: es).lookup a = if a = key then some entry else es.lookup a := by
  rw [List.lookup_cons]
  by_cases h : a = key
  · simp [h]
  · simp [h, beq_eq_false_iff_ne.2 h]

theorem find?_insert (t : AliasTable ε) (key : String) (entry : AliasEntry ε) (a : String) :
    (t.insert key entry).find? a = if a = key then some entry else t.find? a := by
  rw [find?, find?, insert]
  induction t.entries with
  | nil => exact lookup_cons_if key a entry []
  | cons first rest ih =>
      obtain ⟨k, e⟩ := first
      rw [insertEntry, lookup_cons_if k a e rest]
      split
      next heq =>
        subst heq
        rw [lookup_cons_if]
        split <;> rfl
      next hne =>
        split
        · rw [lookup_cons_if, lookup_cons_if]
        · rw [lookup_cons_if, ih]
          by_cases ha : a = k
          · simp [ha, Ne.symm hne]
          · simp [ha]

theorem mem_keys_insert (t : AliasTable ε) (key : String) (entry : AliasEntry ε) (a : String) :
    a ∈ (t.insert key entry).entries.map Prod.fst ↔ a = key ∨ a ∈ t.entries.map Prod.fst := by
  rw [insert]
  induction t.entries with
  | nil => simp [insertEntry]
  | cons first rest ih =>
      obtain ⟨k, e⟩ := first
      rw [insertEntry]
      split
      next heq => simp [heq]
      next =>
        split
        · simp
        · rw [List.map_cons, List.map_cons, List.mem_cons, List.mem_cons, ih]
          tauto

theorem mem_insertEntry {es : List (String × AliasEntry ε)} {e : String × AliasEntry ε}
    (h : e ∈ insertEntry key entry es) : e = (key, entry) ∨ e ∈ es := by
  induction es with
  | nil => exact .inl (List.mem_singleton.1 h)
  | cons first rest ih =>
      obtain ⟨k, other⟩ := first
      rw [insertEntry] at h
      split at h
      · rcases List.mem_cons.1 h with h | h
        · exact .inl h
        · exact .inr (List.mem_cons_of_mem _ h)
      · split at h
        · exact List.mem_cons.1 h
        · rcases List.mem_cons.1 h with h | h
          · exact .inr (h ▸ List.mem_cons_self)
          · exact (ih h).imp_right (List.mem_cons_of_mem _)

theorem mem_values (h : t.find? key = some entry) : entry ∈ t.values :=
  List.mem_map_of_mem (mem_of_find? h)

/-- Where every entry stands under its own alias, the aliases of the entries say where they are. -/
theorem find?_eq_values (h : ∀ e ∈ t.entries, e.1 = e.2.aliasName) (a : String) :
    t.find? a = t.values.find? fun entry => entry.aliasName == a := by
  rw [find?, values]
  generalize t.entries = es at h
  induction es with
  | nil => rfl
  | cons first rest ih =>
      obtain ⟨key, entry⟩ := first
      obtain ⟨hkey, hrest⟩ := List.forall_mem_cons.1 h
      obtain rfl : key = entry.aliasName := hkey
      rw [lookup_cons_if, List.map_cons, List.find?_cons, ih hrest]
      by_cases ha : a = entry.aliasName
      · simp [ha]
      · simp [ha, beq_eq_false_iff_ne.2 (Ne.symm ha)]

/-- The table of the given entries, each under its own alias. The first entry of an alias counts. -/
def ofEntries (es : List (AliasEntry ε)) : AliasTable ε :=
  es.foldr (fun entry t => t.insert entry.aliasName entry) {}

theorem find?_ofEntries (es : List (AliasEntry ε)) (a : String) :
    (ofEntries es).find? a = es.find? fun entry => entry.aliasName == a := by
  induction es with
  | nil => rfl
  | cons entry rest ih =>
      rw [ofEntries, List.foldr_cons, find?_insert, ← ofEntries, ih, List.find?_cons]
      by_cases ha : a = entry.aliasName
      · simp [ha]
      · simp [ha, beq_eq_false_iff_ne.2 (Ne.symm ha)]

theorem mem_keys_ofEntries (es : List (AliasEntry ε)) (a : String) :
    a ∈ (ofEntries es).entries.map Prod.fst ↔ a ∈ es.map AliasEntry.aliasName := by
  induction es with
  | nil => rfl
  | cons entry rest ih =>
      rw [ofEntries, List.foldr_cons, mem_keys_insert, ← ofEntries, ih, List.map_cons,
        List.mem_cons]

theorem length_insertEntry {es : List (String × AliasEntry ε)} (h : key ∉ es.map Prod.fst)
    (entry : AliasEntry ε) : (insertEntry key entry es).length = es.length + 1 := by
  induction es with
  | nil => rfl
  | cons first rest ih =>
      obtain ⟨k, e⟩ := first
      rw [List.map_cons, List.mem_cons, not_or] at h
      rw [insertEntry, if_neg h.1]
      split
      · rfl
      · rw [List.length_cons, ih h.2, List.length_cons]

theorem length_ofEntries {es : List (AliasEntry ε)} (h : (es.map AliasEntry.aliasName).Nodup) :
    (ofEntries es).entries.length = es.length := by
  induction es with
  | nil => rfl
  | cons entry rest ih =>
      rw [List.map_cons, List.nodup_cons, ← mem_keys_ofEntries] at h
      have hlength := length_insertEntry h.1 entry
      rw [ih h.2] at hlength
      exact hlength

theorem mem_joinAliases : a ∈ t.joinAliases ↔
    ∃ key node implicit, (key, .join a node implicit) ∈ t.entries := by
  rw [joinAliases, values, List.mem_map]
  constructor
  · rintro ⟨entry, hvalue, rfl⟩
    obtain ⟨hvalue, hjoin⟩ := List.mem_filter.1 hvalue
    obtain ⟨⟨key, value⟩, hentry, rfl⟩ := List.mem_map.1 hvalue
    cases value with
    | join name node implicit => exact ⟨key, node, implicit, hentry⟩
    | select name e => cases hjoin
  · rintro ⟨key, node, implicit, hentry⟩
    exact ⟨.join a node implicit, List.mem_filter.2 ⟨List.mem_map_of_mem hentry, rfl⟩, rfl⟩

/-- Whether the entries are in ascending order of their keys. -/
def Sorted (t : AliasTable ε) : Prop := (t.entries.map Prod.fst).Pairwise (· < ·)

theorem Sorted.nodup (h : t.Sorted) : (t.entries.map Prod.fst).Nodup :=
  h.imp fun hlt => by
    rintro rfl
    exact String.lt_irrefl _ hlt

theorem Sorted.insert (h : t.Sorted) (key : String) (entry : AliasEntry ε) :
    (t.insert key entry).Sorted := by
  rw [Sorted, AliasTable.insert]
  rw [Sorted] at h
  generalize t.entries = es at h
  induction es with
  | nil => exact List.pairwise_singleton _ _
  | cons first rest ih =>
      obtain ⟨k, e⟩ := first
      rw [List.map_cons, List.pairwise_cons] at h
      rw [insertEntry]
      split
      next heq =>
        subst heq
        exact List.pairwise_cons.2 h
      next hne =>
        split
        next hlt =>
          refine List.pairwise_cons.2 ⟨fun b hb => ?_, List.pairwise_cons.2 h⟩
          rcases List.mem_cons.1 hb with rfl | hb
          · exact hlt
          · exact String.lt_trans hlt (h.1 b hb)
        next hnlt =>
          have hgt : k < key := by
            refine Decidable.not_not.1 fun hnot => hne ?_
            exact String.le_antisymm (String.not_lt.1 hnot) (String.not_lt.1 hnlt)
          refine List.pairwise_cons.2 ⟨fun b hb => ?_, ih h.2⟩
          obtain ⟨other, hother, rfl⟩ := List.mem_map.1 hb
          rcases mem_insertEntry hother with rfl | hother
          · exact hgt
          · exact h.1 _ (List.mem_map_of_mem hother)

/-- An entry with a key beyond all others comes last. -/
theorem insertEntry_append {es : List (String × AliasEntry ε)} (h : ∀ k ∈ es.map Prod.fst, k < key)
    (entry : AliasEntry ε) : insertEntry key entry es = es ++ [(key, entry)] := by
  induction es with
  | nil => rfl
  | cons first rest ih =>
      obtain ⟨k, e⟩ := first
      obtain ⟨hk, hrest⟩ := List.forall_mem_cons.1 h
      have hne : key ≠ k := fun heq => String.lt_irrefl k (heq ▸ hk)
      have hnlt : ¬key < k := fun hlt => String.lt_irrefl k (String.lt_trans hk hlt)
      rw [insertEntry, if_neg hne, if_neg hnlt, ih hrest, List.cons_append]

/-- Entries that are in order make the table that holds them, inserted one by one. -/
theorem foldl_insert_sorted {es : List (String × AliasEntry ε)} (h : Sorted ⟨es⟩) :
    es.foldl (fun t e => t.insert e.1 e.2) ({} : AliasTable ε) = ⟨es⟩ := by
  induction es using List.reverseRecOn with
  | nil => rfl
  | append_singleton es e ih =>
      rw [Sorted, List.map_append, List.pairwise_append] at h
      obtain ⟨hsorted, -, hlast⟩ := h
      rw [List.foldl_append, ih hsorted, List.foldl_cons, List.foldl_nil, insert,
        insertEntry_append fun k hk => hlast k hk e.1 (List.mem_singleton_self _)]

end EntityQuery.AliasTable
