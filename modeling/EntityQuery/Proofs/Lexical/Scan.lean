import Mathlib.Data.List.Basic
import Mathlib.Data.Option.Basic
import EntityQuery.Number.DecimalText
import EntityQuery.Text.Casing
import EntityQuery.Text.Dotted
import EntityQuery.Text.Quoted

/-!
Text scanned from left to right: where its literals end, and whether its parentheses fit. Literals
are what lies between two quotes, and only parentheses outside of them count.
-/

namespace EntityQuery

/-- How far the scan of a text has come: into a literal or not, and into how many parentheses. -/
structure Scan where
  inLiteral : Bool := false
  depth : Nat := 0
deriving DecidableEq, Repr

namespace Scan

/-- Goes past one character. There is no way past a parenthesis that closes none. -/
def step (s : Scan) (c : Char) : Option Scan :=
  if c = '\'' then some { s with inLiteral := !s.inLiteral }
  else if s.inLiteral then some s
  else if c = '(' then some { s with depth := s.depth + 1 }
  else if c = ')' then
    match s.depth with
    | 0 => none
    | depth + 1 => some { s with depth := depth }
  else some s

def run (s : Scan) (cs : List Char) : Option Scan := cs.foldlM step s

@[simp] theorem run_cons (s : Scan) (c : Char) (cs : List Char) :
    s.run (c :: cs) = (s.step c).bind fun s => s.run cs := rfl

theorem run_append (s : Scan) (cs ds : List Char) :
    s.run (cs ++ ds) = (s.run cs).bind fun s => s.run ds :=
  List.foldlM_append

end Scan

/-- A character that begins or ends nothing. -/
def Inert (c : Char) : Prop := c ≠ '\'' ∧ c ≠ '(' ∧ c ≠ ')'

instance : DecidablePred Inert := fun _ => inferInstanceAs (Decidable (_ ∧ _))

theorem Scan.step_of_inert {c : Char} (h : Inert c) (s : Scan) : s.step c = some s := by
  rw [Scan.step, if_neg h.1, if_neg h.2.1, if_neg h.2.2]
  split <;> rfl

theorem Scan.run_of_inert {cs : List Char} (h : ∀ c ∈ cs, Inert c) (s : Scan) :
    s.run cs = some s := by
  induction cs with
  | nil => rfl
  | cons c rest ih =>
      rw [List.forall_mem_cons] at h
      rw [run_cons, step_of_inert h.1, Option.bind_some, ih h.2]

namespace Text

/-- Whether all literals of a text end, all parentheses are closed, and none is closed too early. -/
def WellFormed (s : String) : Prop := ({} : Scan).run s.toList = some {}

instance (s : String) : Decidable (WellFormed s) := inferInstanceAs (Decidable (_ = _))

/-- A text without quotes and parentheses. -/
def Plain (s : String) : Prop := ∀ c ∈ s.toList, Inert c

instance (s : String) : Decidable (Plain s) := List.decidableBAll Inert s.toList

/-- Whether a text opens a number of parentheses that it does not close. At whatever depth it
begins, it closes none from before it, and it begins and ends outside of literals. -/
def Opens (n : Nat) (s : String) : Prop :=
  ∀ depth, Scan.run ⟨false, depth⟩ s.toList = some ⟨false, depth + n⟩

section Opens

variable {m n : Nat} {s t : String}

theorem WellFormed.of_opens (h : Opens 0 s) : WellFormed s := h 0

theorem Opens.append (hs : Opens m s) (ht : Opens n t) : Opens (m + n) (s ++ t) := by
  intro depth
  rw [String.toList_append, Scan.run_append, hs, Option.bind_some, ht, Nat.add_assoc]

theorem Opens.close (h : Opens (n + 1) s) : Opens n (s ++ ")") := by
  intro depth
  rw [String.toList_append, Scan.run_append, h, Option.bind_some]
  rfl

theorem opens_openParen : Opens 1 "(" := fun _ => rfl

theorem Plain.opens (h : Plain s) : Opens 0 s := fun depth => Scan.run_of_inert h ⟨false, depth⟩

/-- A literal is scanned as a whole, whatever it says: quotes inside it come in pairs. -/
theorem opens_literal (s : String) : Opens 0 (Quoted.literal s) := by
  have hinside (cs : List Char) (depth : Nat) :
      Scan.run ⟨true, depth⟩ (Quoted.double cs) = some ⟨true, depth⟩ := by
    induction cs with
    | nil => rfl
    | cons c rest ih =>
        rw [Quoted.double]
        split
        next => exact ih
        next hc =>
          have hstep : Scan.step ⟨true, depth⟩ c = some ⟨true, depth⟩ := by
            rw [Scan.step, if_neg hc, if_pos rfl]
          rw [Scan.run_cons, hstep, Option.bind_some, ih]
  intro depth
  have hopened : Scan.run ⟨false, depth⟩ "'".toList = some ⟨true, depth⟩ := rfl
  have hclosed : Scan.run ⟨true, depth⟩ "'".toList = some ⟨false, depth⟩ := rfl
  rw [Quoted.literal, String.toList_append, String.toList_append, Scan.run_append, Scan.run_append,
    hopened, Option.bind_some, String.toList_ofList, hinside, Option.bind_some, hclosed, Nat.add_zero]

end Opens

section Plain

variable {s t : String}

theorem plain_empty : Plain "" := by decide

theorem Plain.append (hs : Plain s) (ht : Plain t) : Plain (s ++ t) := by
  rw [Plain, String.toList_append]
  exact List.forall_mem_append.2 ⟨hs, ht⟩

theorem plain_ofList {cs : List Char} (h : ∀ c ∈ cs, Inert c) : Plain (String.ofList cs) := by
  rwa [Plain, String.toList_ofList]

/-- The pieces of a text between its dots. -/
theorem Plain.split (h : Plain s) : ∀ piece ∈ Dotted.split s, Plain piece := by
  have hpieces (cs : List Char) (hcs : ∀ c ∈ cs, Inert c) :
      ∀ piece ∈ Dotted.splitChars cs, ∀ c ∈ piece, Inert c := by
    induction cs with
    | nil => simp [Dotted.splitChars]
    | cons first rest ih =>
        obtain ⟨hfirst, hrest⟩ := List.forall_mem_cons.1 hcs
        have ih := ih hrest
        rw [Dotted.splitChars]
        split
        · exact List.forall_mem_cons.2 ⟨by simp, ih⟩
        · split
          · simpa using hfirst
          next heq =>
            rw [heq, List.forall_mem_cons] at ih
            exact List.forall_mem_cons.2 ⟨List.forall_mem_cons.2 ⟨hfirst, ih.1⟩, ih.2⟩
  intro piece hpiece
  obtain ⟨cs, hcs, rfl⟩ := List.mem_map.1 hpiece
  exact plain_ofList (hpieces s.toList h cs hcs)

theorem plain_join {pieces : List String} (h : ∀ piece ∈ pieces, Plain piece) :
    Plain (Dotted.join pieces) := by
  induction pieces with
  | nil => decide
  | cons first rest ih =>
      obtain ⟨hfirst, hrest⟩ := List.forall_mem_cons.1 h
      cases rest with
      | nil => rwa [Dotted.join, String.intercalate_singleton]
      | cons second rest =>
          rw [Dotted.join_cons_cons]
          exact (hfirst.append (by decide)).append (ih hrest)

end Plain

section Numbers

theorem inert_of_isDigit {c : Char} (h : c.isDigit = true) : Inert c := by
  refine ⟨?_, ?_, ?_⟩ <;> (rintro rfl; cases h)

theorem plain_natToString (n : Nat) : Plain (toString n) := by
  rw [Nat.toString_eq_ofList_toDigits]
  exact plain_ofList fun c hc => inert_of_isDigit (Nat.isDigit_of_mem_toDigits (by decide) (by decide) hc)

theorem plain_intToString (n : Int) : Plain (toString n) := by
  cases n with
  | ofNat n => exact plain_natToString n
  | negSucc n => exact Plain.append (by decide) (plain_natToString (n + 1))

theorem plain_zeros (n : Nat) : Plain (Decimal.zeros n) :=
  plain_ofList fun c hc => by
    obtain rfl : c = '0' := (List.mem_replicate.1 hc).2
    decide

theorem plain_decimal (d : Decimal) : Plain d.text := by
  have hdigits : Plain (toString d.digits) := plain_natToString d.digits
  have hpart (cs : List Char) (h : ∀ c ∈ cs, c ∈ (toString d.digits).toList) :
      Plain (String.ofList cs) := plain_ofList fun c hc => hdigits c (h c hc)
  have hexponent (n : Int) : Plain ("e" ++ toString n) :=
    Plain.append (by decide) (plain_intToString n)
  rw [Decimal.text]
  dsimp only
  split
  · exact (hdigits.append (plain_zeros _)).append (by decide)
  split
  · exact ((hpart _ fun _ => List.mem_of_mem_take).append (by decide)).append
      (hpart _ fun _ => List.mem_of_mem_drop)
  split
  · exact ((Plain.append (by decide) (plain_zeros _))).append hdigits
  · split
    · exact hexponent _
    next first heq =>
      rw [heq] at hpart
      rw [String.append_assoc]
      exact (hpart _ fun _ hc => hc).append (hexponent _)
    next first rest _ heq =>
      rw [heq] at hpart
      have hfirst := hpart [first] fun _ hc => List.mem_cons.2 (.inl (List.mem_singleton.1 hc))
      have hrest := hpart rest fun _ hc => List.mem_cons_of_mem first hc
      rw [String.append_assoc]
      exact ((hfirst.append (by decide)).append hrest).append (hexponent _)

theorem plain_double (x : Double) : Plain x.text := by
  rw [Double.text]
  split
  · rw [Double.nonFiniteText]
    split
    · decide
    · split <;> decide
  · have hsign : Plain (if x.negative then "-" else "") := by split <;> decide
    dsimp only
    split
    · exact hsign.append (by decide)
    · exact hsign.append (plain_decimal _)

end Numbers

section Case

theorem inert_ofNat {n : Nat} (h : 41 < n) : Inert (Char.ofNat n) := by
  have hcode : (Char.ofNat n).toNat = n ∨ (Char.ofNat n).toNat = 0 := by
    by_cases hvalid : n.isValidChar
    · rw [Char.ofNat, dif_pos hvalid]
      exact .inl rfl
    · rw [Char.ofNat, dif_neg hvalid]
      exact .inr rfl
  refine ⟨?_, ?_, ?_⟩ <;>
    (intro hc
     rw [hc] at hcode
     rcases hcode with hcode | hcode
     · exact absurd h (hcode ▸ by decide)
     · cases hcode)

/-- No run of code points leads to a quote or a parenthesis, nor does any expansion. -/
theorem inert_upperTables :
    (Casing.upperRuns.all fun r => 41 < r.first + r.offset) = true ∧
      (Casing.upperExpansions.all fun e => e.2.all (41 < ·)) = true := by
  decide +kernel

theorem inert_upperChar {c : Char} (h : Inert c) : ∀ d ∈ Casing.upperChar c, Inert d := by
  obtain ⟨hruns, hexpansions⟩ := inert_upperTables
  rw [Casing.upperChar]
  split
  next hascii =>
    have hall : ∀ n < 128, Inert (Char.ofNat n) → Inert (Char.ofNat n).toUpper := by decide
    have hupper := hall c.toNat hascii
    rw [Char.ofNat_toNat] at hupper
    simpa using hupper h
  next =>
    rw [Casing.mapping]
    split
    next points hpoints =>
      intro d hd
      obtain ⟨n, hn, rfl⟩ := List.mem_map.1 hd
      obtain ⟨before, after, htable, -⟩ := List.lookup_eq_some_iff.1 hpoints
      have hmem : (c.toNat, points) ∈ Casing.upperExpansions := by simp [htable]
      have hentry := List.all_eq_true.1 hexpansions _ hmem
      exact inert_ofNat (of_decide_eq_true (List.all_eq_true.1 hentry n hn))
    next =>
      split
      next point hpoint =>
        obtain ⟨r, hr, hmap⟩ := List.exists_of_findSome?_eq_some hpoint
        have hoffset := of_decide_eq_true (List.all_eq_true.1 hruns r hr)
        rw [Casing.Run.map?] at hmap
        split at hmap
        next hin =>
          cases hmap
          simpa using inert_ofNat (by omega)
        next => cases hmap
      next => simpa using h

theorem Plain.upper {s : String} (h : Plain s) : Plain (Text.upper s) :=
  plain_ofList fun d hd => by
    obtain ⟨c, hc, hd⟩ := List.mem_flatMap.1 hd
    exact inert_upperChar (h c hc) d hd

end Case

end Text

end EntityQuery
