/-!
Texts cut at their dots, and put together again.
-/

namespace EntityQuery.Dotted

/-- The pieces between dots. There is one piece more than there are dots. -/
def splitChars : List Char → List (List Char)
  | [] => [[]]
  | c :: rest =>
      if c = '.' then [] :: splitChars rest
      else
        match splitChars rest with
        | [] => [[c]]
        | piece :: pieces => (c :: piece) :: pieces

/-- The pieces of a text between its dots; the empty text is one empty piece. -/
def split (s : String) : List String := (splitChars s.toList).map String.ofList

/-- Pieces put together with dots. -/
def join (pieces : List String) : String := ".".intercalate pieces

/-- What stands before the first dot. -/
def head (s : String) : String := String.ofList (s.toList.takeWhile (· != '.'))

/-- What stands after the first dot, if there is one. -/
def rest? (s : String) : Option String :=
  match s.toList.dropWhile (· != '.') with
  | [] => none
  | _ :: rest => some (String.ofList rest)

theorem splitChars_ne_nil (cs : List Char) : splitChars cs ≠ [] := by
  cases cs with
  | nil => simp [splitChars]
  | cons c rest =>
      rw [splitChars]
      split
      · simp
      · split <;> simp

/-- The pieces with the dots between them are the text. -/
theorem intercalate_splitChars (cs : List Char) : ['.'].intercalate (splitChars cs) = cs := by
  induction cs with
  | nil => rfl
  | cons c rest ih =>
      rw [splitChars]
      cases hpieces : splitChars rest with
      | nil => exact absurd hpieces (splitChars_ne_nil rest)
      | cons piece pieces =>
          rw [hpieces] at ih
          split
          next hdot => rw [List.intercalate_cons_cons, ih, hdot]; rfl
          next => cases pieces <;> simpa [List.intercalate] using ih

/-- Putting together what has been cut gives the text back. -/
theorem join_split (s : String) : join (split s) = s := by
  refine String.toList_injective ?_
  rw [join, split, String.toList_intercalate, List.map_map]
  have hpieces : (splitChars s.toList).map (String.toList ∘ String.ofList) = splitChars s.toList := by
    simp
  rw [hpieces]
  exact intercalate_splitChars s.toList

theorem join_cons_cons (first second : String) (rest : List String) :
    join (first :: second :: rest) = first ++ "." ++ join (second :: rest) := by
  refine String.toList_injective ?_
  simp [join, String.toList_intercalate, List.intercalate]

theorem head_append {owner : String} (h : '.' ∉ owner.toList) (name : String) :
    head (owner ++ "." ++ name) = owner := by
  have hplain : ∀ c ∈ owner.toList, (c != '.') = true :=
    fun c hc => bne_iff_ne.2 fun hdot => h (hdot ▸ hc)
  rw [head, String.toList_append, String.toList_append, List.append_assoc,
    List.takeWhile_append_of_pos hplain]
  simp

theorem rest?_append {owner : String} (h : '.' ∉ owner.toList) (name : String) :
    rest? (owner ++ "." ++ name) = some name := by
  have hplain : ∀ c ∈ owner.toList, (c != '.') = true :=
    fun c hc => bne_iff_ne.2 fun hdot => h (hdot ▸ hc)
  rw [rest?, String.toList_append, String.toList_append, List.append_assoc,
    List.dropWhile_append_of_pos hplain]
  simp

end EntityQuery.Dotted
