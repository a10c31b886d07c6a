import EntityQuery.Proofs.Outcome
import EntityQuery.Render.Context

/-!
Reading literals back where a backslash stands for the character after it. Such a reader spends one
character on most of what it reads, and two on each quote and each backslash. What is written with
its quotes doubled and nothing else has no characters to spare for a backslash, so it is read back
exactly if it holds none.
-/

namespace EntityQuery

namespace Quoted

/-- Reads the inside of a literal and its closing quote: two quotes are a quote, and a backslash
with the character after it is that character. Answers what was read and what is left. -/
def readInside : List Char → Option (List Char × List Char)
  | [] => none
  | [c] => if c = '\'' then some ([], []) else none
  | c :: d :: rest =>
      if c = '\\' ∨ c = '\'' ∧ d = '\'' then (readInside rest).map fun r => (d :: r.1, r.2)
      else if c = '\'' then some ([], d :: rest)
      else (readInside (d :: rest)).map fun r => (c :: r.1, r.2)

/-- Reads a literal from its opening quote on. -/
def read : List Char → Option (List Char × List Char)
  | [] => none
  | c :: rest => if c = '\'' then readInside rest else none

variable {cs content after rest : List Char}

@[simp] theorem read_quote (cs : List Char) : read ('\'' :: cs) = readInside cs := rfl

/-- A quote that none follows is the closing one. -/
theorem readInside_quote (h : after.head? ≠ some '\'') :
    readInside ('\'' :: after) = some ([], after) := by
  cases after with
  | nil => rfl
  | cons d rest =>
      have hd : d ≠ '\'' := fun hd => h (by rw [hd]; rfl)
      simp [readInside, hd]

theorem readInside_doubled (cs : List Char) :
    readInside ('\'' :: '\'' :: cs) = (readInside cs).map fun r => ('\'' :: r.1, r.2) := by
  simp [readInside]

theorem readInside_escaped (c : Char) (cs : List Char) :
    readInside ('\\' :: c :: cs) = (readInside cs).map fun r => (c :: r.1, r.2) := by
  simp [readInside]

theorem readInside_plain {c : Char} (hquote : c ≠ '\'') (hbackslash : c ≠ '\\')
    (cs : List Char) : readInside (c :: cs) = (readInside cs).map fun r => (c :: r.1, r.2) := by
  cases cs with
  | nil => simp [readInside, hquote]
  | cons d rest => simp [readInside, hquote, hbackslash]

/-- A quote and a backslash differ, so no character counts as both. -/
theorem count_cons_le (c : Char) (cs : List Char) :
    (c :: cs).count '\'' + (c :: cs).count '\\' ≤ cs.count '\'' + cs.count '\\' + 1 := by
  rw [List.count_cons, List.count_cons]
  by_cases hc : c = '\''
  · simp [hc]
    omega
  · simp [hc]
    split <;> omega

theorem count_cons_plain {c : Char} (hquote : c ≠ '\'') (hbackslash : c ≠ '\\')
    (cs : List Char) :
    (c :: cs).count '\'' + (c :: cs).count '\\' = cs.count '\'' + cs.count '\\' := by
  rw [List.count_cons_of_ne hquote, List.count_cons_of_ne hbackslash]

/-- Each character that is read costs one that is written, each quote and backslash costs two, and
the closing quote costs one. -/
theorem readInside_cost (h : readInside cs = some (content, rest)) :
    content.length + (content.count '\'' + content.count '\\') + 1 + rest.length ≤ cs.length := by
  induction cs using readInside.induct generalizing content with
  | case1 => cases h
  | case2 =>
      cases h
      exact Nat.le_refl 1
  | case3 c hc =>
      rw [readInside, if_neg hc] at h
      cases h
  | case4 c d left hpair ih =>
      rw [readInside, if_pos hpair] at h
      obtain ⟨⟨inner, _⟩, hinner, hread⟩ := Option.map_eq_some_iff.1 h
      cases hread
      have hcost := ih hinner
      have hcount := count_cons_le d inner
      simp only [List.length_cons] at hcost ⊢
      omega
  | case5 d left hpair =>
      rw [readInside, if_neg hpair, if_pos rfl] at h
      cases h
      exact Nat.le_of_eq (Nat.add_comm 1 _)
  | case6 c d left hpair hc ih =>
      rw [readInside, if_neg hpair, if_neg hc] at h
      obtain ⟨⟨inner, _⟩, hinner, hread⟩ := Option.map_eq_some_iff.1 h
      cases hread
      have hcost := ih hinner
      have hcount := count_cons_plain hc (fun hbackslash => hpair (.inl hbackslash)) inner
      simp only [List.length_cons] at hcost ⊢
      omega

theorem length_double (cs : List Char) : (double cs).length = cs.length + cs.count '\'' := by
  induction cs with
  | nil => rfl
  | cons c cs ih =>
      rw [double]
      split
      next hc =>
        rw [hc, List.count_cons_self, List.length_cons, List.length_cons, List.length_cons, ih]
        omega
      next hc =>
        rw [List.count_cons_of_ne hc, List.length_cons, List.length_cons, ih]
        omega

/-- What holds no backslash is read back from its doubled form. -/
theorem readInside_double (hcs : '\\' ∉ cs) (h : after.head? ≠ some '\'') :
    readInside (double cs ++ '\'' :: after) = some (cs, after) := by
  induction cs with
  | nil => exact readInside_quote h
  | cons c cs ih =>
      rw [List.mem_cons, not_or] at hcs
      obtain ⟨hbackslash, hrest⟩ := hcs
      rw [double]
      split
      next hc =>
        rw [hc, List.cons_append, List.cons_append, readInside_doubled, ih hrest]
        rfl
      next hc =>
        rw [List.cons_append, readInside_plain hc (Ne.symm hbackslash), ih hrest]
        rfl

/-- There is nothing to double where there are no quotes. -/
theorem double_of_not_mem (hcs : '\'' ∉ cs) : double cs = cs := by
  induction cs with
  | nil => rfl
  | cons c cs ih =>
      rw [List.mem_cons, not_or] at hcs
      obtain ⟨hquote, hrest⟩ := hcs
      rw [double, if_neg (Ne.symm hquote), ih hrest]

/-- The doubled form is read back exactly if there is no backslash in it. -/
theorem readInside_double_iff (h : after.head? ≠ some '\'') :
    readInside (double cs ++ '\'' :: after) = some (cs, after) ↔ '\\' ∉ cs := by
  refine ⟨fun hread => ?_, fun hcs => readInside_double hcs h⟩
  have hcost := readInside_cost hread
  rw [List.length_append, List.length_cons, length_double] at hcost
  exact List.count_eq_zero.1 (by omega)

/-- What is written as it is is read back exactly if it holds neither quotes nor backslashes. -/
theorem readInside_raw_iff (h : after.head? ≠ some '\'') :
    readInside (cs ++ '\'' :: after) = some (cs, after) ↔ '\'' ∉ cs ∧ '\\' ∉ cs := by
  constructor
  · intro hread
    have hcost := readInside_cost hread
    rw [List.length_append, List.length_cons] at hcost
    exact ⟨List.count_eq_zero.1 (by omega), List.count_eq_zero.1 (by omega)⟩
  · rintro ⟨hquote, hbackslash⟩
    rw [← readInside_double_iff h, double_of_not_mem hquote] at hbackslash
    exact hbackslash

theorem toList_literal (s : String) : (literal s).toList = '\'' :: (double s.toList ++ ['\'']) := by
  simp [literal]

/-- A literal is read back exactly if there is no backslash in its text. -/
theorem read_literal_iff (s : String) (h : after.head? ≠ some '\'') :
    read ((literal s).toList ++ after) = some (s.toList, after) ↔ '\\' ∉ s.toList := by
  rw [toList_literal, List.cons_append, List.append_assoc, read_quote]
  exact readInside_double_iff h

/-- An escape character is read back, also if it is a quote or a backslash. -/
theorem read_escapeCharacter (c : Char) (h : after.head? ≠ some '\'') :
    read ((Dialect.eclipseLinkCapabilities.escapeCharacter c).toList ++ after) =
      some ([c], after) := by
  by_cases hc : c = '\\'
  · have htext : (Dialect.eclipseLinkCapabilities.escapeCharacter c).toList =
        ['\'', '\\', '\\', '\''] := by
      rw [hc]
      decide
    rw [htext, hc]
    simp only [List.cons_append, List.nil_append, read_quote, readInside_escaped,
      readInside_quote h, Option.map_some]
  · have htext : Dialect.eclipseLinkCapabilities.escapeCharacter c =
        literal (String.singleton c) := if_neg hc
    have hread := (read_literal_iff (String.singleton c) h).2 (by simpa using Ne.symm hc)
    rw [String.toList_singleton] at hread
    rwa [htext]

end Quoted

/-- The call of a registered function opens with its name between quotes. Behind it stands a comma
or the closing parenthesis, but no quote. -/
theorem RenderContext.operator_invocation {ctx : RenderContext} {name : String} {count : Nat}
    {args : List (List Token)} {tokens : List Token} (hdialect : ctx.dialect = .eclipseLink)
    (hregistered : ctx.functions.contains name = true) (hcount : count ≤ 1 → args = [])
    (h : ctx.invocation name count (.ok args) = .ok tokens) :
    ∃ tail : List Char, (∀ after, (tail ++ after).head? ≠ some '\'') ∧
      (tokensText .eclipseLink tokens).toList =
        "OPERATOR(".toList ++ '\'' :: (name.toList ++ '\'' :: tail) := by
  rw [invocation, if_pos hregistered, ok_bind, pure_eq_ok] at h
  subst h
  rw [tokensText, Token.text, capabilities, hdialect, String.toList_append]
  by_cases hargs : 1 < count
  · refine ⟨',' :: (tokensText .eclipseLink
      (Token.joined [Token.comma] args ++ [.mark .closeParen])).toList, fun after => by simp, ?_⟩
    simp [Dialect.capabilities, Dialect.eclipseLinkCapabilities, hargs]
  · refine ⟨[')'], fun after => by simp, ?_⟩
    have hempty := hcount (Nat.not_lt.1 hargs)
    simp [Dialect.capabilities, Dialect.eclipseLinkCapabilities, hargs, hempty, Token.joined,
      tokensText, Token.text, Mark.text]

/-- Which literals are read back where a backslash stands for the character after it: texts without
a backslash, all escape characters, and names of registered functions without quotes and
backslashes. -/
theorem Quoted.eclipseLink_read_back_iff (after : List Char) (h : after.head? ≠ some '\'') :
    (∀ s : String, read ((Token.text .eclipseLink (.string s)).toList ++ after) =
        some (s.toList, after) ↔ '\\' ∉ s.toList) ∧
    (∀ ts : List Token, read ((Token.text .eclipseLink (.quoted ts)).toList ++ after) =
        some ((tokensText .eclipseLink ts).toList, after) ↔
      '\\' ∉ (tokensText .eclipseLink ts).toList) ∧
    (∀ c : Char, read ((Token.text .eclipseLink (.escapeCharacter c)).toList ++ after) =
      some ([c], after)) ∧
    ∀ (ctx : RenderContext) (name : String) (count : Nat) (args : List (List Token))
      (tokens : List Token), ctx.dialect = .eclipseLink → ctx.functions.contains name = true →
      (count ≤ 1 → args = []) → ctx.invocation name count (.ok args) = .ok tokens →
      ∃ tail : List Char,
        (tokensText .eclipseLink tokens).toList =
          "OPERATOR(".toList ++ '\'' :: (name.toList ++ '\'' :: tail) ∧
        (read ('\'' :: (name.toList ++ '\'' :: (tail ++ after))) =
            some (name.toList, tail ++ after) ↔ '\'' ∉ name.toList ∧ '\\' ∉ name.toList) := by
  refine ⟨fun s => ?_, fun ts => ?_, fun c => ?_, ?_⟩
  · rw [Token.text]
    exact read_literal_iff s h
  · rw [Token.text]
    exact read_literal_iff (tokensText .eclipseLink ts) h
  · rw [Token.text]
    exact read_escapeCharacter c h
  · intro ctx name count args tokens hdialect hregistered hcount hinvocation
    obtain ⟨tail, htail, htext⟩ :=
      RenderContext.operator_invocation hdialect hregistered hcount hinvocation
    refine ⟨tail, htext, ?_⟩
    rw [read_quote]
    exact readInside_raw_iff (htail after)

/-- A text with a quote and a name are read back, and so is a backslash as an escape character. -/
theorem Quoted.eclipseLink_read_back_unaccent :
    [' '].head? ≠ some '\'' ∧
      read ((Token.text .eclipseLink (.string "O'Neill")).toList ++ [' ']) =
        some ("O'Neill".toList, [' ']) ∧
      read ((Token.text .eclipseLink (.escapeCharacter '\\')).toList ++ [' ']) =
        some (['\\'], [' ']) ∧
      ∃ tail : List Char,
        (tokensText .eclipseLink [.raw "OPERATOR('unaccent',", .name "p", .mark .closeParen]).toList =
            "OPERATOR(".toList ++ '\'' :: ("unaccent".toList ++ '\'' :: tail) ∧
          read ('\'' :: ("unaccent".toList ++ '\'' :: (tail ++ [' ']))) =
            some ("unaccent".toList, tail ++ [' ']) := by
  have hafter : [' '].head? ≠ some '\'' := by decide
  obtain ⟨hstrings, -, hescapes, hnames⟩ := eclipseLink_read_back_iff [' '] hafter
  obtain ⟨tail, htext, hread⟩ :=
    hnames { dialect := .eclipseLink, functions := ⟨["unaccent"]⟩ } "unaccent" 2 [[.name "p"]]
      [.raw "OPERATOR('unaccent',", .name "p", .mark .closeParen] rfl (by decide) (by decide) rfl
  exact ⟨hafter, (hstrings "O'Neill").2 (by decide), hescapes '\\', tail, htext,
    hread.2 (by decide)⟩

/-- A backslash swallows the closing quote, and a quote in a name closes it too early. -/
theorem Quoted.not_eclipseLink_read_back_backslash :
    (¬∀ (s : String) (after : List Char), after.head? ≠ some '\'' →
      read ((Token.text .eclipseLink (.string s)).toList ++ after) = some (s.toList, after)) ∧
    ¬∀ (name : String) (after : List Char),
      read ((Dialect.eclipseLinkCapabilities.invocation name 2).toList.drop 9 ++ after) =
        some (name.toList, ',' :: after) := by
  refine ⟨fun hclaim => ?_, fun hclaim => ?_⟩
  · have hread := hclaim "\\" [] (by decide)
    rw [Token.text] at hread
    revert hread
    decide
  · have hread := hclaim "a'b" []
    revert hread
    decide

end EntityQuery
