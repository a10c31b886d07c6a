import Mathlib.Logic.Function.Iterate
import EntityQuery.Proofs.Rewriting.Agreement
import EntityQuery.Render.Tokens

/-!
What becomes of the content of a blank. In tokens it has one place: it is a text token there, or a
text token inside tokens that are quoted again. An outcome is settled if it is the same whatever the
content is, or a value with one place for the content.
-/

namespace EntityQuery

open Token (parenthesized joined)

namespace Quoted

/-- A text with each quote twice, as it stands inside a literal. -/
def doubled (s : String) : String := String.ofList (double s.toList)

theorem double_append (cs ds : List Char) : double (cs ++ ds) = double cs ++ double ds := by
  induction cs with
  | nil => rfl
  | cons c rest ih =>
      rw [List.cons_append, double, double, ih]
      split <;> rfl

theorem doubled_append (s t : String) : doubled (s ++ t) = doubled s ++ doubled t := by
  rw [doubled, String.toList_append, double_append, String.ofList_append]
  rfl

theorem doubled_iterate_append (n : Nat) (s t : String) :
    doubled^[n] (s ++ t) = doubled^[n] s ++ doubled^[n] t := by
  induction n generalizing s t with
  | zero => rfl
  | succ n ih => simp only [Function.iterate_succ_apply, doubled_append, ih]

end Quoted

/-- All dialects quote texts in the same way. -/
theorem Dialect.quoted_eq (d : Dialect) : d.capabilities.quoted = Quoted.literal := by
  cases d <;> rfl

/-- A list of tokens with a place for the content of a literal. -/
inductive Place where
  | literal (before after : List Token)
  | quoted (before : List Token) (inner : Place) (after : List Token)

namespace Place

/-- The tokens, with the content in its place. -/
def fill (content : String) : Place → List Token
  | literal before after => before ++ .string content :: after
  | quoted before inner after => before ++ .quoted (inner.fill content) :: after

/-- How many times the literal is quoted again. -/
def depth : Place → Nat
  | literal .. => 0
  | quoted _ inner _ => inner.depth + 1

/-- The place with more tokens on either side. -/
def extend (front back : List Token) : Place → Place
  | literal before after => literal (front ++ before) (after ++ back)
  | quoted before inner after => quoted (front ++ before) inner (after ++ back)

theorem fill_extend (front back : List Token) (place : Place) (content : String) :
    (place.extend front back).fill content = front ++ place.fill content ++ back := by
  cases place <;> simp [extend, fill]

/-- In the text, the content stands in a literal, whose quotes are doubled each time it is quoted
again. -/
theorem exists_text (d : Dialect) (place : Place) : ∃ pre post, ∀ content,
    tokensText d (place.fill content) =
      pre ++ Quoted.doubled^[place.depth] (Quoted.literal content) ++ post := by
  induction place with
  | literal before after =>
      refine ⟨tokensText d before, tokensText d after, fun content => ?_⟩
      rw [fill, tokensText_append, tokensText, Token.text, d.quoted_eq, String.append_assoc]
      rfl
  | quoted before inner after ih =>
      obtain ⟨pre, post, hinner⟩ := ih
      refine ⟨tokensText d before ++ "'" ++ Quoted.doubled pre,
        Quoted.doubled post ++ "'" ++ tokensText d after, fun content => ?_⟩
      have hliteral (s : String) : Quoted.literal s = "'" ++ Quoted.doubled s ++ "'" := rfl
      rw [fill, tokensText_append, tokensText, Token.text, d.quoted_eq, hinner, hliteral,
        Quoted.doubled_append, Quoted.doubled_append, depth, Function.iterate_succ_apply']
      simp only [String.append_assoc]

end Place

/-- Tokens that hold the content of a blank in one place. -/
def Holds (ts : String → List Token) : Prop :=
  ∃ place : Place, ∀ content, ts content = place.fill content

namespace Holds

variable {ts : String → List Token}

theorem literal : Holds fun content => [.string content] := ⟨.literal [] [], fun _ => rfl⟩

theorem surround (h : Holds ts) (front back : List Token) :
    Holds fun content => front ++ ts content ++ back := by
  obtain ⟨place, hplace⟩ := h
  refine ⟨place.extend front back, fun content => ?_⟩
  rw [place.fill_extend, ← hplace]

theorem append (h : Holds ts) (back : List Token) : Holds fun content => ts content ++ back :=
  h.surround [] back

theorem prepend (front : List Token) (h : Holds ts) : Holds fun content => front ++ ts content := by
  have hts := h.surround front []
  simpa only [List.append_nil] using hts

theorem cons (t : Token) (h : Holds ts) : Holds fun content => t :: ts content := h.prepend [t]

theorem parenthesized (h : Holds ts) : Holds fun content => parenthesized (ts content) :=
  (h.append _).cons _

theorem quoted (h : Holds ts) : Holds fun content => [.quoted (ts content)] := by
  obtain ⟨place, hplace⟩ := h
  refine ⟨.quoted [] place [], fun content => ?_⟩
  rw [Place.fill, List.nil_append, ← hplace]

end Holds

section Lists

variable {α β : Type}

@[simp] theorem isEmpty_append_cons (before after : List α) (a : α) :
    (before ++ a :: after).isEmpty = false := by
  cases before <;> rfl

/-- Lists that differ in one member, which is of the given kind. -/
def OneOf (r : (String → α) → Prop) (as : String → List α) : Prop :=
  ∃ before after a, r a ∧ ∀ content, as content = before ++ a content :: after

namespace OneOf

variable {r : (String → α) → Prop} {s : (String → β) → Prop} {as : String → List α}

theorem intro (before after : List α) {a : String → α} (h : r a) :
    OneOf r fun content => before ++ a content :: after :=
  ⟨before, after, a, h, fun _ => rfl⟩

theorem set {given : List α} {i : Nat} (hi : i < given.length) {a : String → α} (h : r a) :
    OneOf r fun content => given.set i (a content) := by
  simp only [List.set_eq_take_append_cons_drop, if_pos hi]
  exact intro _ _ h

theorem append (h : OneOf r as) (back : List α) : OneOf r fun content => as content ++ back := by
  obtain ⟨before, after, a, ha, has⟩ := h
  exact ⟨before, after ++ back, a, ha, fun content => by simp [has]⟩

theorem prepend (front : List α) (h : OneOf r as) : OneOf r fun content => front ++ as content := by
  obtain ⟨before, after, a, ha, has⟩ := h
  exact ⟨front ++ before, after, a, ha, fun content => by simp [has]⟩

theorem cons (first : α) (h : OneOf r as) : OneOf r fun content => first :: as content :=
  h.prepend [first]

theorem head {a : String → α} (h : r a) (rest : List α) :
    OneOf r fun content => a content :: rest :=
  intro [] rest h

theorem map {f : α → β} (h : OneOf r as) (hf : ∀ a, r a → s fun content => f (a content)) :
    OneOf s fun content => (as content).map f := by
  obtain ⟨before, after, a, ha, has⟩ := h
  exact ⟨before.map f, after.map f, _, hf a ha, fun content => by simp [has]⟩

theorem isEmpty (h : OneOf r as) (content : String) : (as content).isEmpty = false := by
  obtain ⟨before, after, a, -, has⟩ := h
  rw [has, isEmpty_append_cons]

end OneOf

end Lists

/-- Parts of which one holds the content, with separators between them. -/
theorem OneOf.joined {parts : String → List (List Token)} (h : OneOf Holds parts)
    (separator : List Token) : Holds fun content => joined separator (parts content) := by
  obtain ⟨before, after, ts, hts, hparts⟩ := h
  simp only [hparts]
  clear hparts
  induction before with
  | nil =>
      cases after with
      | nil => simpa [Token.joined] using hts
      | cons next rest =>
          have hrest := hts.append (separator ++ Token.joined separator (next :: rest))
          simpa [Token.joined] using hrest
  | cons first rest ih =>
      have hrest (content : String) :
          Token.joined separator ((first :: rest) ++ ts content :: after) =
            first ++ separator ++ Token.joined separator (rest ++ ts content :: after) := by
        cases rest <;> simp [Token.joined]
      simp only [hrest]
      exact ih.prepend _

theorem OneOf.flatten {parts : String → List (List Token)} (h : OneOf Holds parts) :
    Holds fun content => (parts content).flatten := by
  obtain ⟨before, after, ts, hts, hparts⟩ := h
  simp only [hparts, List.flatten_append, List.flatten_cons, ← List.append_assoc]
  exact hts.surround _ _

theorem OneOf.listClauseTokens {items : String → List (List Token)} (h : OneOf Holds items)
    (word : Keyword) : Holds fun content => listClauseTokens word (items content) := by
  simp only [EntityQuery.listClauseTokens, h.isEmpty, Bool.false_eq_true, if_false]
  exact (h.joined _).prepend _

theorem Holds.clauseTokens {ts : String → List Token} (h : Holds ts) (word : Keyword) :
    Holds fun content => clauseTokens word (some (ts content)) :=
  h.prepend _

section Outcomes

variable {ε α β : Type} {r : (String → α) → Prop} {s : (String → β) → Prop}

/-- Outcomes for all contents of a blank: the same one whatever the content, or values of the given
kind. -/
inductive Settled (r : (String → α) → Prop) (x : String → Except ε α) : Prop
  | same {y} (h : ∀ content, x content = y)
  | value {a} (hx : ∀ content, x content = .ok (a content)) (h : r a)

namespace Settled

theorem const (y : Except ε α) : Settled r fun _ => y := .same fun _ => rfl

theorem ok {a : String → α} (h : r a) : Settled r fun content => (.ok (a content) : Except ε α) :=
  .value (fun _ => rfl) h

theorem pure {a : String → α} (h : r a) :
    Settled r fun content => (Pure.pure (a content) : Except ε α) :=
  .value (fun _ => rfl) h

/-- What is done with the outcome does not depend on the content. -/
theorem bind {x : String → Except ε α} {f : α → Except ε β} (h : Settled r x)
    (hf : ∀ a, r a → Settled s fun content => f (a content)) :
    Settled s fun content => x content >>= f := by
  cases h with
  | same hx => exact .same fun content => by rw [hx]
  | value hx ha =>
      simp only [hx]
      exact hf _ ha

theorem map {x : String → Except ε α} {f : α → β} (h : Settled r x)
    (hf : ∀ a, r a → s fun content => f (a content)) :
    Settled s fun content => f <$> x content := by
  cases h with
  | same hx => exact .same fun content => by rw [hx]
  | value hx ha => exact .value (fun content => by rw [hx]; rfl) (hf _ ha)

/-- What is done before does not depend on the content. -/
theorem after (y : Except ε α) {f : String → α → Except ε β}
    (hf : ∀ a, Settled s fun content => f content a) :
    Settled s fun content => y >>= f content := by
  cases y with
  | error e => exact .same fun _ => rfl
  | ok a => exact hf a

theorem ite {x y : String → Except ε α} (p : Prop) [Decidable p] (hx : Settled r x)
    (hy : Settled r y) : Settled r fun content => if p then x content else y content := by
  split
  · exact hx
  · exact hy

/-- A walk over lists that differ in one member. -/
theorem mapM {f : α → Except ε β} {as : String → List α}
    (h : OneOf (fun a => Settled s fun content => f (a content)) as) :
    Settled (OneOf s) fun content => (as content).mapM f := by
  obtain ⟨before, after, a, ha, has⟩ := h
  simp only [has, List.mapM_append, List.mapM_cons]
  have hrest : Settled (OneOf s) fun content => f (a content) >>= fun b => do
      let back ← after.mapM f
      return b :: back :=
    ha.bind fun _ hb => .after _ fun back => .pure (.head hb back)
  exact .after _ fun front => hrest.bind fun _ hbs => .pure (hbs.prepend front)

/-- A walk over one list by functions that differ only where `x` is below a member, if it is there
once. -/
theorem mapM_of_count {γ : Type} [BEq γ] [LawfulBEq γ] {f : String → α → Except ε β}
    (below : α → List γ) (x : γ) (hsame : ∀ a, x ∉ below a → ∃ y, ∀ content, f content a = y)
    (hone : ∀ a, (below a).count x ≤ 1 → Settled s fun content => f content a) {as : List α}
    (hcount : (as.flatMap below).count x ≤ 1) :
    Settled (OneOf s) fun content => as.mapM (f content) := by
  induction as with
  | nil => exact .const _
  | cons a rest ih =>
      rw [List.flatMap_cons, List.count_append] at hcount
      simp only [List.mapM_cons]
      by_cases hbelow : x ∈ below a
      · have hpositive := List.count_pos_iff.2 hbelow
        have hnone : x ∉ rest.flatMap below := List.count_eq_zero.1 (by omega)
        have hrest (content : String) : rest.mapM (f content) = rest.mapM (f "") := by
          refine mapM_congr fun b hb => ?_
          obtain ⟨y, hy⟩ := hsame b fun h => hnone (List.mem_flatMap_of_mem hb h)
          rw [hy, hy]
        simp only [hrest]
        exact (hone a (by omega)).bind fun _ hb => .after _ fun back => .pure (.head hb back)
      · obtain ⟨y, hy⟩ := hsame a hbelow
        simp only [hy]
        exact .after y fun b => (ih (by omega)).bind fun _ hbs => .pure (hbs.cons b)

end Settled

end Outcomes

end EntityQuery
