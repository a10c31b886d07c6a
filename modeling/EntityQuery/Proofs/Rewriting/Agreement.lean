import EntityQuery.Proofs.Outcome
import EntityQuery.Render.Tokens

/-!
Two runs that agree: both yield values that correspond, or both fail. What is put together from
parts in the same way agrees if the parts do, so the agreement of two texts is shown clause by
clause.
-/

namespace EntityQuery

open Token (parenthesized listSeparator joined)

section Agree

variable {ε α β γ δ : Type} {exact : Prop} {r : α → β → Prop} {s : γ → δ → Prop}

/-- Both outcomes are values that correspond, or both are errors: the same error if `exact`. -/
inductive Agree (exact : Prop) (r : α → β → Prop) : Except ε α → Except ε β → Prop
  | ok {a b} (h : r a b) : Agree exact r (.ok a) (.ok b)
  | error {e e'} (h : exact → e' = e) : Agree exact r (.error e) (.error e')

namespace Agree

theorem error_same (e : ε) : Agree exact r (.error e : Except ε α) (.error e) := .error fun _ => rfl

theorem of_eq {r : α → α → Prop} (hr : ∀ a, r a a) {x y : Except ε α} (h : y = x) :
    Agree exact r x y := by
  subst h
  cases y with
  | ok a => exact .ok (hr a)
  | error e => exact error_same e

theorem imp {r' : α → β → Prop} {x : Except ε α} {y : Except ε β} (h : Agree exact r x y)
    (hr : ∀ a b, r a b → r' a b) : Agree exact r' x y := by
  cases h with
  | ok h => exact .ok (hr _ _ h)
  | error h => exact .error h

theorem bind {x : Except ε α} {y : Except ε β} {f : α → Except ε γ} {g : β → Except ε δ}
    (h : Agree exact r x y) (hf : ∀ a b, r a b → Agree exact s (f a) (g b)) :
    Agree exact s (x >>= f) (y >>= g) := by
  cases h with
  | ok h => exact hf _ _ h
  | error h => exact .error h

/-- What follows a step that yields the same on both sides. -/
theorem bind_of_eq {x y : Except ε α} {f : α → Except ε γ} {g : α → Except ε δ} (h : y = x)
    (hf : ∀ a, Agree exact s (f a) (g a)) : Agree exact s (x >>= f) (y >>= g) := by
  subst h
  exact (of_eq (r := Eq) (fun _ => rfl) rfl).bind fun a b hab => hab ▸ hf a

theorem map {x : Except ε α} {y : Except ε β} {f : α → γ} {g : β → δ} (h : Agree exact r x y)
    (hf : ∀ a b, r a b → s (f a) (g b)) : Agree exact s (x.map f) (y.map g) := by
  cases h with
  | ok h => exact .ok (hf _ _ h)
  | error h => exact .error h

/-- Two checks that let the same things through. -/
theorem guard {p : Bool} {e e' : ε} (he : exact → e' = e) {x : Except ε α} {y : Except ε β}
    (h : p = false → Agree exact r x y) :
    Agree exact r (if p then .error e else x) (if p then .error e' else y) := by
  cases p with
  | true => exact .error he
  | false => exact h rfl

theorem mapM {f : α → Except ε γ} {g : β → Except ε δ} {as : List α} {bs : List β}
    (h : List.Forall₂ (fun a b => Agree exact s (f a) (g b)) as bs) :
    Agree exact (List.Forall₂ s) (as.mapM f) (bs.mapM g) := by
  induction h with
  | nil => exact .ok .nil
  | cons hab _ ih =>
      rw [List.mapM_cons, List.mapM_cons]
      exact hab.bind fun _ _ hfirst => ih.bind fun _ _ hrest => .ok (.cons hfirst hrest)

theorem mapM_map {f : α → Except ε γ} {g : β → Except ε δ} {φ : α → β} {as : List α}
    (h : ∀ a ∈ as, Agree exact s (f a) (g (φ a))) :
    Agree exact (List.Forall₂ s) (as.mapM f) ((as.map φ).mapM g) :=
  mapM (List.forall₂_map_right_iff.2 (List.forall₂_same.2 h))

/-- Exact agreement on equal values is equality. -/
theorem eq {x y : Except ε α} (h : Agree True Eq x y) : x = y := by
  cases h with
  | ok h => rw [h]
  | error h => rw [h trivial]

theorem exists_ok {x : Except ε α} {y : Except ε β} (h : Agree exact r x y) {a : α}
    (ha : x = .ok a) : ∃ b, y = .ok b ∧ r a b := by
  subst ha
  cases h with
  | ok h => exact ⟨_, rfl, h⟩

theorem exists_ok_left {x : Except ε α} {y : Except ε β} (h : Agree exact r x y) {b : β}
    (hb : y = .ok b) : ∃ a, x = .ok a ∧ r a b := by
  subst hb
  cases h with
  | ok h => exact ⟨_, rfl, h⟩

end Agree

theorem rel_getElem? {as : List α} {bs : List β} (h : List.Forall₂ r as bs) (i : Nat) :
    Option.Rel r as[i]? bs[i]? := by
  induction h generalizing i with
  | nil => exact .none
  | cons hab _ ih =>
      cases i with
      | zero => exact .some hab
      | succ i => exact ih i

end Agree

section SameText

variable {d : Dialect} {ts ts' us us' : List Token}

theorem tokensText_append (d : Dialect) (ts us : List Token) :
    tokensText d (ts ++ us) = tokensText d ts ++ tokensText d us := by
  induction ts with
  | nil => simp [tokensText]
  | cons t rest ih => rw [List.cons_append, tokensText, tokensText, ih, String.append_assoc]

/-- Two lists of tokens with the same text in a dialect. -/
def SameText (d : Dialect) (ts ts' : List Token) : Prop := tokensText d ts = tokensText d ts'

namespace SameText

theorem refl (ts : List Token) : SameText d ts ts := rfl

theorem of_eq (h : ts = ts') : SameText d ts ts' := h ▸ refl ts

theorem append (h : SameText d ts ts') (h' : SameText d us us') :
    SameText d (ts ++ us) (ts' ++ us') := by
  rw [SameText, tokensText_append, tokensText_append, h, h']

theorem cons (t : Token) (h : SameText d ts ts') : SameText d (t :: ts) (t :: ts') :=
  append (refl [t]) h

theorem parenthesized (h : SameText d ts ts') :
    SameText d (parenthesized ts) (Token.parenthesized ts') :=
  (h.append (refl _)).cons _

/-- The same parts in the same order, with the same separator. -/
theorem joined (separator : List Token) {parts parts' : List (List Token)}
    (h : List.Forall₂ (SameText d) parts parts') :
    SameText d (joined separator parts) (Token.joined separator parts') := by
  induction h with
  | nil => exact refl _
  | cons hfirst hrest ih =>
      cases hrest with
      | nil => simpa [Token.joined] using hfirst
      | cons hsecond hrest =>
          have hrest := hfirst.append ((refl separator).append ih)
          simpa [Token.joined] using hrest

/-- An operand looks at its expression alone to see whether it needs parentheses. -/
theorem parenthesizeLooser (h : SameText d ts ts') (precedence : Nat) (e : Expr) :
    SameText d (parenthesizeLooser precedence e ts)
      (EntityQuery.parenthesizeLooser precedence e ts') := by
  rw [EntityQuery.parenthesizeLooser.eq_def, EntityQuery.parenthesizeLooser.eq_def]
  split
  · split
    · exact h.parenthesized
    · exact h
  · exact h

theorem quoted (h : SameText d ts ts') : SameText d [.quoted ts] [.quoted ts'] := by
  have htext : (Token.quoted ts).text d = (Token.quoted ts').text d := by
    rw [Token.text, Token.text, h]
  simp only [SameText, tokensText, htext]

theorem clauseTokens (word : Keyword) {content content' : Option (List Token)}
    (h : Option.Rel (SameText d) content content') :
    SameText d (clauseTokens word content) (EntityQuery.clauseTokens word content') := by
  cases h with
  | none => exact refl _
  | some h => exact (refl _).append h

theorem listClauseTokens (word : Keyword) {items items' : List (List Token)}
    (h : List.Forall₂ (SameText d) items items') :
    SameText d (listClauseTokens word items) (EntityQuery.listClauseTokens word items') := by
  rw [EntityQuery.listClauseTokens, EntityQuery.listClauseTokens]
  cases h with
  | nil => exact refl _
  | cons hfirst hrest => exact (refl _).append (joined _ (.cons hfirst hrest))

end SameText

end SameText

end EntityQuery
