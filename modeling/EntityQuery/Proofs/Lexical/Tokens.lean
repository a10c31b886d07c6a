import EntityQuery.Proofs.Lexical.Scan
import EntityQuery.Proofs.Rewriting.Agreement

/-!
Tokens whose text is balanced: literals and parentheses that begin in it end in it. What is put
together from balanced parts is balanced, clause by clause; a call of a function opens with a
parenthesis that the writer closes.
-/

namespace EntityQuery

open Token (parenthesized spaced listSeparator joined)

theorem Keyword.plain_text (word : Keyword) : Text.Plain word.text := by
  cases word <;> decide

theorem Mark.plain_text {m : Mark} (h : m ≠ .openParen ∧ m ≠ .closeParen) : Text.Plain m.text := by
  cases m with
  | openParen => exact absurd rfl h.1
  | closeParen => exact absurd rfl h.2
  | _ => decide

namespace Token

/-- Whether a token is no parenthesis, and has a plain text where its text is chosen freely. -/
def Plain : Token → Prop
  | .name s | .parameter s | .function s | .raw s => Text.Plain s
  | .mark m => m ≠ .openParen ∧ m ≠ .closeParen
  | .keyword _ | .space | .booleanValue _ | .booleanCondition _ | .nullValue | .nullComparison _
  | .escapeCharacter _ | .conditionKeyword | .integer _ | .float _ | .string _ | .quoted _ => True

/-- The fixed words of a dialect, and its literals, are balanced. -/
theorem Plain.opens {t : Token} (h : t.Plain) (d : Dialect) : Text.Opens 0 (t.text d) := by
  have hquoted (s : String) : Text.Opens 0 (d.capabilities.quoted s) := by
    cases d <;> exact Text.opens_literal s
  cases t with
  | name s | function s | raw s => exact Text.Plain.opens h
  | parameter s => exact Text.Plain.opens (Text.Plain.append (by decide) h)
  | keyword word => exact word.plain_text.opens
  | mark m => exact (Mark.plain_text h).opens
  | space => exact Text.Plain.opens (s := " ") (by decide)
  | booleanValue b | booleanCondition b =>
      exact Text.Plain.opens (by cases d <;> cases b <;> decide)
  | nullComparison negated => exact Text.Plain.opens (by cases d <;> cases negated <;> decide)
  | conditionKeyword => exact Text.Plain.opens (by cases d <;> decide)
  | nullValue => cases d <;> exact fun _ => rfl
  | escapeCharacter c =>
      cases d with
      | eclipseLink =>
          rw [text, Dialect.capabilities, Dialect.eclipseLinkCapabilities]
          dsimp only
          split
          · exact fun _ => rfl
          · exact Text.opens_literal _
      | _ => exact Text.opens_literal _
  | integer n => exact Text.Plain.opens (Text.plain_intToString n.toInt)
  | float x => exact Text.Plain.opens (Text.plain_double x)
  | string s => exact hquoted s
  | quoted tokens => exact hquoted (tokensText d tokens)

end Token

/-- Whether everything that begins in the text of tokens ends in it. -/
def Balanced (d : Dialect) (ts : List Token) : Prop := Text.Opens 0 (tokensText d ts)

namespace Balanced

variable {d : Dialect} {ts us : List Token}

theorem nil : Balanced d [] := Text.Plain.opens Text.plain_empty

theorem append (h : Balanced d ts) (h' : Balanced d us) : Balanced d (ts ++ us) := by
  rw [Balanced, tokensText_append]
  exact Text.Opens.append h h'

theorem cons {t : Token} (ht : t.Plain) (h : Balanced d ts) : Balanced d (t :: ts) :=
  Text.Opens.append (ht.opens d) h

theorem of_plain (h : ∀ t ∈ ts, t.Plain) : Balanced d ts := by
  induction ts with
  | nil => exact nil
  | cons t rest ih =>
      rw [List.forall_mem_cons] at h
      exact cons h.1 (ih h.2)

/-- A text that is left open is closed by a parenthesis. -/
theorem closed {t : Token} (ht : Text.Opens 1 (t.text d)) (h : Balanced d ts) :
    Balanced d (t :: (ts ++ [.mark .closeParen])) := by
  have htext : tokensText d (t :: (ts ++ [.mark .closeParen])) =
      (t.text d ++ tokensText d ts) ++ ")" := by
    simp [tokensText, tokensText_append, Token.text, Mark.text, String.append_assoc]
  rw [Balanced, htext]
  exact (ht.append h).close

theorem parenthesized (h : Balanced d ts) : Balanced d (parenthesized ts) :=
  closed Text.opens_openParen h

/-- What may be left out. -/
theorem optional {p : Prop} [Decidable p] (h : Balanced d ts) :
    Balanced d (if p then ts else []) := by
  split
  · exact h
  · exact nil

theorem joined {separator : List Token} (hseparator : Balanced d separator)
    {parts : List (List Token)} (h : ∀ part ∈ parts, Balanced d part) :
    Balanced d (joined separator parts) := by
  induction parts with
  | nil => exact nil
  | cons first rest ih =>
      obtain ⟨hfirst, hrest⟩ := List.forall_mem_cons.1 h
      cases rest with
      | nil => simpa [Token.joined] using hfirst
      | cons second rest =>
          have hjoined := hfirst.append (hseparator.append (ih hrest))
          simpa [Token.joined] using hjoined

theorem listed {parts : List (List Token)} (h : ∀ part ∈ parts, Balanced d part) :
    Balanced d (Token.joined listSeparator parts) :=
  joined (of_plain (by simp [listSeparator, Token.comma, Token.Plain])) h

theorem spaced (word : Keyword) : Balanced d (spaced word) :=
  of_plain (by simp [Token.spaced, Token.Plain])

theorem negation (negated : Bool) : Balanced d (negation negated) :=
  of_plain (by cases negated <;> simp [EntityQuery.negation, Token.Plain])

theorem parenthesizeLooser (h : Balanced d ts) (precedence : Nat) (operand : Expr) :
    Balanced d (parenthesizeLooser precedence operand ts) := by
  rw [EntityQuery.parenthesizeLooser.eq_def]
  split
  · split
    · exact h.parenthesized
    · exact h
  · exact h

theorem clauseTokens (word : Keyword) {content : Option (List Token)}
    (h : ∀ ts ∈ content, Balanced d ts) : Balanced d (clauseTokens word content) := by
  cases content with
  | none => exact nil
  | some ts => exact (spaced word).append (h ts rfl)

theorem listClauseTokens (word : Keyword) {items : List (List Token)}
    (h : ∀ ts ∈ items, Balanced d ts) : Balanced d (listClauseTokens word items) := by
  rw [EntityQuery.listClauseTokens]
  split
  · exact nil
  · exact (spaced word).append (listed h)

theorem callTokens {function : String} (hfunction : Text.Plain function) (distinct : Bool)
    {args : List (List Token)} (h : ∀ ts ∈ args, Balanced d ts) :
    Balanced d (callTokens function distinct args) :=
  cons (t := .function function) hfunction (parenthesized
    ((optional (of_plain (by simp [Token.Plain]))).append (listed h)))

theorem orderTokens (direction : SortDirection) (nulls : Option NullsOrder) :
    Balanced d (OrderItem.orderTokens direction nulls) :=
  of_plain (by cases nulls <;> simp [OrderItem.orderTokens, Token.Plain])

theorem nativeTokens (operator : Option SetOperator) {members orders : List (List Token)}
    (hmembers : ∀ ts ∈ members, Balanced d ts) (horders : ∀ ts ∈ orders, Balanced d ts) :
    Balanced d (nativeTokens operator members orders) := by
  have horder : Balanced d (if orders.isEmpty then []
      else Token.spaced .ORDER_BY ++ Token.joined listSeparator orders) := by
    split
    · exact nil
    · exact (spaced _).append (listed horders)
  refine (joined ?_ hmembers).append horder
  cases operator with
  | none => exact nil
  | some op => cases op <;> exact of_plain (by simp [SetOperator.tokens, SetOperator.keepsAll, Token.Plain])

end Balanced

/-- However the call of a function opens, it opens one parenthesis. -/
theorem Dialect.opens_invocation (d : Dialect) {name : String} (h : Text.Plain name) (count : Nat) :
    Text.Opens 1 (d.capabilities.invocation name count) := by
  cases d with
  | eclipseLink =>
      -- The name stands in a literal there, which a comma may follow.
      have hoperator : Text.Opens 1 ("OPERATOR('" ++ name ++ "'") := by
        intro depth
        have hopened : Scan.run ⟨false, depth⟩ "OPERATOR('".toList = some ⟨true, depth + 1⟩ := rfl
        rw [String.toList_append, String.toList_append, Scan.run_append, Scan.run_append, hopened,
          Option.bind_some, Scan.run_of_inert h, Option.bind_some]
        rfl
      rw [capabilities, eclipseLinkCapabilities]
      dsimp only
      split
      · have hcomma : "'," = "'" ++ "," := rfl
        rw [hcomma, ← String.append_assoc]
        exact Text.Opens.append hoperator (Text.Plain.opens (s := ",") (by decide))
      · exact hoperator
  | _ => exact Text.Opens.append h.opens Text.opens_openParen

theorem Dialect.plain_mapValueFunction (d : Dialect) :
    ∀ function ∈ d.capabilities.mapValueFunction, Text.Plain function := by
  cases d <;> decide

/-- A call is balanced if its name is plain and its arguments are balanced. -/
theorem RenderContext.balanced_invocation {ctx : RenderContext} {name : String}
    (h : Text.Plain name) (count : Nat) {args : Except QueryError (List (List Token))}
    (hargs : Yields (fun written => ∀ ts ∈ written, Balanced ctx.dialect ts) args) :
    Yields (Balanced ctx.dialect) (ctx.invocation name count args) := by
  have hcomma : Balanced ctx.dialect [Token.comma] :=
    .of_plain (by simp [Token.comma, Token.Plain])
  rw [invocation]
  split
  · exact hargs.bind fun _ hwritten => .ok
      (.closed (ctx.dialect.opens_invocation h count) (.joined hcomma hwritten))
  · split
    · refine hargs.bind fun _ hwritten => .ok
        (.cons (by decide : Text.Plain "FUNCTION") (.parenthesized (.joined hcomma ?_)))
      exact List.forall_mem_cons.2 ⟨.of_plain (by simp [Token.Plain]), hwritten⟩
    · exact .error _

namespace FunctionForm

mutual

/-- Whether the queries in a function form are balanced, and its functions have plain names. The
items of an order stand in literals. -/
def Balanced (d : Dialect) : FunctionForm → Prop
  | level ts => EntityQuery.Balanced d ts
  | word _ | order _ | number _ => True
  | call f args => Text.Plain f ∧ BalancedList d args

def BalancedList (d : Dialect) : List FunctionForm → Prop
  | [] => True
  | form :: rest => form.Balanced d ∧ BalancedList d rest

end

theorem balancedList_iff {d : Dialect} {forms : List FunctionForm} :
    BalancedList d forms ↔ ∀ form ∈ forms, form.Balanced d := by
  induction forms with
  | nil => simp [BalancedList]
  | cons form rest ih => rw [BalancedList, ih, List.forall_mem_cons]

variable {ctx : RenderContext}

mutual

theorem balanced_tokens : ∀ form : FunctionForm, form.Balanced ctx.dialect →
    Yields (EntityQuery.Balanced ctx.dialect) (form.tokens ctx)
  | level _, h => .ok h
  | word _, _ => .ok (.of_plain (by simp [Token.Plain]))
  | order _, _ => .ok (.of_plain (by simp [Token.Plain]))
  | number _, _ => .ok (.of_plain (by simp [Token.Plain]))
  | call _ args, ⟨hf, hargs⟩ =>
      RenderContext.balanced_invocation hf _ (balanced_tokensList args hargs)

theorem balanced_tokensList : ∀ forms : List FunctionForm, BalancedList ctx.dialect forms →
    Yields (fun written => ∀ ts ∈ written, EntityQuery.Balanced ctx.dialect ts)
      (tokensList ctx forms)
  | [], _ => .ok (by simp)
  | form :: rest, ⟨hform, hrest⟩ =>
      (balanced_tokens form hform).bind fun _ hts => (balanced_tokensList rest hrest).bind
        fun _ hwritten => .ok (List.forall_mem_cons.2 ⟨hts, hwritten⟩)

end

variable {d : Dialect}

theorem Balanced.limited {f : FunctionForm} (h : f.Balanced d) (limits : Limits) :
    Yields (Balanced d) (limited f limits) := by
  have hname : Text.Plain "LIMIT" := by decide
  rw [FunctionForm.limited]
  split
  · exact .ok h
  · exact .error _
  · exact .ok ⟨hname, h, trivial, trivial⟩
  · exact .ok ⟨hname, h, trivial, trivial, trivial⟩

theorem balanced_combined (operator : SetOperator) {members : List FunctionForm}
    (h : ∀ form ∈ members, form.Balanced d) (orders : List (List Token)) (limits : Limits) :
    (combined operator members orders limits).Balanced d := by
  refine ⟨by cases operator <;> decide, balancedList_iff.2 ?_⟩
  rw [List.forall_mem_append, List.forall_mem_append]
  refine ⟨⟨h, ?_⟩, ?_⟩
  · cases orders with
    | nil => simp [orderArguments]
    | cons first rest => simp [orderArguments, Balanced]
  · obtain ⟨first, max⟩ := limits
    cases first <;> cases max <;> simp [limitArguments, Balanced]

end FunctionForm

end EntityQuery
