import EntityQuery.Proofs.Written.Traces
import EntityQuery.Render.Statement

/-!
What is known of a text by looking at its statement. A query inside a statement that skips rows and
takes any number of them keeps the statement from being written, however deep it stands. The
parameters that a text binds are those that stand where the statement is written; a parameter that
stands elsewhere is reported all the same.
-/

namespace EntityQuery.Statement

open Token (mentions)

/-- No query inside a written statement skips rows without a bound. The limits of the statement
itself are reported beside the text, and those of a common table are refused whatever they are. -/
theorem not_succeeds_render_of_skipsOnly {s : Statement} {ctx : RenderContext} {q : Query}
    (hwritten : Written.query q ∈ s.written ctx.dialect) (hskips : q.SkipsOnly) :
    ¬Succeeds (s.render ctx) := by
  rintro ⟨r, hr⟩
  simp only [render, bind_eq_ok] at hr
  obtain ⟨level, hlevel, -⟩ := hr
  exact (traces_rendered hlevel).bounded (.query q) hwritten hskips

/-- The guests that come after the first five. -/
def lateGuests : SetOperation where
  start := .select (Select.addRoot {} "Guest" "g")
  limits := { first := some 5 }

/-- The people with whom nobody else and no late guest shares an office. -/
def alone : Statement :=
  .select (.select ((Select.addRoot {} "Person" "p").filter
    (.not (.call "EXISTS" [.subquery (.combined {
      operator := some .union
      start := .select (Select.addRoot {} "Person" "q")
      operands := [.combined lateGuests] })]))))

theorem not_succeeds_render_alone :
    Written.query (.combined lateGuests) ∈ alone.written .hibernate ∧
      (Query.combined lateGuests).SkipsOnly ∧
      ¬Succeeds (alone.render { dialect := .hibernate }) := by
  have hskips : (Query.combined lateGuests).SkipsOnly := ⟨rfl, rfl, rfl⟩
  have hwritten : Written.query (.combined lateGuests) ∈ alone.written .hibernate :=
    .tail _ (.tail _ (.head _))
  exact ⟨hwritten, hskips, not_succeeds_render_of_skipsOnly hwritten hskips⟩

/-- A parameter that is reported for a text is bound in it exactly if it stands in a place that is
written; and the text binds its parameters in the order of those places. -/
theorem bound_iff_written {s : Statement} {ctx : RenderContext} {r : RenderedQuery}
    (h : s.render ctx = .ok r) :
    ∃ level, s.rendered ctx = .ok level ∧ r.text = tokensText ctx.dialect level.tokens ∧
      mentions level.tokens = (s.written ctx.dialect).flatMap Written.names ∧
      ∀ name ∈ r.parameters, name ∈ mentions level.tokens ↔
        ∃ p, Written.parameter p ∈ s.written ctx.dialect ∧ p.name = some name := by
  simp only [render, bind_eq_ok, pure_eq_ok] at h
  obtain ⟨level, hlevel, rfl⟩ := h
  have hnames := (traces_rendered hlevel).names
  refine ⟨level, hlevel, rfl, hnames, fun name _ => ?_⟩
  rw [hnames, List.mem_flatMap]
  constructor
  · rintro ⟨w, hw, hname⟩
    cases w with
    | parameter p => exact ⟨p, hw, Option.mem_toList.1 hname⟩
    | query q => cases hname
  · rintro ⟨p, hp, hname⟩
    exact ⟨.parameter p, hp, Option.mem_toList.2 hname⟩

/-- The documents of an owner, if one of no values is chosen. -/
def unchosen : Statement :=
  .select (.select (((Select.addRoot {} "Document" "d").filter
    (.binary (.ofPath "d.owner") .eq (.named "owner" none))).filter
    (.oneOf (.named "choice" none) [] false)))

theorem bound_iff_written_unchosen :
    ∃ r level, unchosen.render { dialect := .hibernate } = .ok r ∧
      unchosen.rendered { dialect := .hibernate } = .ok level ∧
      r.parameters = ["owner", "choice"] ∧ mentions level.tokens = ["owner"] := by
  obtain ⟨r, hr⟩ : ∃ r, unchosen.render { dialect := .hibernate } = .ok r := ⟨_, rfl⟩
  obtain ⟨level, hlevel, -, hmentions, -⟩ := bound_iff_written hr
  refine ⟨r, level, hr, hlevel, ?_, hmentions⟩
  cases hr
  rfl

/-- An IN predicate without values is written as a truth value, so a parameter that is only its
operand is reported and not bound. -/
theorem not_bound_unchosen :
    ¬∀ (s : Statement) (ctx : RenderContext) (r : RenderedQuery) (level : RenderedLevel),
      s.render ctx = .ok r → s.rendered ctx = .ok level →
        ∀ name ∈ r.parameters, name ∈ mentions level.tokens := by
  intro h
  have hreported : "choice" ∈ ["owner", "choice"] := by decide
  have hbound : "choice" ∈ ["owner"] :=
    h unchosen { dialect := .hibernate } _ _ rfl rfl "choice" hreported
  simp at hbound

end EntityQuery.Statement
