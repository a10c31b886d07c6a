import Mathlib.Data.List.Induction
import EntityQuery.Proofs.Render.Equations

/-!
The limits of operations around operations. Limits open a window on rows, and a window inside a
window is a window again. A set operation that combines nothing is written as its first query, and
one pair of limits is reported for it: the outermost that there is. It stands for the limits of all
the operations around the query level only if it takes no row, or if the limits inside it leave
every row that it asks for.
-/

namespace EntityQuery

variable {α : Type}

/-- A part of a sequence of rows: some are skipped, and of the others at most so many are taken. -/
structure Window where
  skipped : Nat := 0
  taken : Option Nat := none
deriving DecidableEq, Repr

namespace Window

/-- The rows in a window. -/
def cut (w : Window) (rows : List α) : List α :=
  match w.taken with
  | some n => (rows.drop w.skipped).take n
  | none => rows.drop w.skipped

/-- A window on the rows that are left by another one. -/
def inside (w outer : Window) : Window where
  skipped := outer.skipped + w.skipped
  taken :=
    match outer.taken, w.taken with
    | none, taken => taken
    | some n, none => some (n - w.skipped)
    | some n, some m => some (min m (n - w.skipped))

theorem cut_inside (w outer : Window) (rows : List α) :
    (w.inside outer).cut rows = w.cut (outer.cut rows) := by
  obtain ⟨f, m⟩ := w
  obtain ⟨g, n⟩ := outer
  cases n <;> cases m <;>
    simp only [cut, inside, List.drop_take, List.drop_drop, List.take_take]

@[simp] theorem whole_inside (w : Window) : inside {} w = w := by
  obtain ⟨f, m⟩ := w
  cases m <;> simp [inside]

theorem taken_inside_of_zero {w : Window} (h : w.taken = some 0) (outer : Window) :
    (w.inside outer).taken = some 0 := by
  rw [inside, h]
  cases outer.taken <;> simp

theorem cut_of_zero {w : Window} (h : w.taken = some 0) (rows : List α) : w.cut rows = [] := by
  rw [cut, h]
  exact List.take_zero

/-- The number of rows in a window. -/
def count (w : Window) (n : Nat) : Nat := w.taken.elim (n - w.skipped) (min · (n - w.skipped))

theorem length_cut_replicate (w : Window) (n : Nat) (a : α) :
    (w.cut (List.replicate n a)).length = w.count n := by
  obtain ⟨f, m⟩ := w
  cases m <;> simp [cut, count]

/-- How many rows a window has tells which one it is, unless it has none. -/
theorem eq_of_count {w w' : Window} (h : ∀ n, w.count n = w'.count n) (hw : w.taken ≠ some 0) :
    w = w' := by
  obtain ⟨f, m⟩ := w
  obtain ⟨g, n⟩ := w'
  cases m with
  | none =>
      cases n with
      | none =>
          have hboth := h (f + g)
          simp only [count, Option.elim] at hboth
          obtain rfl : f = g := by omega
          rfl
      | some n =>
          have hmore := h (f + n + 1)
          simp only [count, Option.elim] at hmore
          omega
  | some m =>
      have hm : m ≠ 0 := fun hzero => hw (congrArg some hzero)
      cases n with
      | none =>
          have hmore := h (g + m + 1)
          simp only [count, Option.elim] at hmore
          omega
      | some n =>
          have hfirst := h f
          have hother := h g
          have hall := h (f + g + m + n)
          simp only [count, Option.elim] at hfirst hother hall
          obtain rfl : m = n := by omega
          obtain rfl : f = g := by omega
          rfl

theorem cut_eq_iff [Inhabited α] (w outer : Window) :
    (∀ rows : List α, w.cut rows = (w.inside outer).cut rows) ↔
      w.taken = some 0 ∨ w = w.inside outer := by
  constructor
  · intro h
    by_cases hzero : w.taken = some 0
    · exact .inl hzero
    · refine .inr (eq_of_count (fun n => ?_) hzero)
      rw [← length_cut_replicate w n (default : α), h, length_cut_replicate]
  · rintro (hzero | hsame) rows
    · rw [cut_of_zero hzero, cut_of_zero (taken_inside_of_zero hzero outer)]
    · rw [← hsame]

end Window

namespace Limits

/-- The window that limits open on the rows of a result. -/
def window (limits : Limits) : Window where
  skipped := limits.first.elim 0 UInt64.toNat
  taken := limits.max.map UInt64.toNat

/-- The window that limits open together, each on what those before it in the list leave. -/
def nestedWindow (layers : List Limits) : Window :=
  layers.foldl (fun outer limits => limits.window.inside outer) {}

theorem window_of_any {limits : Limits} (h : limits.any = false) : limits.window = {} := by
  obtain ⟨first, max⟩ := limits
  cases first <;> cases max <;> first | rfl | cases h

theorem nestedWindow_append (layers : List Limits) (limits : Limits) :
    nestedWindow (layers ++ [limits]) = limits.window.inside (nestedWindow layers) := by
  rw [nestedWindow, List.foldl_append]
  rfl

theorem cut_nestedWindow (layers : List Limits) (rows : List α) :
    (nestedWindow layers).cut rows =
      layers.foldl (fun rows limits => limits.window.cut rows) rows := by
  induction layers using List.reverseRecOn with
  | nil => rfl
  | append_singleton layers limits ih =>
      rw [nestedWindow_append, Window.cut_inside, ih, List.foldl_append]
      rfl

end Limits

/-- The limits around a query level, from the inside out: those of the level itself, and those of
the operations that it stands in and that combine nothing. -/
inductive Query.Layers : Query → List Limits → Prop
  | level (s : Select) : Layers (.select s) [s.limits]
  | around {c : SetOperation} {layers : List Limits}
      (hinactive : SetOperation.activeOperator c.operator c.operands = none)
      (h : Layers c.start layers) : Layers (.combined c) (layers ++ [c.limits])

namespace Query.Layers

variable {ctx : RenderContext} {q : Query} {layers : List Limits} {r : RenderedLevel}

/-- What is reported is the outermost limits. -/
theorem limits_rendered (h : q.Layers layers) (hr : q.rendered ctx = .ok r) :
    r.limits = layers.foldl (fun inner limits => limits.override inner) {} := by
  induction h generalizing r with
  | level s =>
      rw [Query.rendered] at hr
      simp only [bind_eq_ok, pure_eq_ok] at hr
      obtain ⟨ts, -, rfl⟩ := hr
      obtain ⟨first, max⟩ := s.limits
      cases first <;> cases max <;> rfl
  | around hinactive _ ih =>
      rw [Query.rendered, SetOperation.rendered_eq, hinactive] at hr
      simp only [bind_eq_ok, pure_eq_ok] at hr
      obtain ⟨inner, hinner, rfl⟩ := hr
      rw [List.foldl_append, ← ih hinner]
      rfl

/-- The limits that are reported open their window on what the limits inside them leave. -/
theorem exists_inside (h : q.Layers layers) (hr : q.rendered ctx = .ok r) :
    ∃ outer, Limits.nestedWindow layers = r.limits.window.inside outer := by
  induction h generalizing r with
  | level s =>
      rw [Query.rendered] at hr
      simp only [bind_eq_ok, pure_eq_ok] at hr
      obtain ⟨ts, -, rfl⟩ := hr
      exact ⟨{}, rfl⟩
  | @around c layers hinactive _ ih =>
      rw [Query.rendered, SetOperation.rendered_eq, hinactive] at hr
      simp only [bind_eq_ok, pure_eq_ok] at hr
      obtain ⟨inner, hinner, rfl⟩ := hr
      rw [Limits.nestedWindow_append, Limits.override]
      split
      next => exact ⟨Limits.nestedWindow layers, rfl⟩
      next hnone =>
        obtain ⟨outer, houter⟩ := ih hinner
        refine ⟨outer, ?_⟩
        rw [Limits.window_of_any (Bool.eq_false_iff.2 hnone), Window.whole_inside, houter]

end Query.Layers

/-- For operations that combine nothing, the outermost limits are reported. Cutting rows by them is
cutting by all limits from the inside out, whatever the rows are, if and only if they take no row
or are the window that all of them open together. -/
theorem Statement.limits_cut_iff [Inhabited α] {ctx : RenderContext} {q : Query}
    {layers : List Limits} {r : RenderedQuery} (hlayers : q.Layers layers)
    (h : (Statement.select q).render ctx = .ok r) :
    r.limits = layers.foldl (fun inner limits => limits.override inner) {} ∧
      ((∀ rows : List α, r.limits.window.cut rows =
          layers.foldl (fun rows limits => limits.window.cut rows) rows) ↔
        r.limits.max = some 0 ∨ r.limits.window = Limits.nestedWindow layers) := by
  simp only [Statement.render, Statement.rendered, bind_eq_ok, pure_eq_ok] at h
  obtain ⟨level, hlevel, rfl⟩ := h
  refine ⟨hlayers.limits_rendered hlevel, ?_⟩
  obtain ⟨outer, houter⟩ := hlayers.exists_inside hlevel
  have hzero : level.limits.window.taken = some 0 ↔ level.limits.max = some 0 := by
    cases hmax : level.limits.max with
    | none => simp [Limits.window, hmax]
    | some n => simp [Limits.window, hmax, ← UInt64.toNat_inj]
  simp only [← Limits.cut_nestedWindow, houter, Window.cut_eq_iff, hzero]

namespace SetOperation

/-- Ten of the first people after the first five of them, two operations around their level. -/
def paged (people : UInt64) : SetOperation where
  start := .combined { start := .select ((Select.addRoot {} "Person" "p").take people) }
  limits := { first := some 5, max := some 10 }

theorem layers_paged (people : UInt64) :
    (Query.combined (paged people)).Layers
      [{ max := some people }, {}, { first := some 5, max := some 10 }] := by
  have hpeople := Query.Layers.level ((Select.addRoot {} "Person" "p").take people)
  have hinner := Query.Layers.around (c := { start := .select _ }) rfl hpeople
  have houter := Query.Layers.around (c := paged people) rfl hinner
  exact houter

end SetOperation

/-- Of a hundred people there are enough for the page that is asked for. -/
theorem Statement.limits_cut_iff_paged :
    (Query.combined (SetOperation.paged 100)).Layers
        [{ max := some 100 }, {}, { first := some 5, max := some 10 }] ∧
      ∃ r, (Statement.select (.combined (.paged 100))).render { dialect := .hibernate } = .ok r ∧
        r.limits = { first := some 5, max := some 10 } ∧
        ∀ rows : List Nat, r.limits.window.cut rows =
          ((rows.take 100).drop 5).take 10 := by
  obtain ⟨r, hr⟩ : ∃ r, (Statement.select (.combined (.paged 100))).render
      { dialect := .hibernate } = .ok r := ⟨_, rfl⟩
  obtain ⟨hlimits, hrows⟩ := limits_cut_iff (α := Nat) (SetOperation.layers_paged 100) hr
  refine ⟨SetOperation.layers_paged 100, r, hr, hlimits, fun rows => ?_⟩
  refine hrows.2 (.inr ?_) rows
  rw [hlimits]
  rfl

/-- Of eight people three are left on the page, but ten are asked for. -/
theorem Statement.not_limits_cut_paged :
    ¬∀ (ctx : RenderContext) (q : Query) (layers : List Limits) (r : RenderedQuery),
      q.Layers layers → (Statement.select q).render ctx = .ok r →
        ∀ rows : List Nat, r.limits.window.cut rows =
          layers.foldl (fun rows limits => limits.window.cut rows) rows := by
  intro h
  have hrows := h { dialect := .hibernate } _ _ _ (SetOperation.layers_paged 8) rfl (List.range 15)
  revert hrows
  decide

end EntityQuery
