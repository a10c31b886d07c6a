import Mathlib.Data.List.Forall2

/-!
When a sequence of steps that may fail succeeds, and with which value.
-/

namespace EntityQuery

variable {ε α β : Type}

/-- Whether a computation yields a value. -/
def Succeeds (x : Except ε α) : Prop := ∃ a, x = .ok a

@[simp] theorem exists_eq_ok {x : Except ε α} : (∃ a, x = .ok a) ↔ Succeeds x := Iff.rfl

@[simp] theorem succeeds_ok (a : α) : Succeeds (.ok a : Except ε α) := ⟨a, rfl⟩

@[simp] theorem succeeds_pure (a : α) : Succeeds (pure a : Except ε α) := ⟨a, rfl⟩

@[simp] theorem not_succeeds_error (e : ε) : ¬Succeeds (.error e : Except ε α) := by
  rintro ⟨a, ha⟩
  cases ha

@[simp] theorem not_succeeds_throw (e : ε) : ¬Succeeds (throw e : Except ε α) :=
  not_succeeds_error e

theorem ok_bind (a : α) (f : α → Except ε β) : (.ok a : Except ε α) >>= f = f a := rfl

@[simp] theorem bind_eq_ok {x : Except ε α} {f : α → Except ε β} {b : β} :
    x >>= f = .ok b ↔ ∃ a, x = .ok a ∧ f a = .ok b := by
  cases x <;> simp [bind, Except.bind]

@[simp] theorem map_eq_ok {x : Except ε α} {f : α → β} {b : β} :
    f <$> x = .ok b ↔ ∃ a, x = .ok a ∧ f a = b := by
  cases x <;> simp [Functor.map, Except.map]

@[simp] theorem pure_eq_ok {a b : α} : (pure a : Except ε α) = .ok b ↔ a = b := by
  simp [pure, Except.pure]

@[simp] theorem succeeds_bind {x : Except ε α} {f : α → Except ε β} :
    Succeeds (x >>= f) ↔ ∃ a, x = .ok a ∧ Succeeds (f a) := by
  cases x <;> simp [bind, Except.bind]

@[simp] theorem succeeds_map {x : Except ε α} {f : α → β} :
    Succeeds (f <$> x) ↔ Succeeds x := by
  cases x <;> simp [Functor.map, Except.map]

/-- A walk over a list succeeds member by member. -/
theorem mapM_eq_ok {f : α → Except ε β} {as : List α} {bs : List β} :
    as.mapM f = .ok bs ↔ List.Forall₂ (fun a b => f a = .ok b) as bs := by
  induction as generalizing bs with
  | nil =>
      rw [List.mapM_nil, pure_eq_ok, List.forall₂_nil_left_iff]
      exact eq_comm
  | cons a rest ih =>
      rw [List.mapM_cons]
      simp only [bind_eq_ok, pure_eq_ok, ih, List.forall₂_cons_left_iff]
      constructor
      · rintro ⟨b, hb, rest', hrest, rfl⟩
        exact ⟨b, rest', hb, hrest, rfl⟩
      · rintro ⟨b, rest', hb, hrest, rfl⟩
        exact ⟨b, hb, rest', hrest, rfl⟩

theorem mapM_eq_some {f : α → Option β} {as : List α} {bs : List β} :
    as.mapM f = some bs ↔ List.Forall₂ (fun a b => f a = some b) as bs := by
  induction as generalizing bs with
  | nil =>
      rw [List.mapM_nil, Option.pure_def, Option.some.injEq, List.forall₂_nil_left_iff]
      exact eq_comm
  | cons a rest ih =>
      rw [List.mapM_cons]
      simp only [Option.bind_eq_bind, Option.pure_def, Option.bind_eq_some_iff, Option.some.injEq,
        ih, List.forall₂_cons_left_iff]
      constructor
      · rintro ⟨b, hb, rest', hrest, rfl⟩
        exact ⟨b, rest', hb, hrest, rfl⟩
      · rintro ⟨b, rest', hb, hrest, rfl⟩
        exact ⟨b, hb, rest', hrest, rfl⟩

/-- A walk yields the same if one member is replaced by one that yields the same. -/
theorem mapM_replace {f : α → Option β} {a a' : α} (h : ∀ b, f a = some b → f a' = some b)
    {before after : List α} {bs : List β} (hbs : (before ++ a :: after).mapM f = some bs) :
    (before ++ a' :: after).mapM f = some bs := by
  rw [mapM_eq_some] at hbs ⊢
  induction before generalizing bs with
  | nil =>
    cases hbs with
    | cons hb hrest => exact .cons (h _ hb) hrest
  | cons first rest ih =>
    cases hbs with
    | cons hb hrest => exact .cons hb (ih hrest)

/-- A walk depends on what is done to the members of the list alone. -/
theorem mapM_congr {m : Type → Type} [Monad m] [LawfulMonad m] {f g : α → m β} {as : List α}
    (h : ∀ a ∈ as, f a = g a) : as.mapM f = as.mapM g := by
  induction as with
  | nil => rfl
  | cons a rest ih =>
      have hrest := ih fun other hother => h other (List.mem_cons_of_mem a hother)
      rw [List.mapM_cons, List.mapM_cons, h a List.mem_cons_self, hrest]

/-- Partners for the members of a list, one by one. -/
theorem exists_forall₂ {r : α → β → Prop} {as : List α} (h : ∀ a ∈ as, ∃ b, r a b) :
    ∃ bs, List.Forall₂ r as bs := by
  induction as with
  | nil => exact ⟨[], .nil⟩
  | cons a rest ih =>
      obtain ⟨b, hb⟩ := h a List.mem_cons_self
      obtain ⟨bs, hbs⟩ := ih fun other hother => h other (List.mem_cons_of_mem a hother)
      exact ⟨b :: bs, .cons hb hbs⟩

theorem exists_of_mem_forall₂ {r : α → β → Prop} {as : List α} {bs : List β} {b : β}
    (h : List.Forall₂ r as bs) (hb : b ∈ bs) : ∃ a ∈ as, r a b := by
  induction h with
  | nil => cases hb
  | cons hstep _ ih =>
      rcases List.mem_cons.1 hb with rfl | hb
      · exact ⟨_, List.mem_cons_self, hstep⟩
      · obtain ⟨a, ha, hstep⟩ := ih hb
        exact ⟨a, List.mem_cons_of_mem _ ha, hstep⟩

/-- What every partner has, all of them have. -/
theorem forall_of_forall₂ {r : α → β → Prop} {q : β → Prop} {as : List α} {bs : List β}
    (h : List.Forall₂ r as bs) (hq : ∀ {a b}, r a b → q b) : ∀ b ∈ bs, q b := by
  intro b hb
  obtain ⟨_, -, hstep⟩ := exists_of_mem_forall₂ h hb
  exact hq hstep

/-- Partners that are the members themselves. -/
theorem eq_of_forall₂ {r : α → α → Prop} {p : α → Prop} {as bs : List α}
    (h : List.Forall₂ r as bs) (hp : ∀ a ∈ as, p a) (heq : ∀ {a b}, r a b → p a → b = a) :
    bs = as := by
  induction h with
  | nil => rfl
  | cons hfirst _ ih =>
      obtain ⟨ha, hrest⟩ := List.forall_mem_cons.1 hp
      rw [heq hfirst ha, ih hrest]

/-- Partners place by place. -/
theorem forall₂_of_getElem? {r : α → β → Prop} {as : List α} {bs : List β}
    (h : ∀ i : Nat, Option.Rel r as[i]? bs[i]?) : List.Forall₂ r as bs := by
  induction as generalizing bs with
  | nil =>
      cases bs with
      | nil => exact .nil
      | cons b rest => nomatch h 0
  | cons a rest ih =>
      cases bs with
      | nil => nomatch h 0
      | cons b others =>
          cases h 0 with
          | some hfirst => exact .cons hfirst (ih fun i => h (i + 1))

/-- A check of two lists that goes through both of them finds partners. -/
theorem forall₂_of_check {r : α → β → Prop} {check : List α → List β → Bool}
    (hleft : ∀ b bs, check [] (b :: bs) = false) (hright : ∀ a as, check (a :: as) [] = false)
    (hstep : ∀ a as b bs, check (a :: as) (b :: bs) = true → r a b ∧ check as bs = true)
    {as : List α} {bs : List β} (h : check as bs = true) : List.Forall₂ r as bs := by
  induction as generalizing bs with
  | nil =>
      cases bs with
      | nil => exact .nil
      | cons b bs => simp [hleft] at h
  | cons a as ih =>
      cases bs with
      | nil => simp [hright] at h
      | cons b bs =>
          obtain ⟨hfirst, hrest⟩ := hstep a as b bs h
          exact .cons hfirst (ih hrest)

/-- The partners of the members before the last, and that of the last. -/
theorem exists_of_forall₂_concat {r : α → β → Prop} {as : List α} {a : α} {bs : List β}
    (h : List.Forall₂ r (as ++ [a]) bs) :
    ∃ before b, bs = before ++ [b] ∧ List.Forall₂ r as before ∧ r a b := by
  induction as generalizing bs with
  | nil =>
      obtain ⟨b, rest, hb, hrest, rfl⟩ := List.forall₂_cons_left_iff.1 h
      cases hrest
      exact ⟨[], b, rfl, .nil, hb⟩
  | cons first rest ih =>
      obtain ⟨b, others, hb, hothers, rfl⟩ := List.forall₂_cons_left_iff.1 h
      obtain ⟨before, last, rfl, hbefore, hlast⟩ := ih hothers
      exact ⟨b :: before, last, rfl, .cons hb hbefore, hlast⟩

theorem exists_of_mem_mapM {f : α → Except ε β} {as : List α} {bs : List β} {b : β}
    (h : as.mapM f = .ok bs) (hb : b ∈ bs) : ∃ a ∈ as, f a = .ok b :=
  exists_of_mem_forall₂ (r := fun a b => f a = .ok b) (mapM_eq_ok.1 h) hb

/-- Whatever a computation yields has a property. -/
def Yields (p : α → Prop) (x : Except ε α) : Prop := ∀ a, x = .ok a → p a

namespace Yields

variable {p : α → Prop} {q : β → Prop}

theorem ok {a : α} (h : p a) : Yields p (.ok a : Except ε α) := by
  rintro _ ⟨⟩
  exact h

theorem error (e : ε) : Yields p (.error e : Except ε α) := by
  rintro _ ⟨⟩

theorem bind {x : Except ε α} {f : α → Except ε β} (h : Yields p x)
    (hf : ∀ a, p a → Yields q (f a)) : Yields q (x >>= f) := by
  intro b hb
  obtain ⟨a, ha, hb⟩ := bind_eq_ok.1 hb
  exact hf a (h a ha) b hb

theorem guard {c : Prop} [Decidable c] {e : ε} {x : Except ε α} (h : Yields p x) :
    Yields p (if c then .error e else x) := by
  split
  · exact error e
  · exact h

theorem mapM {f : α → Except ε β} {as : List α} (h : ∀ a ∈ as, Yields q (f a)) :
    Yields (fun bs => ∀ b ∈ bs, q b) (as.mapM f) := by
  intro bs hbs b hb
  obtain ⟨a, ha, hstep⟩ := exists_of_mem_mapM hbs hb
  exact h a ha b hstep

end Yields

@[simp] theorem succeeds_mapM {f : α → Except ε β} {as : List α} :
    Succeeds (as.mapM f) ↔ ∀ a ∈ as, Succeeds (f a) := by
  induction as with
  | nil => simp
  | cons a rest ih =>
      rw [List.mapM_cons]
      simp [ih]

end EntityQuery
