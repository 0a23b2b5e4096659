import LexiconAudit.Reading

/-!
This module contains the laws by which runs of readers are taken apart and put together: a run of two
readers in sequence is a run of the first and a run of the second, and what every round of a repetition
keeps is kept by the whole of it. Readers whose runs end alike do so in sequence and in repetition as well.
-/

namespace LexiconAudit.Reading

variable {σ ε α β : Type} [Source σ]

theorem run_bind_eq_ok_iff {r : Reading σ ε α} {f : α → Reading σ ε β} {s u : σ} {b : β} :
    (r >>= f).run s = .ok (b, u) ↔ ∃ a t, r.run s = .ok (a, t) ∧ (f a).run t = .ok (b, u) := by
  rw [run_bind]
  constructor
  . intro h
    split at h
    . cases h
    . next a t heq => exact ⟨a, t, heq, h⟩
  . rintro ⟨a, t, hr, hf⟩
    rw [hr]
    exact hf

theorem run_bind_of_run {r : Reading σ ε α} {f : α → Reading σ ε β} {s t : σ} {a : α}
    (h : r.run s = .ok (a, t)) : (r >>= f).run s = (f a).run t := by
  rw [run_bind, h]

theorem run_loop_of_done {step : α → Reading σ ε (Round α β)} {advances : ∀ a, (step a).Advances}
    {a : α} {s t : σ} {b : β} (h : (step a).run s = .ok (.done b, t)) :
    (loop step advances a).run s = .ok (b, t) := by
  rw [run_loop, h]

theorem run_loop_of_again {step : α → Reading σ ε (Round α β)} {advances : ∀ a, (step a).Advances}
    {a a' : α} {s t : σ} (h : (step a).run s = .ok (.again a', t)) :
    (loop step advances a).run s = (loop step advances a').run t := by
  rw [run_loop, h]

theorem loop_induction {step : α → Reading σ ε (Round α β)} {advances : ∀ a, (step a).Advances}
    {P : α → σ → β → σ → Prop}
    (done : ∀ {a s b t}, (step a).run s = .ok (.done b, t) → P a s b t)
    (again : ∀ {a s a' t b u}, (step a).run s = .ok (.again a', t) → P a' t b u → P a s b u)
    {a : α} {s : σ} {b : β} {u : σ} (h : (loop step advances a).run s = .ok (b, u)) : P a s b u := by
  change loop.go step advances a s = .ok (b, u) at h
  fun_induction loop.go step advances a s with
  | case1 => cases h
  | case2 _ _ _ _ heq =>
    cases h
    exact done heq
  | case3 _ _ _ _ heq _ ih => exact again heq (ih h)

def Answers (r : Reading σ ε α) (P : α → Prop) : Prop :=
  ∀ ⦃s a t⦄, r.run s = .ok (a, t) → P a

theorem Answers.pure {P : α → Prop} {a : α} (h : P a) : (pure a : Reading σ ε α).Answers P := by
  intro s b t hrun
  cases hrun
  exact h

theorem Answers.fail {P : α → Prop} (e : ε) : (fail e : Reading σ ε α).Answers P := by
  intro s b t hrun
  cases hrun

theorem Answers.trivial (r : Reading σ ε α) : r.Answers fun _ => True :=
  fun _ _ _ _ => True.intro

theorem Answers.bind {r : Reading σ ε α} {f : α → Reading σ ε β} {P : α → Prop} {Q : β → Prop}
    (hr : r.Answers P) (hf : ∀ a, P a → (f a).Answers Q) : (r >>= f).Answers Q := by
  intro s b u hrun
  obtain ⟨a, t, hr', hf'⟩ := run_bind_eq_ok_iff.1 hrun
  exact hf a (hr hr') hf'

theorem Answers.loop {step : α → Reading σ ε (Round α α)} {advances : ∀ a, (step a).Advances}
    {P : α → Prop} (hstep : ∀ a, P a → (step a).Answers fun
      | .again b => P b
      | .done b => P b) {a : α} (ha : P a) : (loop step advances a).Answers P := by
  intro s b t hrun
  refine loop_induction (P := fun a _ b _ => P a → P b) ?_ ?_ hrun ha
  . intro a s b t h ha
    exact hstep a ha h
  . intro a s a' t b u h ih ha
    exact ih (hstep a ha h)

def Keeps {γ : Type} (f : σ → γ) (r : Reading σ ε α) : Prop :=
  ∀ ⦃s a t⦄, r.run s = .ok (a, t) → f t = f s

section Keeps

variable {γ : Type} {f : σ → γ}

theorem Keeps.pure (a : α) : (pure a : Reading σ ε α).Keeps f := by
  intro s b t hrun
  cases hrun
  rfl

theorem Keeps.bind {r : Reading σ ε α} {g : α → Reading σ ε β} (hr : r.Keeps f) (hg : ∀ a, (g a).Keeps f) :
    (r >>= g).Keeps f := by
  intro s b u hrun
  obtain ⟨a, t, hr', hg'⟩ := run_bind_eq_ok_iff.1 hrun
  rw [hg a hg', hr hr']

theorem Keeps.loop {step : α → Reading σ ε (Round α β)} {advances : ∀ a, (step a).Advances}
    (hstep : ∀ a, (step a).Keeps f) (a : α) : (loop step advances a).Keeps f := by
  intro s b t hrun
  refine loop_induction (P := fun _ s _ t => f t = f s) ?_ ?_ hrun
  . intro a s b t h
    exact hstep a h
  . intro a s a' t b u h ih
    rw [ih, hstep a h]

end Keeps

/-! Two readers side by side. -/

/--
Two runs that end alike: both with answers that are alike and sources that are alike, or both with errors
that are alike.
-/
inductive EndsAlike (A : σ → σ → Prop) (E : ε → ε → Prop) (S : α → β → Prop) :
    Except ε (α × σ) → Except ε (β × σ) → Prop where
  | ok {a : α} {b : β} {s t : σ} : S a b → A s t → EndsAlike A E S (.ok (a, s)) (.ok (b, t))
  | error {e f : ε} : E e f → EndsAlike A E S (.error e) (.error f)

def RunsAlike (A : σ → σ → Prop) (E : ε → ε → Prop) (S : α → β → Prop) (r : Reading σ ε α)
    (q : Reading σ ε β) : Prop :=
  ∀ ⦃s t⦄, A s t → EndsAlike A E S (r.run s) (q.run t)

section Alike

variable {γ δ : Type} {A : σ → σ → Prop} {E : ε → ε → Prop} {S : α → β → Prop} {T : γ → δ → Prop}

omit [Source σ] in
theorem EndsAlike.imp {A' : σ → σ → Prop} {x : Except ε (α × σ)} {y : Except ε (β × σ)} (h : EndsAlike A E S x y)
    (himp : ∀ s t, A s t → A' s t) : EndsAlike A' E S x y := by
  cases h with
  | ok ha hs => exact .ok ha (himp _ _ hs)
  | error he => exact .error he

theorem RunsAlike.pure {a : α} {b : β} (h : S a b) :
    RunsAlike A E S (Pure.pure a : Reading σ ε α) (Pure.pure b) :=
  fun _ _ hs => .ok h hs

theorem RunsAlike.fail {e f : ε} (h : E e f) : RunsAlike A E S (fail e : Reading σ ε α) (fail f) :=
  fun _ _ _ => .error h

theorem RunsAlike.bind {r : Reading σ ε α} {q : Reading σ ε β} {f : α → Reading σ ε γ} {g : β → Reading σ ε δ}
    (hr : RunsAlike A E S r q) (hf : ∀ a b, S a b → RunsAlike A E T (f a) (g b)) :
    RunsAlike A E T (r >>= f) (q >>= g) := by
  intro s t hs
  have hends := hr hs
  rw [run_bind, run_bind]
  generalize r.run s = x at hends
  generalize q.run t = y at hends
  cases hends with
  | ok ha hs => exact hf _ _ ha hs
  | error he => exact .error he

theorem RunsAlike.bind_eq {r q : Reading σ ε α} {f : α → Reading σ ε γ} {g : α → Reading σ ε δ}
    (hr : RunsAlike A E Eq r q) (hf : ∀ a, RunsAlike A E T (f a) (g a)) :
    RunsAlike A E T (r >>= f) (q >>= g) :=
  hr.bind fun a _ heq => heq ▸ hf a

inductive Round.Alike (S : α → β → Prop) (T : γ → δ → Prop) : Round α γ → Round β δ → Prop where
  | again {a : α} {b : β} : S a b → Round.Alike S T (.again a) (.again b)
  | done {c : γ} {d : δ} : T c d → Round.Alike S T (.done c) (.done d)

theorem RunsAlike.loop {step : α → Reading σ ε (Round α γ)} {step' : β → Reading σ ε (Round β δ)}
    {advances : ∀ a, (step a).Advances} {advances' : ∀ b, (step' b).Advances}
    (hstep : ∀ a b, S a b → RunsAlike A E (Round.Alike S T) (step a) (step' b)) {a : α} {b : β} (h : S a b) :
    RunsAlike A E T (loop step advances a) (loop step' advances' b) := by
  intro s t hs
  change EndsAlike A E T (loop.go step advances a s) _
  fun_induction loop.go step advances a s generalizing b t with
  | case1 a s e heq =>
    have hround := hstep a b h hs
    rw [heq] at hround
    rw [run_loop]
    generalize (step' b).run t = y at hround
    cases hround with
    | error he => exact .error he
  | case2 a s c u heq =>
    have hround := hstep a b h hs
    rw [heq] at hround
    rw [run_loop]
    generalize (step' b).run t = y at hround
    cases hround with
    | ok hround hs =>
      cases hround with
      | done hc => exact .ok hc hs
  | case3 a s a' u heq _ ih =>
    have hround := hstep a b h hs
    rw [heq] at hround
    rw [run_loop]
    generalize (step' b).run t = y at hround
    cases hround with
    | ok hround hs =>
      cases hround with
      | again ha => exact ih ha hs

theorem RunsAlike.bounded {r : Reading σ ε α} {q : Reading σ ε β} (h : RunsAlike A E S r q) (n m : Nat) :
    RunsAlike (fun s t => A s t ∧ Source.size s ≤ n ∧ Source.size t ≤ m) E S r q := by
  intro s t ⟨hs, hn, hm⟩
  have hends := h hs
  generalize hr : r.run s = x at hends
  generalize hq : q.run t = y at hends
  cases hends with
  | ok ha hs => exact .ok ha ⟨hs, Nat.le_trans (r.size_le hr) hn, Nat.le_trans (q.size_le hq) hm⟩
  | error he => exact .error he

end Alike

end LexiconAudit.Reading
