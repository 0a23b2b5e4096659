/-!
This module contains readers: functions that take something off the front of what is left to read and
answer a value, or fail. A reader carries the proof that it never leaves more than it was given, so that
repetition can be defined by recursion on what is left.
-/

namespace LexiconAudit

class Source (σ : Type) where
  size : σ → Nat

instance : Source (List α) where
  size := List.length

@[simp]
theorem Source.size_list (xs : List α) : Source.size xs = xs.length := rfl

structure Reading (σ : Type) [Source σ] (ε α : Type) where
  run : σ → Except ε (α × σ)
  size_le : ∀ {s a t}, run s = .ok (a, t) → Source.size t ≤ Source.size s

namespace Reading

variable {σ ε α β : Type} [Source σ]

protected def pure (a : α) : Reading σ ε α where
  run s := .ok (a, s)
  size_le h := by
    cases h
    exact Nat.le_refl _

protected def bind (r : Reading σ ε α) (f : α → Reading σ ε β) : Reading σ ε β where
  run s :=
    match r.run s with
    | .error e => .error e
    | .ok (a, t) => (f a).run t
  size_le {s b u} h := by
    split at h
    . cases h
    . next a t heq => exact Nat.le_trans ((f a).size_le h) (r.size_le heq)

instance : Monad (Reading σ ε) where
  pure := Reading.pure
  bind := Reading.bind

@[simp]
theorem run_pure (a : α) (s : σ) : (pure a : Reading σ ε α).run s = .ok (a, s) := rfl

theorem run_bind (r : Reading σ ε α) (f : α → Reading σ ε β) (s : σ) :
    (r >>= f).run s =
      match r.run s with
      | .error e => .error e
      | .ok (a, t) => (f a).run t := rfl

def fail (e : ε) : Reading σ ε α where
  run _ := .error e
  size_le h := by cases h

@[simp]
theorem run_fail (e : ε) (s : σ) : (fail e : Reading σ ε α).run s = .error e := rfl

/--
A reader that takes something off whenever it answers.
-/
def Strict (r : Reading σ ε α) : Prop :=
  ∀ ⦃s a t⦄, r.run s = .ok (a, t) → Source.size t < Source.size s

theorem Strict.fail (e : ε) : (fail e : Reading σ ε α).Strict := by
  intro s a t h
  cases h

theorem Strict.bind_left {r : Reading σ ε α} (hr : r.Strict) (f : α → Reading σ ε β) :
    (r >>= f).Strict := by
  intro s b u h
  rw [run_bind] at h
  split at h
  . cases h
  . next a t heq => exact Nat.lt_of_le_of_lt ((f a).size_le h) (hr heq)

theorem Strict.bind_right (r : Reading σ ε α) {f : α → Reading σ ε β} (hf : ∀ a, (f a).Strict) :
    (r >>= f).Strict := by
  intro s b u h
  rw [run_bind] at h
  split at h
  . cases h
  . next a t heq => exact Nat.lt_of_lt_of_le (hf a h) (r.size_le heq)

inductive Round (α β : Type) where
  | again (a : α)
  | done (b : β)

/--
A round that takes something off whenever it goes on.
-/
def Advances (r : Reading σ ε (Round α β)) : Prop :=
  ∀ ⦃s a t⦄, r.run s = .ok (.again a, t) → Source.size t < Source.size s

theorem Strict.advances {r : Reading σ ε (Round α β)} (hr : r.Strict) : r.Advances :=
  fun _ _ _ h => hr h

theorem Advances.done (b : β) : (pure (.done b) : Reading σ ε (Round α β)).Advances := by
  intro s a t h
  cases h

theorem Advances.bind_right {γ : Type} (r : Reading σ ε γ) {f : γ → Reading σ ε (Round α β)}
    (hf : ∀ c, (f c).Advances) : (r >>= f).Advances := by
  intro s a u h
  rw [run_bind] at h
  split at h
  . cases h
  . next c t heq => exact Nat.lt_of_lt_of_le (hf c h) (r.size_le heq)

def loop.go (step : α → Reading σ ε (Round α β)) (advances : ∀ a, (step a).Advances) (a : α) (s : σ) :
    Except ε (β × σ) :=
  match h : (step a).run s with
  | .error e => .error e
  | .ok (.done b, t) => .ok (b, t)
  | .ok (.again a', t) =>
    have := advances a h
    go step advances a' t
termination_by Source.size s

theorem loop.go_size_le {step : α → Reading σ ε (Round α β)} {advances : ∀ a, (step a).Advances} {a : α}
    {s : σ} {b : β} {t : σ} (h : go step advances a s = .ok (b, t)) : Source.size t ≤ Source.size s := by
  fun_induction go step advances a s with
  | case1 => cases h
  | case2 _ _ _ _ heq =>
    cases h
    exact Reading.size_le _ heq
  | case3 _ _ _ _ heq _ ih => exact Nat.le_trans (ih h) (Reading.size_le _ heq)

def loop (step : α → Reading σ ε (Round α β)) (advances : ∀ a, (step a).Advances) (a : α) :
    Reading σ ε β where
  run := loop.go step advances a
  size_le := loop.go_size_le

theorem run_loop (step : α → Reading σ ε (Round α β)) (advances : ∀ a, (step a).Advances) (a : α)
    (s : σ) :
    (loop step advances a).run s =
      match (step a).run s with
      | .error e => .error e
      | .ok (.done b, t) => .ok (b, t)
      | .ok (.again a', t) => (loop step advances a').run t := by
  show loop.go step advances a s = _
  unfold loop.go
  split <;> simp_all [loop]

end Reading

end LexiconAudit
