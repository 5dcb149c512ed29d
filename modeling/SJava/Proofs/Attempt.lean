import SJava.Attempt

namespace SJava

theorem bind_eq_ok {ε α β : Type} {x : Except ε α} {f : α → Except ε β} {b : β} :
    (x >>= f) = .ok b ↔ ∃ a, x = .ok a ∧ f a = .ok b := by
  cases x <;> simp [bind, Except.bind]

theorem map_eq_ok {ε α β : Type} {x : Except ε α} {f : α → β} {b : β} :
    x.map f = .ok b ↔ ∃ a, x = .ok a ∧ f a = b := by
  cases x <;> simp [Except.map]

theorem toOption_eq_some {ε α : Type} {x : Except ε α} {a : α} :
    x.toOption = some a ↔ x = .ok a := by
  cases x <;> simp [Except.toOption]

theorem throw_ne_ok {ε α : Type} {e : ε} {a : α} : (throw e : Except ε α) ≠ .ok a :=
  fun same => nomatch same

variable {σ ε α β : Type}

namespace Attempt

def success? (a : Attempt σ ε α) : Option σ :=
  match a.result with
  | .ok _ => some a.state
  | .error _ => none

theorem success?_eq_some {a : Attempt σ ε α} {t : σ} :
    a.success? = some t ↔ a.state = t ∧ ∃ x, a.result = .ok x := by
  unfold success?
  cases a.result <;> simp

end Attempt

namespace Progress

def success? (p : Progress σ ε α) : Option σ :=
  match p.failure with
  | none => some p.state
  | some _ => none

theorem success?_eq_some {p : Progress σ ε α} {t : σ} :
    p.success? = some t ↔ p.state = t ∧ p.failure = none := by
  unfold success?
  cases p.failure <;> simp

theorem attempt_eq_ok {p : Progress σ ε α} {done : List α} :
    p.attempt.result = .ok done ↔ p.failure = none ∧ p.done = done := by
  unfold attempt
  cases p.failure <;> simp

theorem success?_attempt (p : Progress σ ε α) : p.attempt.success? = p.success? := by
  unfold attempt success?
  cases p.failure <;> rfl

end Progress

namespace Attempt

theorem success?_inSequence (step : σ → β → Attempt σ ε α) (s : σ) (bs : List β) :
    (inSequence step s bs).success? = bs.foldlM (fun t b => (step t b).success?) s := by
  induction bs generalizing s with
  | nil => rfl
  | cons b bs ih =>
      rw [List.foldlM_cons, inSequence]
      cases taken : step s b with
      | mk t result =>
          cases result with
          | error e => rfl
          | ok a => exact ih t

theorem inSequence_map {γ δ : Type} {step : σ → β → Attempt σ ε α} {step' : σ → γ → Attempt σ ε δ}
    {f : β → γ} {g : α → δ} {bs : List β}
    (alike : ∀ b ∈ bs, ∀ s, step' s (f b) = ⟨(step s b).state, (step s b).result.map g⟩) (s : σ) :
    inSequence step' s (bs.map f) =
      ⟨(inSequence step s bs).state, (inSequence step s bs).done.map g,
        (inSequence step s bs).failure⟩ := by
  induction bs generalizing s with
  | nil => rfl
  | cons b bs ih =>
      rw [List.forall_mem_cons] at alike
      rw [List.map_cons, inSequence, inSequence, alike.1]
      cases step s b with
      | mk t result =>
          cases result with
          | error e => rfl
          | ok a =>
              show Progress.mk _ _ _ = _
              rw [ih alike.2]
              rfl

theorem inSequence_state {step : σ → β → Attempt σ ε α} {P : σ → Prop} {s : σ} {bs : List β}
    (start : P s) (next : ∀ t, P t → ∀ b ∈ bs, P (step t b).state) :
    P (inSequence step s bs).state := by
  induction bs generalizing s with
  | nil => exact start
  | cons b bs ih =>
      have after := next s start b (by simp)
      rw [inSequence]
      cases taken : step s b with
      | mk t result =>
          rw [taken] at after
          cases result with
          | error e => exact after
          | ok a => exact ih after fun u holds c member => next u holds c (by simp [member])

theorem failure_inSequence {step : σ → β → Attempt σ ε α} {s : σ} {bs : List β} {e : ε} :
    (inSequence step s bs).failure = some e ↔ ∃ before b after, bs = before ++ b :: after ∧
      (inSequence step s before).failure = none ∧
      (step (inSequence step s before).state b).result = .error e := by
  constructor
  · intro failed
    induction bs generalizing s with
    | nil => cases failed
    | cons b bs ih =>
        rw [inSequence] at failed
        cases taken : step s b with
        | mk t result =>
            cases result with
            | error cause =>
                simp only [taken, Option.some.injEq] at failed
                exact ⟨[], b, bs, rfl, rfl, by rw [← failed, inSequence, taken]⟩
            | ok a =>
                simp only [taken] at failed
                obtain ⟨before, c, after, rfl, passed, refused⟩ := ih failed
                refine ⟨b :: before, c, after, rfl, ?_, ?_⟩ <;>
                · rw [inSequence, taken]
                  assumption
  · rintro ⟨before, b, after, rfl, passed, refused⟩
    induction before generalizing s with
    | nil =>
        rw [List.nil_append, inSequence]
        cases taken : step s b with
        | mk t result =>
            simp only [inSequence, taken] at refused
            subst refused
            rfl
    | cons c before ih =>
        rw [List.cons_append, inSequence]
        rw [inSequence] at passed refused
        cases taken : step s c with
        | mk t result =>
            rw [taken] at passed refused
            cases result with
            | error cause => cases passed
            | ok a => exact ih passed refused

theorem state_inSequence_of_failure {step : σ → β → Attempt σ ε α} {s : σ} {before after : List β}
    {b : β} {e : ε} (passed : (inSequence step s before).failure = none)
    (refused : (step (inSequence step s before).state b).result = .error e) :
    (inSequence step s (before ++ b :: after)).state =
      (step (inSequence step s before).state b).state := by
  induction before generalizing s with
  | nil =>
      rw [List.nil_append, inSequence]
      cases taken : step s b with
      | mk t result =>
          simp only [inSequence, taken] at refused
          subst refused
          simp [inSequence, taken]
  | cons c before ih =>
      rw [List.cons_append, inSequence]
      rw [inSequence] at passed refused ⊢
      cases taken : step s c with
      | mk t result =>
          rw [taken] at passed refused
          cases result with
          | error cause => cases passed
          | ok a => exact ih passed refused

end Attempt

end SJava
