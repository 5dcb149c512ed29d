/-!
# Attempts

An attempt at an operation leaves a state behind whether or not it succeeds. `Attempt.inSequence`
makes one attempt after the other until one fails: what the earlier ones did stays done.
-/

namespace SJava

structure Attempt (σ ε α : Type) where
  state : σ
  result : Except ε α

/-- How far a sequence of attempts came: the state left, the values of those that succeeded, and the
error that ended it, if any. -/
structure Progress (σ ε α : Type) where
  state : σ
  done : List α
  failure : Option ε

variable {σ ε α β : Type}

namespace Attempt

/-- An operation that changes nothing when it fails. -/
def ofExcept (s : σ) : Except ε (σ × α) → Attempt σ ε α
  | .ok (t, a) => ⟨t, .ok a⟩
  | .error e => ⟨s, .error e⟩

def test (s : σ) (result : Except ε α) : Attempt σ ε α := ⟨s, result⟩

/-- One attempt for each item of a list, up to the first that fails. -/
def inSequence (step : σ → β → Attempt σ ε α) (s : σ) : List β → Progress σ ε α
  | [] => ⟨s, [], none⟩
  | b :: bs => match step s b with
      | ⟨t, .error e⟩ => ⟨t, [], some e⟩
      | ⟨t, .ok a⟩ =>
          let later := inSequence step t bs
          { later with done := a :: later.done }

end Attempt

def Progress.attempt (p : Progress σ ε α) : Attempt σ ε (List α) where
  state := p.state
  result := match p.failure with
    | some e => .error e
    | none => .ok p.done

end SJava
