/-!
# Answers in stages

Most operations go through several stages, each of which may fail. Where one has an answer, all its
stages have one (`ok_of_bind`), and so a run of it is taken apart stage by stage.
-/

namespace RingCache

variable {ε α β : Type} {x : Except ε α} {f : α → Except ε β} {b : β}

/-- An answer that is computed in two stages. -/
theorem ok_of_bind (h : (x >>= f) = .ok b) : ∃ a, x = .ok a ∧ f a = .ok b := by
  cases x with
  | error e => cases h
  | ok a => exact ⟨a, rfl, h⟩

end RingCache
