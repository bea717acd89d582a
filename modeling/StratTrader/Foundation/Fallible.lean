/-!
# Computations that may fail

What it takes for one computation behind another to succeed, or to fail in a given way.
-/

namespace StratTrader.Foundation

universe u

variable {ε α β : Type u} {x : Except ε α} {f : α → Except ε β} {e : ε} {b : β}

/-- Both have to succeed. -/
theorem bind_eq_ok_iff : (x >>= f) = .ok b ↔ ∃ a, x = .ok a ∧ f a = .ok b := by
  cases x with
  | error e' => exact ⟨nofun, fun ⟨_, h, _⟩ => nomatch h⟩
  | ok a => exact ⟨fun h => ⟨a, rfl, h⟩, fun ⟨_, ha, h⟩ => Except.ok.inj ha ▸ h⟩

/-- The first one fails, or the second one does behind it. -/
theorem bind_eq_error_iff : (x >>= f) = .error e ↔ x = .error e ∨ ∃ a, x = .ok a ∧ f a = .error e := by
  cases x with
  | error e' =>
    constructor
    · intro h
      exact .inl (congrArg _ (Except.error.inj h))
    · rintro (h | ⟨a, h, -⟩)
      · exact congrArg _ (Except.error.inj h)
      · cases h
  | ok a =>
    constructor
    · intro h
      exact .inr ⟨a, rfl, h⟩
    · rintro (h | ⟨a', h, hf⟩)
      · cases h
      · exact Except.ok.inj h ▸ hf

end StratTrader.Foundation
