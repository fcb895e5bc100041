/-!
# Attempts in sequence

Most checks are attempts one after the other. What a sequence of attempts gives is told by what the
first gives and what the rest gives after it.
-/

namespace Ferry

variable {ε ε' α β : Type}

theorem bind_eq_ok_iff {first : Except ε α} {rest : α → Except ε β} {result : β} :
    (first >>= rest) = .ok result ↔ ∃ value, first = .ok value ∧ rest value = .ok result := by
  cases first with
  | error problem =>
      change Except.error problem = .ok result ↔ _
      simp
  | ok value =>
      change rest value = .ok result ↔ _
      simp

theorem bind_eq_error_iff {first : Except ε α} {rest : α → Except ε β} {problem : ε} :
    (first >>= rest) = .error problem ↔
      first = .error problem ∨ ∃ value, first = .ok value ∧ rest value = .error problem := by
  cases first with
  | error other =>
      change Except.error other = .error problem ↔ _
      simp
  | ok value =>
      change rest value = .error problem ↔ _
      simp

/-- Another account of a problem does not change what is given. -/
theorem mapError_eq_ok_iff {result : Except ε α} {account : ε → ε'} {value : α} :
    result.mapError account = .ok value ↔ result = .ok value := by
  cases result with
  | error problem => exact iff_of_false nofun nofun
  | ok other =>
      change Except.ok other = .ok value ↔ _
      rw [Except.ok.injEq, Except.ok.injEq]

end Ferry
