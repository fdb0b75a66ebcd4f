/-
This file takes apart computations that may fail.
-/

namespace EntityFilter

variable {Fault First Last : Type}

@[simp] theorem ok_bind (value : First) (next : First → Except Fault Last) :
    (Except.ok value >>= next) = next value :=
  rfl

theorem throw_bind (fault : Fault) (next : First → Except Fault Last) :
    ((throw fault : Except Fault First) >>= next) = throw fault :=
  rfl

theorem throw_ne_ok {fault : Fault} {result : Last} :
    (throw fault : Except Fault Last) ≠ .ok result :=
  nofun

theorem pure_eq_ok {first result : Last} :
    (pure first : Except Fault Last) = .ok result ↔ first = result :=
  ⟨Except.ok.inj, congrArg _⟩

/-- A computation in two steps succeeds when both steps do. -/
theorem bind_eq_ok {first : Except Fault First} {next : First → Except Fault Last}
    {result : Last} :
    (first >>= next) = .ok result ↔ ∃ middle, first = .ok middle ∧ next middle = .ok result := by
  cases first <;> simp [bind, Except.bind]

end EntityFilter
