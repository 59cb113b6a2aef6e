/-!
Steps in a row.

What is computed step by step ends well when each step does, and fails when one of them does.
-/

namespace Stanza

section Steps

variable {ε α β γ : Type}

/-- Steps in a row end well when each of them does. -/
theorem bind_eq_ok_iff {step : Except ε α} {next : α → Except ε β} {b : β} :
    step >>= next = .ok b ↔ ∃ a, step = .ok a ∧ next a = .ok b := by
  cases step <;> simp [bind, Except.bind]

/-- Two steps of which neither needs the other end well when both do. -/
theorem exists_bind_eq_ok_iff {x : Except ε α} {y : Except ε β} {f : α → β → γ} :
    (∃ c, (x >>= fun a => y >>= fun b => pure (f a b)) = .ok c) ↔
      (∃ a, x = .ok a) ∧ ∃ b, y = .ok b := by
  cases x <;> cases y <;> simp [bind, Except.bind, pure, Except.pure]

theorem exists_map_eq_ok_iff {x : Except ε α} {f : α → β} :
    (∃ b, (x >>= fun a => pure (f a)) = .ok b) ↔ ∃ a, x = .ok a := by
  cases x <;> simp [bind, Except.bind, pure, Except.pure]

/-- A run has at most one result. -/
theorem exists_eq_of_ok [Inhabited α] (x : Except ε α) : ∃ a, ∀ b, x = .ok b → b = a := by
  cases x with
  | error e => exact ⟨default, by simp⟩
  | ok a => exact ⟨a, fun b h => (Except.ok.inj h).symm⟩

/-- A run whose result passes a check has one. -/
theorem exists_ok_of_any {x : Except ε α} {check : α → Bool} (h : x.toOption.any check) :
    ∃ a, x = .ok a ∧ check a := by
  cases x with
  | error e => cases h
  | ok a => exact ⟨a, rfl, h⟩

/-- Steps in a row fail when one of them does. -/
theorem bind_eq_error_iff {step : Except ε α} {next : α → Except ε β} {e : ε} :
    step >>= next = .error e ↔ step = .error e ∨ ∃ a, step = .ok a ∧ next a = .error e := by
  cases step <;> simp [bind, Except.bind]

/-- What is made of a result fails as the result does. -/
theorem map_eq_error_iff {step : Except ε α} {f : α → β} {e : ε} :
    (step >>= fun a => pure (f a)) = .error e ↔ step = .error e := by
  cases step <;> simp [bind, Except.bind, pure, Except.pure]

theorem mapError_eq_error_iff {ε' : Type} {run : Except ε α} {f : ε → ε'} {e : ε'} :
    run.mapError f = .error e ↔ ∃ fault, run = .error fault ∧ f fault = e := by
  cases run with
  | error fault =>
    exact ⟨fun h => ⟨fault, rfl, Except.error.inj h⟩,
      fun ⟨_, hfault, he⟩ => congrArg Except.error (Except.error.inj hfault ▸ he)⟩
  | ok b => exact ⟨nofun, nofun⟩

/-- A step made for each of some things fails when it does for one of them. -/
theorem exists_error_of_mapM {step : α → Except ε β} {xs : List α} {e : ε}
    (h : xs.mapM step = .error e) : ∃ x ∈ xs, step x = .error e := by
  induction xs with
  | nil => simp [pure, Except.pure] at h
  | cons x rest ih =>
    rw [List.mapM_cons] at h
    rcases bind_eq_error_iff.mp h with h | ⟨b, -, h⟩
    · exact ⟨x, List.mem_cons_self, h⟩
    · obtain ⟨y, hy, herror⟩ := ih (map_eq_error_iff.mp h)
      exact ⟨y, List.mem_cons_of_mem _ hy, herror⟩

theorem forall_ok_of_mapM {step : α → Except ε β} {xs : List α} {bs : List β}
    (h : xs.mapM step = .ok bs) : ∀ x ∈ xs, ∃ b, step x = .ok b := by
  induction xs generalizing bs with
  | nil => simp
  | cons x rest ih =>
    rw [List.mapM_cons] at h
    obtain ⟨b, hb, h⟩ := bind_eq_ok_iff.mp h
    obtain ⟨more, hmore, -⟩ := bind_eq_ok_iff.mp h
    exact List.forall_mem_cons.mpr ⟨⟨b, hb⟩, ih hmore⟩

/-- A step that may change a state is followed by the next one where it ends well. -/
theorem run_bind {σ : Type} (step : ExceptT ε (StateM σ) α) (next : α → ExceptT ε (StateM σ) β)
    (state : σ) :
    (step >>= next).run state =
      match step.run state with
      | (.ok a, after) => (next a).run after
      | (.error e, after) => (.error e, after) := by
  change (ExceptT.bind step next) state = _
  rw [ExceptT.run]
  simp only [ExceptT.bind, ExceptT.mk, bind, StateT.bind]
  rcases hstep : step state with ⟨_ | _, after⟩
  · rfl
  · rfl

end Steps

end Stanza
