/-!
Steps that are tried one after the other, each whatever became of those before it. A step leaves a
state whether it succeeds or fails, and the next one goes on from there, so what every step keeps is
kept by all of them (`attemptAll_keeps`).
-/

namespace MeshControl

variable {ε σ α : Type}

/-- What a step comes to, and the state that it leaves. -/
def attempt (step : EStateM ε σ α) (before : σ) : Except ε α × σ :=
  match step before with
  | .ok value after => (.ok value, after)
  | .error e after => (.error e, after)

/-- What each of some steps comes to, and the state behind the last. -/
def attemptAll : List (EStateM ε σ α) → σ → List (Except ε α) × σ
  | [], before => ([], before)
  | step :: steps, before =>
    let (result, middle) := attempt step before
    let (results, after) := attemptAll steps middle
    (result :: results, after)

variable {step : EStateM ε σ α} {steps : List (EStateM ε σ α)} {before after : σ}

theorem attempt_of_eq_ok {value : α} (h : step before = .ok value after) :
    attempt step before = (.ok value, after) := by
  simp only [attempt, h]

theorem attempt_of_eq_error {e : ε} (h : step before = .error e after) :
    attempt step before = (.error e, after) := by
  simp only [attempt, h]

theorem eq_ok_of_attempt {value : α} (h : (attempt step before).1 = .ok value) :
    step before = .ok value (attempt step before).2 := by
  cases hstep : step before with
  | ok found middle =>
    rw [attempt_of_eq_ok hstep] at h ⊢
    rw [Except.ok.inj h]
  | error e middle =>
    rw [attempt_of_eq_error hstep] at h
    cases h

theorem attemptAll_cons (step : EStateM ε σ α) (steps : List (EStateM ε σ α)) (before : σ) :
    attemptAll (step :: steps) before =
      ((attempt step before).1 :: (attemptAll steps (attempt step before).2).1,
        (attemptAll steps (attempt step before).2).2) :=
  rfl

theorem attemptAll_cons_of_eq_ok {value : α} (h : step before = .ok value after)
    (steps : List (EStateM ε σ α)) :
    attemptAll (step :: steps) before =
      (.ok value :: (attemptAll steps after).1, (attemptAll steps after).2) := by
  rw [attemptAll_cons, attempt_of_eq_ok h]

theorem attemptAll_cons_of_eq_error {e : ε} (h : step before = .error e after)
    (steps : List (EStateM ε σ α)) :
    attemptAll (step :: steps) before =
      (.error e :: (attemptAll steps after).1, (attemptAll steps after).2) := by
  rw [attemptAll_cons, attempt_of_eq_error h]

/-- Steps that all succeed begin with one that does. -/
theorem of_attemptAll_cons_eq_map_ok {values : List α}
    (h : (attemptAll (step :: steps) before).1 = values.map .ok) :
    ∃ value later middle, values = value :: later ∧ step before = .ok value middle ∧
      (attemptAll steps middle).1 = later.map .ok := by
  rw [attemptAll_cons] at h
  cases values with
  | nil => cases h
  | cons value later =>
    obtain ⟨hfirst, hlater⟩ := List.cons.inj h
    exact ⟨value, later, _, rfl, eq_ok_of_attempt hfirst, hlater⟩

/-- What every step keeps, all of them keep. -/
theorem attemptAll_keeps {motive : σ → Prop}
    (hstep : ∀ step ∈ steps, ∀ state, motive state → motive (attempt step state).2)
    (hbefore : motive before) : motive (attemptAll steps before).2 := by
  induction steps generalizing before with
  | nil => exact hbefore
  | cons step steps ih =>
    rw [attemptAll_cons]
    exact ih (fun other hother => hstep other (List.mem_cons_of_mem _ hother))
      (hstep step (List.mem_cons_self ..) _ hbefore)

end MeshControl
