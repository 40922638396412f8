/-
  File:      CacheDirectory/Library/Guarded.lean
  Subject:   OPERATIONS THAT CHECK EVERYTHING BEFORE THEY WRITE.

  A guarded operation runs its checks in order; the first one that holds names the failure, and
  nothing is written. When none holds the action runs and cannot fail (`guarded_cases`). One lemma
  then speaks for every failure path of every such operation (`guarded_failed`), one for every
  success (`guarded_done`), and an invariant needs the action alone (`guarded_keeps`).
-/
import Mathlib.Logic.Basic

namespace CacheDirectory.Library

variable {σ ε α : Type}

/-- The failure of the first check that holds. -/
def firstFailure : List (Bool × ε) → Option ε
  | [] => none
  | (true, e) :: _ => some e
  | (false, _) :: cs => firstFailure cs

@[simp] theorem firstFailure_nil : firstFailure ([] : List (Bool × ε)) = none := rfl

@[simp] theorem firstFailure_cons (b : Bool) (e : ε) (cs : List (Bool × ε)) :
    firstFailure ((b, e) :: cs) = if b then some e else firstFailure cs := by
  cases b <;> rfl

theorem firstFailure_eq_none {cs : List (Bool × ε)} :
    firstFailure cs = none ↔ ∀ c ∈ cs, c.1 = false := by
  induction cs with
  | nil => simp
  | cons c cs ih =>
      obtain ⟨b, e⟩ := c
      cases b <;> simp [ih]

/-- A failure is that of a check that holds. -/
theorem mem_of_firstFailure {cs : List (Bool × ε)} {e : ε} (h : firstFailure cs = some e) :
    (true, e) ∈ cs := by
  induction cs with
  | nil => cases h
  | cons c cs ih =>
      obtain ⟨b, e'⟩ := c
      cases b with
      | true =>
          cases h
          exact List.mem_cons_self
      | false => exact List.mem_cons_of_mem _ (ih h)

/-- A failure that is not that of the first check: this one passed. -/
theorem firstFailure_past {b : Bool} {e f : ε} {cs : List (Bool × ε)}
    (h : firstFailure ((b, e) :: cs) = some f) (hne : e ≠ f) :
    b = false ∧ firstFailure cs = some f := by
  cases b with
  | true =>
      cases h
      exact absurd rfl hne
  | false => exact ⟨rfl, h⟩

theorem firstFailure_append (cs ds : List (Bool × ε)) :
    firstFailure (cs ++ ds) = (firstFailure cs).or (firstFailure ds) := by
  induction cs with
  | nil => simp
  | cons c cs ih =>
      obtain ⟨b, e⟩ := c
      cases b <;> simp [ih]

/-- Run the checks on `s`, then the action. -/
def guarded (checks : List (Bool × ε)) (s : σ) (act : α × σ) : Except ε α × σ :=
  match firstFailure checks with
  | some e => (.error e, s)
  | none => (.ok act.1, act.2)

variable {checks : List (Bool × ε)} {s : σ} {act : α × σ}

theorem guarded_of_none (h : firstFailure checks = none) :
    guarded checks s act = (.ok act.1, act.2) := by
  unfold guarded
  rw [h]

/-- **The two ways a guarded operation ends**: refused with nothing written, or every check passed
    and the action run. -/
theorem guarded_cases (checks : List (Bool × ε)) (s : σ) (act : α × σ) :
    (∃ e, guarded checks s act = (.error e, s)) ∨
      firstFailure checks = none ∧ guarded checks s act = (.ok act.1, act.2) := by
  cases hf : firstFailure checks with
  | none => exact .inr ⟨rfl, guarded_of_none hf⟩
  | some e =>
      refine .inl ⟨e, ?_⟩
      unfold guarded
      rw [hf]

/-- **A failed guarded operation leaves the state alone.** -/
theorem guarded_failed {e : ε} (h : (guarded checks s act).1 = .error e) :
    (guarded checks s act).2 = s := by
  rcases guarded_cases checks s act with ⟨f, heq⟩ | ⟨_, heq⟩
  · rw [heq]
  · rw [heq] at h
    cases h

/-- A failure is that of the first check that holds. -/
theorem firstFailure_of_guarded {e : ε} (h : (guarded checks s act).1 = .error e) :
    firstFailure checks = some e := by
  unfold guarded at h
  cases hf : firstFailure checks with
  | none =>
      rw [hf] at h
      cases h
  | some e' =>
      rw [hf] at h
      cases h
      rfl

theorem mem_of_guarded_failed {e : ε} (h : (guarded checks s act).1 = .error e) :
    (true, e) ∈ checks := mem_of_firstFailure (firstFailure_of_guarded h)

/-- **A successful guarded operation passed every check and ran its action.** -/
theorem guarded_done {a : α} (h : (guarded checks s act).1 = .ok a) :
    firstFailure checks = none ∧ act.1 = a ∧ (guarded checks s act).2 = act.2 := by
  rcases guarded_cases checks s act with ⟨f, heq⟩ | ⟨hpass, heq⟩
  · rw [heq] at h
    cases h
  · rw [heq] at h ⊢
    cases h
    exact ⟨hpass, rfl, rfl⟩

/-- It succeeds exactly when every check passes. -/
theorem guarded_ok_iff : (∃ a, (guarded checks s act).1 = .ok a) ↔ firstFailure checks = none := by
  constructor
  · rintro ⟨a, ha⟩
    exact (guarded_done ha).1
  · intro hpass
    exact ⟨act.1, by rw [guarded_of_none hpass]⟩

/-- What holds of the state and is kept by the action is kept by the operation. -/
theorem guarded_keeps {P : σ → Prop} (hs : P s) (hact : firstFailure checks = none → P act.2) :
    P (guarded checks s act).2 := by
  rcases guarded_cases checks s act with ⟨e, heq⟩ | ⟨hpass, heq⟩
  · rw [heq]
    exact hs
  · rw [heq]
    exact hact hpass

end CacheDirectory.Library
