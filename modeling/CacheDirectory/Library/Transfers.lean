/-
  File:      CacheDirectory/Library/Transfers.lean
  Subject:   SEQUENCES MOVED IN PIECES.

  A call that reads hands out as much as it likes of what was asked for, a call that writes takes
  as much as it likes of what it is given; only nothing at all is a failure. `Source` and `Sink`
  are such calls with the laws they keep, `collect` and `push` the loops around them.

  * `collect_of_le`, `collect_of_lt` -- the loop that reads depends on what the source holds, not
    on how it is cut;
  * `push_spec`, `push_refused` -- the loop that writes leaves a leading part behind, the whole
    exactly when it succeeds, and gives up only where the sink does;
  * `whole` -- how many parts of a sequence are whole when it is broken off.
-/
import Mathlib.Data.List.Basic

namespace CacheDirectory.Library

variable {α σ τ : Type}

/-! ## 1. Reading -/

/-- What one call moves. -/
abbrev Piece (α : Type) : Type := { l : List α // l ≠ [] }

/-- A source is asked for up to `n` elements and hands out a piece, or fails. -/
structure Source (α σ : Type) where
  ask : Nat → σ → Option (Piece α × σ)
  /-- What it hands out, all calls together, up to the failure. -/
  held : σ → List α
  held_none : ∀ {n s}, 0 < n → ask n s = none → held s = []
  held_some : ∀ {n s p t}, ask n s = some (p, t) → p.1.length ≤ n ∧ held s = p.1 ++ held t

namespace Source

/-- Ask until there are `n`. -/
def collect (src : Source α σ) (n : Nat) (got : List α) (s : σ) : Option (List α) × σ :=
  if _h : got.length < n then
    match src.ask (n - got.length) s with
    | none => (none, s)
    | some (p, t) => src.collect n (got ++ p.1) t
  else (some got, s)
termination_by n - got.length
decreasing_by
  have hpiece := List.length_pos_of_ne_nil p.2
  rw [List.length_append]
  omega

variable (src : Source α σ) {n : Nat}

/-- **Enough is held**: the loop takes the front and leaves the rest, however both are cut. -/
theorem collect_of_le (got : List α) (s : σ) (hgot : got.length ≤ n)
    (h : n ≤ got.length + (src.held s).length) :
    ∃ t, src.collect n got s = (some (got ++ (src.held s).take (n - got.length)), t) ∧
      src.held t = (src.held s).drop (n - got.length) := by
  fun_induction collect src n got s with
  | case1 got s hmore hask =>
      rw [src.held_none (by omega) hask, List.length_nil] at h
      omega
  | case2 got s hmore p t hask ih =>
      obtain ⟨hlength, hheld⟩ := src.held_some hask
      rw [hheld, List.length_append] at h
      have hfits : (got ++ p.1).length ≤ n := by
        rw [List.length_append]
        omega
      obtain ⟨u, hloop, hleft⟩ := ih hfits (by rw [List.length_append]; omega)
      have hrest : n - got.length = p.1.length + (n - (got ++ p.1).length) := by
        rw [List.length_append] at hfits ⊢
        omega
      refine ⟨u, ?_, ?_⟩
      · rw [hloop, hheld, hrest, List.take_length_add_append, List.append_assoc]
      · rw [hleft, hheld, hrest, List.drop_length_add_append]
  | case3 got s hmore =>
      have hzero : n - got.length = 0 := by omega
      refine ⟨s, ?_, ?_⟩
      · rw [hzero, List.take_zero, List.append_nil]
      · rw [hzero, List.drop_zero]

/-- **Too little is held**: the loop fails, and everything is gone. -/
theorem collect_of_lt (got : List α) (s : σ) (h : got.length + (src.held s).length < n) :
    ∃ t, src.collect n got s = (none, t) ∧ src.held t = [] := by
  fun_induction collect src n got s with
  | case1 got s hmore hask => exact ⟨s, rfl, src.held_none (by omega) hask⟩
  | case2 got s hmore p t hask ih =>
      obtain ⟨_, hheld⟩ := src.held_some hask
      rw [hheld, List.length_append] at h
      exact ih (by rw [List.length_append]; omega)
  | case3 got s hmore => omega

end Source

/-! ## 2. Writing -/

/-- How much one call takes. -/
abbrev Amount : Type := { k : Nat // 0 < k }

/-- A sink is offered a sequence and takes a leading part of it, or fails. -/
structure Sink (α τ : Type) where
  offer : List α → τ → Option (Amount × τ)
  /-- What it has taken so far. -/
  taken : τ → List α
  taken_some : ∀ {l t k u}, offer l t = some (k, u) →
    k.1 ≤ l.length ∧ taken u = taken t ++ l.take k.1

namespace Sink

/-- Offer until all is taken. -/
def push (snk : Sink α τ) (l : List α) (sent : Nat) (t : τ) : Bool × τ :=
  if _h : sent < l.length then
    match snk.offer (l.drop sent) t with
    | none => (false, t)
    | some (k, u) => snk.push l (sent + k.1) u
  else (true, t)
termination_by l.length - sent
decreasing_by
  exact Nat.sub_lt_sub_left _h (Nat.lt_add_of_pos_right k.2)

variable (snk : Sink α τ)

/-- **What a loop that writes leaves behind**: a leading part, all of it exactly when it says so. -/
theorem push_spec (l : List α) (sent : Nat) (t : τ) (hsent : sent ≤ l.length) :
    ∃ m, sent + m ≤ l.length ∧
      snk.taken (snk.push l sent t).2 = snk.taken t ++ (l.drop sent).take m ∧
      ((snk.push l sent t).1 = true ↔ sent + m = l.length) := by
  fun_induction push snk l sent t with
  | case1 sent t hmore hoffer =>
      refine ⟨0, by omega, by simp, ?_⟩
      simp only [Bool.false_eq_true, false_iff]
      omega
  | case2 sent t hmore k u hoffer ih =>
      obtain ⟨hk, htaken⟩ := snk.taken_some hoffer
      rw [List.length_drop] at hk
      obtain ⟨m, hm, hleft, hdone⟩ := ih (by omega)
      refine ⟨k.1 + m, by omega, ?_, ?_⟩
      · rw [hleft, htaken, List.take_add, List.drop_drop, List.append_assoc]
      · rw [hdone, Nat.add_assoc]
  | case3 sent t hmore =>
      refine ⟨0, by omega, by simp, ?_⟩
      simp only [true_iff]
      omega

/-- A loop that gives up does so because the sink refuses what is left. -/
theorem push_refused (l : List α) (sent : Nat) (t : τ) (h : (snk.push l sent t).1 = false) :
    ∃ rest, rest ≠ [] ∧ snk.offer rest (snk.push l sent t).2 = none := by
  fun_induction push snk l sent t with
  | case1 sent t hmore hoffer =>
      refine ⟨l.drop sent, ?_, hoffer⟩
      rw [Ne, List.drop_eq_nil_iff]
      omega
  | case2 sent t hmore k u hoffer ih => exact ih h
  | case3 sent t hmore => cases h

end Sink

/-! ## 3. Broken off anywhere -/

/-- How many of the parts lie in the first `n` elements of all of them. -/
def whole (n : Nat) : List (List α) → Nat
  | [] => 0
  | p :: ps => if p.length ≤ n then whole (n - p.length) ps + 1 else 0

end CacheDirectory.Library
