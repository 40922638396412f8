/-
  File:      CacheDirectory/Library/Traces.lean
  Subject:   RUNS THAT DIFFER IN STEPS NOBODY NOTICES, OR IN THE ORDER OF THEIR STEPS.

  A view of a state is what somebody sees of it; a step is blind behind the view when the view of
  its result and its report go by the view alone.

  * `reports` -- what the steps of a run report, each report beside its step;
  * `seen_of_own`, `seen_of_silent` -- steps that leave the view alone may be left out;
  * `Swapped` -- runs that come from each other by exchanging independent neighbours, and
    `swapped_of_keys`: so do runs that have the same steps in the same order at every key;
  * `Swapped.filter_eq` -- steps that are not independent stay in their order;
  * `seen_of_swapped` -- such runs end in the same view, with the same reports;
  * `seen_of_again` -- runs that make some of their steps several times in a row.
-/
import CacheDirectory.Library.Runs
import Mathlib.Data.List.Basic

namespace CacheDirectory.Library

variable {σ ι ω ν κ : Type}

/-! ## 1. Reports and views -/

/-- What is reported of every step of a run. -/
def reports (step : ι → σ → σ) (out : ι → σ → ω) (s : σ) : List ι → List (ι × ω)
  | [] => []
  | i :: is => (i, out i s) :: reports step out (step i s) is

/-- The step goes by the view: from states that look alike it goes to states that look alike, and
    reports the same. -/
structure Blind (step : ι → σ → σ) (out : ι → σ → ω) (view : σ → ν) (i : ι) : Prop where
  state : ∀ {s t}, view s = view t → view (step i s) = view (step i t)
  report : ∀ {s t}, view s = view t → out i s = out i t

section Views

variable {step : ι → σ → σ} {out : ι → σ → ω} {view : σ → ν}

/-- A step that does not read what a view blanks. -/
theorem blind_of_blanked {blank : σ → σ} {i : ι}
    (hstate : ∀ s, blank (step i (blank s)) = blank (step i s))
    (hreport : ∀ s, out i (blank s) = out i s) : Blind step out blank i where
  state {s t} h := by rw [← hstate s, h, hstate t]
  report {s t} h := by rw [← hreport s, h, hreport t]

/-- **Steps of others may be left out**, under an invariant that all steps keep: those of others
    leave the view alone, and one's own go by the view. -/
theorem seen_of_own {Inv : σ → Prop} {own : ι → Bool} : ∀ (is : List ι),
    (∀ i ∈ is, ∀ s, Inv s → Inv (step i s)) →
    (∀ i ∈ is, own i = false → ∀ s, Inv s → view (step i s) = view s) →
    (∀ i ∈ is, own i = true → ∀ s t, Inv s → Inv t → view s = view t →
      view (step i s) = view (step i t) ∧ out i s = out i t) →
    ∀ {s t : σ}, Inv s → Inv t → view s = view t →
      view (after step s is) = view (after step t (is.filter own)) ∧
        (reports step out s is).filter (fun x => own x.1) = reports step out t (is.filter own)
  | [], _, _, _, _, _, _, _, h => ⟨h, rfl⟩
  | i :: is, hkeep, hother, hown, s, t, hs, ht, h => by
      have hmem := @List.mem_cons_self _ i is
      have hrest := @seen_of_own Inv own is (fun j hj => hkeep j (List.mem_cons_of_mem _ hj))
        (fun j hj => hother j (List.mem_cons_of_mem _ hj))
        fun j hj => hown j (List.mem_cons_of_mem _ hj)
      cases hi : own i with
      | false =>
          rw [after, reports, List.filter_cons_of_neg (by simp [hi]),
            List.filter_cons_of_neg (by simp [hi])]
          exact hrest (hkeep i hmem s hs) ht ((hother i hmem hi s hs).trans h)
      | true =>
          obtain ⟨hstate, hreport⟩ := hown i hmem hi s t hs ht h
          obtain ⟨hview, hreports⟩ := hrest (hkeep i hmem s hs) (hkeep i hmem t ht) hstate
          rw [List.filter_cons_of_pos hi, after, after, reports, reports,
            List.filter_cons_of_pos (by exact hi), hreports, hreport]
          exact ⟨hview, rfl⟩

/-- **Steps that leave the view alone may be left out.** -/
theorem seen_of_silent {loud : ι → Bool}
    (hsilent : ∀ i s, loud i = false → view (step i s) = view s)
    (hloud : ∀ i, loud i = true → Blind step out view i) (is : List ι) {s t : σ}
    (h : view s = view t) :
    view (after step s is) = view (after step t (is.filter loud)) ∧
      (reports step out s is).filter (fun x => loud x.1) =
        reports step out t (is.filter loud) :=
  @seen_of_own σ ι ω ν step out view (fun _ => True) loud is (fun _ _ _ _ => trivial)
    (fun i _ hi s _ => hsilent i s hi)
    (fun i _ hi _ _ _ _ h => ⟨(hloud i hi).state h, (hloud i hi).report h⟩) s t trivial trivial h

/-- Blind steps lead from states that look alike to states that look alike. -/
theorem seen_of_blind : ∀ (is : List ι), (∀ i ∈ is, Blind step out view i) → ∀ {s t : σ},
    view s = view t → view (after step s is) = view (after step t is) ∧
      reports step out s is = reports step out t is
  | [], _, _, _, h => ⟨h, rfl⟩
  | i :: is, hblind, _, _, h => by
      have hi := hblind i List.mem_cons_self
      obtain ⟨hrest, hreports⟩ :=
        seen_of_blind is (fun j hj => hblind j (List.mem_cons_of_mem _ hj)) (hi.state h)
      rw [after, after, reports, reports, hreports, hi.report h]
      exact ⟨hrest, rfl⟩

end Views

/-! ## 2. Exchanging neighbours -/

/-- One run comes from the other by exchanging independent neighbours. -/
inductive Swapped (indep : ι → ι → Prop) : List ι → List ι → Prop where
  | nil : Swapped indep [] []
  | cons (i : ι) {is js : List ι} (h : Swapped indep is js) : Swapped indep (i :: is) (i :: js)
  | swap {i j : ι} (is : List ι) (h : indep i j) : Swapped indep (j :: i :: is) (i :: j :: is)
  | trans {is js ks : List ι} (h : Swapped indep is js) (h' : Swapped indep js ks) :
      Swapped indep is ks

namespace Swapped

variable {indep : ι → ι → Prop} {is js : List ι}

theorem refl : ∀ is : List ι, Swapped indep is is
  | [] => .nil
  | i :: is => .cons i (refl is)

theorem mem_iff (h : Swapped indep is js) (i : ι) : i ∈ is ↔ i ∈ js := by
  induction h with
  | nil => exact Iff.rfl
  | cons j _ ih => rw [List.mem_cons, List.mem_cons, ih]
  | swap is _ =>
      rw [List.mem_cons, List.mem_cons, List.mem_cons, List.mem_cons]
      exact or_left_comm
  | trans _ _ ih ih' => exact ih.trans ih'

/-- A step comes to the front past steps it is independent of. -/
theorem to_front {i : ι} : ∀ (pre post : List ι), (∀ j ∈ pre, indep i j) →
    Swapped indep (pre ++ i :: post) (i :: (pre ++ post))
  | [], _, _ => refl _
  | j :: pre, post, h => by
      have hrest := to_front pre post fun k hk => h k (List.mem_cons_of_mem _ hk)
      exact .trans (.cons j hrest) (.swap _ (h j List.mem_cons_self))

/-- Steps no two of which are independent keep their order. -/
theorem filter_eq {p : ι → Bool} (hp : ∀ i j, indep i j → p i = true → p j = false)
    (h : Swapped indep is js) : is.filter p = js.filter p := by
  induction h with
  | nil => rfl
  | cons i _ ih => rw [List.filter_cons, List.filter_cons, ih]
  | @swap i j is hij =>
      cases hi : p i with
      | false =>
          rw [List.filter_cons, List.filter_cons_of_neg (by simp [hi]),
            List.filter_cons_of_neg (by simp [hi]), List.filter_cons]
      | true =>
          have hj := hp i j hij hi
          rw [List.filter_cons_of_neg (by simp [hj]), List.filter_cons_of_pos hi,
            List.filter_cons_of_pos hi, List.filter_cons_of_neg (by simp [hj])]
  | trans _ _ ih ih' => exact ih.trans ih'

end Swapped

/-- The steps have keys, and none in common. -/
structure Apart (keys : κ → ι → Bool) (i j : ι) : Prop where
  left : ∃ k, keys k i = true
  right : ∃ k, keys k j = true
  apart : ∀ k, keys k i = true → keys k j = false

/-- **Runs with the same steps in the same order at every key.** -/
theorem swapped_of_keys {keys : κ → ι → Bool} {js : List ι} : ∀ {is : List ι},
    (∀ i ∈ is, ∃ k, keys k i = true) → (∀ j ∈ js, ∃ k, keys k j = true) →
      (∀ k, js.filter (keys k) = is.filter (keys k)) → Swapped (Apart keys) js is := by
  intro is
  induction is generalizing js with
  | nil =>
      intro _ hjs h
      cases js with
      | nil => exact .nil
      | cons j js =>
          obtain ⟨k, hk⟩ := hjs j List.mem_cons_self
          have hj := h k
          rw [List.filter_nil, List.filter_cons_of_pos hk] at hj
          cases hj
  | cons i is ih =>
      intro his hjs h
      obtain ⟨k, hk⟩ := his i List.mem_cons_self
      have hi := h k
      rw [List.filter_cons_of_pos hk] at hi
      obtain ⟨pre, post, rfl, hpre, -, -⟩ := List.filter_eq_cons_iff.mp hi
      -- what shares a key with `i` in front of it would be `i`, and have the key `k`
      have hpast : ∀ j ∈ pre, Apart keys i j := by
        intro j hj
        refine ⟨⟨k, hk⟩, hjs j (List.mem_append_left _ hj), fun k' hk' => ?_⟩
        cases hkj : keys k' j with
        | false => rfl
        | true =>
            have hfirst := h k'
            rw [List.filter_append, List.filter_cons_of_pos hk',
              List.filter_cons_of_pos hk'] at hfirst
            obtain ⟨x, xs, hxs⟩ := List.exists_cons_of_ne_nil
              (List.ne_nil_of_mem (List.mem_filter.mpr ⟨hj, hkj⟩))
            rw [hxs, List.cons_append] at hfirst
            have hmem : x ∈ pre.filter (keys k') := hxs ▸ List.mem_cons_self
            rw [(List.cons.inj hfirst).1] at hmem
            exact absurd hk (hpre i (List.mem_filter.mp hmem).1)
      refine .trans (.to_front pre post hpast) (.cons i (ih ?_ ?_ fun k' => ?_))
      · exact fun j hj => his j (List.mem_cons_of_mem _ hj)
      · intro j hj
        refine hjs j (List.mem_append.mpr ((List.mem_append.mp hj).imp_right ?_))
        exact List.mem_cons_of_mem _
      · have hall := h k'
        rw [List.filter_append] at hall ⊢
        cases hk' : keys k' i with
        | false =>
            rw [List.filter_cons_of_neg (by simp [hk']),
              List.filter_cons_of_neg (by simp [hk'])] at hall
            exact hall
        | true =>
            have hnone : pre.filter (keys k') = [] := by
              refine List.filter_eq_nil_iff.mpr fun j hj => ?_
              rw [(hpast j hj).apart k' hk']
              exact Bool.false_ne_true
            rw [hnone, List.filter_cons_of_pos hk', List.nil_append,
              List.filter_cons_of_pos hk'] at hall
            rw [hnone]
            exact (List.cons.inj hall).2

/-! ## 3. What is seen of exchanged runs -/

section Exchanged

variable {step : ι → σ → σ} {out : ι → σ → ω} {view : σ → ν} {indep : ι → ι → Prop}

/-- Neither of two steps notices whether the other was made, and their order cannot be seen. -/
structure Exchangeable (step : ι → σ → σ) (out : ι → σ → ω) (view : σ → ν) (i j : ι) : Prop where
  state : ∀ s, view (step i (step j s)) = view (step j (step i s))
  left : ∀ s, out i (step j s) = out i s
  right : ∀ s, out j (step i s) = out j s

/-- **Exchanging neighbours that commute is not seen**: the runs end in the same view, and the
    reports are exchanged as the steps are. -/
theorem seen_of_swapped {is js : List ι} (h : Swapped indep is js) :
    (∀ i ∈ is, Blind step out view i) →
      (∀ i ∈ is, ∀ j ∈ is, indep i j → Exchangeable step out view i j) → ∀ {s t : σ},
        view s = view t → view (after step s is) = view (after step t js) ∧
          Swapped (fun x y => indep x.1 y.1) (reports step out s is) (reports step out t js) := by
  induction h with
  | nil => exact fun _ _ _ _ hst => ⟨hst, .nil⟩
  | cons i _ ih =>
      intro hblind hcomm s t hst
      have hi := hblind i List.mem_cons_self
      obtain ⟨hrest, hreports⟩ := ih (fun j hj => hblind j (List.mem_cons_of_mem _ hj))
        (fun j hj k hk => hcomm j (List.mem_cons_of_mem _ hj) k (List.mem_cons_of_mem _ hk))
        (hi.state hst)
      rw [reports, reports, hi.report hst]
      exact ⟨hrest, .cons _ hreports⟩
  | @swap i j is hij =>
      intro hblind hcomm s t hst
      have hmem : i ∈ j :: i :: is := List.mem_cons_of_mem _ List.mem_cons_self
      have hi := hblind i hmem
      have hj := hblind j List.mem_cons_self
      have hrest := fun k hk => hblind k (List.mem_cons_of_mem _ (List.mem_cons_of_mem _ hk))
      have hc := hcomm i hmem j List.mem_cons_self hij
      have hstate : view (step i (step j s)) = view (step j (step i t)) :=
        (hi.state (hj.state hst)).trans (hc.state t)
      obtain ⟨hends, hreports⟩ := seen_of_blind is hrest hstate
      have hout_i : out i (step j s) = out i t := (hc.left s).trans (hi.report hst)
      have hout_j : out j (step i t) = out j s := (hc.right t).trans (hj.report hst).symm
      rw [reports, reports, reports, reports, hreports, hout_i, hout_j]
      exact ⟨hends, .swap _ hij⟩
  | trans h _ ih ih' =>
      intro hblind hcomm s t hst
      obtain ⟨hends, hreports⟩ := ih hblind hcomm (t := s) rfl
      obtain ⟨hends', hreports'⟩ := ih' (fun i hi => hblind i ((h.mem_iff i).mpr hi))
        (fun i hi j hj => hcomm i ((h.mem_iff i).mpr hi) j ((h.mem_iff j).mpr hj)) hst
      exact ⟨hends.trans hends', .trans hreports hreports'⟩

end Exchanged

/-! ## 4. Steps made again -/

section Again

variable {step : ι → σ → σ} {view : σ → ν} {again : ι → ι → Prop}

/-- A burst of one step, each time as it is made again, looks like one of them. -/
theorem burst_seen (hview : ∀ i {s t}, view s = view t → view (step i s) = view (step i t))
    (habsorbed : ∀ i j s, again i j → view (step j (step i s)) = view (step i s) ∨
      view (step j (step i s)) = view (step j s)) :
    ∀ (is : List ι) (i : ι) {s t : σ}, (i :: is).Pairwise again → view t = view (step i s) →
      ∃ k ∈ i :: is, view (after step t is) = view (step k s)
  | [], i, _, _, _, h => ⟨i, List.mem_cons_self, h⟩
  | j :: is, i, s, t, hagain, h => by
      obtain ⟨hi, his⟩ := List.pairwise_cons.mp hagain
      rcases habsorbed i j s (hi j List.mem_cons_self) with hfirst | hlast
      · -- what was made again is not noticed, so `i` goes on in front of the rest
        have hrest : (i :: is).Pairwise again :=
          List.pairwise_cons.mpr ⟨fun k hk => hi k (List.mem_cons_of_mem _ hk),
            (List.pairwise_cons.mp his).2⟩
        obtain ⟨k, hk, hseen⟩ := burst_seen hview habsorbed is i (s := s) (t := step j t) hrest
          ((hview j h).trans hfirst)
        refine ⟨k, ?_, hseen⟩
        rcases List.mem_cons.mp hk with rfl | hk
        · exact List.mem_cons_self
        · exact List.mem_cons_of_mem _ (List.mem_cons_of_mem _ hk)
      · obtain ⟨k, hk, hseen⟩ := burst_seen hview habsorbed is j (s := s) (t := step j t) his
          ((hview j h).trans hlast)
        exact ⟨k, List.mem_cons_of_mem _ hk, hseen⟩

/-- **Steps made again are not noticed**, when one made right behind itself leaves what one of the
    two leaves: the run looks like one that makes each step once. -/
theorem seen_of_again (hview : ∀ i {s t}, view s = view t → view (step i s) = view (step i t))
    (habsorbed : ∀ i j s, again i j → view (step j (step i s)) = view (step i s) ∨
      view (step j (step i s)) = view (step j s)) :
    ∀ (bursts : List (List ι)), (∀ b ∈ bursts, b ≠ [] ∧ b.Pairwise again) → ∀ {s t : σ},
      view s = view t → ∃ once, List.Forall₂ (fun i b => i ∈ b) once bursts ∧
        view (after step s bursts.flatten) = view (after step t once)
  | [], _, _, _, h => ⟨[], .nil, h⟩
  | [] :: _, hbursts, _, _, _ => absurd rfl (hbursts [] List.mem_cons_self).1
  | (i :: is) :: bursts, hbursts, s, t, h => by
      have hburst := (hbursts (i :: is) List.mem_cons_self).2
      obtain ⟨k, hk, hseen⟩ := burst_seen hview habsorbed is i hburst (hview i h)
      obtain ⟨once, honce, hrest⟩ := seen_of_again hview habsorbed bursts
        (fun b hb => hbursts b (List.mem_cons_of_mem _ hb)) hseen
      refine ⟨k :: once, .cons hk honce, ?_⟩
      rw [List.flatten_cons, after_append]
      exact hrest

end Again

end CacheDirectory.Library
