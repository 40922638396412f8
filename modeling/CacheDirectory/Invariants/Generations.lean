/-
  File:      CacheDirectory/Invariants/Generations.lean
  Subject:   ONE CURRENT GENERATION PER STATE.

  The invariant is the agreement of the records with the per-state map: a current record carries
  the generation the map holds for its state. A registration is admitted only at or above that
  generation, and one above it supersedes what is below; recovery rebuilds the map from the
  records it installs, and refuses a snapshot in which two current generations of a state meet.

  * `oneGeneration_of_kept`, `oneGeneration_of_committed`, `oneGeneration_install` -- what each
    kind of step does to it;
  * `current_agrees_with_map` -- it holds in every state of every run, recovery of any bytes
    included.
-/
import CacheDirectory.Invariants.Failures

namespace CacheDirectory

open Library

namespace Directory

/-- Every current record carries the current generation of its state. -/
def OneGeneration (d : Directory) : Prop :=
  ∀ r ∈ d.records, r.current = true → d.currentGen r.stateId = some r.stateGeneration

end Directory

open Directory

theorem oneGeneration_of_kept {d d' : Directory} (h : d.OneGeneration) (hk : RecordsKept d d') :
    d'.OneGeneration := by
  intro r' hr' hcur
  obtain ⟨r, hr, hrr⟩ := hk.origin hr'
  rw [hk.currentGen, hrr.stateId, hrr.stateGeneration]
  exact h r hr (hrr.current hcur)

theorem oneGeneration_of_committed {d d' : Directory} {record r : DirectoryRecord}
    (h : d.OneGeneration) (hc : Committed d record r d') : d'.OneGeneration := by
  intro x hx hcur
  have hmap : d'.currentGen x.stateId =
      if r.stateId = x.stateId then some r.stateGeneration else d.currentGen x.stateId := by
    unfold Directory.currentGen
    rw [hc.generations, KeyedMap.find_put]
    split <;> rfl
  rw [hc.records] at hx
  rcases List.mem_append.mp hx with hx | hx
  · obtain ⟨y, hy, hyx⟩ := exists_of_forall₂ (forall₂_supersedeFor d r) hx
    have hold := h y hy (hyx.current hcur)
    rw [← hyx.stateId, ← hyx.stateGeneration] at hold
    by_cases hs : r.stateId = x.stateId
    · -- an older generation would have been superseded, a newer one refuses the registration
      rw [← hs] at hold
      have hnot := hc.notBelow _ hold
      have hle : x.stateGeneration.value ≤ r.stateGeneration.value := UInt64.not_lt.mp hnot
      have heq : r.stateGeneration = x.stateGeneration := by
        refine StrongValue.ext (UInt64.le_antisymm (UInt64.not_lt.mp fun hlt => ?_) hle)
        exact supersedeFor_older hx hcur hs.symm hold hlt hlt
      rw [hmap, if_pos hs, heq]
    · rw [hmap, if_neg hs]
      exact hold
  · rw [List.mem_singleton.mp hx] at hmap ⊢
    rw [hmap, if_pos rfl]

/-- The records of an installed snapshot agree with the map that was rebuilt from them. -/
theorem oneGeneration_install {s : Snapshot} (hs : s.Sound) (d : Directory) :
    (d.install s).OneGeneration := by
  intro r' hr' hcur
  obtain ⟨r, hr, rfl⟩ := List.mem_map.mp hr'
  show ((currentGenerations (s.records.map recoverRecord)).find r.stateId).map Prod.snd =
    some r.stateGeneration
  rw [currentGenerations_recovered, currentGenerations_find hs.generations hr hcur]
  rfl

/-- **The agreement holds along every run, recovery of any bytes included.** -/
theorem oneGeneration_reached {F : Type} [ScoreArith F] {ops : List Operation} {d : Directory}
    (hd : Reached F ops d) : d.OneGeneration :=
  reached_invariant (fun r hr => by cases hr) oneGeneration_of_kept oneGeneration_of_committed
    oneGeneration_install hd

/-- Two current records of one state are of one generation. -/
theorem current_generation_unique {d : Directory} (h : d.OneGeneration) {r r' : DirectoryRecord}
    (hr : r ∈ d.records) (hr' : r' ∈ d.records) (hcur : r.current = true)
    (hcur' : r'.current = true) (hs : r.stateId = r'.stateId) :
    r.stateGeneration = r'.stateGeneration := by
  have h1 := h r hr hcur
  have h2 := h r' hr' hcur'
  rw [hs, h2] at h1
  exact (Option.some.inj h1).symm

theorem noRegression_of_oneGeneration {d : Directory} (h : d.OneGeneration) :
    NoRegression d.records := by
  intro r hr r' hr' hcur hcur' hs
  rw [current_generation_unique h hr hr' hcur hcur' hs]
  exact UInt64.lt_irrefl _

/-- A registration above the current generation leaves nothing older of its state current. -/
theorem registerEntry_supersedes {d : Directory} {record r : DirectoryRecord}
    {clk : Nat → TimestampNs} {cg : StateGeneration}
    (hok : (d.registerEntry record clk).1 = .ok r)
    (hcg : d.currentGen record.stateId = some cg)
    (hlt : cg.value < record.stateGeneration.value) :
    ∀ x ∈ (d.registerEntry record clk).2.records, x.current = true →
      x.stateId = record.stateId → ¬ x.stateGeneration.value < record.stateGeneration.value := by
  intro x hx hcur hs
  cases hcheck : d.checkRegistration record with
  | some f =>
      rw [registerEntry_rejected hcheck] at hok
      cases hok
  | none =>
      have hc := committed_registerEntry clk hcheck
      rw [hc.records] at hx
      rcases List.mem_append.mp hx with hx | hx
      · rw [← hc.stateGeneration] at hlt ⊢
        rw [← hc.stateId] at hs hcg
        exact supersedeFor_older hx hcur hs hcg hlt
      · rw [List.mem_singleton.mp hx]
        exact UInt64.lt_irrefl _

/-- **One current generation per state, along every run**: recovery may be given any bytes. -/
theorem current_agrees_with_map (F : Type) [ScoreArith F] (ops : List Operation) (d : Directory)
    (hd : Reached F ops d) :
    (∀ r ∈ d.records, r.current = true → d.currentGen r.stateId = some r.stateGeneration) ∧
      (∀ r ∈ d.records, ∀ r' ∈ d.records, r.current = true → r'.current = true →
        r.stateId = r'.stateId → r.stateGeneration = r'.stateGeneration) ∧
      (∀ (record r : DirectoryRecord) (clk : Nat → TimestampNs) (cg : StateGeneration),
        (d.registerEntry record clk).1 = .ok r → d.currentGen record.stateId = some cg →
        cg.value < record.stateGeneration.value →
        ∀ x ∈ (d.registerEntry record clk).2.records, x.current = true →
          x.stateId = record.stateId →
          ¬ x.stateGeneration.value < record.stateGeneration.value) := by
  have h := oneGeneration_reached hd
  refine ⟨h, fun r hr r' hr' hc hc' hs => current_generation_unique h hr hr' hc hc' hs, ?_⟩
  intro record r clk cg hok hcg hlt
  exact registerEntry_supersedes hok hcg hlt

theorem current_agrees_with_map_registered :
    (∃ r ∈ afterRegistration.records, r.current = true) ∧
      ∀ r ∈ afterRegistration.records, r.current = true →
        afterRegistration.currentGen r.stateId = some r.stateGeneration :=
  ⟨by decide +kernel,
    (current_agrees_with_map Float registeredOnce afterRegistration (after_mem_visited _ _ _)).1⟩

end CacheDirectory
