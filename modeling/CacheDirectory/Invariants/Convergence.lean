/-
  File:      CacheDirectory/Invariants/Convergence.lean
  Subject:   REGISTRATIONS OF ONE STATE CONVERGE.

  Workers register copies of one state at generations of their own, and the coordinator takes the
  calls in the order the network brings them. Seen from the state the directory is a shelf: it
  holds the copies of the greatest generation registered, and a registration offers one more.

  * `Awaits` -- a registration whose generation alone decides whether it is admitted;
  * `awaits_step` -- it stays so while other copies are registered;
  * `Shows`, `shows_step` -- the directory shows a shelf, and a registration is an offer;
  * `registrations_converge` -- every order of a batch ends with the copies of the greatest
    generation, those on file and those of the batch.
-/
import CacheDirectory.Invariants.History
import CacheDirectory.Invariants.Generations
import CacheDirectory.Library.Newest

namespace CacheDirectory

open Library Directory

/-! ## 1. Copies of a state -/

/-- The current records of a state. -/
def Directory.currentsOf (d : Directory) (s : StateId) : List DirectoryRecord :=
  d.records.filter fun r => r.current && r.stateId == s

/-- A record up to its record id, its record generation and its timestamps. -/
def settled (r : DirectoryRecord) : DirectoryRecord :=
  { r with recordId := {}, recordGeneration := {}, createdNs := 0, updatedNs := 0 }

/-- What a directory makes of a registration, up to the same. -/
def landed (r : DirectoryRecord) : DirectoryRecord := settled (Directory.stamped {} r fun _ => 0)

/-- Any directory, at any time. -/
theorem settled_stamped (d : Directory) (r : DirectoryRecord) (clk : Nat → TimestampNs) :
    settled (d.stamped r clk) = landed r := rfl

/-- The place of a copy: its replica and its location. -/
def placeOf (r : DirectoryRecord) : ReplicaId × LocationId := (r.replica, r.location)

/-- The generation as a number. -/
def generationOf (r : DirectoryRecord) : Nat := r.stateGeneration.value.toNat

theorem mem_currentsOf {d : Directory} {s : StateId} {r : DirectoryRecord} :
    r ∈ d.currentsOf s ↔ r ∈ d.records ∧ r.current = true ∧ r.stateId = s := by
  unfold currentsOf
  rw [List.mem_filter, Bool.and_eq_true, beq_iff_eq]

/-! ## 2. Registrations in waiting -/

/-- A registration for the state that everything but its generation admits, of a copy that takes
    no place a current copy of the state has. -/
structure Awaits (d : Directory) (s : StateId) (x : DirectoryRecord) : Prop where
  state : x.stateId = s
  dependencies : firstFailure (d.dependencyChecks x) = none
  uncovered : d.coveredByTombstone (stateTarget x) = false
  notDuplicate : d.duplicateCheck x = none
  free : ∀ r ∈ d.currentsOf s, placeOf r ≠ placeOf x

section Awaits

variable {d : Directory} {s : StateId} {x y : DirectoryRecord}

theorem awaits_of_accepted (hstate : x.stateId = s) (hcheck : d.checkRegistration x = none)
    (hfree : ∀ r ∈ d.currentsOf s, placeOf r ≠ placeOf x) : Awaits d s x := by
  obtain ⟨hdep, hcov, _, hdup⟩ := checkRegistration_eq_none.mp hcheck
  exact ⟨hstate, hdep, hcov, hdup, hfree⟩

/-- **The generation decides.** -/
theorem Awaits.admitted_iff (h : Awaits d s x) :
    d.checkRegistration x = none ↔
      ∀ cg, d.currentGen s = some cg → ¬ x.stateGeneration.value < cg.value := by
  have hgen : (d.generationCheck x).1 = false ↔
      ∀ cg, d.currentGen s = some cg → ¬ x.stateGeneration.value < cg.value := by
    unfold generationCheck
    rw [h.state]
    cases d.currentGen s with
    | none => simp
    | some cg => simp
  rw [checkRegistration_eq_none, hgen]
  exact ⟨fun hall => hall.2.2.1, fun hnot => ⟨h.dependencies, h.uncovered, hnot, h.notDuplicate⟩⟩

/-- Only a greater generation displaces, and it displaces what is below it. -/
theorem Awaits.displaces_iff (h : Awaits d s x) {r : DirectoryRecord} (hr : r ∈ d.currentsOf s) :
    displaces d x r = true ↔
      outdates d x = true ∧ r.stateGeneration.value < x.stateGeneration.value := by
  obtain ⟨_, hcur, hstate⟩ := mem_currentsOf.mp hr
  have hplace : ¬ (r.replica = x.replica ∧ r.location = x.location) := fun hboth =>
    h.free r hr (Prod.ext hboth.1 hboth.2)
  unfold displaces
  rw [hcur, hstate, h.state]
  simp only [beq_self_eq_true, Bool.true_and, Bool.or_eq_true, Bool.and_eq_true, beq_iff_eq,
    decide_eq_true_eq]
  constructor
  · intro h
    rcases h with hold | hcopy
    · exact hold
    · exact absurd hcopy.1.1 hplace
  · exact .inl

/-- The current records of the state behind an admitted registration. -/
theorem currentsOf_registered (h : Awaits d s x) (clk : Nat → TimestampNs)
    (hcheck : d.checkRegistration x = none) :
    (d.registerEntry x clk).2.currentsOf s =
      ((d.currentsOf s).filter fun r => !displaces d x r) ++ [d.stamped x clk] := by
  have hnew : [d.stamped x clk].filter (fun r => r.current && r.stateId == s) =
      [d.stamped x clk] :=
    List.filter_eq_self.mpr fun r hr => by
      rw [List.mem_singleton.mp hr]
      show (true && x.stateId == s) = true
      rw [h.state]
      simp
  unfold currentsOf
  rw [records_registerEntry x clk hcheck, List.filter_append, hnew, List.filter_map,
    List.filter_filter]
  congr 1
  have hselect (r : DirectoryRecord) :
      ((fun r : DirectoryRecord => r.current && r.stateId == s) ∘
        fun r => if displaces d x r then superseded r else r) r =
        (!displaces d x r && (r.current && r.stateId == s)) := by
    rw [Function.comp]
    cases displaces d x r with
    | true => rfl
    | false => rfl
  rw [List.filter_congr fun r _ => hselect r]
  refine (List.map_congr_left fun r hr => ?_).trans (List.map_id _)
  have hnot := (List.mem_filter.mp hr).2
  rw [Bool.and_eq_true, Bool.not_eq_true'] at hnot
  rw [hnot.1]
  rfl

/-- **What awaits its registration still does** behind the registration of another place. -/
theorem awaits_step (hx : Awaits d s x) (hy : Awaits d s y) (clk : Nat → TimestampNs)
    (hne : placeOf y ≠ placeOf x) : Awaits (d.registerEntry y clk).2 s x := by
  cases hcheck : d.checkRegistration y with
  | some f =>
      rw [registerEntry_rejected hcheck]
      exact hx
  | none =>
      have hrecords := records_registerEntry y clk hcheck
      have hcurrents := currentsOf_registered hy clk hcheck
      refine ⟨hx.state, ?_, ?_, ?_, fun r hr => ?_⟩
      · rw [registerEntry_admitted hcheck]
        exact hx.dependencies
      · rw [registerEntry_admitted hcheck]
        exact hx.uncovered
      · -- what blocks `x` now blocked it before, or is the new record at another place
        have hno := duplicateCheck_eq_none.mp hx.notDuplicate
        rw [duplicateCheck_eq_none, hrecords]
        intro r hr hsame
        obtain ⟨hblocks, hcopy⟩ := sameCopy_iff.mp hsame
        rcases List.mem_append.mp hr with hold | hnew
        · obtain ⟨z, hz, rfl⟩ := List.mem_map.mp hold
          cases hhit : displaces d y z with
          | true =>
              rw [hhit] at hcopy
              have hcur : z.current = true := by
                unfold displaces at hhit
                simp only [Bool.and_eq_true] at hhit
                exact hhit.1.1
              exact hno z hz (sameCopy_iff.mpr ⟨.inl hcur, hcopy⟩)
          | false =>
              rw [hhit] at hsame
              exact hno z hz hsame
        · rw [List.mem_singleton.mp hnew] at hcopy
          refine hne (Prod.ext ?_ ?_)
          · exact congrArg (fun c => c.2.2.1) hcopy
          · exact congrArg (fun c => c.2.2.2.1) hcopy
      · rw [hcurrents] at hr
        rcases List.mem_append.mp hr with hold | hnew
        · exact hx.free r (List.mem_filter.mp hold).1
        · rw [List.mem_singleton.mp hnew]
          exact hne

end Awaits

/-! ## 3. The directory as a shelf -/

/-- What the map of current generations holds for a state, as a number. -/
def heldGeneration : Option StateGeneration → WithBot Nat
  | none => ⊥
  | some g => WithBot.some g.value.toNat

/-- **The abstraction**: the copies of a state, up to ids and timestamps, on a shelf. -/
structure Shows (s : StateId) (d : Directory) (shelf : Shelf generationOf) : Prop where
  newest : shelf.newest = heldGeneration (d.currentGen s)
  items : shelf.items = (d.currentsOf s).map settled

/-- Where the current records agree with the map there is such a shelf. -/
theorem shows_of_oneGeneration {d : Directory} (h : d.OneGeneration) (s : StateId) :
    ∃ shelf, Shows s d shelf := by
  refine ⟨⟨heldGeneration (d.currentGen s), (d.currentsOf s).map settled, fun a ha => ?_⟩, rfl, rfl⟩
  obtain ⟨r, hr, rfl⟩ := List.mem_map.mp ha
  obtain ⟨hmem, hcur, rfl⟩ := mem_currentsOf.mp hr
  rw [h r hmem hcur]
  rfl

section Shows

variable {d : Directory} {s : StateId} {shelf : Shelf generationOf} {y : DirectoryRecord}

theorem Shows.level (h : Shows s d shelf) {r : DirectoryRecord} (hr : r ∈ d.currentsOf s) :
    shelf.newest = WithBot.some (generationOf r) := by
  have hmem : settled r ∈ shelf.items := by
    rw [h.items]
    exact List.mem_map_of_mem hr
  exact shelf.level (settled r) hmem

/-- A registration is admitted unless it is below the shelf. -/
theorem Shows.admitted_iff (h : Shows s d shelf) (hy : Awaits d s y) :
    d.checkRegistration y = none ↔ ¬ WithBot.some (generationOf y) < shelf.newest := by
  rw [hy.admitted_iff, h.newest]
  cases d.currentGen s with
  | none => simp [heldGeneration]
  | some cg =>
      unfold heldGeneration generationOf
      rw [WithBot.coe_lt_coe, ← UInt64.lt_iff_toNat_lt]
      simp

/-- It displaces the copies on the shelf exactly when it is above it. -/
theorem Shows.displaces_iff (h : Shows s d shelf) (hy : Awaits d s y) {r : DirectoryRecord}
    (hr : r ∈ d.currentsOf s) :
    displaces d y r = true ↔ shelf.newest < WithBot.some (generationOf y) := by
  have hlevel := h.level hr
  have hbelow : shelf.newest < WithBot.some (generationOf y) ↔
      r.stateGeneration.value < y.stateGeneration.value := by
    rw [hlevel, WithBot.coe_lt_coe, UInt64.lt_iff_toNat_lt]
    rfl
  rw [hy.displaces_iff hr, hbelow]
  refine and_iff_right_of_imp fun hlt => ?_
  have hnewest := h.newest
  unfold outdates
  rw [hy.state]
  cases hcg : d.currentGen s with
  | none =>
      rw [hcg, hlevel] at hnewest
      cases hnewest
  | some cg =>
      rw [hcg, hlevel] at hnewest
      have heq : generationOf r = cg.value.toNat := WithBot.coe_injective hnewest
      have hcglt : cg.value < y.stateGeneration.value := by
        rw [UInt64.lt_iff_toNat_lt, ← heq]
        exact UInt64.lt_iff_toNat_lt.mp hlt
      simpa using hcglt

theorem currentGen_registered (clk : Nat → TimestampNs) (hstate : y.stateId = s)
    (hcheck : d.checkRegistration y = none) :
    (d.registerEntry y clk).2.currentGen s = some y.stateGeneration := by
  have hc := committed_registerEntry clk hcheck
  unfold currentGen
  rw [hc.generations, hc.stateId, hc.stateGeneration, KeyedMap.find_put, if_pos hstate]
  rfl

/-- **A registration is an offer.** -/
theorem shows_step (h : Shows s d shelf) (hy : Awaits d s y) (clk : Nat → TimestampNs) :
    Shows s (d.registerEntry y clk).2 (shelf.offer (landed y)) := by
  cases hcheck : d.checkRegistration y with
  | some f =>
      have hbelow : WithBot.some (generationOf y) < shelf.newest := by
        by_contra hnot
        rw [(h.admitted_iff hy).mpr hnot] at hcheck
        cases hcheck
      rw [registerEntry_rejected hcheck, Shelf.offer_below (a := landed y) hbelow]
      exact h
  | none =>
      have hnot := (h.admitted_iff hy).mp hcheck
      have hgen := currentGen_registered clk hy.state hcheck
      have hcurrents := currentsOf_registered hy clk hcheck
      rcases lt_or_eq_of_le (not_lt.mp hnot) with habove | hlevel
      · -- every copy on the shelf is displaced
        have hgone : (d.currentsOf s).filter (fun r => !displaces d y r) = [] :=
          List.filter_eq_nil_iff.mpr fun r hr => by
            rw [(h.displaces_iff hy hr).mpr habove]
            exact Bool.false_ne_true
        obtain ⟨hnewest, hitems⟩ := Shelf.offer_above (a := landed y) habove
        refine ⟨hnewest.trans (by rw [hgen]; rfl), ?_⟩
        rw [hitems, hcurrents, hgone, List.nil_append, List.map_singleton, settled_stamped]
      · -- none is
        have hstay : (d.currentsOf s).filter (fun r => !displaces d y r) = d.currentsOf s :=
          List.filter_eq_self.mpr fun r hr => by
            have hno : ¬ displaces d y r = true := fun hhit =>
              ((h.displaces_iff hy hr).mp hhit).ne hlevel
            rw [Bool.not_eq_true] at hno
            rw [hno]
            rfl
        obtain ⟨hnewest, hitems⟩ := Shelf.offer_level (a := landed y) hlevel
        refine ⟨hnewest.trans (by rw [hgen]; rfl), ?_⟩
        rw [hitems, hcurrents, hstay, List.map_append, h.items, List.map_singleton,
          settled_stamped]

end Shows

/-! ## 4. A batch in any order -/

/-- The calls of a batch, each with what the clock shows during it. -/
def registrations (calls : List (DirectoryRecord × (Nat → TimestampNs))) : List Operation :=
  calls.map fun c => .registerEntry c.1 c.2

/-- **The calls of a batch are offers**, one after the other. -/
theorem shows_run (F : Type) [ScoreArith F] {s : StateId} :
    ∀ (calls : List (DirectoryRecord × (Nat → TimestampNs))) (d : Directory)
      (shelf : Shelf generationOf), Shows s d shelf → (∀ c ∈ calls, Awaits d s c.1) →
      (calls.map fun c => placeOf c.1).Nodup →
      Shows s (after (Operation.step F) d (registrations calls))
        (shelf.offered (calls.map fun c => landed c.1))
  | [], _, _, h, _, _ => h
  | c :: calls, d, shelf, h, hawait, hplaces => by
      have hc := hawait c List.mem_cons_self
      obtain ⟨hother, hrest⟩ := List.nodup_cons.mp hplaces
      refine shows_run F calls _ _ (shows_step h hc c.2) (fun c' hc' => ?_) hrest
      exact awaits_step (hawait c' (List.mem_cons_of_mem _ hc')) hc c.2 fun heq =>
        hother (List.mem_map.mpr ⟨c', hc', heq.symm⟩)

/-- At one number is at one generation. -/
theorem atGeneration_eq (r x : DirectoryRecord) :
    decide (WithBot.some (generationOf r) = WithBot.some (generationOf x)) =
      (r.stateGeneration == x.stateGeneration) := by
  rw [Bool.eq_iff_iff, decide_eq_true_eq, beq_iff_eq, WithBot.coe_inj]
  unfold generationOf
  rw [UInt64.toNat_inj]
  exact ⟨StrongValue.ext, fun h => by rw [h]⟩

theorem filter_atGeneration (f : DirectoryRecord → DirectoryRecord)
    (hf : ∀ r, generationOf (f r) = generationOf r) (top : DirectoryRecord)
    (l : List DirectoryRecord) :
    l.filter ((fun x => decide (WithBot.some (generationOf x) =
        WithBot.some (generationOf top))) ∘ f) =
      l.filter fun r => r.stateGeneration == top.stateGeneration :=
  List.filter_congr fun r _ => by
    rw [Function.comp, hf]
    exact atGeneration_eq r top

/-- The newest on the shelf is at the current generation. -/
theorem Shows.currentGen {d : Directory} {s : StateId} {shelf : Shelf generationOf}
    (h : Shows s d shelf) {r : DirectoryRecord}
    (hnewest : shelf.newest = WithBot.some (generationOf r)) :
    d.currentGen s = some r.stateGeneration := by
  have hheld := h.newest
  rw [hnewest] at hheld
  cases hgen : d.currentGen s with
  | none =>
      rw [hgen] at hheld
      cases hheld
  | some g =>
      rw [hgen] at hheld
      have heq : generationOf r = g.value.toNat := WithBot.coe_injective hheld
      rw [StrongValue.ext (UInt64.toNat_inj.mp heq)]

/-- **Registrations converge.** In every reachable state, for every batch of registrations of one
    state that are all admissible there and take different places, none of them that of a current
    copy: in whatever order the calls are taken, the current generation of the state is the
    greatest of the batch, and its current copies are those of the batch and those on file at
    that generation. -/
theorem registrations_converge (F : Type) [ScoreArith F] (ops : List Operation) (d : Directory)
    (hd : Reached F ops d) (s : StateId) (batch : List DirectoryRecord) (hne : batch ≠ [])
    (haccepted : ∀ r ∈ batch, r.stateId = s ∧ d.checkRegistration r = none)
    (hplaces : (batch.map placeOf).Nodup)
    (hfree : ∀ r ∈ batch, ∀ x ∈ d.records, x.current = true → x.stateId = s →
      placeOf x ≠ placeOf r) :
    ∃ g, (∃ r ∈ batch, r.stateGeneration = g) ∧
      (∀ r ∈ batch, r.stateGeneration.value ≤ g.value) ∧
      ∀ calls : List (DirectoryRecord × (Nat → TimestampNs)), (calls.map Prod.fst).Perm batch →
        (after (Operation.step F) d (registrations calls)).currentGen s = some g ∧
          (((after (Operation.step F) d (registrations calls)).currentsOf s).map settled).Perm
            ((batch.filter fun r => r.stateGeneration == g).map landed ++
              ((d.currentsOf s).filter fun r => r.stateGeneration == g).map settled) := by
  obtain ⟨shelf, hshelf⟩ := shows_of_oneGeneration (oneGeneration_reached hd) s
  have hawait (r : DirectoryRecord) (hr : r ∈ batch) : Awaits d s r := by
    refine awaits_of_accepted (haccepted r hr).1 (haccepted r hr).2 fun x hx => ?_
    obtain ⟨hmem, hcur, hstate⟩ := mem_currentsOf.mp hx
    exact hfree r hr x hmem hcur hstate
  -- the record of the greatest generation, and that it is not below the shelf
  obtain ⟨m, hm⟩ := WithBot.ne_bot_iff_exists.mp
    (List.maximum_ne_bot_of_ne_nil (l := batch.map generationOf) (by simpa using hne))
  obtain ⟨hmem, hmax⟩ := List.maximum_eq_coe_iff.mp hm.symm
  obtain ⟨top, htop, rfl⟩ := List.mem_map.mp hmem
  have hshelfle : shelf.newest ≤ WithBot.some (generationOf top) :=
    not_lt.mp ((hshelf.admitted_iff (hawait top htop)).mp (haccepted top htop).2)
  refine ⟨top.stateGeneration, ⟨top, htop, rfl⟩, fun r hr => ?_, fun calls hcalls => ?_⟩
  · exact UInt64.le_iff_toNat_le.mpr (hmax _ (List.mem_map_of_mem hr))
  · have hlanded : (calls.map fun c => landed c.1).Perm (batch.map landed) := by
      have hmap := hcalls.map landed
      rwa [List.map_map] at hmap
    have hrun := shows_run F calls d shelf hshelf
      (fun c hc => hawait c.1 (hcalls.mem_iff.mp (List.mem_map_of_mem hc)))
      (by
        have hmap := hcalls.map placeOf
        rw [List.map_map] at hmap
        exact hmap.nodup_iff.mpr hplaces)
    obtain ⟨hsame, hperm⟩ := Shelf.offered_perm hlanded shelf
    have hnewest : (shelf.offered (batch.map landed)).newest =
        WithBot.some (generationOf top) := by
      rw [Shelf.newest_offered, List.map_map]
      show max shelf.newest (batch.map generationOf).maximum = _
      rw [← hm, max_eq_right hshelfle]
    constructor
    · exact hrun.currentGen (hsame.trans hnewest)
    · rw [← hrun.items]
      refine hperm.trans ?_
      rw [Shelf.items_offered, hnewest, List.filter_append, hshelf.items, List.filter_map,
        List.filter_map]
      refine (List.perm_append_comm).trans (.of_eq ?_)
      rw [filter_atGeneration landed fun _ => rfl, filter_atGeneration settled fun _ => rfl]

/-- One copy of state 1 at generation 1, and two more places taken up. -/
def threePlaces : List Operation :=
  registeredOnce ++
    [.registerLocation (attachedLocation ⟨1⟩ ⟨2⟩),
      .registerReplica (attachedReplica ⟨1⟩ ⟨1⟩ ⟨2⟩ ⟨2⟩),
      .registerLocation (attachedLocation ⟨1⟩ ⟨3⟩),
      .registerReplica (attachedReplica ⟨1⟩ ⟨1⟩ ⟨3⟩ ⟨3⟩)]

def withPlaces : Directory := after (Operation.step Float) {} threePlaces

/-- The copies at the two places, at generations 1 and 2. -/
def twoCopies : List DirectoryRecord :=
  [attachedRecord ⟨1⟩ ⟨1⟩ ⟨2⟩ ⟨2⟩ ⟨0⟩ ⟨1⟩ ⟨1⟩, attachedRecord ⟨1⟩ ⟨1⟩ ⟨3⟩ ⟨3⟩ ⟨0⟩ ⟨1⟩ ⟨2⟩]

def twoCalls : List (DirectoryRecord × (Nat → TimestampNs)) :=
  twoCopies.map fun r => (r, fun _ => 2)

theorem registrations_converge_twoCopies :
    (after (Operation.step Float) withPlaces (registrations twoCalls)).currentGen ⟨1⟩ =
        some ⟨2⟩ ∧
      (after (Operation.step Float) withPlaces (registrations twoCalls.reverse)).currentGen ⟨1⟩ =
        some ⟨2⟩ := by
  obtain ⟨g, ⟨r, hr, hg⟩, hmax, hall⟩ := registrations_converge Float threePlaces withPlaces
    (after_mem_visited _ _ _) ⟨1⟩ twoCopies (by decide) (by decide +kernel) (by decide)
    (by decide +kernel)
  have htwo : g = ⟨2⟩ := by
    rcases List.mem_cons.mp hr with rfl | hr
    · have hle := hmax _ (List.mem_cons_of_mem _ List.mem_cons_self)
      rw [← hg] at hle
      exact absurd hle (by decide)
    · rw [← hg, List.mem_singleton.mp hr]
      rfl
  have hcalls : (twoCalls.map Prod.fst).Perm twoCopies := .refl _
  have hreversed : (twoCalls.reverse.map Prod.fst).Perm twoCopies :=
    ((List.reverse_perm twoCalls).map Prod.fst).trans hcalls
  rw [← htwo]
  exact ⟨(hall twoCalls hcalls).1, (hall twoCalls.reverse hreversed).1⟩

end CacheDirectory
