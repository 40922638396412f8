/-
  File:      CacheDirectory/Invariants/Closure.lean
  Subject:   WHETHER AN INVALIDATED LOCATION STAYS CLOSED.

  A location is closed by one mark, UNREACHABLE on its descriptor, and `check_registration` asks
  for that mark ("location invalidated"). Registration of the location at the same generation
  writes over the mark, and so do the loss of its owner and recovery. The generation of the
  location a record was made under is compared with nothing.

  * `Closed`, `closed_refuses` -- nothing is registered at a closed location;
  * `keepsClosed_iff` -- one call keeps it closed exactly when it does not write over the mark;
  * `admitted_whatever_generation` -- admission does not look at `location_generation`;
  * `Renewed`, `admitted_above` -- what is admitted at a renewed location, if it carries the
    location's generation;
  * `closure_iff` -- along runs, up to the first registration at a greater generation and behind
    it.
-/
import CacheDirectory.Invariants.Descriptors
import CacheDirectory.Invariants.Edits
import CacheDirectory.Recovery.Epochs

namespace CacheDirectory

open Library Directory

/-! ## 1. The mark -/

/-- The location filed under the id, if there is one, is UNREACHABLE. -/
def Closed (loc : LocationId) (d : Directory) : Prop :=
  ∀ l, d.locations.find loc = some l → l.reachability = .unreachable

/-- The call does not write over the mark: it registers the location as UNREACHABLE or not at all,
    loses no owner of it, and recovers no snapshot that has it. -/
def Operation.KeepsClosed (F : Type) [ScoreArith F] (loc : LocationId) (op : Operation)
    (d : Directory) : Prop :=
  match op with
  | .registerLocation l =>
      (Operation.registerLocation l).Accepted F d → l.locationId = loc →
        l.reachability = .unreachable
  | .onWorkerLoss b _ =>
      d.workerLive b = true → ∀ l, d.locations.find loc = some l → l.workerBoot ≠ b
  | .recoverFromBuffer buf =>
      ∀ s, acceptedSnapshot buf = some s → ∀ l ∈ s.locations, l.locationId ≠ loc
  | _ => True

section Filed

variable {F : Type} [ScoreArith F] {loc : LocationId} {d : Directory}
  {P : LocationDescriptor → Prop}

/-- What holds of the location on file holds behind a registration exactly when it holds of what
    that files. -/
theorem filed_registerLocation {l : LocationDescriptor}
    (hd : ∀ x, d.locations.find loc = some x → P x) :
    ((Operation.registerLocation l).Accepted F d → l.locationId = loc → P l) ↔
      ∀ x, ((Operation.registerLocation l).step F d).locations.find loc = some x → P x := by
  rw [find_location_registered]
  split
  · next h =>
      constructor
      · rintro hfiled _ ⟨⟩
        exact hfiled h.1 h.2
      · intro hbehind _ _
        exact hbehind l rfl
  · next h => exact iff_of_true (fun hacc hid => absurd ⟨hacc, hid⟩ h) hd

theorem filed_recoverFromBuffer {buf : Bytes} (hd : ∀ x, d.locations.find loc = some x → P x) :
    (∀ s, acceptedSnapshot buf = some s → ∀ l ∈ s.locations, l.locationId = loc →
        P (recoverLocation l)) ↔
      ∀ x, ((Operation.recoverFromBuffer buf).step F d).locations.find loc = some x → P x := by
  refine recovery_iff (P := fun t => ∀ x, t.locations.find loc = some x → P x) hd fun s hs => ?_
  have hsound := problem_eq_none.mp (acceptedSnapshot_eq_some.mp hs).2
  have hfind : (d.install s).locations.find loc =
      ((KeyedMap.ofList LocationDescriptor.locationId s.locations).find loc).map recoverLocation :=
    KeyedMap.find_adjust_all _ recoverLocation (fun _ => rfl) loc
  rw [hfind]
  constructor
  · intro hall x hx
    obtain ⟨l, hl, rfl⟩ := Option.map_eq_some_iff.mp hx
    obtain ⟨hmem, hid⟩ := (KeyedMap.find_ofList_eq_some hsound.locationIds).mp hl
    exact hall l hmem hid
  · intro h l hmem hid
    have hl := (KeyedMap.find_ofList_eq_some hsound.locationIds).mpr ⟨hmem, hid⟩
    exact h (recoverLocation l) (by rw [hl]; rfl)

/-- What is admitted names a location on file that is not UNREACHABLE. -/
theorem filed_of_admitted {record : DirectoryRecord} (h : d.checkRegistration record = none) :
    ∃ l, d.locations.find record.location = some l ∧ l.reachability ≠ .unreachable := by
  have hall := firstFailure_eq_none.mp (checkRegistration_eq_none.mp h).1
  simp only [dependencyChecks, List.forall_mem_cons] at hall
  obtain ⟨_, _, _, _, _, _, _, _, hfiled, _, _, _, _, _, hopen, _⟩ := hall
  obtain ⟨l, hl⟩ := Option.isSome_iff_exists.mp (Option.isNone_eq_false_iff.mp hfiled)
  rw [hl, Option.any_some, beq_eq_false_iff_ne] at hopen
  exact ⟨l, hl, hopen⟩

end Filed

section Mark

variable {F : Type} [ScoreArith F] {loc : LocationId} {d : Directory}

/-- **Nothing is registered at a closed location.** -/
theorem closed_refuses (h : Closed loc d) {record : DirectoryRecord}
    (hloc : record.location = loc) : d.checkRegistration record ≠ none := by
  intro hcheck
  obtain ⟨l, hl, hopen⟩ := filed_of_admitted hcheck
  exact hopen (h l (hloc ▸ hl))

/-- What an invalidation leaves. -/
theorem closed_invalidated {env : AuthorityEnvelope} {reason : Bytes} {clk : Nat → TimestampNs}
    (hacc : (Operation.invalidateLocation loc env reason clk).Accepted F d) :
    Closed loc ((Operation.invalidateLocation loc env reason clk).step F d) := by
  have hepoch : env.epoch = d.epoch := accepted_invalidateWith.mp hacc
  intro l' hl'
  rw [find_location_closed] at hl'
  obtain ⟨l, hl, rfl⟩ := Option.map_eq_some_iff.mp hl'
  rw [if_pos (by simp [hepoch, (KeyedMap.find_eq_some.mp hl).2])]
  rfl

theorem closed_onWorkerLoss {b : WorkerBootId} {reason : Bytes} (hd : Closed loc d) :
    (Operation.onWorkerLoss b reason).KeepsClosed F loc d ↔
      Closed loc ((Operation.onWorkerLoss b reason).step F d) := by
  unfold Closed
  rw [find_location_lost]
  cases hfind : d.locations.find loc with
  | none =>
      refine iff_of_true (fun _ l hl => ?_) fun _ h => by cases h
      rw [hfind] at hl
      cases hl
  | some l =>
      constructor
      · intro hkeeps l' hl'
        rw [Option.map_some, if_neg] at hl'
        · cases hl'
          exact hd l hfind
        · intro hlost
          obtain ⟨hlive, howner⟩ := Bool.and_eq_true_iff.mp hlost
          exact hkeeps hlive l hfind (beq_iff_eq.mp howner)
      · intro h hlive l' hl' howner
        rw [hfind] at hl'
        cases hl'
        have hmark := h (loseLocation l) (by rw [Option.map_some, if_pos (by simp [hlive, howner])])
        cases hmark

theorem closed_recoverFromBuffer {buf : Bytes} (hd : Closed loc d) :
    (Operation.recoverFromBuffer buf).KeepsClosed F loc d ↔
      Closed loc ((Operation.recoverFromBuffer buf).step F d) := by
  refine Iff.trans ?_ (filed_recoverFromBuffer hd)
  refine forall₂_congr fun s _ => forall₂_congr fun l _ => ⟨fun hno hid => absurd hid hno, ?_⟩
  -- recovery leaves no location UNREACHABLE
  intro hmark hid
  cases hmark hid

/-- **One call keeps the location closed exactly when it does not write over the mark.** -/
theorem keepsClosed_iff (op : Operation) (d : Directory) (hd : Closed loc d) :
    op.KeepsClosed F loc d ↔ Closed loc (op.step F d) := by
  have hquiet (h : op.onLocations = false) : Closed loc (op.step F d) := by
    unfold Closed
    rw [locations_step F h]
    exact hd
  cases op with
  | registerLocation l => exact filed_registerLocation hd
  | onWorkerLoss b reason => exact closed_onWorkerLoss hd
  | recoverFromBuffer buf => exact closed_recoverFromBuffer hd
  | invalidateLocation loc' env reason clk =>
      refine iff_of_true trivial fun l' hl' => ?_
      rw [find_location_closed] at hl'
      obtain ⟨l, hl, rfl⟩ := Option.map_eq_some_iff.mp hl'
      split
      · rfl
      · exact hd l hl
  | _ => exact iff_of_true trivial (hquiet rfl)

end Mark

/-! ## 2. The generation of the location -/

/-- **Admission does not look at `location_generation`.** -/
theorem admitted_whatever_generation (d : Directory) (record : DirectoryRecord)
    (g : LocationGeneration) :
    d.checkRegistration { record with locationGeneration := g } = none ↔
      d.checkRegistration record = none := by
  have hdup : d.duplicateCheck { record with locationGeneration := g } = none ↔
      d.duplicateCheck record = none := by
    unfold duplicateCheck
    rw [Option.map_eq_none_iff, Option.map_eq_none_iff]
    exact Iff.rfl
  rw [checkRegistration_eq_none, checkRegistration_eq_none, hdup]
  exact Iff.rfl

/-- The location filed under the id, if there is one, is at a generation above `g`. -/
def Renewed (loc : LocationId) (g : UInt64) (d : Directory) : Prop :=
  ∀ l, d.locations.find loc = some l → g < l.generation.value

/-- The call files the location at no generation up to `g`: neither registered, which is refused
    anyway while the location is on file above, nor recovered. -/
def Operation.KeepsRenewed (F : Type) [ScoreArith F] (loc : LocationId) (g : UInt64)
    (op : Operation) (d : Directory) : Prop :=
  match op with
  | .registerLocation l =>
      (Operation.registerLocation l).Accepted F d → l.locationId = loc → g < l.generation.value
  | .recoverFromBuffer buf =>
      ∀ s, acceptedSnapshot buf = some s → ∀ l ∈ s.locations, l.locationId = loc →
        g < l.generation.value
  | _ => True

/-- What is admitted at the location was made under the generation the location is on file with,
    or under a later one: the comparison `check_registration` does not make. -/
def Operation.CarriesGeneration (loc : LocationId) (op : Operation) (d : Directory) : Prop :=
  match op with
  | .registerEntry record _ =>
      record.location = loc → d.checkRegistration record = none →
        ∀ l, d.locations.find loc = some l →
          l.generation.value ≤ record.locationGeneration.value
  | _ => True

section Generation

variable {F : Type} [ScoreArith F] {loc : LocationId} {g : UInt64} {d : Directory}

/-- **One call keeps the location above the generation exactly when it files nothing below.** -/
theorem keepsRenewed_iff (op : Operation) (d : Directory) (hd : Renewed loc g d) :
    op.KeepsRenewed F loc g d ↔ Renewed loc g (op.step F d) := by
  have hquiet (h : op.onLocations = false) : Renewed loc g (op.step F d) := by
    unfold Renewed
    rw [locations_step F h]
    exact hd
  cases op with
  | registerLocation l => exact filed_registerLocation hd
  | recoverFromBuffer buf => exact filed_recoverFromBuffer hd
  | onWorkerLoss b reason =>
      refine iff_of_true trivial fun l' hl' => ?_
      rw [find_location_lost] at hl'
      obtain ⟨l, hl, rfl⟩ := Option.map_eq_some_iff.mp hl'
      split <;> exact hd l hl
  | invalidateLocation loc' env reason clk =>
      refine iff_of_true trivial fun l' hl' => ?_
      rw [find_location_closed] at hl'
      obtain ⟨l, hl, rfl⟩ := Option.map_eq_some_iff.mp hl'
      split <;> exact hd l hl
  | _ => exact iff_of_true trivial (hquiet rfl)

/-- What carries the generation of a renewed location is above the closed one. -/
theorem admitted_above (h : Renewed loc g d) {record : DirectoryRecord}
    {clk : Nat → TimestampNs} (hloc : record.location = loc)
    (hcheck : d.checkRegistration record = none)
    (hcarries : (Operation.registerEntry record clk).CarriesGeneration loc d) :
    g < record.locationGeneration.value := by
  obtain ⟨l, hl, _⟩ := filed_of_admitted hcheck
  rw [hloc] at hl
  exact UInt64.lt_of_lt_of_le (h l hl) (hcarries hloc hcheck l hl)

end Generation

/-! ## 3. Runs -/

/-- The location is registered at a generation above `g`. -/
def Operation.Renews (F : Type) [ScoreArith F] (loc : LocationId) (g : UInt64) (op : Operation)
    (d : Directory) : Prop :=
  ∃ l, op = .registerLocation l ∧ l.locationId = loc ∧ g < l.generation.value ∧ op.Accepted F d

section Runs

variable (F : Type) [ScoreArith F] (loc : LocationId) (g : UInt64)

/-- The condition holds in front of the first renewal. -/
def UntilRenewed (d : Directory) (ops : List Operation)
    (P : Directory → List Operation → Prop) : Prop :=
  ∀ pre post, ops = pre ++ post →
    Follows (Operation.step F) (fun op t => ¬ op.Renews F loc g t) d pre → P d pre

/-- The condition holds behind every renewal. -/
def SinceRenewed (d : Directory) (ops : List Operation)
    (P : Directory → List Operation → Prop) : Prop :=
  ∀ pre op post, ops = pre ++ op :: post → op.Renews F loc g (after (Operation.step F) d pre) →
    P (op.step F (after (Operation.step F) d pre)) post

variable {F loc g} in
theorem renewed_behind {op : Operation} {d : Directory} (h : op.Renews F loc g d) :
    Renewed loc g (op.step F d) := by
  obtain ⟨l, rfl, hid, hgen, hacc⟩ := h
  intro l' hl'
  rw [find_location_registered, if_pos ⟨hacc, hid⟩] at hl'
  cases hl'
  exact hgen

/-- Where no step of a run is a renewal, or one is. -/
theorem renewed_or_not (d : Directory) (ops : List Operation) :
    Follows (Operation.step F) (fun op t => ¬ op.Renews F loc g t) d ops ∨
      ∃ pre l post, ops = pre ++ .registerLocation l :: post ∧ l.locationId = loc ∧
        g < l.generation.value ∧
        (Operation.registerLocation l).Accepted F (after (Operation.step F) d pre) := by
  by_cases h : ∃ pre l post, ops = pre ++ .registerLocation l :: post ∧ l.locationId = loc ∧
      g < l.generation.value ∧
      (Operation.registerLocation l).Accepted F (after (Operation.step F) d pre)
  · exact .inr h
  · refine .inl ((follows_iff_splits ops d).mpr fun pre op post hsplit hrenews => h ?_)
    obtain ⟨l, rfl, hid, hgen, hacc⟩ := hrenews
    exact ⟨pre, l, post, hsplit, hid, hgen, hacc⟩

end Runs

/-- A record is admitted at the location only behind a registration of the location at a
    generation above `g`, and only under such a generation itself. -/
def AdmittedBehindRenewal (F : Type) [ScoreArith F] (loc : LocationId) (g : UInt64)
    (d : Directory) (ops : List Operation) : Prop :=
  ∀ pre record clk post, ops = pre ++ .registerEntry record clk :: post → record.location = loc →
    (Operation.registerEntry record clk).Accepted F (after (Operation.step F) d pre) →
    g < record.locationGeneration.value ∧
      ∃ pre' l post', pre = pre' ++ .registerLocation l :: post' ∧ l.locationId = loc ∧
        g < l.generation.value ∧
        (Operation.registerLocation l).Accepted F (after (Operation.step F) d pre')

/-- **An invalidated location stays closed until it is registered above a generation `g`, the one
    it was at among them, exactly along the runs that do not write over the mark before**, and on
    file above `g` from then on exactly along those that file it at no generation up to `g`. Along
    these a record is admitted at it only behind that registration and above `g`, if what is
    admitted behind it carries the location's generation; admission never looks at that. -/
theorem closure_iff (F : Type) [ScoreArith F] (d : Directory) (loc : LocationId) (g : UInt64)
    (env : AuthorityEnvelope) (reason : Bytes) (clk : Nat → TimestampNs)
    (hacc : (Operation.invalidateLocation loc env reason clk).Accepted F d)
    (ops : List Operation) :
    let d' := (Operation.invalidateLocation loc env reason clk).step F d
    (UntilRenewed F loc g d' ops (Follows (Operation.step F) (Operation.KeepsClosed F loc)) ↔
        UntilRenewed F loc g d' ops fun d' pre =>
          ∀ t ∈ visited (Operation.step F) d' pre, Closed loc t) ∧
      (SinceRenewed F loc g d' ops (Follows (Operation.step F) (Operation.KeepsRenewed F loc g)) ↔
        SinceRenewed F loc g d' ops fun d' post =>
          ∀ t ∈ visited (Operation.step F) d' post, Renewed loc g t) ∧
      (UntilRenewed F loc g d' ops (Follows (Operation.step F) (Operation.KeepsClosed F loc)) →
        SinceRenewed F loc g d' ops
          (Follows (Operation.step F) (Operation.KeepsRenewed F loc g)) →
        SinceRenewed F loc g d' ops
          (Follows (Operation.step F) (Operation.CarriesGeneration loc)) →
        AdmittedBehindRenewal F loc g d' ops) ∧
      ∀ (t : Directory) (record : DirectoryRecord) (g : LocationGeneration),
        t.checkRegistration { record with locationGeneration := g } = none ↔
          t.checkRegistration record = none := by
  intro d'
  have hclosed : Closed loc d' := closed_invalidated hacc
  have hshut (pre : List Operation) :
      Follows (Operation.step F) (Operation.KeepsClosed F loc) d' pre ↔
        ∀ t ∈ visited (Operation.step F) d' pre, Closed loc t :=
    follows_iff_visited keepsClosed_iff pre d' hclosed
  have habove {op : Operation} {t : Directory} (hrenews : op.Renews F loc g t)
      (post : List Operation) :
      Follows (Operation.step F) (Operation.KeepsRenewed F loc g) (op.step F t) post ↔
        ∀ u ∈ visited (Operation.step F) (op.step F t) post, Renewed loc g u :=
    follows_iff_visited keepsRenewed_iff post _ (renewed_behind hrenews)
  refine ⟨?shut, ?above, ?admitted, admitted_whatever_generation⟩
  case shut => exact forall₂_congr fun pre _ => forall₂_congr fun _ _ => hshut pre
  case above =>
    exact forall₃_congr fun _ _ post => forall₂_congr fun _ hrenews => habove hrenews post
  case admitted =>
    intro hkeeps hsince hcarries pre record clk' post hsplit hloc hentry
    have hcheck := accepted_registerEntry.mp hentry
    rcases renewed_or_not F loc g d' pre with hnone | ⟨pre', l, post', rfl, hid, hgen, hreg⟩
    · -- without a renewal the location is still closed
      have hlast := (hshut pre).mp (hkeeps pre _ hsplit hnone) _ (after_mem_visited _ pre d')
      exact absurd hcheck (closed_refuses hlast hloc)
    · have hrenews : (Operation.registerLocation l).Renews F loc g
          (after (Operation.step F) d' pre') := ⟨l, rfl, hid, hgen, hreg⟩
      have hops : ops = pre' ++ .registerLocation l ::
          (post' ++ .registerEntry record clk' :: post) := by
        rw [hsplit, List.append_assoc, List.cons_append]
      have hfollows := ((follows_append _ _ _).mp (hsince _ _ _ hops hrenews)).1
      have hcalls := ((follows_append _ _ _).mp (hcarries _ _ _ hops hrenews)).2
      rw [after_append] at hcheck
      have hlast := (habove hrenews post').mp hfollows _ (after_mem_visited _ post' _)
      exact ⟨admitted_above hlast hloc hcheck hcalls.1, pre', l, post', rfl, hid, hgen, hreg⟩

/-! ## 4. Small runs -/

/-- The owner invalidates the location of the one copy; it is at generation 0. -/
def closing : Operation := .invalidateLocation ⟨1⟩ { epoch := ⟨1⟩, boot := ⟨1⟩ } [] fun _ => 1

/-- The state behind that and the calls. -/
def behindClosing (ops : List Operation) : Directory :=
  after (Operation.step Float) {} (oneCopy ++ closing :: ops)

/-- A live boot registers a record of the copy, made before the invalidation. -/
def entryOf (b : WorkerBootId) : Operation :=
  .registerEntry { copyRecord ⟨1⟩ ⟨1⟩ with authority := { epoch := ⟨1⟩, boot := b } } fun _ => 1

/-- The registration of the location once more as it was, and above its generation. -/
def replayedLocation : Operation := .registerLocation (attachedLocation ⟨1⟩ ⟨1⟩)

def renewedLocation : Operation :=
  .registerLocation { attachedLocation ⟨1⟩ ⟨1⟩ with generation := ⟨1⟩ }

/-- The loss of the owner, with another boot live. -/
def lossWithOther : List Operation :=
  [.registerWorkerSession { boot := ⟨2⟩, worker := ⟨2⟩ }, .onWorkerLoss ⟨1⟩ []]

/-- **The counterexample**: the invalidation succeeds and the location is closed; a record is
    admitted at it behind the replayed registration, behind the loss of its owner, and, made at
    generation 0, behind the registration at generation 1. -/
theorem closed_location_reopens :
    closing.Accepted Float (after (Operation.step Float) {} oneCopy) ∧
      ((after (Operation.step Float) {} oneCopy).locations.find ⟨1⟩).map (·.generation) =
        some ⟨0⟩ ∧
      ¬ (entryOf ⟨1⟩).Accepted Float (behindClosing []) ∧
      (entryOf ⟨1⟩).Accepted Float (behindClosing [replayedLocation]) ∧
      (entryOf ⟨2⟩).Accepted Float (behindClosing lossWithOther) ∧
      (entryOf ⟨1⟩).Accepted Float (behindClosing [renewedLocation]) := by
  decide +kernel

/-- A record made under generation 1 of the location. -/
def renewedEntry : Operation :=
  .registerEntry { copyRecord ⟨1⟩ ⟨1⟩ with locationGeneration := ⟨1⟩ } fun _ => 1

/-- The location is renewed, and such a record is registered. -/
def renewedAndUsed : List Operation := [renewedLocation, renewedEntry]

theorem renewal_first {pre post : List Operation} {op : Operation} {t : Directory}
    (hsplit : renewedAndUsed = pre ++ op :: post) (h : op.Renews Float ⟨1⟩ 0 t) :
    pre = [] ∧ op = renewedLocation ∧ post = [renewedEntry] := by
  obtain ⟨l, rfl, -⟩ := h
  cases pre with
  | nil =>
      obtain ⟨hop, hpost⟩ := List.cons.inj hsplit
      exact ⟨rfl, hop.symm, hpost.symm⟩
  | cons op pre =>
      obtain ⟨_, htail⟩ := List.cons.inj hsplit
      cases pre with
      | nil => cases (List.cons.inj htail).1
      | cons op pre => simp at htail

theorem closure_oneCopy :
    AdmittedBehindRenewal Float ⟨1⟩ 0
      (closing.step Float (after (Operation.step Float) {} oneCopy)) renewedAndUsed := by
  obtain ⟨_, _, hadmitted, _⟩ := closure_iff Float (after (Operation.step Float) {} oneCopy) ⟨1⟩ 0
    { epoch := ⟨1⟩, boot := ⟨1⟩ } [] (fun _ => 1) (by decide +kernel) renewedAndUsed
  refine hadmitted (fun pre post hsplit hno => ?_) (fun pre op post hsplit hrenews => ?_)
    fun pre op post hsplit hrenews => ?_
  · cases pre with
    | nil => trivial
    | cons op pre =>
        obtain ⟨rfl, _⟩ := List.cons.inj hsplit
        exact absurd ⟨_, rfl, rfl, by decide, by decide +kernel⟩ hno.1
  · obtain ⟨rfl, rfl, rfl⟩ := renewal_first hsplit hrenews
    exact ⟨trivial, trivial⟩
  · obtain ⟨rfl, rfl, rfl⟩ := renewal_first hsplit hrenews
    refine ⟨fun _ _ l hl => ?_, trivial⟩
    have hfiled : ((behindClosing [renewedLocation]).locations.find ⟨1⟩).all
        (fun l => l.generation.value ≤ 1) = true := by decide +kernel
    have hsame : (behindClosing [renewedLocation]).locations.find ⟨1⟩ = some l := hl
    rw [hsame] at hfiled
    exact of_decide_eq_true hfiled

end CacheDirectory
