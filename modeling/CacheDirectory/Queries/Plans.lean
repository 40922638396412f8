/-
  File:      CacheDirectory/Queries/Plans.lean
  Subject:   PLANS ARE SERVED.

  A worker that opens its session, registers what it has in order, and then its copies, is served.
  What it asks for is a plan: requests in an order, each founded on the ones before it. The registry
  lists what a plan has asked for so far, in the plan's own words, and knows no failures.

  * `Request.Founded` -- what a request needs of the requests before it;
  * `Registry.Held` -- a directory that files what the registry lists, and nothing else;
  * `accepted_founded`, `held_step` -- one request;
  * `plans_served` -- a plan among the calls of strangers: every request is accepted, and every
    query for a state of its side returns its standing copies that qualify, and no others.
-/
import CacheDirectory.Invariants.Generations
import CacheDirectory.Invariants.History
import CacheDirectory.Invariants.Sessions
import CacheDirectory.Queries.Strangers

namespace CacheDirectory

open Library Directory

/-! ## 1. Plans -/

/-- What a plan asks for. -/
inductive Request where
  | session (s : WorkerSession)
  | cache (c : CacheDescriptor)
  | location (l : LocationDescriptor)
  | replica (p : ReplicaDescriptor)
  | lease (l : LeaseDescriptor)
  | entry (r : DirectoryRecord) (clk : Nat → TimestampNs)
  | policy (p : RankingPolicy)

/-- The call that makes the request. -/
def Request.op : Request → Operation
  | .session s => .registerWorkerSession s
  | .cache c => .registerCache c
  | .location l => .registerLocation l
  | .replica p => .registerReplica p
  | .lease l => .registerLease l
  | .entry r clk => .registerEntry r clk
  | .policy p => .setRankingPolicy p

/-- A copy as a directory publishes it, but for the stamps of the commit. -/
def asPublished (record : DirectoryRecord) (clk : Nat → TimestampNs) : DirectoryRecord :=
  unstamped (({} : Directory).stamped record clk)

/-- The copy takes the place of the other: it is of a later generation of the state, or a later one
    at the same place. -/
def supplants (record r : DirectoryRecord) : Bool :=
  r.stateId == record.stateId &&
    (r.stateGeneration.value < record.stateGeneration.value ||
      r.replica == record.replica && r.location == record.location &&
        r.recordId != record.recordId &&
        (record.replicaGeneration.value > r.replicaGeneration.value ||
          record.locationGeneration.value > r.locationGeneration.value))

/-- What a plan has asked for so far, and the copies that stand. -/
structure Registry where
  sessions : List WorkerSession := []
  caches : List CacheDescriptor := []
  locations : List LocationDescriptor := []
  replicas : List ReplicaDescriptor := []
  leases : List LeaseDescriptor := []
  entries : List DirectoryRecord := []
  standing : List DirectoryRecord := []

namespace Registry

def add (req : Request) (reg : Registry) : Registry :=
  match req with
  | .session s => { reg with sessions := reg.sessions ++ [{ s with live := true }] }
  | .cache c => { reg with caches := reg.caches ++ [c] }
  | .location l => { reg with locations := reg.locations ++ [l] }
  | .replica p => { reg with replicas := reg.replicas ++ [p] }
  | .lease l => { reg with leases := reg.leases ++ [l] }
  | .entry r clk =>
      { reg with
        entries := reg.entries ++ [r]
        standing := (reg.standing.filter fun x => !supplants r x) ++ [asPublished r clk] }
  | .policy _ => reg

/-- A session of the boot has been opened. -/
def Open (reg : Registry) (b : WorkerBootId) : Prop := ∃ s ∈ reg.sessions, s.boot = b

instance (reg : Registry) (b : WorkerBootId) : Decidable (reg.Open b) :=
  inferInstanceAs (Decidable (∃ s ∈ reg.sessions, s.boot = b))

end Registry

/-- The place a copy is to be registered at. -/
structure LocationDescriptor.Offers (l : LocationDescriptor) (r : DirectoryRecord) : Prop where
  node : l.node = r.node
  worker : l.worker = r.worker
  workerBoot : l.workerBoot = r.workerBoot
  domain : l.domain = r.domain
  reachability : l.reachability ≠ .unreachable

/-- The replica a copy is to be registered for. -/
structure ReplicaDescriptor.Offers (p : ReplicaDescriptor) (r : DirectoryRecord) : Prop where
  location : p.location = r.location
  cache : p.cache = r.cache
  entry : p.entry = r.entry

/-- The registration of a copy, behind that of its cache, its location and its replica. -/
structure EntryFounded (reg : Registry) (r : DirectoryRecord) : Prop where
  named : r.recordId.isNull = false
  state : r.stateId.isNull = false
  cacheId : r.cache.isNull = false
  entry : r.entry.isNull = false
  replicaId : r.replica.isNull = false
  locationId : r.location.isNull = false
  epoch : r.authority.epoch = ⟨1⟩
  live : reg.Open r.authority.boot
  cache : ∃ c ∈ reg.caches, c.cacheId = r.cache
  location : ∃ l ∈ reg.locations, l.locationId = r.location
  locations : ∀ l ∈ reg.locations, l.locationId = r.location → l.Offers r
  replica : ∃ p ∈ reg.replicas, p.replicaId = r.replica
  replicas : ∀ p ∈ reg.replicas, p.replicaId = r.replica → p.Offers r
  newest : ∀ e ∈ reg.entries, e.stateId = r.stateId →
    ¬ r.stateGeneration.value < e.stateGeneration.value
  fresh : ∀ e ∈ reg.entries, copyOf e ≠ copyOf r

/-- What is asked for is founded on what was asked for before. -/
def Request.Founded (req : Request) (reg : Registry) : Prop :=
  match req with
  | .session s => s.Welcome ∧ ¬ reg.Open s.boot
  | .cache c =>
      c.cacheId.isNull = false ∧ c.workerBoot.isNull = false ∧ c.authority.epoch = ⟨1⟩ ∧
        reg.Open c.workerBoot ∧
        ∀ c' ∈ reg.caches, c'.cacheId = c.cacheId →
          c'.workerBoot = c.workerBoot ∧ ¬ c.authority.fence < c'.authority.fence
  | .location l =>
      l.locationId.isNull = false ∧ l.workerBoot.isNull = false ∧
        l.locator.key.isEmpty = false ∧ l.authority.epoch = ⟨1⟩ ∧ reg.Open l.workerBoot ∧
        ∀ l' ∈ reg.locations, l'.locationId = l.locationId →
          l'.workerBoot = l.workerBoot ∧ ¬ l.authority.fence < l'.authority.fence ∧
            ¬ l.generation.value < l'.generation.value
  | .replica p =>
      p.replicaId.isNull = false ∧ (∃ l ∈ reg.locations, l.locationId = p.location) ∧
        p.authority.epoch = ⟨1⟩ ∧ reg.Open p.authority.boot ∧
        ∀ p' ∈ reg.replicas, p'.replicaId = p.replicaId → p'.authority.boot = p.authority.boot
  | .lease l =>
      l.leaseId.isNull = false ∧ l.holder.isNull = false ∧ l.authority.epoch = ⟨1⟩ ∧
        reg.Open l.holder ∧ ∀ l' ∈ reg.leases, l'.leaseId = l.leaseId → l'.holder = l.holder
  | .entry r _ => EntryFounded reg r
  | .policy _ => True

/-! ## 2. What the directory files -/

/-- The directory files what the registry lists, and nothing else. -/
structure Registry.Held (reg : Registry) (d : Directory) : Prop where
  epoch : d.epoch = ⟨1⟩
  tombstones : d.tombstones = []
  sessions : d.workers.FiledFrom reg.sessions
  opened : ∀ s ∈ reg.sessions, s.live = true
  caches : d.caches.FiledFrom reg.caches
  locations : d.locations.FiledFrom reg.locations
  replicas : d.replicas.FiledFrom reg.replicas
  leases : d.leases.FiledFrom reg.leases
  generations : ∀ s g, d.currentGen s = some g →
    ∃ e ∈ reg.entries, e.stateId = s ∧ e.stateGeneration = g
  current : d.OneGeneration
  records : ∀ r ∈ d.records, ∃ e ∈ reg.entries, copyOf e = copyOf r
  standing : part (·.current) unstamped d.records = reg.standing

theorem held_empty : ({} : Registry).Held {} where
  epoch := rfl
  tombstones := rfl
  sessions := KeyedMap.filedFrom_empty
  opened _ h := nomatch h
  caches := KeyedMap.filedFrom_empty
  locations := KeyedMap.filedFrom_empty
  replicas := KeyedMap.filedFrom_empty
  leases := KeyedMap.filedFrom_empty
  generations _ _ h := nomatch h
  current _ h := nomatch h
  records _ h := nomatch h
  standing := rfl

section Requests

variable {F : Type} [ScoreArith F] {reg : Registry} {d : Directory}

/-- The live boots are the open ones. -/
theorem Registry.Held.live_iff (h : reg.Held d) (b : WorkerBootId) :
    d.workerLive b = true ↔ reg.Open b := by
  unfold workerLive
  constructor
  · intro hlive
    cases hw : d.workers.find b with
    | none => rw [hw] at hlive; cases hlive
    | some w => exact ⟨w, h.sessions.of_find hw⟩
  · rintro ⟨s, hs, rfl⟩
    obtain ⟨w, hw, hfind, _⟩ := h.sessions.found hs
    rw [hfind]
    exact h.opened w hw

/-- The registration of a copy that is founded passes every check. -/
theorem admitted_founded (h : reg.Held d) {r : DirectoryRecord} (hr : EntryFounded reg r) :
    d.checkRegistration r = none := by
  obtain ⟨c, hc, hcache⟩ := hr.cache
  obtain ⟨l, hl, hlocation⟩ := hr.location
  obtain ⟨p, hp, hreplica⟩ := hr.replica
  obtain ⟨c', _, hfindc, _⟩ := h.caches.found hc
  obtain ⟨l', hlisted, hfindl, hkeyl⟩ := h.locations.found hl
  obtain ⟨p', hlistedp, hfindp, hkeyp⟩ := h.replicas.found hp
  rw [hcache] at hfindc
  rw [hlocation] at hfindl hkeyl
  rw [hreplica] at hfindp hkeyp
  have hplace := hr.locations l' hlisted hkeyl
  have hcopy := hr.replicas p' hlistedp hkeyp
  refine checkRegistration_eq_none.mpr ⟨?_, ?_, ?_, ?_⟩
  · refine firstFailure_eq_none.mpr ?_
    simp only [dependencyChecks, List.forall_mem_cons, hfindc, hfindl, hfindp]
    simp [hr.state, hr.cacheId, hr.entry, hr.replicaId, hr.locationId, hr.epoch, h.epoch,
      (h.live_iff _).mpr hr.live, hplace.node, hplace.worker, hplace.workerBoot, hplace.domain,
      hplace.reachability, hcopy.location, hcopy.cache, hcopy.entry]
  · refine coveredByTombstone_eq_false.mpr fun t ht => ?_
    rw [h.tombstones] at ht
    cases ht
  · unfold generationCheck
    cases hgen : d.currentGen r.stateId with
    | none => rfl
    | some g =>
        obtain ⟨e, he, hstate, rfl⟩ := h.generations _ _ hgen
        exact decide_eq_false (hr.newest e he hstate)
  · refine duplicateCheck_eq_none.mpr fun x hx hsame => ?_
    obtain ⟨e, he, hcopies⟩ := h.records x hx
    exact hr.fresh e he (hcopies.trans (sameCopy_iff.mp hsame).2)

/-- **What is founded is accepted.** -/
theorem accepted_founded (h : reg.Held d) {req : Request} (hreq : req.Founded reg) :
    req.op.Accepted F d := by
  cases req with
  | session s =>
      obtain ⟨hwelcome, hfresh⟩ := hreq
      rcases registerWorkerSession_cases (d := d) s with ⟨f, _, hno⟩ | ⟨_, a, hdone⟩
      · refine absurd ⟨hwelcome, ?_⟩ hno
        rw [Bool.eq_false_iff]
        exact fun hlive => hfresh ((h.live_iff _).mp hlive)
      · show (Operation.report (d.registerWorkerSession s)).1 = none
        rw [hdone]
        rfl
  | cache c =>
      obtain ⟨hid, hboot, hepoch, hopen, hearlier⟩ := hreq
      exact accepted_registerCache.mpr ⟨hid, hboot, hepoch.trans h.epoch.symm,
        (h.live_iff _).mpr hopen, h.caches.forall_find hearlier⟩
  | location l =>
      obtain ⟨hid, hboot, hkey, hepoch, hopen, hearlier⟩ := hreq
      exact accepted_registerLocation.mpr ⟨hid, hboot, hkey, hepoch.trans h.epoch.symm,
        (h.live_iff _).mpr hopen, h.locations.forall_find hearlier⟩
  | replica p =>
      obtain ⟨hid, ⟨l, hl, hplace⟩, hepoch, hopen, hearlier⟩ := hreq
      obtain ⟨l', _, hfind, _⟩ := h.locations.found hl
      refine accepted_registerReplica.mpr ⟨hid, ?_, hepoch.trans h.epoch.symm,
        (h.live_iff _).mpr hopen, h.replicas.forall_find hearlier⟩
      unfold KeyedMap.contains
      rw [← hplace, hfind]
      rfl
  | lease l =>
      obtain ⟨hid, hholder, hepoch, hopen, hearlier⟩ := hreq
      exact accepted_registerLease.mpr ⟨hid, hholder, hepoch.trans h.epoch.symm,
        (h.live_iff _).mpr hopen, h.leases.forall_find hearlier⟩
  | entry r clk => exact accepted_registerEntry.mpr (admitted_founded h hreq)
  | policy p => rfl

/-- What the registration of a copy takes the place of: of current records only the words of the
    copies decide. -/
theorem displaces_eq_supplants (hgen : d.OneGeneration) {r x : DirectoryRecord}
    (hnamed : r.recordId.isNull = false) (hx : x ∈ d.records) (hcur : x.current = true) :
    displaces d r x = supplants r x := by
  unfold displaces supplants
  rw [hcur, effectiveId_named hnamed, Bool.true_and]
  cases hstate : x.stateId == r.stateId with
  | false => rfl
  | true =>
      have hnow := hgen x hx hcur
      rw [beq_iff_eq.mp hstate] at hnow
      unfold outdates
      rw [hnow, Option.any_some]
      simp only [gt_iff_lt, Bool.and_self]

theorem held_entry (h : reg.Held d) {r : DirectoryRecord} {clk : Nat → TimestampNs}
    (hr : EntryFounded reg r) : (reg.add (.entry r clk)).Held (d.registerEntry r clk).2 := by
  have hcheck := admitted_founded h hr
  have hrecords := records_registerEntry r clk hcheck
  have hcurrent := oneGeneration_of_committed h.current (committed_registerEntry clk hcheck)
  rw [registerEntry_admitted hcheck] at hrecords hcurrent ⊢
  refine
    { epoch := h.epoch
      tombstones := h.tombstones
      sessions := h.sessions
      opened := h.opened
      caches := h.caches
      locations := h.locations
      replicas := h.replicas
      leases := h.leases
      generations := ?_
      current := hcurrent
      records := ?_
      standing := ?_ }
  · intro s g hg
    replace hg : ((d.currentStateGen.put (r.stateId, r.stateGeneration)).find s).map Prod.snd =
      some g := hg
    rw [KeyedMap.find_put] at hg
    by_cases hs : r.stateId = s
    · rw [if_pos hs] at hg
      exact ⟨r, List.mem_append_right _ (List.mem_singleton.mpr rfl), hs, Option.some.inj hg⟩
    · rw [if_neg hs] at hg
      obtain ⟨e, he, hfound⟩ := h.generations s g hg
      exact ⟨e, List.mem_append_left _ he, hfound⟩
  · intro x hx
    rw [hrecords] at hx
    rcases List.mem_append.mp hx with hold | hnew
    · obtain ⟨y, hy, rfl⟩ := List.mem_map.mp hold
      obtain ⟨e, he, hcopies⟩ := h.records y hy
      refine ⟨e, List.mem_append_left _ he, hcopies.trans ?_⟩
      split <;> rfl
    · rw [List.mem_singleton.mp hnew]
      exact ⟨r, List.mem_append_right _ (List.mem_singleton.mpr rfl), rfl⟩
  · have hstruck : part (·.current) unstamped
        (d.records.map fun x => if displaces d r x then superseded x else x) =
          reg.standing.filter fun x => !supplants r x := by
      rw [← h.standing]
      exact part_struck (fun _ => rfl) (fun _ => rfl)
        fun x hx hcur => displaces_eq_supplants h.current hr.named hx hcur
    have hnew : part (·.current) unstamped [d.stamped r clk] = [asPublished r clk] := by
      have hcur : (d.stamped r clk).current = true := rfl
      rw [part_cons, if_pos hcur, unstamped_stamped hr.named clk d {}]
      rfl
    rw [hrecords, part_append, hstruck, hnew]
    rfl

/-- **One request.** -/
theorem held_step (h : reg.Held d) {req : Request} (hreq : req.Founded reg) :
    (reg.add req).Held (req.op.step F d) := by
  have haccepted := accepted_founded (F := F) h hreq
  cases req with
  | session s =>
      show Registry.Held _ (d.registerWorkerSession s).2
      unfold registerWorkerSession
      rw [(accepted_report_guarded haccepted).2]
      refine { h with sessions := h.sessions.put _, opened := fun t ht => ?_ }
      rcases List.mem_append.mp ht with hold | hnew
      · exact h.opened t hold
      · rw [List.mem_singleton.mp hnew]
  | cache c =>
      show Registry.Held _ (d.registerCache c).2
      unfold registerCache
      rw [(accepted_report_guarded haccepted).2]
      exact { h with caches := h.caches.put c }
  | location l =>
      show Registry.Held _ (d.registerLocation l).2
      unfold registerLocation
      rw [(accepted_report_guarded haccepted).2]
      exact { h with locations := h.locations.put l }
  | replica p =>
      show Registry.Held _ (d.registerReplica p).2
      unfold registerReplica
      rw [(accepted_report_guarded haccepted).2]
      exact { h with replicas := h.replicas.put p }
  | lease l =>
      show Registry.Held _ (d.registerLease l).2
      unfold registerLease
      rw [(accepted_report_guarded haccepted).2]
      exact { h with leases := h.leases.put l }
  | entry r clk => exact held_entry h hreq
  | policy p => exact { h with }

end Requests

/-! ## 3. Plans among strangers -/

/-- A plan carried out by itself. -/
theorem held_after (F : Type) [ScoreArith F] : ∀ (plan : List Request) {reg : Registry}
    {d : Directory}, reg.Held d → Follows Registry.add Request.Founded reg plan →
    (after Registry.add reg plan).Held (after (Operation.step F) d (plan.map Request.op)) ∧
      ∀ x ∈ reports (Operation.step F) (Operation.failure F) d (plan.map Request.op), x.2 = none
  | [], _, _, h, _ => ⟨h, fun _ hx => nomatch hx⟩
  | req :: plan, _, d, h, hplan => by
      obtain ⟨hheld, hrest⟩ := held_after F plan (held_step (F := F) h hplan.1) hplan.2
      refine ⟨hheld, fun x hx => ?_⟩
      rcases List.mem_cons.mp hx with rfl | hx
      · exact accepted_founded (F := F) h hplan.1
      · exact hrest x hx

/-- What a query finds is what of the current records qualifies. -/
theorem found_unstamped {F : Type} [ScoreArith F] (d : Directory) (q : DirectoryQuery) :
    ((d.queryScan (F := F) q).candidates.map fun c => unstamped c.record).Perm
      ((part (·.current) unstamped d.records).filter fun r => Eligible q r) := by
  have hcurrent : ∀ r ∈ d.records, decide (Eligible q r) = true → r.current = true :=
    fun r _ hr => (considered_iff.mp (of_decide_eq_true hr).1).1
  have hfound : ((d.queryScan (F := F) q).candidates.map (·.record)).Perm
      (d.records.filter fun r => Eligible q r) := by
    rw [(queryScan_eq d q).1, records_selectFirst]
    exact records_chosen d q
  have hpart : (part (·.current) unstamped d.records).filter (fun r => Eligible q r) =
      (d.records.filter fun r => Eligible q r).map unstamped := filter_part hcurrent fun _ => rfl
  have hsplit : ((d.queryScan (F := F) q).candidates.map fun c => unstamped c.record) =
      ((d.queryScan (F := F) q).candidates.map (·.record)).map unstamped := by
    rw [List.map_map]
    rfl
  rw [hpart, hsplit]
  exact hfound.map unstamped

/-- **Plans are served.** Among calls that keep their names on one side of a division, the calls of
    one side carry out a plan in which every request is founded on those before it. Whatever the
    calls of the others are and wherever they come in between, every request is accepted, and every
    query for a state of that side returns exactly the copies of the plan that stand and that the
    query accepts, each once. -/
theorem plans_served (F : Type) [ScoreArith F] (own : Identifier → Bool) (ops : List Operation)
    (plan : List Request) (hops : ∀ op ∈ ops, op.Sided own)
    (hown : ops.filter (Operation.concerns own) = plan.map Request.op)
    (hplan : Follows Registry.add Request.Founded {} plan) :
    (∀ x ∈ reports (Operation.step F) (Operation.failure F) {} ops,
        x.1.concerns own = true → x.2 = none) ∧
      ∀ order q, q.exactState = true → own (.state q.state) = true →
        ∃ res, ((after (Operation.step F) {} ops).query (F := F) order q).1 = .ok res ∧
          (res.candidates.map fun c => unstamped c.record).Perm
            ((after Registry.add {} plan).standing.filter fun r => Eligible q r) := by
  obtain ⟨hslice, hreports⟩ := seen_of_concerns (F := F) ops hops
  obtain ⟨hheld, haccepted⟩ := held_after F plan held_empty hplan
  rw [hown] at hslice hreports
  constructor
  · intro x hx hconcerns
    refine haccepted x ?_
    rw [← hreports]
    exact List.mem_filter.mpr ⟨hx, hconcerns⟩
  · intro order q hexact hstate
    refine ⟨_, (query_eq_scan F ops _ order q (after_mem_visited _ _ _)).1, ?_⟩
    -- both runs answer from the same slice
    have hfiltered : ∀ op ∈ plan.map Request.op, op.Sided own := fun op hop => by
      rw [← hown] at hop
      exact hops op (List.mem_filter.mp hop).1
    have hsame : ((after (Operation.step F) {} ops).queryScan (F := F) q).unstamped =
        ((after (Operation.step F) {} (plan.map Request.op)).queryScan q).unstamped := by
      rw [← queryScan_slice (divided_after ops hops) hexact hstate, hslice,
        queryScan_slice (divided_after _ hfiltered) hexact hstate]
    have hrecords (res : QueryResult F) : (res.candidates.map fun c => unstamped c.record) =
        res.unstamped.candidates.map (·.record) := by
      show _ = (res.candidates.map Candidate.unstamped).map (·.record)
      rw [List.map_map]
      rfl
    rw [hrecords, hsame, ← hrecords, ← hheld.standing]
    exact found_unstamped _ q

/-- Worker 1 opens its session and registers its copy. -/
def copyPlan : List Request :=
  [.session attachedSession, .cache (attachedCache ⟨1⟩ ⟨1⟩), .location (attachedLocation ⟨1⟩ ⟨1⟩),
    .replica (attachedReplica ⟨1⟩ ⟨1⟩ ⟨1⟩ ⟨1⟩), .entry (copyRecord ⟨1⟩ ⟨1⟩) fun _ => 1]

theorem plans_served_amongStrangers :
    ∃ res, ((after (Operation.step Float) {} amongStrangers).query (F := Float) (.stored _)
        { exactState := true, state := ⟨1⟩ }).1 = .ok res ∧
      (res.candidates.map fun c => unstamped c.record).Perm
        [asPublished (copyRecord ⟨1⟩ ⟨1⟩) fun _ => 1] := by
  have hentry : EntryFounded (after Registry.add {} (copyPlan.take 4)) (copyRecord ⟨1⟩ ⟨1⟩) :=
    { named := rfl, state := rfl, cacheId := rfl, entry := rfl, replicaId := rfl
      locationId := rfl, epoch := rfl, live := by decide
      cache := by decide
      location := by decide
      locations := fun l hl _ => by
        rw [List.mem_singleton.mp hl]
        exact ⟨rfl, rfl, rfl, rfl, by decide⟩
      replica := by decide
      replicas := fun p hp _ => by
        rw [List.mem_singleton.mp hp]
        exact ⟨rfl, rfl, rfl⟩
      newest := fun _ h => nomatch h
      fresh := fun _ h => nomatch h }
  have hplan : Follows Registry.add Request.Founded {} copyPlan :=
    ⟨⟨⟨rfl, rfl⟩, by decide⟩, ⟨rfl, rfl, rfl, by decide, fun _ h => nomatch h⟩,
      ⟨rfl, rfl, rfl, rfl, by decide, fun _ h => nomatch h⟩,
      ⟨rfl, by decide, rfl, by decide, fun _ h => nomatch h⟩, hentry, trivial⟩
  obtain ⟨res, hres, hfound⟩ := (plans_served Float firstRealm amongStrangers copyPlan (by decide)
    rfl hplan).2 (.stored _) { exactState := true, state := ⟨1⟩ } rfl rfl
  have hstanding : (after Registry.add {} copyPlan).standing =
      [asPublished (copyRecord ⟨1⟩ ⟨1⟩) fun _ => 1] := rfl
  rw [hstanding, List.filter_cons_of_pos (by decide +kernel)] at hfound
  exact ⟨res, hres, hfound⟩

end CacheDirectory
