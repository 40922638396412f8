/-
  File:      CacheDirectory/Recovery/Stability.lean
  Subject:   SAVING AND RECOVERING AGAIN CHANGES NOTHING.

  Recovery rewrites what it reads: evidence is devalued, leases are demoted, semantic digests are
  computed anew. Whatever bytes were accepted, what came out of them is written within the limits
  of the readers and comes back as it is: a fixed point of the rewriting.

  * `Snapshot.AsRead` -- what the readers guarantee of every snapshot they give;
  * `Directory.Settled` -- recovery leaves every record, location and lease as it is;
  * `restartable_install`, `settled_install` -- an accepted snapshot leaves such a directory;
  * `recovery_stable` -- one more round, and any number of rounds.
-/
import CacheDirectory.Recovery.Restart

namespace CacheDirectory

open Library Directory ByteReader

/-! ## 1. What the readers give -/

/-- A record as its reader gives it: the name space within the bound, and zeros and defaults where
    nothing was read. -/
structure RecordAsRead (r : DirectoryRecord) : Prop where
  nameSpace : r.nameSpace.length ≤ 1 <<< 20
  digest : r.contentDigestKnown = false → r.contentDigest = Digest.Sha256.zero
  lease : r.hasLease = false → r.lease = {}

structure LocationAsRead (l : LocationDescriptor) : Prop where
  processTag : l.processTag.length ≤ 1 <<< 20
  locator : l.locator.key.length ≤ 1 <<< 24
  digest : l.contentDigestKnown = false → l.contentDigest = Digest.Sha256.zero

/-- Such a record comes back as it is. -/
theorem RecordAsRead.same {r : DirectoryRecord} (h : RecordAsRead r) : recordAsRead {} r = r :=
  recordAsRead_same h.digest h.lease

theorem LocationAsRead.same {l : LocationDescriptor} (h : LocationAsRead l) :
    locationAsRead {} l = l := by
  have hcontent : (if l.contentDigestKnown then l.contentDigest else Digest.Sha256.zero) =
      l.contentDigest :=
    ite_eq_left_iff.mpr fun hno => (h.digest (Bool.eq_false_of_not_eq_true hno)).symm
  show { l with
    contentDigest := if l.contentDigestKnown then l.contentDigest else Digest.Sha256.zero } = l
  rw [hcontent]

theorem rTomb_gives (p : TombstoneRecord) :
    Gives (rTomb p) fun t => t.reason.length ≤ 1 <<< 20 := by
  unfold rTomb
  refine .step fun _ => .step fun _ => .step fun _ => .step fun _ => .step fun _ => ?_
  exact .seq (string_gives _) fun _ hreason => .step fun _ => .step fun _ => .pure hreason

theorem rObs_gives (p : ObservationRecord) :
    Gives (rObs p) fun o => o.subject.length ≤ 1 <<< 20 ∧ o.subjectKey.length ≤ 1 <<< 20 := by
  unfold rObs
  refine .step fun _ => .step fun _ => .step fun _ => ?_
  refine .seq (string_gives _) fun _ hsubject => .seq (string_gives _) fun _ hkey => ?_
  exact .step fun _ => .step fun _ => .step fun _ => .step fun _ => .step fun _ =>
    .step fun _ => .step fun _ => .step fun _ => .pure ⟨hsubject, hkey⟩

theorem rLoc_gives : Gives (rLoc {}) LocationAsRead := by
  unfold rLoc
  refine .step fun _ => .step fun _ => .step fun _ => .step fun _ => .step fun _ =>
    .step fun _ => .step fun _ => .step fun _ => ?_
  refine .seq (string_gives _) fun _ htag => .seq (string_gives _) fun _ hkey => ?_
  refine .step fun _ => .step fun _ => .step fun _ => .step fun dk => ?_
  refine .seq (optional_gives (dk != 0) _ _) fun _ hcontent => ?_
  exact .step fun _ => .step fun _ => .step fun _ => .step fun _ => .step fun _ =>
    .step fun _ => .step fun _ => .step fun _ => .step fun _ => .step fun _ =>
    .step fun _ => .pure ⟨htag, hkey, hcontent⟩

theorem rRec_gives : Gives (rRec {}) RecordAsRead := by
  unfold rRec
  refine .step fun _ => .step fun _ => .step fun _ => .step fun _ => ?_
  refine .seq (string_gives _) fun _ hname => ?_
  refine .step fun _ => .step fun _ => .step fun _ => .step fun _ => .step fun _ =>
    .step fun _ => .step fun _ => .step fun _ => .step fun _ => .step fun _ =>
    .step fun _ => .step fun _ => .step fun dk => ?_
  refine .seq (optional_gives (dk != 0) _ _) fun _ hcontent => ?_
  refine .step fun _ => .step fun _ => .step fun _ => .step fun _ => .step fun _ =>
    .step fun _ => .step fun _ => .step fun _ => .step fun _ => .step fun le => ?_
  refine .seq (optional_gives (le != 0) _ _) fun _ hlease => ?_
  refine .step fun _ => .step fun _ => .step fun _ => .step fun _ => .step fun _ =>
    .step fun _ => .step fun _ => .step fun _ => .step fun _ => .step fun _ => .pure ?_
  exact ⟨hname, hcontent, fun h => hlease (Bool.or_eq_false_iff.mp h).1⟩

/-- What the readers guarantee of a snapshot. -/
structure Snapshot.AsRead (s : Snapshot) : Prop where
  records : ∀ r ∈ s.records, RecordAsRead r
  locations : ∀ l ∈ s.locations, LocationAsRead l
  reasons : ∀ t ∈ s.tombstones, t.reason.length ≤ 1 <<< 20
  observations : ∀ o ∈ s.observations,
    o.subject.length ≤ 1 <<< 20 ∧ o.subjectKey.length ≤ 1 <<< 20

theorem readEntities_gives {α : Type} {p : Reader α} {P : α → Prop} (n : UInt64) (text : String)
    (h : Gives p P) : Gives (readEntities n p text) fun xs => ∀ x ∈ xs, P x :=
  .times (h.orFail _) _

theorem readBody_gives : Gives readBody Snapshot.AsRead := by
  unfold readBody
  refine .step fun _ => .step fun _ => .step fun _ => .step fun _ => .step fun _ =>
    .step fun _ => .step fun _ => .step fun _ => .step fun _ => .step fun _ => ?_
  refine .seq (readEntities_gives _ _ rRec_gives) fun _ hrecords => .step fun _ => ?_
  refine .seq (readEntities_gives _ _ rLoc_gives) fun _ hlocations => ?_
  refine .step fun _ => .step fun _ => ?_
  refine .seq (readEntities_gives _ _ (rTomb_gives {})) fun _ hreasons => ?_
  refine .seq (readEntities_gives _ _ (rObs_gives {})) fun _ hobservations => .pure ?_
  exact ⟨hrecords, hlocations, hreasons, hobservations⟩

theorem parseSnapshot_asRead {buf : Bytes} {s : Snapshot} (h : parseSnapshot buf = .ok s) :
    s.AsRead := by
  obtain ⟨body, hbody⟩ := parseSnapshot_body h
  exact readBody_gives.runAll hbody

/-! ## 2. What is installed -/

/-- Recovery leaves every record, location and lease as it is. -/
structure Directory.Settled (d : Directory) : Prop where
  records : ∀ r ∈ d.records, restoredRecord r = r
  locations : ∀ l ∈ d.locations.values, restoredLocation l = l
  leases : ∀ l ∈ d.leases.values, restoredLease l = l

/-- **A second recovery of a record that is read as it is changes nothing.** -/
theorem restoredRecord_recoverRecord {r : DirectoryRecord} (h : RecordAsRead r) :
    restoredRecord (recoverRecord r) = recoverRecord r := by
  have hagain : RecordAsRead (recoverRecord r) := ⟨h.nameSpace, h.digest, h.lease⟩
  rw [← recoverRecord_asRead, hagain.same]
  rfl

theorem restoredLocation_recoverLocation {l : LocationDescriptor} (h : LocationAsRead l) :
    restoredLocation (recoverLocation l) = recoverLocation l := by
  have hagain : LocationAsRead (recoverLocation l) := ⟨h.processTag, h.locator, h.digest⟩
  rw [← recoverLocation_asRead, hagain.same]
  rfl

/-- What came from a list of locations was read. -/
theorem mem_locations_install {s : Snapshot} (hs : s.Sound) {d : Directory}
    {l : LocationDescriptor} (hl : l ∈ (d.install s).locations.values) :
    ∃ x ∈ s.locations, recoverLocation x = l := by
  have hmem : l ∈ ((KeyedMap.ofList LocationDescriptor.locationId s.locations).adjust
      (fun _ => true) recoverLocation fun _ => rfl).values := hl
  obtain ⟨x, hx, rfl⟩ := KeyedMap.mem_adjust.mp hmem
  exact ⟨x, (KeyedMap.values_ofList hs.locationIds).mem_iff.mp hx, rfl⟩

theorem settled_install {s : Snapshot} (hs : s.Sound) (hread : s.AsRead) (d : Directory) :
    (d.install s).Settled where
  records := by
    intro r' hr'
    obtain ⟨r, hr, rfl⟩ := List.mem_map.mp hr'
    exact restoredRecord_recoverRecord (hread.records r hr)
  locations := by
    intro l' hl'
    obtain ⟨l, hl, rfl⟩ := mem_locations_install hs hl'
    exact restoredLocation_recoverLocation (hread.locations l hl)
  leases := by
    intro l' hl'
    have hmem : l' ∈ ((KeyedMap.ofList LeaseDescriptor.leaseId s.leases).adjust (fun _ => true)
        recoverLease fun _ => rfl).values := hl'
    obtain ⟨l, _, rfl⟩ := KeyedMap.mem_adjust.mp hmem
    rfl

theorem stringsFit_install {s : Snapshot} (hs : s.Sound) (hread : s.AsRead) (d : Directory) :
    (d.install s).StringsFit where
  nameSpaces := by
    intro r' hr'
    obtain ⟨r, hr, rfl⟩ := List.mem_map.mp hr'
    exact (hread.records r hr).nameSpace
  locations := by
    intro l' hl'
    obtain ⟨l, hl, rfl⟩ := mem_locations_install hs hl'
    exact ⟨(hread.locations l hl).processTag, (hread.locations l hl).locator⟩
  reasons := hread.reasons
  observations := hread.observations

/-- **What an accepted snapshot leaves can be restarted from, and is settled.** -/
theorem recovered_settled {buf : Bytes} {t d : Directory} {ack : AckResult}
    (h : t.recoverFromBuffer buf = some (.ok ack, d)) :
    d.Restartable ∧ d.Settled ∧ d.workers.values = [] ∧
      d.currentStateGen = currentGenerations d.records := by
  rcases recoverFromBuffer_cases buf t with ⟨f, hrec⟩ | ⟨s, ack', hparse, hproblem, hrec⟩
  · rw [hrec] at h
    cases h
  · rw [hrec] at h
    cases h
    have hs := problem_eq_none.mp hproblem
    have hread := parseSnapshot_asRead hparse
    have hcounts := countsFit_install (parseSnapshot_counts hparse) t
    exact ⟨⟨hcounts, stringsFit_install hs hread t, sound_install hs t⟩,
      settled_install hs hread t, rfl, rfl⟩

/-! ## 3. Rounds of saving and recovering -/

/-- The same records, tombstones and observations in the same order, the same entries in every map,
    the same generations. -/
structure SameContent (d d' : Directory) : Prop where
  records : d'.records = d.records
  caches : ∀ id, d'.caches.find id = d.caches.find id
  locations : ∀ id, d'.locations.find id = d.locations.find id
  replicas : ∀ id, d'.replicas.find id = d.replicas.find id
  leases : ∀ id, d'.leases.find id = d.leases.find id
  tombstones : d'.tombstones = d.tombstones
  observations : d'.observations = d.observations
  directoryGeneration : d'.directoryGeneration = d.directoryGeneration

theorem SameContent.refl (d : Directory) : SameContent d d :=
  ⟨rfl, fun _ => rfl, fun _ => rfl, fun _ => rfl, fun _ => rfl, rfl, rfl, rfl⟩

theorem SameContent.trans {d d' d'' : Directory} (h : SameContent d d') (h' : SameContent d' d'') :
    SameContent d d'' where
  records := h'.records.trans h.records
  caches id := (h'.caches id).trans (h.caches id)
  locations id := (h'.locations id).trans (h.locations id)
  replicas id := (h'.replicas id).trans (h.replicas id)
  leases id := (h'.leases id).trans (h.leases id)
  tombstones := h'.tombstones.trans h.tombstones
  observations := h'.observations.trans h.observations
  directoryGeneration := h'.directoryGeneration.trans h.directoryGeneration

/-- An edit that leaves every value on file as it is leaves every lookup. -/
theorem map_find_eq_self {κ ν : Type} [DecidableEq κ] {key : ν → κ} {m : KeyedMap key} {f : ν → ν}
    (h : ∀ v ∈ m.values, f v = v) (k : κ) : (m.find k).map f = m.find k := by
  cases hfind : m.find k with
  | none => rfl
  | some v => rw [Option.map_some, h v (KeyedMap.find_eq_some.mp hfind).1]

/-- **One more round leaves a settled directory with the same content.** -/
theorem sameContent_restarted {d t d' : Directory} {o : MapOrders} {ack : AckResult}
    (hres : d.Restartable) (hsettled : d.Settled)
    (h : t.recoverFromBuffer (d.saveToBuffer o).2 = some (.ok ack, d')) :
    SameContent d d' ∧ d'.epoch.value = d.epoch.value + 1 := by
  have hfit := sizesFit_of_limits hres.counts hres.strings
  obtain ⟨hrecords, hcaches, hlocations, hreplicas, hleases, htombs, hobs, _, hgen, hepoch⟩ :=
    snapshot_fidelity d t d' o ack hfit h
  refine ⟨⟨?_, hcaches, fun id => ?_, hreplicas, fun id => ?_, htombs, hobs, hgen⟩, hepoch⟩
  · rw [hrecords]
    exact map_eq_self_iff.mpr hsettled.records
  · rw [hlocations]
    exact map_find_eq_self hsettled.locations id
  · rw [hleases]
    exact map_find_eq_self hsettled.leases id

/-- So many rounds of saving, in whatever order the maps come, and recovering, in whatever
    process. -/
inductive Rounds : Nat → Directory → Directory → Prop
  | none (d : Directory) : Rounds 0 d d
  | more {n : Nat} {d d' d'' t : Directory} {o : MapOrders} {ack : AckResult}
      (before : Rounds n d d')
      (round : t.recoverFromBuffer (d'.saveToBuffer o).2 = some (.ok ack, d'')) :
      Rounds (n + 1) d d''

/-- **Recovery is stable**: what any accepted bytes leave is saved and recovered with the same
    content, no workers and an epoch one more; and so it is in every round that follows. -/
theorem recovery_stable (buf : Bytes) (t d : Directory) (ack : AckResult)
    (h : t.recoverFromBuffer buf = some (.ok ack, d)) :
    (∀ (o : MapOrders) (t' : Directory), ∃ ack' d',
      t'.recoverFromBuffer (d.saveToBuffer o).2 = some (.ok ack', d') ∧ SameContent d d' ∧
        d'.currentStateGen = d.currentStateGen ∧ d'.workers.values = [] ∧
        d'.epoch.value = d.epoch.value + 1) ∧
      ∀ (n : Nat) (d' : Directory), Rounds n d d' →
        (∀ (o : MapOrders) (t' : Directory), ∃ ack' d'',
          t'.recoverFromBuffer (d'.saveToBuffer o).2 = some (.ok ack', d'')) ∧
          SameContent d d' ∧ d'.currentStateGen = d.currentStateGen ∧ d'.workers.values = [] ∧
          d'.epoch.value = d.epoch.value + UInt64.ofNat n := by
  obtain ⟨hres, hsettled, hworkers, hgens⟩ := recovered_settled h
  -- what the rounds keep
  have hrounds {n : Nat} {d' : Directory} (hn : Rounds n d d') :
      (d'.Restartable ∧ d'.Settled) ∧ SameContent d d' ∧
        d'.currentStateGen = currentGenerations d'.records ∧ d'.workers.values = [] ∧
        d'.epoch.value = d.epoch.value + UInt64.ofNat n := by
    induction hn with
    | none => exact ⟨⟨hres, hsettled⟩, .refl _, hgens, hworkers, by simp⟩
    | more _ round ih =>
        obtain ⟨⟨hres', hsettled'⟩, hsame, _, _, hepoch⟩ := ih h hres hsettled hworkers hgens
        obtain ⟨hagain, hnext⟩ := sameContent_restarted hres' hsettled' round
        obtain ⟨hres'', hsettled'', hworkers'', hgens''⟩ := recovered_settled round
        refine ⟨⟨hres'', hsettled''⟩, hsame.trans hagain, hgens'', hworkers'', ?_⟩
        rw [hnext, hepoch, UInt64.ofNat_add, UInt64.add_assoc]
        rfl
  have hsamegens {d' : Directory} (hsame : SameContent d d')
      (hcurrent : d'.currentStateGen = currentGenerations d'.records) :
      d'.currentStateGen = d.currentStateGen := by
    rw [hcurrent, hgens, hsame.records]
  constructor
  · intro o t'
    obtain ⟨ack', hrec⟩ := recover_saved (o := o) hres t'
    obtain ⟨hsame, hepoch⟩ := sameContent_restarted hres hsettled hrec
    obtain ⟨_, _, hworkers', hgens'⟩ := recovered_settled hrec
    exact ⟨ack', _, hrec, hsame, hsamegens hsame hgens', hworkers', hepoch⟩
  · intro n d' hn
    obtain ⟨⟨hres', _⟩, hsame, hgens', hworkers', hepoch⟩ := hrounds hn
    refine ⟨fun o t' => ?_, hsame, hsamegens hsame hgens', hworkers', hepoch⟩
    obtain ⟨ack', hrec⟩ := recover_saved (o := o) hres' t'
    exact ⟨ack', _, hrec⟩

theorem recovery_stable_afterRegistration :
    ∃ ack d, Directory.recoverFromBuffer (afterRegistration.saveToBuffer .stored).2 {} =
        some (.ok ack, d) ∧
      ∃ ack' d', Directory.recoverFromBuffer (d.saveToBuffer .stored).2 {} = some (.ok ack', d') ∧
        SameContent d d' := by
  obtain ⟨ack, hrec⟩ := recover_saved (o := .stored) restartable_afterRegistration {}
  obtain ⟨ack', d', hagain, hsame, _⟩ := (recovery_stable _ {} _ ack hrec).1 .stored {}
  exact ⟨ack, _, hrec, ack', d', hagain, hsame⟩

end CacheDirectory
