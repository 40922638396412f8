/-
  File:      CacheDirectory/Recovery/Canonical.lean
  Subject:   WHETHER THE SAME CONTENT IS SAVED AS THE SAME BYTES.

  Records, tombstones and observations are vectors and written in their order. Caches, locations,
  replicas and leases are hash maps, written in the order the hash map enumerates them: nothing
  sorts them. The image of an entry starts with its id, so two orders of one map give two images.

  * `saved_of_orders` -- the same content in the same order is saved as the same bytes;
  * `length_le_one_of_reversed` -- two entries make two images;
  * `canonical_iff` -- the order does not matter exactly where no map has two entries.
-/
import CacheDirectory.Recovery.Stability

namespace CacheDirectory

open Library Directory

/-! ## 1. Images and orders -/

/-- The parts of the body that come in an order of their own. -/
theorem snapshotBody_parts (d : Directory) (o : MapOrders) :
    d.snapshotBody o = (d.snapshotCounts ++ d.records.flatMap wRec) ++
      ((o.caches.order d.caches.values).flatMap wCache ++
        ((o.locations.order d.locations.values).flatMap wLoc ++
          ((o.replicas.order d.replicas.values).flatMap wRep ++
            ((o.leases.order d.leases.values).flatMap wLease ++
              (d.tombstones.flatMap wTomb ++ d.observations.flatMap wObs))))) := by
  simp [Directory.snapshotBody]

/-- The header has one length, so equal snapshots have equal bodies. -/
theorem body_of_saved {d d' : Directory} {o o' : MapOrders}
    (h : (d.saveToBuffer o).2 = (d'.saveToBuffer o').2) :
    d.snapshotBody o = d'.snapshotBody o' := by
  have hlen : (snapshotHeader (d.snapshotBody o)).length =
      (snapshotHeader (d'.snapshotBody o')).length :=
    (length_snapshotHeader _).trans (length_snapshotHeader _).symm
  exact List.append_inj_right h hlen

theorem saved_of_body {d d' : Directory} {o o' : MapOrders}
    (h : d.snapshotBody o = d'.snapshotBody o') :
    (d.saveToBuffer o).2 = (d'.saveToBuffer o').2 := by
  show snapshotHeader (d.snapshotBody o) ++ d.snapshotBody o = _
  rw [h]
  rfl

/-- The maps come in the same order. -/
structure SameOrder (d d' : Directory) (o o' : MapOrders) : Prop where
  caches : o.caches.order d.caches.values = o'.caches.order d'.caches.values
  locations : o.locations.order d.locations.values = o'.locations.order d'.locations.values
  replicas : o.replicas.order d.replicas.values = o'.replicas.order d'.replicas.values
  leases : o.leases.order d.leases.values = o'.leases.order d'.leases.values

/-- **The same content in the same order is saved as the same bytes.** -/
theorem saved_of_orders {d d' : Directory} {o o' : MapOrders} (h : SameContent d d')
    (hepoch : d'.epoch = d.epoch) (horder : SameOrder d d' o o') :
    (d.saveToBuffer o).2 = (d'.saveToBuffer o').2 := by
  have hcounts : d'.snapshotCounts = d.snapshotCounts := by
    have hc : d'.caches.size = d.caches.size := (KeyedMap.perm_of_find h.caches).length_eq
    have hl : d'.locations.size = d.locations.size := (KeyedMap.perm_of_find h.locations).length_eq
    have hr : d'.replicas.size = d.replicas.size := (KeyedMap.perm_of_find h.replicas).length_eq
    have hs : d'.leases.size = d.leases.size := (KeyedMap.perm_of_find h.leases).length_eq
    unfold Directory.snapshotCounts
    rw [h.records, hc, hl, hr, hs, h.tombstones, h.observations, hepoch, h.directoryGeneration]
  refine saved_of_body ?_
  rw [snapshotBody_parts, snapshotBody_parts, hcounts, h.records, horder.caches,
    horder.locations, horder.replicas, horder.leases, h.tombstones, h.observations]

/-! ## 2. Two entries, two images -/

section Reversed

variable {α Tag : Type} {enc : α → Bytes} {key : α → StrongValue Tag}

/-- Images that start with an id agree only if they are of one id. -/
theorem key_of_images (henc : ∀ a, ∃ tail, enc a = ByteWriter.strong (key a) ++ tail) {a b : α}
    {as bs : List α} {rest rest' : Bytes}
    (h : (a :: as).flatMap enc ++ rest = (b :: bs).flatMap enc ++ rest') : key a = key b := by
  obtain ⟨ta, ha⟩ := henc a
  obtain ⟨tb, hb⟩ := henc b
  rw [List.flatMap_cons, List.flatMap_cons, ha, hb] at h
  simp only [List.append_assoc] at h
  exact (strong_cancels (key a) (key b)).of_leading h

/-- **Of two entries or more, the two orders give two images.** -/
theorem length_le_one_of_reversed
    (henc : ∀ a, ∃ tail, enc a = ByteWriter.strong (key a) ++ tail) {l : List α}
    (hnodup : (l.map key).Nodup) {rest rest' : Bytes}
    (h : l.flatMap enc ++ rest = l.reverse.flatMap enc ++ rest') : l.length ≤ 1 := by
  rcases l with _ | ⟨a, l⟩
  · exact Nat.zero_le 1
  · rcases List.eq_nil_or_concat l with rfl | ⟨front, b, rfl⟩
    · exact Nat.le_refl 1
    · rw [List.reverse_cons, List.concat_eq_append, List.reverse_append, List.reverse_singleton,
        List.singleton_append, List.cons_append] at h
      have hkey : key a = key b := key_of_images henc h
      rw [List.map_cons, List.nodup_cons] at hnodup
      exact absurd (hkey ▸ List.mem_map_of_mem (by simp)) hnodup.1

end Reversed

/-! ## 3. Snapshots -/

/-- No map has two entries. -/
structure SingleEntries (d : Directory) : Prop where
  caches : d.caches.size ≤ 1
  locations : d.locations.size ≤ 1
  replicas : d.replicas.size ≤ 1
  leases : d.leases.size ≤ 1

theorem order_of_single {κ ν : Type} [DecidableEq κ] {key : ν → κ} {m m' : KeyedMap key}
    (h : ∀ k, m'.find k = m.find k) (hsize : m.size ≤ 1) (e e' : Enumeration ν) :
    e.order m.values = e'.order m'.values := by
  have hperm : (e.order m.values).Perm (e'.order m'.values) :=
    (e.perm _).trans ((KeyedMap.perm_of_find h).symm.trans (e'.perm _).symm)
  exact eq_of_perm_of_length_le_one hperm ((e.perm _).length_eq.trans_le hsize)

/-- If the order never matters there are no two entries: it is enough to turn one map round. -/
theorem single_of_same {d : Directory}
    (h : ∀ o o' : MapOrders, d.snapshotBody o = d.snapshotBody o') : SingleEntries d where
  caches := by
    have hbody := h .stored { MapOrders.stored with caches := .reversed _ }
    rw [snapshotBody_parts, snapshotBody_parts] at hbody
    exact length_le_one_of_reversed (fun c => ⟨_, rfl⟩) d.caches.nodup
      (List.append_cancel_left hbody)
  locations := by
    have hbody := h .stored { MapOrders.stored with locations := .reversed _ }
    rw [snapshotBody_parts, snapshotBody_parts] at hbody
    exact length_le_one_of_reversed (fun l => ⟨_, rfl⟩) d.locations.nodup
      (List.append_cancel_left (List.append_cancel_left hbody))
  replicas := by
    have hbody := h .stored { MapOrders.stored with replicas := .reversed _ }
    rw [snapshotBody_parts, snapshotBody_parts] at hbody
    exact length_le_one_of_reversed (fun r => ⟨_, rfl⟩) d.replicas.nodup
      (List.append_cancel_left (List.append_cancel_left (List.append_cancel_left hbody)))
  leases := by
    have hbody := h .stored { MapOrders.stored with leases := .reversed _ }
    rw [snapshotBody_parts, snapshotBody_parts] at hbody
    exact length_le_one_of_reversed (fun l => ⟨_, rfl⟩) d.leases.nodup
      (List.append_cancel_left (List.append_cancel_left
        (List.append_cancel_left (List.append_cancel_left hbody))))

/-- **Two directories of the same content save the same bytes, in whatever order their maps come,
    exactly when no map has two entries.** -/
theorem canonical_iff (d d' : Directory) (h : SameContent d d') (hepoch : d'.epoch = d.epoch) :
    (∀ o o' : MapOrders, (d.saveToBuffer o).2 = (d'.saveToBuffer o').2) ↔
      d.caches.size ≤ 1 ∧ d.locations.size ≤ 1 ∧ d.replicas.size ≤ 1 ∧ d.leases.size ≤ 1 := by
  constructor
  · intro hsame
    have hsingle : SingleEntries d := by
      refine single_of_same fun o o' => ?_
      exact (body_of_saved (hsame o .stored)).trans (body_of_saved (hsame o' .stored)).symm
    exact ⟨hsingle.caches, hsingle.locations, hsingle.replicas, hsingle.leases⟩
  · intro hsizes o o'
    obtain ⟨hcaches, hlocations, hreplicas, hleases⟩ := hsizes
    exact saved_of_orders h hepoch
      { caches := order_of_single h.caches hcaches o.caches o'.caches
        locations := order_of_single h.locations hlocations o.locations o'.locations
        replicas := order_of_single h.replicas hreplicas o.replicas o'.replicas
        leases := order_of_single h.leases hleases o.leases o'.leases }

/-- The caches registered one behind the other. -/
def cachesRun (ids : List CacheId) : List Operation :=
  .registerWorkerSession attachedSession :: ids.map fun c => .registerCache (attachedCache ⟨1⟩ c)

def withCaches (ids : List CacheId) : Directory := after (Operation.step Float) {} (cachesRun ids)

/-- **The counterexample**: two caches registered in one order and in the other are the same
    content; enumerated as they were inserted, they are saved as different bytes. -/
theorem insertion_order_saved :
    Reached Float (cachesRun [⟨1⟩, ⟨2⟩]) (withCaches [⟨1⟩, ⟨2⟩]) ∧
      Reached Float (cachesRun [⟨2⟩, ⟨1⟩]) (withCaches [⟨2⟩, ⟨1⟩]) ∧
      SameContent (withCaches [⟨1⟩, ⟨2⟩]) (withCaches [⟨2⟩, ⟨1⟩]) ∧
      (withCaches [⟨2⟩, ⟨1⟩]).epoch = (withCaches [⟨1⟩, ⟨2⟩]).epoch ∧
      ((withCaches [⟨1⟩, ⟨2⟩]).saveToBuffer .stored).2 ≠
        ((withCaches [⟨2⟩, ⟨1⟩]).saveToBuffer .stored).2 := by
  have hcaches : (withCaches [⟨2⟩, ⟨1⟩]).caches.values.Perm
      (withCaches [⟨1⟩, ⟨2⟩]).caches.values := by decide +kernel
  have hbodies : (withCaches [⟨1⟩, ⟨2⟩]).snapshotBody .stored ≠
      (withCaches [⟨2⟩, ⟨1⟩]).snapshotBody .stored := by decide +kernel
  refine ⟨after_mem_visited _ _ _, after_mem_visited _ _ _, ⟨by decide +kernel, fun id => ?_,
    fun _ => rfl, fun _ => rfl, fun _ => rfl, by decide +kernel, by decide +kernel,
    by decide +kernel⟩, by decide +kernel, fun h => hbodies (body_of_saved h)⟩
  exact KeyedMap.find_of_perm hcaches id

theorem canonical_oneCopy :
    (∀ o o' : MapOrders, ((withCaches [⟨1⟩]).saveToBuffer o).2 =
        ((withCaches [⟨1⟩]).saveToBuffer o').2) ↔
      (withCaches [⟨1⟩]).caches.size ≤ 1 ∧ (withCaches [⟨1⟩]).locations.size ≤ 1 ∧
        (withCaches [⟨1⟩]).replicas.size ≤ 1 ∧ (withCaches [⟨1⟩]).leases.size ≤ 1 :=
  canonical_iff (withCaches [⟨1⟩]) (withCaches [⟨1⟩]) (.refl _) rfl

end CacheDirectory
