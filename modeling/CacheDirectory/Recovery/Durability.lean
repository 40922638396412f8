/-
  File:      CacheDirectory/Recovery/Durability.lean
  Subject:   WHAT THE PERSIST FILE HOLDS WHEN THE PROCESS DIES.

  A coordinator that starts again reads its persist file. Whenever the process died, in the
  middle of a SAVE too, the file holds one snapshot whole: that of the last SAVE the client got an
  acknowledgement for, or of one that was caught by a crash behind it. Only a SAVE to a path whose
  temporary file is the persist file itself must not happen.

  * `handled_disk`, `caughtAt_disk` -- one SAVE, to its end or not;
  * `kept_step` -- one event;
  * `persist_file_kept` -- every run with all its crashes and restarts;
  * `acknowledged_survives` -- the coordinator comes back with what was saved.
-/
import CacheDirectory.Model.Process
import CacheDirectory.Recovery.Fidelity
import CacheDirectory.Wire.Connections

namespace CacheDirectory

open Library Protocol Directory CoordinatorServer

namespace Process

/-! ## 1. One SAVE -/

section Save

variable {F : Type} [WireDouble F] {h : Handling} {handler : Handler} {d : Directory}
  {disk : Disk} {persist : Bytes}

theorem ne_tmpPath (path : Bytes) : path ≠ tmpPath path := by
  intro heq
  have hlength := congrArg List.length heq
  rw [tmpPath, List.length_append] at hlength
  have htmp : (ascii ".tmp").length = 4 := by decide
  omega

/-- The answer to a well-formed SAVE. -/
theorem handle_save {path : Bytes} (w : Surroundings) (hpath : h.frame.savedPath = some path) :
    (handle F w h.frame handler d).1.map (·.kind) = [.ack] ↔ w.written = .done := by
  obtain ⟨w₀, cuts, calls, kind, payload⟩ := h
  unfold Frame.savedPath at hpath
  by_cases hkind : kind = .save
  · subst hkind
    rw [if_pos rfl] at hpath
    cases hread : deserializePath payload with
    | error e =>
        rw [hread] at hpath
        cases hpath
    | ok path' =>
        have hanswers : (handle F w ⟨.save, payload⟩ handler d).1 =
            (serve (deserializePath payload) "malformed path"
              (fun path d => (d.save w.maps w.written path, d)) (fun _ => ascii "saved") d).1 := rfl
        rw [hanswers, hread]
        unfold serve Directory.save
        cases w.written with
        | done => exact iff_of_true rfl rfl
        | cannotOpen | writeFailed | closeFailed | renameFailed =>
            refine iff_of_false ?_ nofun
            exact (by decide : ¬ [MessageKind.error] = [.ack])
  · rw [if_neg hkind] at hpath
    cases hpath

/-- The calls that were made are the first ones. -/
theorem made_take (outcome : FileOutcome) (calls : Nat) (all : List (FileCall Bytes UInt8)) :
    ∃ k, outcome.made calls all = all.take k := by
  cases outcome with
  | done => exact ⟨all.length, (List.take_length).symm⟩
  | cannotOpen => exact ⟨0, rfl⟩
  | writeFailed => exact ⟨_, rfl⟩
  | closeFailed => exact ⟨_, rfl⟩
  | renameFailed => exact ⟨_, rfl⟩

/-- The calls of a failed SAVE leave the path alone. -/
theorem made_failed {path : Bytes} {outcome : FileOutcome} (hfailed : outcome ≠ .done)
    (o : MapOrders) (cuts : List Nat) (calls : Nat) :
    after FileCall.apply disk (outcome.made calls (saveCalls o cuts path d)) path =
      disk path := by
  have hlast {k : Nat} (hk : k ≤ (saveCalls o cuts path d).length - 1) :
      after FileCall.apply disk ((saveCalls o cuts path d).take k) path = disk path := by
    have hpos : 0 < (saveCalls o cuts path d).length := by
      unfold saveCalls replacing
      rw [List.length_append, List.length_singleton]
      omega
    exact replacing_broken (ne_tmpPath path) (by unfold saveCalls at hk hpos; omega) disk
  cases outcome with
  | done => exact absurd rfl hfailed
  | cannotOpen => rfl
  | writeFailed => exact hlast (Nat.min_le_right _ _)
  | closeFailed => exact hlast (Nat.min_le_right _ _)
  | renameFailed => exact hlast (Nat.le_refl _)

/-- **A SAVE that returned**: the persist file holds the new snapshot when the client got an
    acknowledgement, and what it held before when not. -/
theorem handled_disk (hclear : ∀ path, h.frame.savedPath = some path → tmpPath path ≠ persist) :
    (handled F h handler d disk).2 persist =
      if h.frame.savedPath = some persist ∧
          (handled F h handler d disk).1.map (·.kind) = [.ack] then
        some (d.saveToBuffer h.w.maps).2
      else disk persist := by
  unfold handled
  dsimp only
  cases hpath : h.frame.savedPath with
  | none => rw [if_neg (by simp)]
  | some path =>
      have hack : (handle F { h.w with fileAt := disk } h.frame handler d).1.map (·.kind) = [.ack] ↔
          h.w.written = .done := handle_save _ hpath
      dsimp only
      by_cases hsame : path = persist
      · subst hsame
        by_cases hdone : h.w.written = .done
        · rw [if_pos ⟨rfl, hack.mpr hdone⟩, hdone]
          exact (replacing_whole (ne_tmpPath path) disk).trans
            (congrArg some (flatten_cutAt _ _))
        · rw [if_neg fun hboth => hdone (hack.mp hboth.2)]
          exact made_failed hdone _ _ _
      · rw [if_neg fun hboth => hsame (Option.some.inj hboth.1)]
        obtain ⟨k, hk⟩ := made_take h.w.written h.calls (saveCalls h.w.maps h.cuts path d)
        rw [hk]
        exact replacing_elsewhere (Ne.symm (hclear path hpath)) (Ne.symm hsame) k disk

/-- **A SAVE that a crash caught**: the persist file holds what it held before, or the new
    snapshot when it was its path and all calls had been made. -/
theorem caughtAt_disk (hclear : ∀ path, h.frame.savedPath = some path → tmpPath path ≠ persist) :
    caughtAt h d disk persist = disk persist ∨
      h.frame.savedPath = some persist ∧
        caughtAt h d disk persist = some (d.saveToBuffer h.w.maps).2 := by
  unfold caughtAt
  cases hpath : h.frame.savedPath with
  | none => exact .inl rfl
  | some path =>
      dsimp only
      by_cases hsame : path = persist
      · subst hsame
        by_cases hall : h.calls < (saveCalls h.w.maps h.cuts path d).length
        · exact .inl (replacing_broken (ne_tmpPath path) hall disk)
        · refine .inr ⟨rfl, ?_⟩
          rw [List.take_of_length_le (Nat.le_of_not_lt hall)]
          exact (replacing_whole (ne_tmpPath path) disk).trans
            (congrArg some (flatten_cutAt _ _))
      · exact .inl (replacing_elsewhere (Ne.symm (hclear path hpath)) (Ne.symm hsame) _ disk)

end Save

/-! ## 2. Every run -/

/-- No SAVE of the event uses the persist file as its temporary file. -/
def Event.Clear (persist : Bytes) : Event → Prop
  | .frame _ h => ∀ path, h.frame.savedPath = some path → tmpPath path ≠ persist
  | .crash (some h) => ∀ path, h.frame.savedPath = some path → tmpPath path ≠ persist
  | _ => True

/-- The file is one of those the clients know of, and each of these was there at the beginning or
    is the snapshot of a directory that operations reach. -/
structure Kept (F : Type) [WireDouble F] (persist : Bytes) (first : Option Bytes) (m : Process) :
    Prop where
  held : m.disk persist ∈ m.promised
  whole : ∀ c ∈ m.promised, c = first ∨
    ∃ ops o, c = some ((after (Operation.step F) {} ops).saveToBuffer o).2
  reached : ∀ s, m.running = some s → ∃ ops, s.dir = after (Operation.step F) {} ops

section Runs

variable {F : Type} [WireDouble F] {persist : Bytes} {first : Option Bytes}

/-- The server goes on, the disk stays as it is. -/
theorem Kept.serve {s : CoordinatorServer} {disk : Disk} {promised : List (Option Bytes)}
    (h : Kept F persist first { running := some s, disk := disk, promised := promised })
    (e : CoordinatorServer.Event) :
    Kept F persist first
      { running := some (CoordinatorServer.step F e s), disk := disk, promised := promised } := by
  refine ⟨h.held, h.whole, fun s' hs' => ?_⟩
  cases hs'
  exact reached_next e (h.reached s rfl)

theorem kept_restart {disk : Disk} {promised : List (Option Bytes)}
    (h : Kept F persist first { disk := disk, promised := promised }) :
    Kept F persist first
      (step F persist .restart { disk := disk, promised := promised }) := by
  refine ⟨h.held, h.whole, fun s hs => ?_⟩
  exact reached_start hs

theorem kept_frame {s : CoordinatorServer} {disk : Disk} {promised : List (Option Bytes)}
    {id : Nat} {x : Handling} (hclear : Event.Clear persist (.frame id x))
    (h : Kept F persist first { running := some s, disk := disk, promised := promised }) :
    Kept F persist first
      (step F persist (.frame id x) { running := some s, disk := disk, promised := promised }) := by
  cases hfind : s.connections.find id with
  | none =>
      unfold step
      simp only [hfind]
      exact h
  | some c =>
      have hserved := (h.serve (.frame id { x.w with fileAt := disk } x.frame)).reached
      have hdisk := @handled_disk F _ x c.handler s.dir disk persist hclear
      unfold step
      simp only [hfind]
      by_cases hack : x.frame.savedPath = some persist ∧
          (handled F x c.handler s.dir disk).1.map (·.kind) = [.ack]
      · rw [if_pos hack] at hdisk ⊢
        refine ⟨List.mem_singleton.mpr hdisk, fun contents hc => .inr ?_, hserved⟩
        obtain ⟨ops, hops⟩ := h.reached s rfl
        refine ⟨ops, x.w.maps, ?_⟩
        rw [List.mem_singleton.mp hc, hops]
      · rw [if_neg hack] at hdisk ⊢
        refine ⟨?_, h.whole, hserved⟩
        show (handled F x c.handler s.dir disk).2 persist ∈ promised
        rw [hdisk]
        exact h.held

theorem kept_crash {s : CoordinatorServer} {disk : Disk} {promised : List (Option Bytes)}
    {caught : Option Handling} (hclear : Event.Clear persist (.crash caught))
    (h : Kept F persist first { running := some s, disk := disk, promised := promised }) :
    Kept F persist first
      (step F persist (.crash caught)
        { running := some s, disk := disk, promised := promised }) := by
  have hdead {disk' : Disk} {promised' : List (Option Bytes)}
      (held : disk' persist ∈ promised')
      (whole : ∀ c ∈ promised', c = first ∨
        ∃ ops o, c = some ((after (Operation.step F) {} ops).saveToBuffer o).2) :
      Kept F persist first { running := none, disk := disk', promised := promised' } :=
    ⟨held, whole, fun _ hs => (Option.some_ne_none _ hs.symm).elim⟩
  cases caught with
  | none => exact hdead h.held h.whole
  | some x =>
      have hdisk := @caughtAt_disk x s.dir disk persist hclear
      unfold step
      dsimp only
      by_cases hpath : x.frame.savedPath = some persist
      · rw [if_pos hpath]
        refine hdead ?_ fun contents hc => ?_
        · rcases hdisk with hsame | ⟨_, hnew⟩
          · rw [hsame]
            exact List.mem_append_left _ h.held
          · exact List.mem_append_right _ (List.mem_singleton.mpr hnew)
        · rcases List.mem_append.mp hc with hc | hc
          · exact h.whole contents hc
          · obtain ⟨ops, hops⟩ := h.reached s rfl
            refine .inr ⟨ops, x.w.maps, ?_⟩
            rw [List.mem_singleton.mp hc, hops]
      · rw [if_neg hpath]
        rcases hdisk with hsame | ⟨hpath', _⟩
        · refine hdead ?_ h.whole
          rw [hsame]
          exact h.held
        · exact absurd hpath' hpath

/-- **One event.** -/
theorem kept_step (e : Event) (m : Process) (h : Kept F persist first m)
    (hclear : e.Clear persist) : Kept F persist first (step F persist e m) := by
  obtain ⟨running, disk, promised⟩ := m
  cases running with
  | none =>
      cases e with
      | restart => exact kept_restart h
      | _ => exact h
  | some s =>
      cases e with
      | restart => exact h
      | accept id => exact h.serve _
      | close id => exact h.serve _
      | frame id x => exact kept_frame hclear h
      | crash caught => exact kept_crash hclear h

end Runs

/-- **The persist file is never torn.** For every run of the process with its crashes and restarts,
    from whatever files, in which no SAVE takes the persist file for its temporary file: at every
    moment the file holds what it held at the beginning or one snapshot of a directory that
    operations reach, whole; and it is that of the last acknowledged SAVE or of one that a crash
    caught behind it. -/
theorem persist_file_kept (F : Type) [WireDouble F] (persist : Bytes) (disk : Disk)
    (events : List Event) (hclear : ∀ e ∈ events, Event.Clear persist e) :
    ∀ m ∈ visited (step F persist) { disk := disk, promised := [disk persist] } events,
      m.disk persist ∈ m.promised ∧
        ∀ contents ∈ m.promised, contents = disk persist ∨
          ∃ ops d o, Reached F ops d ∧ contents = some (d.saveToBuffer o).2 := by
  intro m hm
  have hstart : Kept F persist (disk persist) { disk := disk, promised := [disk persist] } :=
    ⟨List.mem_singleton.mpr rfl, fun _ hc => .inl (List.mem_singleton.mp hc),
      fun _ hs => (Option.some_ne_none _ hs.symm).elim⟩
  have hkept := visited_of_follows kept_step events _ hstart
    ((follows_const (step F persist) events _).mpr hclear) m hm
  refine ⟨hkept.held, fun contents hc => (hkept.whole contents hc).imp id ?_⟩
  rintro ⟨ops, o, hcontents⟩
  exact ⟨ops, _, o, after_mem_visited _ _ _, hcontents⟩

/-! ## 3. What was acknowledged -/

/-- The event saves nothing under the persist path. -/
def Event.Quiet (persist : Bytes) : Event → Prop
  | .frame _ h => h.frame.savedPath ≠ some persist
  | .crash (some h) => h.frame.savedPath ≠ some persist
  | _ => True

section Acknowledged

variable {F : Type} [WireDouble F] {persist : Bytes}

theorem promised_quiet (e : Event) (m : Process) (hquiet : e.Quiet persist) :
    (step F persist e m).promised = m.promised := by
  obtain ⟨running, disk, promised⟩ := m
  cases running with
  | none => cases e <;> rfl
  | some s =>
      cases e with
      | frame id x =>
          unfold step
          dsimp only
          cases s.connections.find id with
          | none => rfl
          | some c => exact if_neg fun hboth => hquiet hboth.1
      | crash caught =>
          cases caught with
          | none => rfl
          | some x => exact if_neg hquiet
      | _ => rfl

/-- A quiet run leaves the promise as it is. -/
theorem promised_after (events : List Event) (m : Process)
    (hquiet : ∀ e ∈ events, Event.Quiet persist e) :
    (after (step F persist) m events).promised = m.promised := by
  induction events generalizing m with
  | nil => rfl
  | cons e events ih =>
      rw [after, ih _ fun e' he' => hquiet e' (List.mem_cons_of_mem _ he'),
        promised_quiet e m (hquiet e List.mem_cons_self)]

/-- A process that died reads its file when it starts again. -/
theorem restarted (m : Process) (hpersist : persist ≠ []) {contents : Option Bytes}
    (hfile : m.disk persist = contents) :
    (after (step F persist) m [.crash none, .restart]).running =
      CoordinatorServer.start (contents.map some) := by
  obtain ⟨running, disk, promised⟩ := m
  have hstart : (step F persist .restart { disk := disk, promised := promised }).running =
      CoordinatorServer.start (contents.map some) := by
    show CoordinatorServer.start (if persist = [] then none else (disk persist).map some) = _
    rw [if_neg hpersist, show disk persist = contents from hfile]
  cases running with
  | none => exact hstart
  | some s => exact hstart

/-- A server starts from what recovery accepts. -/
theorem start_recovered {buf : Bytes} {ack : AckResult} {d : Directory}
    (h : Directory.recoverFromBuffer buf {} = some (.ok ack, d)) :
    CoordinatorServer.start ((some buf).map some) = some { dir := d } := by
  cases buf with
  | nil => cases h
  | cons b bs =>
      have hread : Directory.recover (some (b :: bs)) {} = some (.ok ack, d) := h
      simp only [CoordinatorServer.start, Option.map_some, hread]

end Acknowledged

/-- **What was acknowledged survives.** The client got an acknowledgement for a SAVE under the
    persist path, and nothing was saved there since, whatever else happened, crashes and restarts
    too. When the process dies and starts again, the coordinator runs on what the saved directory
    restores: its records under the documented transformation, the epoch behind its own. -/
theorem acknowledged_survives (F : Type) [WireDouble F] (persist : Bytes) (hpersist : persist ≠ [])
    (disk : Disk) (pre quiet : List Event) (id : Nat) (x : Handling) (s : CoordinatorServer)
    (c : Connection) (saved : Process)
    (hsaved : saved = after (step F persist) { disk := disk, promised := [disk persist] } pre)
    (hrunning : saved.running = some s) (hopen : s.connections.find id = some c)
    (hpath : x.frame.savedPath = some persist)
    (hack : (handled F x c.handler s.dir saved.disk).1.map (·.kind) = [.ack])
    (hres : s.dir.Restartable)
    (hclear : ∀ e ∈ pre ++ .frame id x :: quiet, Event.Clear persist e)
    (hquiet : ∀ e ∈ quiet, Event.Quiet persist e) :
    ∃ t, (after (step F persist) { disk := disk, promised := [disk persist] }
          (pre ++ .frame id x :: quiet ++ [.crash none, .restart])).running = some t ∧
      t.dir = Directory.install (s.dir.snapshotOf x.w.maps) {} ∧
      t.dir.records = s.dir.records.map restoredRecord ∧
      t.dir.epoch.value = s.dir.epoch.value + 1 := by
  have hbehind : (after (step F persist) { disk := disk, promised := [disk persist] }
      (pre ++ .frame id x :: quiet)).promised = [some (s.dir.saveToBuffer x.w.maps).2] := by
    rw [after_append, after, promised_after quiet _ hquiet, ← hsaved]
    obtain ⟨running, disk', promised⟩ := saved
    cases hrunning
    unfold step
    simp only [hopen]
    exact if_pos ⟨hpath, hack⟩
  obtain ⟨hheld, _⟩ := persist_file_kept F persist disk _ hclear _ (after_mem_visited _ _ _)
  rw [hbehind, List.mem_singleton] at hheld
  obtain ⟨ack, hrec⟩ := recover_saved (o := x.w.maps) hres {}
  have hfidelity := snapshot_fidelity s.dir {} _ x.w.maps ack
    (sizesFit_of_limits hres.counts hres.strings) hrec
  refine ⟨{ dir := Directory.install (s.dir.snapshotOf x.w.maps) {} }, ?_, rfl, hfidelity.1,
    hfidelity.2.2.2.2.2.2.2.2.2⟩
  rw [after_append, restarted _ hpersist hheld]
  exact start_recovered hrec

/-- A client saves under `d`. -/
def savedHandling (calls : Nat) : Handling where
  w := someSurroundings
  cuts := [10]
  calls := calls
  frame := { kind := .save, payload := serializePath [100] }

theorem savedPath_savedHandling (calls : Nat) :
    (savedHandling calls).frame.savedPath = some [100] :=
  (by decide +kernel : (savedHandling 0).frame.savedPath = some [100])

theorem clear_savedHandling (calls : Nat) :
    ∀ path, (savedHandling calls).frame.savedPath = some path → tmpPath path ≠ [100] := by
  intro path hpath
  cases (savedPath_savedHandling calls).symm.trans hpath
  decide

/-- A second SAVE of the client is caught by a crash. -/
theorem persist_file_kept_caught :
    let m := after (step Float [100]) { promised := [none] }
      [.restart, .accept 0, .frame 0 (savedHandling 0), .crash (some (savedHandling 2))]
    m.disk [100] ∈ m.promised := by
  have hclear : ∀ e ∈ [.restart, .accept 0, .frame 0 (savedHandling 0),
      .crash (some (savedHandling 2))], Event.Clear [100] e := by
    simp only [List.forall_mem_cons]
    exact ⟨trivial, trivial, clear_savedHandling 0, clear_savedHandling 2, nofun⟩
  exact (persist_file_kept Float [100] (fun _ => none) _ hclear _ (after_mem_visited _ _ _)).1

theorem acknowledged_survives_savedOnce :
    ∃ t, (after (step Float [100]) { promised := [none] }
          ([.restart, .accept 0] ++ .frame 0 (savedHandling 0) :: [.close 0] ++
            [.crash none, .restart])).running = some t ∧
      t.dir.epoch.value = 2 := by
  have hsaved : (after (step Float [100]) { promised := [none] } [.restart, .accept 0]).running =
      some { connections := (∅ : KeyedMap Connection.id).put { id := 0 } } := rfl
  have hack (w : Surroundings) (hw : w.written = .done) :
      (handle Float w (savedHandling 0).frame {} {}).1.map (·.kind) = [.ack] :=
    (handle_save w (savedPath_savedHandling 0)).mpr hw
  obtain ⟨t, hrunning, _, _, hepoch⟩ := acknowledged_survives Float [100] (by decide)
    (fun _ => none) [.restart, .accept 0] [.close 0] 0 (savedHandling 0) _ { id := 0 } _ rfl
    hsaved rfl
    (savedPath_savedHandling 0) (hack _ rfl) (by decide +kernel)
    (by
      simp only [List.cons_append, List.nil_append, List.forall_mem_cons]
      exact ⟨trivial, trivial, clear_savedHandling 0, trivial, nofun⟩)
    (by
      simp only [List.forall_mem_cons]
      exact ⟨trivial, nofun⟩)
  exact ⟨t, hrunning, hepoch⟩

end Process

end CacheDirectory
