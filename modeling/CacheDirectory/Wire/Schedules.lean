/-
  File:      CacheDirectory/Wire/Schedules.lean
  Subject:   WHETHER IT MATTERS WHICH CONNECTION IS SERVED FIRST.

  The connection threads take turns under one lock. When the frames of several clients are updates
  of records and leases, the turns may come in any order that leaves the frames of each connection
  and the updates of each object in theirs: the directory stores the same, and every client reads
  the same answers.

  * `handle_update` -- a frame that asks for an update is answered by the outcome of the update;
  * `find_turn`, `dir_turn` -- one turn, as seen from a connection and from the directory;
  * `blind_turn`, `exchangeable_turns` -- turns go by what is stored and by what the connections
    hold, and turns on different connections about different objects may be exchanged;
  * `turns_agree` -- any two schedules of turns.
-/
import CacheDirectory.Invariants.Schedules
import CacheDirectory.Wire.Connections

namespace CacheDirectory

open Library Protocol

namespace CoordinatorServer

/-! ## 1. One frame -/

/-- The answer to an update. -/
def outcomeFrames (text : Bytes) : Option Failure → List Frame
  | none => [respondAck { message := text }]
  | some f => [respondFailure f]

section Update

variable {F : Type} [WireDouble F]

theorem serve_ok {α β : Type} (m : α) (malformed : String)
    (call : α → Directory → Result β × Directory) (text : Bytes) (d : Directory) :
    serve (.ok m) malformed call (fun _ => text) d =
      (outcomeFrames text (Operation.report (call m d)).1, (call m d).2) := by
  unfold serve Operation.report
  dsimp only
  rcases call m d with ⟨f | b, d'⟩
  · rfl
  · rfl

/-- A case of the switch that calls for an update. -/
theorem kept_update {α β : Type} {parsed : Deserialized α} {m : α}
    (hm : parsed.toOption = some m) (malformed : String)
    (call : α → Directory → Result β × Directory) {text : Bytes} (h : Handler) (d : Directory) :
    ((serve parsed malformed call (fun _ => text) d).1, h,
        (serve parsed malformed call (fun _ => text) d).2) =
      (outcomeFrames text (Operation.report (call m d)).1, h, (call m d).2) := by
  cases parsed with
  | error e => cases hm
  | ok m' =>
      cases hm
      rw [serve_ok]

/-- No INVALIDATE is an update. -/
theorem object_invalidation {w : Surroundings} {m : InvalidateMsg} {op : Operation}
    (h : invalidation w m = some op) : op.object = none := by
  unfold invalidation at h
  split at h <;> cases h <;> rfl

theorem object_recovery {w : Surroundings} {path : Bytes} {op : Operation}
    (h : recovery w path = some op) : op.object = none := by
  unfold recovery at h
  split at h <;> cases h
  rfl

/-- **A frame that asks for an update** is answered by the outcome of the update, and the handler
    stays as it is. -/
theorem handle_update {w : Surroundings} {frame : Frame} {op : Operation} {x : Object}
    (hop : requested w frame = some op) (hx : op.object = some x) :
    ∃ text, ∀ h d, handle F w frame h d =
      (outcomeFrames text (op.failure F d), h, op.step F d) := by
  obtain ⟨kind, payload⟩ := frame
  cases kind with
  | updateHealth =>
      obtain ⟨m, hm, rfl⟩ := Option.map_eq_some_iff.mp hop
      exact ⟨_, kept_update hm _ fun m => Directory.updateHealth m.id m.health m.env (w.clk 0)⟩
  | updateFreshness =>
      obtain ⟨m, hm, rfl⟩ := Option.map_eq_some_iff.mp hop
      exact ⟨_, kept_update hm _ fun m =>
        Directory.updateFreshness m.id m.freshness m.env (w.clk 0)⟩
  | updateReachability =>
      obtain ⟨m, hm, rfl⟩ := Option.map_eq_some_iff.mp hop
      exact ⟨_, kept_update hm _ fun m =>
        Directory.updateReachability m.id m.reachability m.env (w.clk 0)⟩
  | updateIntegrity =>
      obtain ⟨m, hm, rfl⟩ := Option.map_eq_some_iff.mp hop
      exact ⟨_, kept_update hm _ fun m =>
        Directory.updateIntegrity m.id m.integrity m.env (w.clk 0)⟩
  | renewLease =>
      obtain ⟨m, hm, rfl⟩ := Option.map_eq_some_iff.mp hop
      exact ⟨_, kept_update hm _ fun m => Directory.renewLease m.leaseId m.env (w.clk 0)⟩
  | hello | registerCache | registerLocation | registerReplica | registerEntry | tombstone
  | query =>
      obtain ⟨m, _, rfl⟩ := Option.map_eq_some_iff.mp hop
      cases hx
  | invalidate =>
      obtain ⟨m, _, hm⟩ := Option.bind_eq_some_iff.mp hop
      rw [object_invalidation hm] at hx
      cases hx
  | recover =>
      obtain ⟨path, _, hpath⟩ := Option.bind_eq_some_iff.mp hop
      rw [object_recovery hpath] at hx
      cases hx
  | _ => cases hop

end Update

/-! ## 2. One turn -/

/-- What the server stores, and what its connections hold. -/
def view (s : CoordinatorServer) : Directory × (Nat → Option Connection) :=
  (s.dir.content, s.connections.find)

/-- The connection a turn serves, and the object its frame is about. -/
def Event.about : Nat ⊕ Object → Event → Bool
  | .inl id, .frame id' _ _ => id' = id
  | .inr x, .frame _ w f => (CoordinatorServer.requested w f).bind Operation.object = some x
  | _, _ => false

/-- The turn serves an update. -/
def Event.Updates (e : Event) : Prop := ∃ x, e.about (.inr x) = true

/-- A frame and its answers are behind the others. -/
def served (frame : Frame) (answers : List Frame) (c : Connection) : Connection :=
  { c with exchanges := c.exchanges ++ [{ request := frame, answers := answers }] }

section Turn

variable {F : Type} [WireDouble F]

/-- What a turn is that serves an update. -/
theorem updates_cases {e : Event} (h : e.Updates) :
    ∃ id w frame op x, e = .frame id w frame ∧ requested w frame = some op ∧
      op.object = some x ∧ ∀ y, e.about (.inr y) = decide (x = y) := by
  obtain ⟨x, hx⟩ := h
  cases e with
  | accept id => cases hx
  | close id => cases hx
  | frame id w frame =>
      obtain ⟨op, hop, hobject⟩ := Option.bind_eq_some_iff.mp (of_decide_eq_true hx)
      refine ⟨id, w, frame, op, x, rfl, hop, hobject, fun y => ?_⟩
      show decide ((requested w frame).bind Operation.object = some y) = decide (x = y)
      rw [hop, Option.bind_some, hobject]
      exact decide_eq_decide.mpr (Option.some_inj)

/-- A turn is about one object. -/
theorem about_unique {e : Event} {x y : Object} (hx : e.about (.inr x) = true)
    (hy : e.about (.inr y) = true) : x = y := by
  obtain ⟨_, _, _, _, z, _, _, _, habout⟩ := updates_cases ⟨x, hx⟩
  rw [habout] at hx hy
  exact (of_decide_eq_true hx).symm.trans (of_decide_eq_true hy)

variable {w : Surroundings} {frame : Frame} {op : Operation} {x : Object}

/-- **One turn that serves an update.** -/
theorem turn_spec (id : Nat) (hop : requested w frame = some op) (hx : op.object = some x) :
    ∃ text, ∀ s,
      (step F (.frame id w frame) s).dir =
          (if (s.connections.find id).isSome then op.step F s.dir else s.dir) ∧
        ∀ j, (step F (.frame id w frame) s).connections.find j =
          if id = j then
            (s.connections.find id).map (served frame (outcomeFrames text (op.failure F s.dir)))
          else s.connections.find j := by
  obtain ⟨text, hhandle⟩ := handle_update (F := F) hop hx
  refine ⟨text, fun s => ?_⟩
  unfold step
  dsimp only
  cases hfind : s.connections.find id with
  | none =>
      refine ⟨rfl, fun j => ?_⟩
      by_cases hj : id = j
      · rw [if_pos hj, ← hj]
        exact hfind
      · rw [if_neg hj]
  | some c =>
      obtain rfl : c.id = id := (KeyedMap.find_eq_some.mp hfind).2
      dsimp only
      rw [hhandle]
      refine ⟨rfl, fun j => ?_⟩
      exact KeyedMap.find_put s.connections _ j

/-- A turn that serves an update goes by what is stored and by what the connections hold. -/
theorem blind_turn {e : Event} (he : e.Updates) :
    Blind (step F) (fun _ _ => ()) view e := by
  obtain ⟨id, w, frame, op, x, rfl, hop, hx, _⟩ := updates_cases he
  obtain ⟨text, hturn⟩ := turn_spec (F := F) id hop hx
  have hblind : Blind (Operation.step F) (Operation.failure F) Directory.content op := by
    refine blind_step F ?_
    rintro rfl
    cases hx
  refine ⟨fun {s t} hst => ?_, fun _ => rfl⟩
  obtain ⟨hcontent, hfind⟩ := Prod.mk.inj hst
  have hopen (j : Nat) : s.connections.find j = t.connections.find j := congrFun hfind j
  refine Prod.ext ?_ (funext fun j => ?_)
  · show (step F _ s).dir.content = (step F _ t).dir.content
    rw [(hturn s).1, (hturn t).1, hopen id]
    cases (t.connections.find id).isSome with
    | false => exact hcontent
    | true => exact hblind.state hcontent
  · show (step F _ s).connections.find j = (step F _ t).connections.find j
    rw [(hturn s).2, (hturn t).2, hopen id, hopen j, hblind.report hcontent]

/-- **Turns on different connections about different objects may be exchanged.** -/
theorem exchangeable_turns {e e' : Event} (h : Apart Event.about e e') (he : e.Updates)
    (he' : e'.Updates) : Exchangeable (step F) (fun _ _ => ()) view e e' := by
  obtain ⟨id, w, frame, op, x, rfl, hop, hx, habout⟩ := updates_cases he
  obtain ⟨id', w', frame', op', y, rfl, hop', hy, habout'⟩ := updates_cases he'
  have hid : id ≠ id' := by
    rintro rfl
    exact absurd (h.apart (.inl id) (decide_eq_true rfl)) (by simp [Event.about])
  have hxy : x ≠ y := by
    rintro rfl
    have hfalse := h.apart (.inr x) ((habout x).trans (decide_eq_true rfl))
    rw [habout', decide_eq_true rfl] at hfalse
    cases hfalse
  obtain ⟨text, hturn⟩ := turn_spec (F := F) id hop hx
  obtain ⟨text', hturn'⟩ := turn_spec (F := F) id' hop' hy
  have hexch := exchangeable (F := F) hx hy hxy
  -- neither turn sees the other's connection, nor the other's update
  have hsame (s : CoordinatorServer) :
      (step F (.frame id' w' frame') s).connections.find id = s.connections.find id := by
    rw [(hturn' s).2, if_neg hid.symm]
  have hsame' (s : CoordinatorServer) :
      (step F (.frame id w frame) s).connections.find id' = s.connections.find id' := by
    rw [(hturn s).2, if_neg hid]
  have hout (s : CoordinatorServer) :
      op.failure F (step F (.frame id' w' frame') s).dir = op.failure F s.dir := by
    rw [(hturn' s).1]
    cases (s.connections.find id').isSome with
    | false => rfl
    | true => exact hexch.left s.dir
  have hout' (s : CoordinatorServer) :
      op'.failure F (step F (.frame id w frame) s).dir = op'.failure F s.dir := by
    rw [(hturn s).1]
    cases (s.connections.find id).isSome with
    | false => rfl
    | true => exact hexch.right s.dir
  refine ⟨fun s => Prod.ext ?_ (funext fun j => ?_), fun _ => rfl, fun _ => rfl⟩
  · show (step F _ (step F _ s)).dir.content = (step F _ (step F _ s)).dir.content
    rw [(hturn (step F (.frame id' w' frame') s)).1, (hturn' (step F (.frame id w frame) s)).1,
      hsame, hsame', (hturn s).1, (hturn' s).1]
    cases (s.connections.find id).isSome with
    | false => rfl
    | true =>
        cases (s.connections.find id').isSome with
        | false => rfl
        | true => exact hexch.state s.dir
  · show (step F _ (step F _ s)).connections.find j = (step F _ (step F _ s)).connections.find j
    rw [(hturn (step F (.frame id' w' frame') s)).2, (hturn' (step F (.frame id w frame) s)).2,
      hsame, hsame', hout, hout', (hturn s).2, (hturn' s).2]
    by_cases hj : id = j
    · rw [if_pos hj, if_pos hj, if_neg fun hj' => hid (hj.trans hj'.symm)]
    · rw [if_neg hj, if_neg hj]

end Turn

/-! ## 3. Schedules -/

/-- **It does not matter which connection is served first.** For two schedules of turns that serve
    updates, from whatever server, in which every connection gets the same frames in the same
    order and every object the same updates in the same order: the directory stores the same
    behind them, the same connections are open, and each of them has had the same answers to the
    same frames. -/
theorem turns_agree (F : Type) [WireDouble F] (s : CoordinatorServer) (events events' : List Event)
    (hupdates : ∀ e ∈ events, e.Updates) (hupdates' : ∀ e ∈ events', e.Updates)
    (h : ∀ k, events.filter (Event.about k) = events'.filter (Event.about k)) :
    (after (step F) s events).dir.content = (after (step F) s events').dir.content ∧
      ∀ id, (after (step F) s events).connections.find id =
        (after (step F) s events').connections.find id := by
  have hkeys {e : Event} (he : e.Updates) : ∃ k, e.about k = true := by
    obtain ⟨x, hx⟩ := he
    exact ⟨.inr x, hx⟩
  have hswapped : Swapped (Apart Event.about) events events' :=
    swapped_of_keys (fun e he => hkeys (hupdates' e he)) (fun e he => hkeys (hupdates e he)) h
  have hsame := (seen_of_swapped hswapped (fun e he => blind_turn (F := F) (hupdates e he))
    (fun e he e' he' hapart => exchangeable_turns hapart (hupdates e he) (hupdates e' he'))
    (rfl : view s = view s)).1
  obtain ⟨hcontent, hfind⟩ := Prod.mk.inj hsame
  exact ⟨hcontent, fun id => congrFun hfind id⟩

/-- One client reports on record 1, the other renews lease 1. -/
def reportTurn : Event :=
  .frame 0 someSurroundings
    { kind := .updateHealth
      payload := serializeUpdateHealth
        { id := ⟨1⟩, health := .degraded, env := { epoch := ⟨1⟩, boot := ⟨1⟩ } } }

def renewalTurn : Event :=
  .frame 1 someSurroundings
    { kind := .renewLease
      payload := serializeRenewLease
        { leaseId := ⟨1⟩, env := { epoch := ⟨1⟩, boot := ⟨1⟩, fence := 1 } } }

theorem about_reportTurn : reportTurn.about (.inr (.record ⟨1⟩)) = true := by decide +kernel

theorem about_renewalTurn : renewalTurn.about (.inr (.lease ⟨1⟩)) = true := by decide +kernel

theorem turns_agree_twoClients :
    let s := after (step Float) { dir := afterRegistration } [.accept 0, .accept 1]
    (after (step Float) s [reportTurn, renewalTurn]).connections.find 0 =
      (after (step Float) s [renewalTurn, reportTurn]).connections.find 0 := by
  have hreport : reportTurn.Updates := ⟨_, about_reportTurn⟩
  have hrenewal : renewalTurn.Updates := ⟨_, about_renewalTurn⟩
  have hapart : ∀ k, reportTurn.about k = true → renewalTurn.about k = false := by
    intro k hk
    cases k with
    | inl id =>
        obtain rfl : 0 = id := of_decide_eq_true hk
        rfl
    | inr x =>
        obtain rfl := about_unique about_reportTurn hk
        cases hrenewal : renewalTurn.about (.inr (.record ⟨1⟩)) with
        | false => rfl
        | true => cases about_unique about_renewalTurn hrenewal
  refine (turns_agree Float _ _ _ ?_ ?_ fun k => ?_).2 0
  · exact List.forall_mem_cons.mpr ⟨hreport, List.forall_mem_singleton.mpr hrenewal⟩
  · exact List.forall_mem_cons.mpr ⟨hrenewal, List.forall_mem_singleton.mpr hreport⟩
  · cases hk : reportTurn.about k with
    | false => simp [hk, List.filter_cons]
    | true => simp [hk, hapart k hk]

end CoordinatorServer

end CacheDirectory
