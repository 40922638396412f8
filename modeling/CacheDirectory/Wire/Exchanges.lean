/-
  File:      CacheDirectory/Wire/Exchanges.lean
  Subject:   ONE ANSWER FOR EACH REQUEST.

  Every path of `handle` sends one frame, but for one: an invalidation of an unknown kind is
  answered by the inner switch and once more behind it.

  * `serve_spec`, `hello_spec`, `query_spec`, `recover_spec` -- a case of the switch: one answer,
    and the directory behind the call;
  * `handle_answers` -- how many frames one frame is answered with;
  * `step_frame`, `step_close` -- what the events do to an open connection.
-/
import CacheDirectory.Model.Server
import CacheDirectory.Recovery.Validation
import CacheDirectory.Wire.Frames

namespace CacheDirectory

open Library Protocol

/-! ## 1. One frame -/

/-- A well-formed INVALIDATE of a kind the inner switch has no case for. -/
def Protocol.Frame.Stray (f : Frame) : Prop :=
  f.kind = .invalidate ∧ ∃ m, deserializeInvalidate f.payload = .ok m ∧ 4 < m.kind.toNat

namespace CoordinatorServer

variable {F : Type} [WireDouble F] {w : Surroundings} {d : Directory}

/-- **The case of most kinds**: one answer, and the directory behind the call, when there was
    one. -/
theorem serve_spec {α β : Type} (parsed : Deserialized α) (malformed : String)
    (call : α → Directory → Result β × Directory) (done : β → Bytes) :
    ∃ a, serve parsed malformed call done d =
      ([a], parsed.toOption.elim d fun m => (call m d).2) := by
  unfold serve
  cases parsed with
  | error e => exact ⟨_, rfl⟩
  | ok m =>
      simp only [Except.toOption, Option.elim_some]
      rcases call m d with ⟨f | b, d'⟩
      · exact ⟨_, rfl⟩
      · exact ⟨_, rfl⟩

theorem hello_spec (payload : Bytes) (h : Handler) :
    ∃ a h', hello payload h d =
      ([a], h', (deserializeHello {} payload).toOption.elim d
        fun s => (d.registerWorkerSession s).2) := by
  unfold hello
  cases deserializeHello {} payload with
  | error e => exact ⟨_, _, rfl⟩
  | ok s =>
      simp only [Except.toOption, Option.elim_some]
      rcases d.registerWorkerSession s with ⟨f | b, d'⟩
      · exact ⟨_, _, rfl⟩
      · exact ⟨_, _, rfl⟩

theorem query_spec (payload : Bytes) :
    ∃ a, query F w payload d =
      ([a], (deserializeQuery {} payload).toOption.elim d
        fun q => (d.query (F := F) w.bucket q).2) := by
  unfold query
  cases deserializeQuery {} payload with
  | error e => exact ⟨_, rfl⟩
  | ok q => exact ⟨_, rfl⟩

theorem recover_ne_none (contents : Option Bytes) : d.recover contents ≠ none := by
  intro hnone
  rcases contents with - | - | ⟨b, bs⟩
  · cases hnone
  · cases hnone
  · rcases recoverFromBuffer_cases (b :: bs) d with ⟨f, hrec⟩ | ⟨s, ack, _, _, hrec⟩
    · rw [show d.recover (some (b :: bs)) = d.recoverFromBuffer (b :: bs) from rfl, hrec] at hnone
      cases hnone
    · rw [show d.recover (some (b :: bs)) = d.recoverFromBuffer (b :: bs) from rfl, hrec] at hnone
      cases hnone

theorem recover_spec (payload : Bytes) :
    ∃ a, recover w payload d =
      ([a], (deserializePath payload).toOption.elim d
        fun path => (d.recover (w.fileAt path)).elim d Prod.snd) := by
  unfold recover
  cases deserializePath payload with
  | error e => exact ⟨_, rfl⟩
  | ok path =>
      simp only [Except.toOption, Option.elim_some]
      rcases hrec : d.recover (w.fileAt path) with - | ⟨f | b, d'⟩
      · exact absurd hrec (recover_ne_none _)
      · exact ⟨_, rfl⟩
      · exact ⟨_, rfl⟩

/-- The inner switch speaks for itself on unknown kinds only. -/
theorem spoken_invalidateByKind (m : InvalidateMsg) :
    (invalidateByKind w m d).1.length = if 4 < m.kind.toNat then 1 else 0 := by
  unfold invalidateByKind
  generalize m.kind.toNat = k
  rcases k with _ | _ | _ | _ | _ | k
  · rfl
  · rfl
  · rfl
  · rfl
  · rfl
  · rw [if_pos (by omega)]
    rfl

theorem length_invalidate (payload : Bytes) :
    (invalidate w payload d).1.length = 1 ↔
      ¬ ∃ m, deserializeInvalidate payload = .ok m ∧ 4 < m.kind.toNat := by
  unfold invalidate
  cases deserializeInvalidate payload with
  | error e => simp
  | ok m =>
      have hspoken := spoken_invalidateByKind (w := w) (d := d) m
      have hlength (a : Frame) : ((invalidateByKind w m d).1 ++ [a]).length = 1 ↔
          ¬ 4 < m.kind.toNat := by
        rw [List.length_append, hspoken]
        by_cases hk : 4 < m.kind.toNat
        · simp [hk]
        · simp [hk]
      simp only [Except.ok.injEq, exists_eq_left']
      rcases hout : invalidateByKind w m d with ⟨spoken, f | r, d'⟩
      · rw [hout] at hlength
        exact hlength _
      · rw [hout] at hlength
        exact hlength _

/-- **One frame is answered with one frame, exactly when it is no stray invalidation.** -/
theorem handle_answers (frame : Frame) (h : Handler) :
    (∃ a, (handle F w frame h d).1 = [a]) ↔ ¬ frame.Stray := by
  have hother (hk : frame.kind ≠ .invalidate) (hone : ∃ a, (handle F w frame h d).1 = [a]) :
      (∃ a, (handle F w frame h d).1 = [a]) ↔ ¬ frame.Stray :=
    iff_of_true hone fun hs => hk hs.1
  have hserve {α β : Type} (parsed : Deserialized α) (malformed : String)
      (call : α → Directory → Result β × Directory) (done : β → Bytes) :
      ∃ a, (serve parsed malformed call done d).1 = [a] := by
    obtain ⟨a, h⟩ := serve_spec parsed malformed call done
    exact ⟨a, congrArg Prod.fst h⟩
  obtain ⟨kind, payload⟩ := frame
  cases kind with
  | invalidate =>
      rw [← List.length_eq_one_iff]
      refine (length_invalidate payload).trans (not_congr ?_)
      unfold Frame.Stray
      simp only [true_and]
  | hello =>
      obtain ⟨a, h', hspec⟩ := hello_spec payload h
      exact hother nofun ⟨a, congrArg Prod.fst hspec⟩
  | query =>
      obtain ⟨a, hspec⟩ := query_spec (F := F) payload
      exact hother nofun ⟨a, congrArg Prod.fst hspec⟩
  | recover =>
      obtain ⟨a, hspec⟩ := recover_spec payload
      exact hother nofun ⟨a, congrArg Prod.fst hspec⟩
  | updateLocation => exact hother nofun ⟨_, rfl⟩
  | queryResult => exact hother nofun ⟨_, rfl⟩
  | ack => exact hother nofun ⟨_, rfl⟩
  | error => exact hother nofun ⟨_, rfl⟩
  | undeclared v hv => exact hother nofun ⟨_, rfl⟩
  | _ => exact hother nofun (hserve _ _ _ _)

end CoordinatorServer

/-! ## 2. All connections -/

/-- The frames sent on a connection, in the order they are sent. -/
def Connection.sent (c : Connection) : List Frame := c.exchanges.flatMap (·.answers)

/-- The frames as bytes on the connection. -/
def onChannel (fs : List Frame) : Bytes :=
  fs.flatMap fun f => FrameChannel.send (toByte f.kind) f.payload

namespace CoordinatorServer

variable {F : Type} [WireDouble F]

/-- A frame on an open connection. -/
theorem step_frame {s : CoordinatorServer} {c : Connection} {id : Nat}
    (h : s.connections.find id = some c) (frame : Frame) :
    step F (.frame id w frame) s =
      { dir := (handle F w frame c.handler s.dir).2.2
        connections := s.connections.put
          { c with
            handler := (handle F w frame c.handler s.dir).2.1
            exchanges := c.exchanges ++
              [{ request := frame, answers := (handle F w frame c.handler s.dir).1 }] } } := by
  simp only [step, h]

/-- An open connection is closed. -/
theorem step_close {s : CoordinatorServer} {c : Connection} {id : Nat}
    (h : s.connections.find id = some c) :
    step F (.close id) s =
      { dir := hangUp c.handler s.dir, connections := s.connections.erase id } := by
  simp only [step, h]

end CoordinatorServer

/-! ## 3. One client -/

/-- An environment in which no file can be opened. -/
def someSurroundings : CoordinatorServer.Surroundings where
  clk _ := 1
  bucket := .stored _
  maps := .stored
  fileAt _ := none
  written := .done

def helloFrame : Frame := { kind := .hello, payload := serializeHello attachedSession }

/-- One connection, the given frames on it. -/
def oneClient (frames : List Frame) : List CoordinatorServer.Event :=
  .accept 0 :: frames.map (.frame 0 someSurroundings)

end CacheDirectory
