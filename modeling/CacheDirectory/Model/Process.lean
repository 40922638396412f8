/-
  File:      CacheDirectory/Model/Process.lean
  Subject:   THE COORDINATOR PROCESS AND ITS FILES (save and recover of persistence.cpp, start of
             server.cpp).

  `save` writes the snapshot to a temporary file beside the path and renames it; `recover` and
  `start` read the file. Here the files are a state: SAVE makes calls on them, RECOVER finds what
  they hold, and the process may die at any moment, also between two calls of a SAVE. A disk that
  loses what was written before a rename is not modelled.
-/
import CacheDirectory.Library.Files
import CacheDirectory.Model.Server

namespace CacheDirectory

open Library Protocol CoordinatorServer

/-! ## 1. What `save` does to the files -/

abbrev Disk : Type := Files Bytes UInt8

def tmpPath (path : Bytes) : Bytes := path ++ ascii ".tmp"

/-- The calls of `save`; `cuts` is how the stream hands the buffer on. -/
def saveCalls (o : MapOrders) (cuts : List Nat) (path : Bytes) (d : Directory) :
    List (FileCall Bytes UInt8) :=
  replacing (tmpPath path) path (cutAt cuts (d.saveToBuffer o).2)

/-- The calls that were made when `save` returns; a failure comes before the rename. -/
def FileOutcome.made (outcome : FileOutcome) (calls : Nat) (all : List (FileCall Bytes UInt8)) :
    List (FileCall Bytes UInt8) :=
  match outcome with
  | .done => all
  | .cannotOpen => []
  | .writeFailed => all.take (min calls (all.length - 1))
  | .closeFailed => all.take (min calls (all.length - 1))
  | .renameFailed => all.take (all.length - 1)

/-- The path of a well-formed SAVE. -/
def Protocol.Frame.savedPath (f : Frame) : Option Bytes :=
  if f.kind = .save then (deserializePath f.payload).toOption else none

/-! ## 2. The process -/

/-- How the environment lets a frame be handled: beside the surroundings, how a buffer is cut and
    how many calls are made of a SAVE that does not come to its end. -/
structure Handling where
  w : Surroundings
  cuts : List Nat
  calls : Nat
  frame : Frame

/-- The server, when it is running, and the disk. `promised` is what the file at the persist path
    may hold as far as the clients know; no step reads it. -/
structure Process where
  running : Option CoordinatorServer := none
  disk : Disk := fun _ => none
  promised : List (Option Bytes) := []

namespace Process

inductive Event where
  | accept (id : Nat)
  | close (id : Nat)
  | frame (id : Nat) (h : Handling)
  /-- The process dies, in the middle of a frame when there is one. -/
  | crash (caught : Option Handling)
  | restart

/-- A frame on an open connection: the answers, and the disk behind it. -/
def handled (F : Type) [WireDouble F] (h : Handling) (handler : Handler) (d : Directory)
    (disk : Disk) : List Frame × Disk :=
  let w := { h.w with fileAt := disk }
  ((handle F w h.frame handler d).1,
    match h.frame.savedPath with
    | none => disk
    | some path =>
        after FileCall.apply disk (w.written.made h.calls (saveCalls w.maps h.cuts path d)))

/-- What is left of the disk when the process dies over a frame. -/
def caughtAt (h : Handling) (d : Directory) (disk : Disk) : Disk :=
  match h.frame.savedPath with
  | none => disk
  | some path => after FileCall.apply disk ((saveCalls h.w.maps h.cuts path d).take h.calls)

def step (F : Type) [WireDouble F] (persist : Bytes) (e : Event) (m : Process) : Process :=
  match m.running with
  | none =>
      match e with
      | .restart =>
          let persisted := if persist = [] then none else (m.disk persist).map some
          { m with running := CoordinatorServer.start persisted }
      | _ => m
  | some s =>
      match e with
      | .restart => m
      | .accept id => { m with running := some (CoordinatorServer.step F (.accept id) s) }
      | .close id => { m with running := some (CoordinatorServer.step F (.close id) s) }
      | .frame id h =>
          match s.connections.find id with
          | none => m
          | some c =>
              let w := { h.w with fileAt := m.disk }
              let (answers, disk) := handled F h c.handler s.dir m.disk
              { running := some (CoordinatorServer.step F (.frame id w h.frame) s)
                disk := disk
                promised :=
                  if h.frame.savedPath = some persist ∧ answers.map (·.kind) = [.ack] then
                    [some (s.dir.saveToBuffer h.w.maps).2]
                  else m.promised }
      | .crash none => { m with running := none }
      | .crash (some h) =>
          { running := none
            disk := caughtAt h s.dir m.disk
            promised :=
              if h.frame.savedPath = some persist then
                m.promised ++ [some (s.dir.saveToBuffer h.w.maps).2]
              else m.promised }

end Process

end CacheDirectory
