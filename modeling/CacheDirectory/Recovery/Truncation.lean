/-
  File:      CacheDirectory/Recovery/Truncation.lean
  Subject:   BODIES CUT SHORT OR CARRIED ON, UNDER A HEADER THAT FITS THEM.

  The checksum and the digest are over the bytes behind the header, and whoever cuts the bytes can
  write both anew. What is left is the grammar of the body: counts, then as many entities of each
  kind, then the end.

  * `saved_consumed` -- the body of a directory within the reader's limits is read to its end;
  * `recoverFromBuffer_headed` -- behind a fitting header only a body read to its end is installed;
  * `snapshot_prefix_free` -- no such body is a prefix of another one.
-/
import CacheDirectory.Recovery.Restart

namespace CacheDirectory

open Library Directory

/-! ## 1. Behind a fitting header -/

/-- The body of a directory within the reader's limits is read to its end. -/
theorem saved_consumed {d : Directory} {o : MapOrders} (hc : d.CountsFit) (hs : d.StringsFit) :
    readBody.Consumes (d.snapshotBody o) := by
  have hread := readBody_decodes (sizesFit_of_limits hc hs) (o := o)
  rw [Parser.consumes_iff_runAll (persistenceCorrupt "trailing garbage")]
  exact ⟨d.snapshotOf o, (hread.runAll _).1 ⟨hc, hs⟩⟩

/-- A body that is not read to its end is refused, whatever its header says. -/
theorem recoverFromBuffer_headed {body : Bytes} (h : ¬ readBody.Consumes body) (d : Directory) :
    ∃ f, d.recoverFromBuffer (snapshotHeader body ++ body) = some (.error f, d) := by
  unfold Directory.recoverFromBuffer
  rw [parseSnapshot_headed]
  cases hrun : readBody.runAll (persistenceCorrupt "trailing garbage") body with
  | ok s => exact absurd ((Parser.consumes_iff_runAll _).mpr ⟨s, hrun⟩) h
  | error e =>
      cases e with
      | outside => exact absurd hrun (Parser.runAll_inside _ _ _)
      | refused f => exact ⟨f, rfl⟩

/-! ## 2. Prefixes and extensions -/

/-- **Of a body that is read to its end no strict prefix and no strict extension is, and the
    snapshot made of one with a header of its own is refused.** -/
theorem snapshot_prefix_free {body body' : Bytes} (hbody : readBody.Consumes body)
    (hne : body' ≠ body) (hpre : body' <+: body ∨ body <+: body') (d : Directory) :
    ¬ readBody.Consumes body' ∧
      ∃ f, d.recoverFromBuffer (snapshotHeader body' ++ body') = some (.error f, d) := by
  have hnot : ¬ readBody.Consumes body' := by
    intro hbody'
    rcases hpre with hpre | hpre
    · exact hne (hbody'.eq_of_prefix hbody hpre)
    · exact hne (hbody.eq_of_prefix hbody' hpre).symm
  exact ⟨hnot, recoverFromBuffer_headed hnot d⟩

/-- The snapshot of one registered copy without its last byte. -/
theorem snapshot_prefix_free_cut :
    ¬ readBody.Consumes (afterRegistration.snapshotBody .stored).dropLast ∧
      ∃ f, Directory.recoverFromBuffer
          (snapshotHeader (afterRegistration.snapshotBody .stored).dropLast ++
            (afterRegistration.snapshotBody .stored).dropLast) {} = some (.error f, {}) :=
  snapshot_prefix_free (saved_consumed (by decide +kernel) (by decide +kernel))
    (by decide +kernel) (.inl (List.dropLast_prefix _)) {}

end CacheDirectory
