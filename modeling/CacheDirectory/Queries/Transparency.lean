/-
  File:      CacheDirectory/Queries/Transparency.lean
  Subject:   READING LEAVES NO TRACE.

  A query builds the cached indexes when they are dirty and counts itself, and so writes to the
  directory. Nobody else can tell: the indexes are built from the records, and no call but
  `validate_indexes` reads what was written.

  * `content_read` -- a call that only reads leaves the content alone;
  * `reads_unseen` -- two runs with the same writes end in the same content, with the same
    outcomes of the writes, and every query gets the same answer behind them.
-/
import CacheDirectory.Invariants.Content

namespace CacheDirectory

open Library Directory

/-- The calls that only read. -/
def Operation.isRead : Operation → Bool
  | .query _ _ => true
  | .validateIndexes => true
  | .indexes => true
  | _ => false

def Operation.isWrite (op : Operation) : Bool := !op.isRead

section Reads

variable {F : Type} [ScoreArith F]

theorem content_read {op : Operation} (hop : op.isRead = true) (d : Directory) :
    (op.step F d).content = d.content := by
  cases op with
  | query order q => exact content_query F d order q
  | indexes => exact content_ensureIndexes d
  | validateIndexes =>
      show (guarded _ d.ensureIndexes (_, d.ensureIndexes)).2.content = d.content
      exact guarded_keeps (P := fun e : Directory => e.content = d.content)
        (content_ensureIndexes d) fun _ => content_ensureIndexes d
  | _ => cases hop

theorem blind_write {op : Operation} (hop : op.isWrite = true) :
    Blind (Operation.step F) (Operation.failure F) Directory.content op := by
  refine blind_step F fun heq => ?_
  rw [heq] at hop
  cases hop

/-- The scan goes by the content. -/
theorem queryScan_content (d : Directory) (q : DirectoryQuery) :
    (d.content.queryScan q : QueryResult F) = d.queryScan q := rfl

/-- A run and the writes in it. -/
theorem seen_of_writes (ops : List Operation) (d : Directory) :
    (after (Operation.step F) d ops).content =
        (after (Operation.step F) d (ops.filter Operation.isWrite)).content ∧
      (reports (Operation.step F) (Operation.failure F) d ops).filter (fun x => x.1.isWrite) =
        reports (Operation.step F) (Operation.failure F) d (ops.filter Operation.isWrite) := by
  refine seen_of_silent (fun op d hop => content_read ?_ d) (fun op hop => blind_write hop) ops rfl
  simpa [Operation.isWrite] using hop

end Reads

/-- **Reading leaves no trace.** Two runs in which the same writes are made in the same order,
    whatever is read between them, store the same, let the same writes succeed and fail, and
    answer every query alike, in whatever order the buckets are enumerated. -/
theorem reads_unseen (F : Type) [ScoreArith F] (ops ops' : List Operation)
    (h : ops.filter Operation.isWrite = ops'.filter Operation.isWrite) :
    (after (Operation.step F) {} ops).content = (after (Operation.step F) {} ops').content ∧
      (reports (Operation.step F) (Operation.failure F) {} ops).filter (fun x => x.1.isWrite) =
        (reports (Operation.step F) (Operation.failure F) {} ops').filter (fun x => x.1.isWrite) ∧
      ∀ order order' q,
        ((after (Operation.step F) {} ops).query (F := F) order q).1 =
          ((after (Operation.step F) {} ops').query (F := F) order' q).1 := by
  obtain ⟨hcontent, hreports⟩ := seen_of_writes (F := F) ops {}
  obtain ⟨hcontent', hreports'⟩ := seen_of_writes (F := F) ops' {}
  have hsame : (after (Operation.step F) {} ops).content =
      (after (Operation.step F) {} ops').content := by
    rw [hcontent, hcontent', h]
  refine ⟨hsame, by rw [hreports, hreports', h], fun order order' q => ?_⟩
  rw [(query_eq_scan F ops _ order q (after_mem_visited _ _ _)).1,
    (query_eq_scan F ops' _ order' q (after_mem_visited _ _ _)).1,
    ← queryScan_content, hsame, queryScan_content]

/-- The registration of the copy, with reads in between. -/
def registeredReading : List Operation :=
  oneCopy ++
    [.indexes, .query (.reversed _) {}, .registerEntry (copyRecord ⟨1⟩ ⟨1⟩) fun _ => 1,
      .validateIndexes]

theorem reads_unseen_registeredReading :
    (after (Operation.step Float) {} registeredReading).content = afterRegistration.content :=
  (reads_unseen Float registeredReading registeredOnce rfl).1

end CacheDirectory
