/-
  File:      CacheDirectory/Encoding/Sequences.lean
  Subject:   SEQUENCES OF TYPED VALUES, WRITTEN AND READ BACK.

  A sequence of writes leaves the bytes of its values one behind the other; a sequence of reads is
  any list of method calls, and a call that fails leaves a reader that can be called again.

  * `run_refines` -- each call against its reader;
  * `readEach_written` -- reads of the types that were written give the values and stop behind them;
  * `reaches_visited` -- whatever is called, in whatever order, the reader stays inside the input;
  * `reads_invert_writes` -- both.
-/
import CacheDirectory.Library.Runs
import CacheDirectory.Model.ReaderMethods

namespace CacheDirectory

open Library

/-! ## 1. Values and calls -/

/-- A value under one of the writer's types. -/
inductive Datum where
  | u8 (v : UInt8)
  | u16 (v : UInt16)
  | u32 (v : UInt32)
  | u64 (v : UInt64)
  | f64 (v : F64)
  | bytes (b : Bytes)
  | string (s : Bytes)
  deriving DecidableEq

/-- The bytes its write appends. -/
def Datum.written : Datum → Bytes
  | .u8 v => ByteWriter.u8 v
  | .u16 v => ByteWriter.u16 v
  | .u32 v => ByteWriter.u32 v
  | .u64 v => ByteWriter.u64 v
  | .f64 v => ByteWriter.f64 v
  | .bytes b => ByteWriter.bytes b
  | .string s => ByteWriter.string s

/-- A call of a read method; `n` and `max_len` are `std::size_t`. -/
inductive ReadCall where
  | u8
  | u16
  | u32
  | u64
  | f64
  | bytes (n : UInt64)
  | string (maxLen : UInt64)

namespace ReadCall

/-- The call on the reader object. -/
def run : ReadCall → ByteReader.Method Datum
  | .u8 => .u8 <$> ByteReader.Method.u8
  | .u16 => .u16 <$> ByteReader.Method.u16
  | .u32 => .u32 <$> ByteReader.Method.u32
  | .u64 => .u64 <$> ByteReader.Method.u64
  | .f64 => .f64 <$> ByteReader.Method.f64
  | .bytes n => .bytes <$> ByteReader.Method.bytes n.toNat
  | .string maxLen => .string <$> ByteReader.Method.string maxLen.toNat

/-- The reader it refines. -/
def reader : ReadCall → Reader Datum
  | .u8 => .u8 <$> ByteReader.u8
  | .u16 => .u16 <$> ByteReader.u16
  | .u32 => .u32 <$> ByteReader.u32
  | .u64 => .u64 <$> ByteReader.u64
  | .f64 => .f64 <$> ByteReader.f64
  | .bytes n => .bytes <$> ByteReader.bytes n.toNat
  | .string maxLen => .string <$> ByteReader.string maxLen.toNat

theorem run_refines : ∀ call : ReadCall, Refines call.run call.reader
  | .u8 => .map ByteReader.Method.u8_refines _
  | .u16 => .map ByteReader.Method.u16_refines _
  | .u32 => .map ByteReader.Method.u32_refines _
  | .u64 => .map ByteReader.Method.u64_refines _
  | .f64 => .map ByteReader.Method.f64_refines _
  | .bytes n => .map (ByteReader.Method.bytes_refines n.toNat) _
  | .string maxLen => .map (ByteReader.Method.string_refines maxLen.toNat) _

/-- The reader behind the call, whether it succeeded or not. -/
def step (call : ReadCall) (c : Cursor UInt8) : Cursor UInt8 := (call.run.outcome c).2

/-- The call reads values of this type: a block of this length, a string within this bound. -/
def Fits : ReadCall → Datum → Prop
  | .u8, .u8 _ => True
  | .u16, .u16 _ => True
  | .u32, .u32 _ => True
  | .u64, .u64 _ => True
  | .f64, .f64 _ => True
  | .bytes n, .bytes b => b.length = n.toNat
  | .string maxLen, .string s => s.length ≤ maxLen.toNat
  | _, _ => False

theorem reader_decodes {call : ReadCall} {x : Datum} (h : call.Fits x) :
    Decodes True call.reader x.written x := by
  cases call with
  | u8 =>
      cases x with
      | u8 v => exact .map (ByteReader.u8_decodes v) _
      | _ => cases h
  | u16 =>
      cases x with
      | u16 v => exact .map (ByteReader.u16_decodes v) _
      | _ => cases h
  | u32 =>
      cases x with
      | u32 v => exact .map (ByteReader.u32_decodes v) _
      | _ => cases h
  | u64 =>
      cases x with
      | u64 v => exact .map (ByteReader.u64_decodes v) _
      | _ => cases h
  | f64 =>
      cases x with
      | f64 v => exact .map (ByteReader.f64_decodes v) _
      | _ => cases h
  | bytes n =>
      cases x with
      | bytes b => exact .map (ByteReader.bytes_decodes h) _
      | _ => cases h
  | string maxLen =>
      cases x with
      | string s => exact .map (ByteReader.string_within h maxLen.toNat_lt) _
      | _ => cases h

end ReadCall

/-- A value together with a call that reads values of its type. -/
structure TypedDatum where
  call : ReadCall
  datum : Datum
  fits : call.Fits datum

/-- The concatenated writes. -/
def writtenAll (xs : List TypedDatum) : Bytes := xs.flatMap fun x => x.datum.written

/-- Reads one behind the other, up to the first that fails. -/
def readEach : List ReadCall → ByteReader.Method (List Datum)
  | [] => pure []
  | call :: calls => do
      let x ← call.run
      let xs ← readEach calls
      pure (x :: xs)

/-! ## 2. Reading back -/

/-- **The values come back, wherever their images stand**, by induction on the sequence. -/
theorem readEach_written : ∀ (xs : List TypedDatum) (pre rest : Bytes),
    (readEach (xs.map (·.call))).outcome ⟨pre ++ (writtenAll xs ++ rest), pre.length⟩ =
      (.ok (xs.map (·.datum)),
        ⟨pre ++ (writtenAll xs ++ rest), pre.length + (writtenAll xs).length⟩)
  | [], pre, rest => rfl
  | x :: xs, pre, rest => by
      have hhead := (ReadCall.run_refines x.call).decoded (ReadCall.reader_decodes x.fits) pre
        (writtenAll xs ++ rest)
      have htail := readEach_written xs (pre ++ x.datum.written) rest
      have himage : writtenAll (x :: xs) ++ rest =
          x.datum.written ++ (writtenAll xs ++ rest) := by
        unfold writtenAll
        rw [List.flatMap_cons, List.append_assoc]
      have hlength : (writtenAll (x :: xs)).length =
          x.datum.written.length + (writtenAll xs).length := by
        unfold writtenAll
        rw [List.flatMap_cons, List.length_append]
      rw [List.append_assoc, List.length_append] at htail
      rw [himage, hlength, List.map_cons, readEach, Read.outcome_bind_ok hhead,
        Read.outcome_bind_ok htail, Nat.add_assoc]
      rfl

/-! ## 3. Bounds -/

/-- **Whatever is called, the reader stays inside the input.** -/
theorem reaches_visited (data : Bytes) (calls : List ReadCall) :
    ∀ c ∈ visited ReadCall.step ⟨data, 0⟩ calls, Cursor.Reaches ⟨data, 0⟩ c := by
  refine visited_invariant (fun call c hc => ?_) (.refl (Nat.zero_le _)) calls
  exact hc.trans ((ReadCall.run_refines call).behind c hc.inBounds)

-- the bytes in front of a missing one stay read
example : (ReadCall.u32.run.outcome ⟨[1, 2, 3], 0⟩).2.pos = 3 := by decide

/-- **The reader inverts the writer and stays in bounds**: reads of the types that were written
    give exactly the values and stop where the rest begins; and in any sequence of calls, failing
    ones included, the position is never past the end and no byte outside is touched. -/
theorem reads_invert_writes :
    (∀ (xs : List TypedDatum) (rest : Bytes),
      (readEach (xs.map (·.call))).outcome ⟨writtenAll xs ++ rest, 0⟩ =
        (.ok (xs.map (·.datum)), ⟨writtenAll xs ++ rest, (writtenAll xs).length⟩)) ∧
      ∀ (data : Bytes) (calls : List ReadCall), ∀ c ∈ visited ReadCall.step ⟨data, 0⟩ calls,
        c.data = data ∧ ByteReader.tell c ≤ data.length ∧
          ByteReader.remaining c = data.length - ByteReader.tell c ∧
          ∀ call : ReadCall, (call.run.outcome c).1 ≠ .error .outside := by
  constructor
  · intro xs rest
    have h := readEach_written xs [] rest
    rwa [List.nil_append, List.length_nil, Nat.zero_add] at h
  · intro data calls c hc
    have hreach := reaches_visited data calls c hc
    have hle : c.pos ≤ c.data.length := hreach.inBounds
    have hdata : c.data = data := hreach.data
    refine ⟨hdata, ?_, ?_, fun call => (ReadCall.run_refines call).inside hle⟩
    · rw [← hdata]
      exact hle
    · rw [← hdata]
      exact sizeSub_of_le hle

end CacheDirectory
