/-
  File:      CacheDirectory/Model/ReaderMethods.lean
  Subject:   THE METHODS OF BYTEREADER ON THE OBJECT (serde.hpp).

  The codecs give up at the first read that fails, so the readers they are made of have no position
  behind a failure. The object has: `u16`, `u32` and `u64` read byte by byte, and the bytes before a
  missing one stay read. A method here is a step on the object, with the shifts and the ors of the
  source; each refines the reader of its name.
-/
import CacheDirectory.Library.Reading
import CacheDirectory.Model.Serde

namespace CacheDirectory

open Library

namespace ByteReader

/-- A method that reports success and, with it, the value it assigned. -/
abbrev Method := Read UInt8 Unit

namespace Method

def u8 : Method UInt8 := Read.primitive rawU8

def u16 : Method UInt16 := do
  let a ← u8
  let b ← u8
  pure (a.toUInt16 ||| (b.toUInt16 <<< 8))

def u32 : Method UInt32 := do
  let a ← u8
  let b ← u8
  let c ← u8
  let d ← u8
  pure (a.toUInt32 ||| (b.toUInt32 <<< 8) ||| (c.toUInt32 <<< 16) ||| (d.toUInt32 <<< 24))

/-- Eight bytes into `b[8]`, then the loop that ors them into the value. -/
def u64 : Method UInt64 := do
  let b ← Read.times 8 u8
  pure ((List.range 8).foldl
    (fun v i => v ||| ((b.getD i 0).toUInt64 <<< UInt64.ofNat (8 * i))) 0)

def f64 : Method F64 := do
  let bits ← u64
  pure ⟨bits⟩

def bytes (n : Nat) : Method Bytes := Read.primitive (rawBytes n)

def string (maxLen : Nat) : Method Bytes := do
  let n ← u64
  if n.toNat > maxLen then throw (.refused ()) else bytes n.toNat

end Method

/-- `remaining()`. -/
def remaining (c : Cursor UInt8) : Nat := sizeSub c.data.length c.pos

/-- `tell()`. -/
def tell (c : Cursor UInt8) : Nat := c.pos

/-! ## Every method against its reader -/

namespace Method

theorem u8_refines : Refines u8 ByteReader.u8 := .primitive ByteReader.u8

theorem u16_refines : Refines u16 ByteReader.u16 := by
  refine .times_succ (.seq u8_refines fun a => .times_succ (.seq u8_refines fun b =>
    .times_zero ?_))
  have hword : UInt16.ofNat (ofLittleEndian [a, b]) = a.toUInt16 ||| (b.toUInt16 <<< 8) := by
    simp [ofLittleEndian, orBytes]
  rw [hword]
  exact .pure _

theorem u32_refines : Refines u32 ByteReader.u32 := by
  refine .times_succ (.seq u8_refines fun a => .times_succ (.seq u8_refines fun b =>
    .times_succ (.seq u8_refines fun c => .times_succ (.seq u8_refines fun d => .times_zero ?_))))
  have hword : UInt32.ofNat (ofLittleEndian [a, b, c, d]) =
      a.toUInt32 ||| (b.toUInt32 <<< 8) ||| (c.toUInt32 <<< 16) ||| (d.toUInt32 <<< 24) := by
    simp [ofLittleEndian, orBytes, UInt32.or_assoc]
  rw [hword]
  exact .pure _

theorem u64_refines : Refines u64 ByteReader.u64 := by
  refine .given (.times u8_refines 8) (P := fun b => b.length = 8)
    ((Spells.times u8_spells 8).imp fun _ _ h => h.1) fun b hb => ?_
  have hword : UInt64.ofNat (ofLittleEndian b) = (List.range 8).foldl
      (fun v i => v ||| ((b.getD i 0).toUInt64 <<< UInt64.ofNat (8 * i))) 0 := by
    match b, hb with
    | [b₀, b₁, b₂, b₃, b₄, b₅, b₆, b₇], _ =>
        simp [ofLittleEndian, orBytes, UInt64.or_assoc, List.range, List.range.loop]
  rw [hword]
  exact .pure _

theorem f64_refines : Refines f64 ByteReader.f64 := .seq u64_refines fun _ => .pure _

theorem bytes_refines (n : Nat) : Refines (bytes n) (ByteReader.bytes n) :=
  .primitive (ByteReader.bytes n)

theorem string_refines (maxLen : Nat) : Refines (string maxLen) (ByteReader.string maxLen) := by
  refine .seq u64_refines fun n => ?_
  split
  · exact .refuse ()
  · exact bytes_refines n.toNat

end Method

end ByteReader

end CacheDirectory
