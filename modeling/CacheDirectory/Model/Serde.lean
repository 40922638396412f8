/-
  File:      CacheDirectory/Model/Serde.lean
  Subject:   BYTE WRITER AND BYTE READER (serde.hpp).

  A method of `ByteWriter` is the bytes it appends; a writer of a whole entity is the
  concatenation of its calls. A method of `ByteReader` is a `Parser`: `need` subtracts as
  `size_t` does, so that a position past the end would let every read through, and touching a
  byte outside the span is the outcome `outside`. That no composition of these readers ever
  gets there is carried by `Parser` itself.

  Each reader is stated against its writer (`Decodes`), and so two images of one writer cancel
  (`Cancels`).
-/
import CacheDirectory.Library.Images
import CacheDirectory.Library.LittleEndian
import CacheDirectory.Model.Records

namespace CacheDirectory

open Library

abbrev Reader (α : Type) := Parser UInt8 Unit α

/-! ## 1. Writing -/

namespace ByteWriter

def u8 (v : UInt8) : Bytes := [v]
def u16 (v : UInt16) : Bytes := littleEndian 2 v.toNat
def u32 (v : UInt32) : Bytes := littleEndian 4 v.toNat
def u64 (v : UInt64) : Bytes := littleEndian 8 v.toNat
def f64 (v : F64) : Bytes := u64 v.bits
def bytes (b : Bytes) : Bytes := b
def string (s : Bytes) : Bytes := u64 (UInt64.ofNat s.length) ++ bytes s

/-- `w.u8(b ? 1u : 0u)`. -/
def flag (b : Bool) : Bytes := u8 (if b then 1 else 0)

/-- `w.u8(static_cast<std::uint8_t>(e))`. -/
def enum {α : Type} [ByteEnum α] (e : α) : Bytes := u8 (toByte e)

/-- `w.u64(x.value())`. -/
def strong {Tag : Type} (x : StrongValue Tag) : Bytes := u64 x.value

end ByteWriter

section Sizes

open ByteWriter

@[simp] theorem length_u32 (v : UInt32) : (u32 v).length = 4 := length_littleEndian 4 _

@[simp] theorem length_u64 (v : UInt64) : (u64 v).length = 8 := length_littleEndian 8 _

@[simp] theorem length_f64 (v : F64) : (f64 v).length = 8 := length_u64 _

@[simp] theorem length_strong {Tag : Type} (x : StrongValue Tag) : (strong x).length = 8 :=
  length_u64 _

@[simp] theorem length_flag (b : Bool) : (flag b).length = 1 := rfl

@[simp] theorem length_enum {α : Type} [ByteEnum α] (e : α) : (enum e).length = 1 := rfl

@[simp] theorem length_string (s : Bytes) : (string s).length = 8 + s.length := by
  unfold string
  rw [List.length_append, length_u64]
  rfl

/-- A part that is written when a flag is set. -/
theorem length_optional (b : Bool) (bs : Bytes) :
    (if b then bs else []).length = if b then bs.length else 0 := by
  cases b with
  | true => rfl
  | false => rfl

end Sizes

/-! ## 2. Reading -/

/-- `a - b` on `size_t`. -/
def sizeSub (a b : Nat) : Nat := if b ≤ a then a - b else a + 2 ^ 64 - b

theorem sizeSub_of_le {a b : Nat} (h : b ≤ a) : sizeSub a b = a - b := if_pos h

namespace ByteReader

/-- `n <= data_.size() - pos_`. -/
def need (c : Cursor UInt8) (n : Nat) : Bool := n ≤ sizeSub c.data.length c.pos

/-- `data_[pos_++]`. -/
def rawU8 : RawRead UInt8 Unit UInt8 := fun c =>
  if need c 1 then
    match c.data[c.pos]? with
    | some v => .ok (v, ⟨c.data, c.pos + 1⟩)
    | none => .error .outside
  else .error (.refused ())

/-- `data_.subspan(pos_, n)`. -/
def rawBytes (n : Nat) : RawRead UInt8 Unit Bytes := fun c =>
  if need c n then
    if c.pos + n ≤ c.data.length then .ok ((c.data.drop c.pos).take n, ⟨c.data, c.pos + n⟩)
    else .error .outside
  else .error (.refused ())

theorem need_iff {c : Cursor UInt8} {n : Nat} (hc : c.InBounds) :
    need c n = true ↔ c.pos + n ≤ c.data.length := by
  have h : c.pos ≤ c.data.length := hc
  unfold need
  rw [sizeSub_of_le h, decide_eq_true_iff]
  omega

theorem rawU8_of_lt {c : Cursor UInt8} (h : c.pos < c.data.length) :
    rawU8 c = .ok (c.data[c.pos], ⟨c.data, c.pos + 1⟩) := by
  have hn : need c 1 = true := (need_iff (Nat.le_of_lt h)).mpr h
  unfold rawU8
  rw [if_pos hn, List.getElem?_eq_getElem h]

theorem rawU8_of_end {c : Cursor UInt8} (hc : c.InBounds) (h : ¬ c.pos < c.data.length) :
    rawU8 c = .error (.refused ()) := by
  have hn : ¬ need c 1 = true := fun e => h ((need_iff hc).mp e)
  unfold rawU8
  rw [if_neg hn]

theorem rawBytes_of_le {c : Cursor UInt8} {n : Nat} (h : c.pos + n ≤ c.data.length) :
    rawBytes n c = .ok ((c.data.drop c.pos).take n, ⟨c.data, c.pos + n⟩) := by
  have hc : c.InBounds := Nat.le_trans (Nat.le_add_right _ _) h
  unfold rawBytes
  rw [if_pos ((need_iff hc).mpr h), if_pos h]

theorem rawBytes_of_short {c : Cursor UInt8} {n : Nat} (hc : c.InBounds)
    (h : ¬ c.pos + n ≤ c.data.length) : rawBytes n c = .error (.refused ()) := by
  unfold rawBytes
  rw [if_neg fun e => h ((need_iff hc).mp e)]

/-- Cells up to a position, given by an equal prefix. -/
theorem length_of_take_eq {xs ys : Bytes} {n : Nat} (h : xs.take n = ys.take n)
    (hn : n ≤ ys.length) : n ≤ xs.length := by
  have := congrArg List.length h
  rw [List.length_take, List.length_take] at this
  omega

def u8 : Reader UInt8 where
  raw := rawU8
  bounded :=
    { inside := fun c hc h => by
        by_cases hlt : c.pos < c.data.length
        · rw [rawU8_of_lt hlt] at h
          cases h
        · rw [rawU8_of_end hc hlt] at h
          cases h
      moves := fun c a c' hc h => by
        by_cases hlt : c.pos < c.data.length
        · rw [rawU8_of_lt hlt] at h
          cases h
          exact ⟨rfl, Nat.le_succ _, hlt⟩
        · rw [rawU8_of_end hc hlt] at h
          cases h
      frame := fun c a c' hc h data hdata => by
        by_cases hlt : c.pos < c.data.length
        · rw [rawU8_of_lt hlt] at h
          cases h
          have hlen : c.pos < data.length := length_of_take_eq hdata hlt
          have hget : data[c.pos] = c.data[c.pos] := by
            have := congrArg (fun l => l[c.pos]?) hdata
            simpa [List.getElem?_take, hlt, hlen] using this
          rw [rawU8_of_lt (c := ⟨data, c.pos⟩) hlen]
          simp only [hget]
        · rw [rawU8_of_end hc hlt] at h
          cases h }

def bytes (n : Nat) : Reader Bytes where
  raw := rawBytes n
  bounded :=
    { inside := fun c hc h => by
        by_cases hle : c.pos + n ≤ c.data.length
        · rw [rawBytes_of_le hle] at h
          cases h
        · rw [rawBytes_of_short hc hle] at h
          cases h
      moves := fun c a c' hc h => by
        by_cases hle : c.pos + n ≤ c.data.length
        · rw [rawBytes_of_le hle] at h
          cases h
          exact ⟨rfl, Nat.le_add_right _ _, hle⟩
        · rw [rawBytes_of_short hc hle] at h
          cases h
      frame := fun c a c' hc h data hdata => by
        by_cases hle : c.pos + n ≤ c.data.length
        · rw [rawBytes_of_le hle] at h
          cases h
          have hlen : c.pos + n ≤ data.length := length_of_take_eq hdata hle
          have hcut : (data.drop c.pos).take n = (c.data.drop c.pos).take n := by
            rw [List.take_drop, List.take_drop, hdata]
          rw [rawBytes_of_le (c := ⟨data, c.pos⟩) hlen, hcut]
        · rw [rawBytes_of_short hc hle] at h
          cases h }

def u16 : Reader UInt16 := do
  let bs ← Parser.times 2 u8
  pure (UInt16.ofNat (ofLittleEndian bs))

def u32 : Reader UInt32 := do
  let bs ← Parser.times 4 u8
  pure (UInt32.ofNat (ofLittleEndian bs))

def u64 : Reader UInt64 := do
  let bs ← Parser.times 8 u8
  pure (UInt64.ofNat (ofLittleEndian bs))

def f64 : Reader F64 := do
  let bits ← u64
  pure ⟨bits⟩

def string (maxLen : Nat) : Reader Bytes := do
  let n ← u64
  if n.toNat > maxLen then Parser.refuse () else bytes n.toNat

/-- `rd.bytes(c1, 32)` and the `memcpy` of its 32 bytes into a digest. -/
def digest : Reader ContentDigest := do
  let c1 ← bytes 32
  pure ⟨(c1 ++ List.replicate 32 0).take 32, by simp⟩

/-- `if (b) { ... }` around a read: otherwise the object keeps what it held. -/
def optional {α : Type} (b : Bool) (p : Reader α) (prior : α) : Reader α :=
  if b then p else pure prior

end ByteReader

/-! ## 3. Every reader against its writer -/

namespace ByteReader

theorem u8_decodes (v : UInt8) : Decodes True u8 (ByteWriter.u8 v) v := by
  intro pre rest
  refine ⟨fun _ => ?_, fun h => absurd trivial h⟩
  have hlt : pre.length < (pre ++ (ByteWriter.u8 v ++ rest)).length := by
    simp [ByteWriter.u8]
  have h := rawU8_of_lt (c := ⟨pre ++ (ByteWriter.u8 v ++ rest), pre.length⟩) hlt
  show rawU8 _ = _
  simpa [ByteWriter.u8] using h

theorem bytes_decodes {b : Bytes} {n : Nat} (hn : b.length = n) :
    Decodes True (bytes n) (ByteWriter.bytes b) b := by
  subst hn
  intro pre rest
  refine ⟨fun _ => ?_, fun h => absurd trivial h⟩
  have hle : pre.length + b.length ≤ (pre ++ (ByteWriter.bytes b ++ rest)).length := by
    simp only [ByteWriter.bytes, List.length_append]
    omega
  have h := rawBytes_of_le (c := ⟨pre ++ (ByteWriter.bytes b ++ rest), pre.length⟩) hle
  show rawBytes _ _ = _
  simpa [ByteWriter.bytes] using h

theorem flatMap_u8 (bs : Bytes) : bs.flatMap ByteWriter.u8 = bs := by
  induction bs with
  | nil => rfl
  | cons b bs ih => rw [List.flatMap_cons, ih, ByteWriter.u8, List.singleton_append]

theorem times_u8_decodes (bs : Bytes) : Decodes True (Parser.times bs.length u8) bs bs := by
  have h : Decodes (∀ x ∈ bs, True) (Parser.times bs.length u8) (bs.flatMap ByteWriter.u8)
      (bs.map id) := Decodes.times bs fun b _ => u8_decodes b
  rw [flatMap_u8, List.map_id] at h
  exact h.of_iff (by simp)

/-- A word of `n` bytes is read back. -/
theorem word_decodes {α : Type} {n : Nat} {toNat : α → Nat} {ofNat : Nat → α}
    (hlt : ∀ v, toNat v < 2 ^ (8 * n)) (hof : ∀ v, ofNat (toNat v) = v) (v : α) :
    Decodes True (Parser.times n u8 >>= fun bs => pure (ofNat (ofLittleEndian bs)))
      (littleEndian n (toNat v)) v := by
  have h := times_u8_decodes (littleEndian n (toNat v))
  rw [length_littleEndian] at h
  refine .done h (.pure ?_)
  rw [ofLittleEndian_of_lt (hlt v), hof]

theorem u16_decodes (v : UInt16) : Decodes True u16 (ByteWriter.u16 v) v :=
  word_decodes UInt16.toNat_lt (fun _ => UInt16.ofNat_toNat) v

theorem u32_decodes (v : UInt32) : Decodes True u32 (ByteWriter.u32 v) v :=
  word_decodes UInt32.toNat_lt (fun _ => UInt32.ofNat_toNat) v

theorem u64_decodes (v : UInt64) : Decodes True u64 (ByteWriter.u64 v) v :=
  word_decodes UInt64.toNat_lt (fun _ => UInt64.ofNat_toNat) v

theorem f64_decodes (v : F64) : Decodes True f64 (ByteWriter.f64 v) v :=
  .done (u64_decodes v.bits) (.pure rfl)

/-- A string is read back when it is within the reader's bound, and refused when it is longer;
    its size is a `size_t`. -/
theorem string_decodes {s : Bytes} (hs : s.length < 2 ^ 64) (maxLen : Nat) :
    Decodes (s.length ≤ maxLen) (string maxLen) (ByteWriter.string s) s := by
  have hn : (UInt64.ofNat s.length).toNat = s.length := by
    rw [UInt64.toNat_ofNat']
    exact Nat.mod_eq_of_lt hs
  refine .step (u64_decodes _) ?_
  rw [hn]
  by_cases h : s.length ≤ maxLen
  · rw [if_neg (Nat.not_lt.mpr h)]
    exact (bytes_decodes rfl).of_iff (by simp [h])
  · rw [if_pos (Nat.lt_of_not_le h)]
    intro pre rest
    exact ⟨fun h' => absurd h' h, fun _ => ⟨(), rfl⟩⟩

/-- A string within its reader's bound is read back. -/
theorem string_within {s : Bytes} {maxLen : Nat} (h : s.length ≤ maxLen)
    (hmax : maxLen < 2 ^ 64) : Decodes True (string maxLen) (ByteWriter.string s) s :=
  (string_decodes (Nat.lt_of_le_of_lt h hmax) maxLen).of_iff (iff_true_intro h)

theorem digest_decodes (d : ContentDigest) :
    Decodes True digest (ByteWriter.bytes d.toList) d := by
  refine .done (bytes_decodes d.toList_length) (.pure ?_)
  apply Subtype.ext
  show (d.toList ++ List.replicate 32 0).take 32 = d.1
  rw [List.take_append_of_le_length (by rw [d.toList_length]), List.take_of_length_le (by
    rw [d.toList_length])]
  rfl

theorem optional_decodes {α : Type} {p : Reader α} {bs : Bytes} {a : α} (b : Bool) (prior : α)
    (h : Decodes True p bs a) :
    Decodes True (optional ((if b then (1 : UInt8) else 0) != 0) p prior) (if b then bs else [])
      (if b then a else prior) := by
  cases b with
  | true => exact h
  | false => exact .pure rfl

/-- A flag is nonzero exactly when it was set. -/
@[simp] theorem flag_ne_zero (b : Bool) : ((if b then (1 : UInt8) else 0) != 0) = b := by
  cases b <;> rfl

/-! ## 4. What the readers give -/

theorem u8_spells : Spells u8 fun v bs => bs = ByteWriter.u8 v := by
  intro c v c' hc h
  by_cases hlt : c.pos < c.data.length
  · have hread : rawU8 c = .ok (v, c') := h
    rw [rawU8_of_lt hlt] at hread
    cases hread
    exact ⟨_, rfl, List.drop_eq_getElem_cons hlt⟩
  · have hread : rawU8 c = .ok (v, c') := h
    rw [rawU8_of_end hc hlt] at hread
    cases hread

theorem bytes_spells (n : Nat) : Spells (bytes n) fun b bs => bs = b ∧ b.length = n := by
  intro c b c' hc h
  have hread : rawBytes n c = .ok (b, c') := h
  by_cases hle : c.pos + n ≤ c.data.length
  · rw [rawBytes_of_le hle] at hread
    cases hread
    refine ⟨_, ⟨rfl, ?_⟩, ?_⟩
    · rw [List.length_take, List.length_drop]
      omega
    · rw [← List.drop_drop, List.take_append_drop]
  · rw [rawBytes_of_short hc hle] at hread
    cases hread

/-- A 32-bit word is read from its own image. -/
theorem u32_spells : Spells u32 fun v bs => bs = ByteWriter.u32 v := by
  refine .seq (Spells.times u8_spells 4) fun as bs h => .pure ?_
  obtain ⟨hlen, hbs⟩ := h
  have hlt : ofLittleEndian as < 2 ^ 32 := by
    have h := ofLittleEndian_lt as
    rwa [hlen] at h
  rw [hbs, flatMap_u8, List.append_nil]
  unfold ByteWriter.u32
  rw [UInt32.toNat_ofNat', Nat.mod_eq_of_lt hlt, ← hlen, littleEndian_ofLittleEndian]

/-- No string is longer than the reader's bound. -/
theorem string_gives (maxLen : Nat) : Gives (string maxLen) fun s => s.length ≤ maxLen := by
  refine .step fun n => ?_
  split
  · exact Spells.refuse ()
  · next hle =>
      exact (bytes_spells _).imp fun b _ h => Nat.le_trans (Nat.le_of_eq h.2) (Nat.not_lt.mp hle)

/-- What is not read stays what it was. -/
theorem optional_gives {α : Type} (b : Bool) (p : Reader α) (prior : α) :
    Gives (optional b p prior) fun a => b = false → a = prior := by
  cases b with
  | true => exact (Spells.any p).imp fun _ _ _ hb => by cases hb
  | false => exact .pure fun _ => rfl

end ByteReader

/-! ## 5. Two images of one writer -/

section Images

open ByteWriter

theorem u64_cancels (v w : UInt64) : Cancels (v = w) (u64 v) (u64 w) :=
  (ByteReader.u64_decodes v).cancels (ByteReader.u64_decodes w)

theorem strong_cancels {Tag : Type} (x y : StrongValue Tag) :
    Cancels (x = y) (strong x) (strong y) :=
  (u64_cancels x.value y.value).imp StrongValue.ext

theorem enum_cancels {α : Type} [ByteEnum α] (x y : α) : Cancels (x = y) (enum x) (enum y) :=
  ((ByteReader.u8_decodes _).cancels (ByteReader.u8_decodes _)).imp toByte_inj

theorem flag_cancels (b c : Bool) : Cancels (b = c) (flag b) (flag c) :=
  ((ByteReader.u8_decodes _).cancels (ByteReader.u8_decodes _)).imp fun h => by
    rw [← ByteReader.flag_ne_zero b, h, ByteReader.flag_ne_zero]

/-- Strings of one length, whatever the length. -/
theorem string_cancels {s t : Bytes} (h : s.length = t.length) :
    Cancels (s = t) (string s) (string t) := by
  unfold string
  rw [h]
  exact ((u64_cancels _ _).append fun _ => .of_length h).imp And.right

end Images

end CacheDirectory
