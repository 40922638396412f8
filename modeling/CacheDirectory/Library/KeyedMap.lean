/-
  File:      CacheDirectory/Library/KeyedMap.lean
  Subject:   MAPS WHOSE VALUES CARRY THEIR OWN KEY, AND ENUMERATIONS IN UNSPECIFIED ORDER.

  A map that files every value under a key the value itself holds is the list of its values with
  pairwise distinct keys; `KeyedMap` carries the distinctness as a field. Looking up, storing,
  dropping, adjusting all values that pass a test, and loading a list are its operations.

  Hash maps enumerate their entries in an order nobody promises. `Enumeration` is one such order:
  any function that permutes every list. What holds for every `Enumeration` holds whatever the
  order is.
-/
import CacheDirectory.Library.Pointwise
import Mathlib.Data.List.Nodup
import Mathlib.Data.List.Perm.Basic

namespace CacheDirectory.Library

/-- A way to enumerate: every list comes out permuted. -/
structure Enumeration (α : Type) where
  order : List α → List α
  perm : ∀ l, (order l).Perm l

/-- The order of insertion. -/
def Enumeration.stored (α : Type) : Enumeration α := ⟨id, fun _ => .refl _⟩

/-- The last first. -/
def Enumeration.reversed (α : Type) : Enumeration α := ⟨List.reverse, List.reverse_perm⟩

/-- One value comes out in one order. -/
theorem eq_of_perm_of_length_le_one {α : Type} {l l' : List α} (h : l.Perm l')
    (hlen : l.length ≤ 1) : l = l' := by
  cases l with
  | nil => exact (List.nil_perm.mp h).symm
  | cons a l =>
      rw [List.length_cons] at hlen
      have hnil : l = [] := List.length_eq_zero_iff.mp (by omega)
      rw [hnil] at h ⊢
      exact List.singleton_perm.mp h

/-- Keys stay distinct behind one more exactly when it is new. -/
theorem nodup_map_append_singleton {κ ν : Type} {key : ν → κ} {values : List ν} {k : κ}
    (h : (values.map key).Nodup) :
    (values.map key ++ [k]).Nodup ↔ ∀ v ∈ values, key v ≠ k := by
  rw [← List.concat_eq_append, List.nodup_concat, List.mem_map, and_iff_left h]
  constructor
  · intro hno v hv hk
    exact hno ⟨v, hv, hk⟩
  · rintro hfresh ⟨v, hv, hk⟩
    exact hfresh v hv hk

/-- The values of a map, each filed under its own key. -/
structure KeyedMap {κ ν : Type} (key : ν → κ) where
  values : List ν
  nodup : (values.map key).Nodup

namespace KeyedMap

variable {κ ν : Type} {key : ν → κ}

def empty : KeyedMap key := ⟨[], List.nodup_nil⟩

instance : EmptyCollection (KeyedMap key) := ⟨empty⟩

instance : Inhabited (KeyedMap key) := ⟨∅⟩

def size (m : KeyedMap key) : Nat := m.values.length

/-- Values under one key are one value. -/
theorem eq_of_key {m : KeyedMap key} {v w : ν} (hv : v ∈ m.values) (hw : w ∈ m.values)
    (h : key v = key w) : v = w :=
  List.inj_on_of_nodup_map m.nodup hv hw h

/-- The values are all there is of a map. -/
theorem eq_of_values {a b : KeyedMap key} (h : a.values = b.values) : a = b := by
  cases a
  cases b
  cases h
  rfl

theorem nodup_values (m : KeyedMap key) : m.values.Nodup := List.Nodup.of_map key m.nodup

/-! ## 1. Adjusting values in place -/

/-- The values that pass `p` go through `f`, which leaves the key alone. -/
def adjust (m : KeyedMap key) (p : ν → Bool) (f : ν → ν) (hf : ∀ v, key (f v) = key v) :
    KeyedMap key where
  values := m.values.map fun v => if p v then f v else v
  nodup := by
    have h : key ∘ (fun v => if p v then f v else v) = key := by
      funext v
      simp only [Function.comp]
      split
      · exact hf v
      · rfl
    rw [List.map_map, h]
    exact m.nodup

theorem mem_adjust {m : KeyedMap key} {p : ν → Bool} {f : ν → ν} {hf : ∀ v, key (f v) = key v}
    {w : ν} : w ∈ (m.adjust p f hf).values ↔
      ∃ v ∈ m.values, (if p v then f v else v) = w := by
  simp [adjust]

/-- What is due to an edit behind it has been edited. -/
theorem edited_of_due {p : ν → Bool} {f : ν → ν} {l : List ν} {w : ν}
    (hw : w ∈ l.map fun v => if p v then f v else v) (hdue : p w = true) : ∃ v ∈ l, f v = w := by
  obtain ⟨v, hv, rfl⟩ := List.mem_map.mp hw
  by_cases hp : p v = true
  · rw [if_pos hp]
    exact ⟨v, hv, rfl⟩
  · rw [if_neg hp] at hdue
    exact absurd hdue hp

/-- Two edits commute when no value is due to both and neither decides about the other. -/
theorem edits_comm {p q : ν → Bool} {f g : ν → ν} (hpq : ∀ v, p v = true → q v = false)
    (hqf : ∀ v, q (f v) = q v) (hpg : ∀ v, p (g v) = p v) (v : ν) :
    (fun w => if q w then g w else w) (if p v then f v else v) =
      (fun w => if p w then f w else w) (if q v then g v else v) := by
  dsimp only
  by_cases hp : p v = true
  · have hq := hpq v hp
    simp [hp, hq, hqf]
  · by_cases hq : q v = true
    · simp [hp, hq, hpg]
    · simp [hp, hq]

/-- So do the adjustments. -/
theorem adjust_comm (m : KeyedMap key) {p q : ν → Bool} {f g : ν → ν}
    (hf : ∀ v, key (f v) = key v) (hg : ∀ v, key (g v) = key v)
    (hpq : ∀ v, p v = true → q v = false) (hqf : ∀ v, q (f v) = q v)
    (hpg : ∀ v, p (g v) = p v) :
    (m.adjust p f hf).adjust q g hg = (m.adjust q g hg).adjust p f hf := by
  apply eq_of_values
  show (m.values.map _).map _ = (m.values.map _).map _
  rw [List.map_map, List.map_map]
  exact List.map_congr_left fun v _ => edits_comm hpq hqf hpg v

/-- An adjustment that changes nothing of what it has made is made once. -/
theorem adjust_adjust (m : KeyedMap key) {p : ν → Bool} {f : ν → ν} (hf : ∀ v, key (f v) = key v)
    (hff : ∀ v, f (f v) = f v) : (m.adjust p f hf).adjust p f hf = m.adjust p f hf := by
  apply eq_of_values
  show (m.values.map _).map _ = m.values.map _
  rw [List.map_map]
  refine List.map_congr_left fun v _ => ?_
  by_cases hv : p v = true
  · simp [Function.comp, hv, hff]
  · simp [Function.comp, hv]

/-! ## 2. Some of the keys -/

/-- What is filed under keys that pass `q`. -/
def restrict (m : KeyedMap key) (q : κ → Bool) : KeyedMap key where
  values := m.values.filter fun v => q (key v)
  nodup := m.nodup.sublist (List.filter_sublist.map key)

theorem mem_restrict {m : KeyedMap key} {q : κ → Bool} {v : ν} :
    v ∈ (m.restrict q).values ↔ v ∈ m.values ∧ q (key v) = true := by
  simp [restrict]

@[simp] theorem restrict_restrict (m : KeyedMap key) (q : κ → Bool) :
    (m.restrict q).restrict q = m.restrict q := by
  apply eq_of_values
  show List.filter _ (List.filter _ m.values) = List.filter _ m.values
  rw [List.filter_filter]
  simp

theorem restrict_adjust (m : KeyedMap key) (q : κ → Bool) (p : ν → Bool) {f : ν → ν}
    (hf : ∀ v, key (f v) = key v) :
    (m.adjust p f hf).restrict q = (m.restrict q).adjust p f hf := by
  apply eq_of_values
  show List.filter _ (m.values.map _) = (List.filter _ m.values).map _
  rw [List.filter_map]
  refine congrArg _ (List.filter_congr fun v _ => ?_)
  show q (key (if p v = true then f v else v)) = q (key v)
  split
  · rw [hf]
  · rfl

theorem restrict_adjust_own (m : KeyedMap key) (q : κ → Bool) (p : ν → Bool) {f : ν → ν}
    (hf : ∀ v, key (f v) = key v) :
    ((m.restrict q).adjust p f hf).restrict q = (m.adjust p f hf).restrict q := by
  rw [← restrict_adjust, restrict_restrict]

/-- Values under other keys are adjusted. -/
theorem restrict_adjust_other {m : KeyedMap key} {q : κ → Bool} {p : ν → Bool} {f : ν → ν}
    (hf : ∀ v, key (f v) = key v) (h : ∀ v ∈ m.values, p v = true → q (key v) = false) :
    (m.adjust p f hf).restrict q = m.restrict q := by
  rw [restrict_adjust]
  apply eq_of_values
  show (List.filter _ m.values).map _ = List.filter _ m.values
  refine (List.map_congr_left fun v hv => ?_).trans (List.map_id _)
  obtain ⟨hmem, hq⟩ := List.mem_filter.mp hv
  refine if_neg fun hp => ?_
  rw [h v hmem hp] at hq
  cases hq

/-- The map holds values of the list only, and one under the key of every one of them. -/
structure FiledFrom (m : KeyedMap key) (vs : List ν) : Prop where
  drawn : ∀ v ∈ m.values, v ∈ vs
  filed : ∀ v ∈ vs, ∃ w ∈ m.values, key w = key v

theorem filedFrom_empty : (∅ : KeyedMap key).FiledFrom [] where
  drawn _ h := h
  filed _ h := nomatch h

variable [DecidableEq κ]

/-! ## 3. Lookup -/

/-- The value filed under `k`. -/
def find (m : KeyedMap key) (k : κ) : Option ν := m.values.find? fun v => key v = k

def contains (m : KeyedMap key) (k : κ) : Bool := (m.find k).isSome

theorem find_eq_some {m : KeyedMap key} {k : κ} {v : ν} :
    m.find k = some v ↔ v ∈ m.values ∧ key v = k := by
  constructor
  · intro h
    exact ⟨List.mem_of_find?_eq_some h, by simpa using List.find?_some h⟩
  · rintro ⟨hv, rfl⟩
    cases h : m.find (key v) with
    | none =>
        have := List.find?_eq_none.mp h v hv
        simp at this
    | some w =>
        have hw : key w = key v := by simpa using List.find?_some h
        rw [eq_of_key (List.mem_of_find?_eq_some h) hv hw]

theorem find_adjust (m : KeyedMap key) (p : ν → Bool) (f : ν → ν) (hf : ∀ v, key (f v) = key v)
    (k : κ) : (m.adjust p f hf).find k = (m.find k).map fun v => if p v then f v else v := by
  have hkey : (fun v => decide (key (if p v then f v else v) = k)) = fun v => key v = k := by
    funext v
    split
    · rw [hf v]
    · rfl
  unfold find adjust
  rw [List.find?_map]
  exact congrArg (fun q => (m.values.find? q).map fun v => if p v then f v else v) hkey

/-- The maps differ only under keys where both file a value that is owned. -/
def SameBut (own : ν → Prop) (m m' : KeyedMap key) : Prop :=
  ∀ k, m'.find k = m.find k ∨
    ∃ v w, m.find k = some v ∧ m'.find k = some w ∧ own v ∧ own w

theorem SameBut.refl (own : ν → Prop) (m : KeyedMap key) : SameBut own m m := fun _ => .inl rfl

/-- An adjustment that keeps what it is about differs in that only. -/
theorem sameBut_adjust {own : ν → Prop} (m : KeyedMap key) {p : ν → Bool} {f : ν → ν}
    (hf : ∀ v, key (f v) = key v) (hp : ∀ v, p v = true → own v ∧ own (f v)) :
    SameBut own m (m.adjust p f hf) := by
  intro k
  rw [find_adjust]
  cases m.find k with
  | none => exact .inl rfl
  | some v =>
      by_cases hv : p v = true
      · refine .inr ⟨v, f v, rfl, ?_, hp v hv⟩
        rw [Option.map_some, if_pos hv]
      · rw [Option.map_some, if_neg hv]
        exact .inl rfl

/-- What holds of the value under a key behind an adjustment. -/
theorem forall_find_adjust {m : KeyedMap key} {p : ν → Bool} {f : ν → ν}
    {hf : ∀ v, key (f v) = key v} {k : κ} {P : ν → Prop} :
    (∀ v, (m.adjust p f hf).find k = some v → P v) ↔
      ∀ v, m.find k = some v → P (if p v then f v else v) := by
  rw [find_adjust]
  cases m.find k with
  | none => simp
  | some w => simp

/-- Adjusting what is filed under another key. -/
theorem find_adjust_other {m : KeyedMap key} {f : ν → ν} (hf : ∀ v, key (f v) = key v) {k k' : κ}
    (h : (k' == k) = false) : (m.adjust (fun v => key v == k) f hf).find k' = m.find k' := by
  rw [find_adjust]
  cases hv : m.find k' with
  | none => rfl
  | some v =>
      have hkey : (key v == k) = false := by rw [(find_eq_some.mp hv).2, h]
      rw [Option.map_some, if_neg (by rw [hkey]; exact Bool.false_ne_true)]

/-- Adjusting every value. -/
theorem find_adjust_all (m : KeyedMap key) (f : ν → ν) (hf : ∀ v, key (f v) = key v) (k : κ) :
    (m.adjust (fun _ => true) f hf).find k = (m.find k).map f := by
  rw [find_adjust]
  simp only [if_true]

theorem find_eq_none {m : KeyedMap key} {k : κ} :
    m.find k = none ↔ ∀ v ∈ m.values, key v ≠ k := by
  simp [find]

/-- Adjusting what is filed under one key leaves the map alone exactly when it leaves that value
    alone. -/
theorem adjust_eq_self_iff {m : KeyedMap key} {f : ν → ν} {hf : ∀ v, key (f v) = key v} {k : κ} :
    m.adjust (fun v => key v == k) f hf = m ↔ ∀ v, m.find k = some v → f v = v := by
  have hvalues : m.adjust (fun v => key v == k) f hf = m ↔
      ∀ v ∈ m.values, (if key v == k then f v else v) = v := by
    rw [← map_eq_self_iff]
    constructor
    · intro h
      exact congrArg values h
    · intro h
      obtain ⟨values, nodup⟩ := m
      simpa [adjust] using h
  rw [hvalues]
  constructor
  · intro h v hv
    obtain ⟨hmem, hkey⟩ := find_eq_some.mp hv
    have := h v hmem
    rwa [if_pos (by simpa using hkey)] at this
  · intro h v hv
    split
    · next hkey => exact h v (find_eq_some.mpr ⟨hv, by simpa using hkey⟩)
    · rfl

theorem find_restrict {m : KeyedMap key} {q : κ → Bool} {k : κ} (h : q k = true) :
    (m.restrict q).find k = m.find k := by
  cases hm : m.find k with
  | none =>
      rw [find_eq_none] at hm ⊢
      exact fun v hv => hm v (mem_restrict.mp hv).1
  | some v =>
      rw [find_eq_some] at hm ⊢
      refine ⟨mem_restrict.mpr ⟨hm.1, ?_⟩, hm.2⟩
      rw [hm.2]
      exact h

/-- Maps with permuted values answer every lookup alike. -/
theorem find_of_perm {m m' : KeyedMap key} (h : m.values.Perm m'.values) (k : κ) :
    m.find k = m'.find k := by
  cases hm : m'.find k with
  | none =>
      rw [find_eq_none] at hm ⊢
      exact fun v hv => hm v (h.mem_iff.mp hv)
  | some v =>
      rw [find_eq_some] at hm ⊢
      exact ⟨h.mem_iff.mpr hm.1, hm.2⟩

/-- Maps that answer every lookup alike hold the same values. -/
theorem perm_of_find {m m' : KeyedMap key} (h : ∀ k, m.find k = m'.find k) :
    m.values.Perm m'.values := by
  refine (List.perm_ext_iff_of_nodup m.nodup_values m'.nodup_values).mpr fun v => ?_
  have hmem {x : KeyedMap key} : v ∈ x.values ↔ x.find (key v) = some v := by
    rw [find_eq_some, and_iff_left rfl]
  rw [hmem, hmem, h]

/-! ## 4. Storing -/

/-- File `v` under its key, in place of what was there. -/
def put (m : KeyedMap key) (v : ν) : KeyedMap key where
  values := v :: m.values.filter fun w => key w ≠ key v
  nodup := by
    rw [List.map_cons, List.nodup_cons]
    refine ⟨fun h => ?_, (m.nodup).sublist (List.filter_sublist.map key)⟩
    obtain ⟨w, hw, e⟩ := List.mem_map.mp h
    exact (of_decide_eq_true (List.mem_filter.mp hw).2) e

theorem mem_put {m : KeyedMap key} {v w : ν} :
    w ∈ (m.put v).values ↔ w = v ∨ (w ∈ m.values ∧ key w ≠ key v) := by
  simp [put]

/-- A store made again. -/
theorem put_put (m : KeyedMap key) (v : ν) : (m.put v).put v = m.put v := by
  apply eq_of_values
  show v :: List.filter (fun w => key w ≠ key v) (v :: m.values.filter fun w => key w ≠ key v) =
    v :: m.values.filter fun w => key w ≠ key v
  rw [List.filter_cons_of_neg (by simp), List.filter_filter]
  simp

theorem find_put_self (m : KeyedMap key) (v : ν) : (m.put v).find (key v) = some v :=
  find_eq_some.mpr ⟨mem_put.mpr (Or.inl rfl), rfl⟩

theorem find_put (m : KeyedMap key) (v : ν) (k : κ) :
    (m.put v).find k = if key v = k then some v else m.find k := by
  by_cases h : key v = k
  · rw [if_pos h, ← h, find_put_self]
  · rw [if_neg h]
    cases hm : m.find k with
    | none =>
        rw [find_eq_none] at hm ⊢
        intro w hw
        rcases mem_put.mp hw with rfl | ⟨hw, _⟩
        · exact h
        · exact hm w hw
    | some w =>
        rw [find_eq_some] at hm ⊢
        refine ⟨mem_put.mpr (Or.inr ⟨hm.1, ?_⟩), hm.2⟩
        rw [hm.2]
        exact fun e => h e.symm

theorem restrict_put (m : KeyedMap key) {q : κ → Bool} {v : ν} (h : q (key v) = true) :
    (m.put v).restrict q = (m.restrict q).put v := by
  apply eq_of_values
  simp only [restrict, put]
  rw [List.filter_cons_of_pos (by exact h), List.filter_filter, List.filter_filter]
  simp only [Bool.and_comm]

theorem restrict_put_own (m : KeyedMap key) {q : κ → Bool} {v : ν} (h : q (key v) = true) :
    ((m.restrict q).put v).restrict q = (m.put v).restrict q := by
  rw [← restrict_put m h, restrict_restrict]

theorem restrict_put_other (m : KeyedMap key) {q : κ → Bool} {v : ν} (h : q (key v) = false) :
    (m.put v).restrict q = m.restrict q := by
  apply eq_of_values
  simp only [restrict, put]
  rw [List.filter_cons_of_neg (by simp [h]), List.filter_filter]
  refine List.filter_congr fun w _ => ?_
  by_cases hw : key w = key v
  · simp [hw, h]
  · simp [hw]

/-- What holds of the value under a key behind a store. -/
theorem forall_find_put {m : KeyedMap key} {w : ν} {k : κ} {P : ν → Prop}
    (h : ∀ v, m.find k = some v → P v) :
    (∀ v, (m.put w).find k = some v → P v) ↔ (key w = k → P w) := by
  rw [find_put]
  by_cases hk : key w = k
  · rw [if_pos hk]
    simp [hk]
  · rw [if_neg hk]
    exact iff_of_true h fun heq => absurd heq hk

theorem FiledFrom.put {m : KeyedMap key} {vs : List ν} (h : m.FiledFrom vs) (v : ν) :
    (m.put v).FiledFrom (vs ++ [v]) where
  drawn w hw := by
    rcases mem_put.mp hw with rfl | ⟨hw, _⟩
    · exact List.mem_append_right _ (List.mem_singleton.mpr rfl)
    · exact List.mem_append_left _ (h.drawn w hw)
  filed w hw := by
    by_cases hkey : key w = key v
    · exact ⟨v, mem_put.mpr (.inl rfl), hkey.symm⟩
    · rcases List.mem_append.mp hw with hold | hnew
      · obtain ⟨x, hx, hxw⟩ := h.filed w hold
        exact ⟨x, mem_put.mpr (.inr ⟨hx, hxw ▸ hkey⟩), hxw⟩
      · exact absurd (congrArg key (List.mem_singleton.mp hnew)) hkey

theorem FiledFrom.of_find {m : KeyedMap key} {vs : List ν} (h : m.FiledFrom vs) {k : κ} {v : ν}
    (hv : m.find k = some v) : v ∈ vs ∧ key v = k :=
  ⟨h.drawn v (find_eq_some.mp hv).1, (find_eq_some.mp hv).2⟩

/-- What holds of all values of the list under a key holds of the one that is filed. -/
theorem FiledFrom.forall_find {m : KeyedMap key} {vs : List ν} (h : m.FiledFrom vs) {k : κ}
    {P : ν → Prop} (hP : ∀ v ∈ vs, key v = k → P v) (v : ν) (hv : m.find k = some v) : P v :=
  hP v (h.of_find hv).1 (h.of_find hv).2

theorem FiledFrom.found {m : KeyedMap key} {vs : List ν} (h : m.FiledFrom vs) {v : ν}
    (hv : v ∈ vs) : ∃ w ∈ vs, m.find (key v) = some w ∧ key w = key v := by
  obtain ⟨w, hw, hkey⟩ := h.filed v hv
  exact ⟨w, h.drawn w hw, find_eq_some.mpr ⟨hw, hkey⟩, hkey⟩

theorem put_of_fresh {m : KeyedMap key} {v : ν} (h : ∀ w ∈ m.values, key w ≠ key v) :
    (m.put v).values = v :: m.values := by
  have : (m.values.filter fun w => key w ≠ key v) = m.values :=
    List.filter_eq_self.mpr fun w hw => by simpa using h w hw
  simp only [put, this]

/-- Storing under a key already in use keeps the size. -/
theorem size_put_of_mem {m : KeyedMap key} {v w : ν} (hw : w ∈ m.values) (e : key w = key v) :
    (m.put v).size = m.size := by
  have hperm : m.values.Perm (w :: m.values.filter fun x => key x ≠ key v) := by
    refine (List.perm_ext_iff_of_nodup m.nodup_values ?_).mpr fun x => ?_
    · refine List.nodup_cons.mpr ⟨fun h => ?_, m.nodup_values.sublist List.filter_sublist⟩
      exact (of_decide_eq_true (List.mem_filter.mp h).2) e
    · simp only [List.mem_cons, List.mem_filter, ne_eq, decide_not, Bool.not_eq_eq_eq_not,
        Bool.not_true, decide_eq_false_iff_not]
      constructor
      · intro hx
        by_cases hk : key x = key v
        · exact Or.inl (eq_of_key hx hw (hk.trans e.symm))
        · exact Or.inr ⟨hx, hk⟩
      · intro h
        rcases h with rfl | ⟨hx, _⟩
        · exact hw
        · exact hx
  have := hperm.length_eq
  simp only [List.length_cons] at this
  simp only [size, put, List.length_cons]
  omega

/-- Storing under a new key grows the map by one. -/
theorem size_put_of_fresh {m : KeyedMap key} {v : ν} (h : ∀ w ∈ m.values, key w ≠ key v) :
    (m.put v).size = m.size + 1 := by
  simp only [size, put_of_fresh h, List.length_cons]

/-- Drop what is filed under `k`. -/
def erase (m : KeyedMap key) (k : κ) : KeyedMap key where
  values := m.values.filter fun w => key w ≠ k
  nodup := m.nodup.sublist (List.filter_sublist.map key)

theorem mem_erase {m : KeyedMap key} {k : κ} {w : ν} :
    w ∈ (m.erase k).values ↔ w ∈ m.values ∧ key w ≠ k := by
  simp [erase]

theorem find_erase (m : KeyedMap key) (k k' : κ) :
    (m.erase k).find k' = if k = k' then none else m.find k' := by
  by_cases h : k = k'
  · rw [if_pos h, find_eq_none]
    intro w hw
    rw [← h]
    exact (mem_erase.mp hw).2
  · rw [if_neg h]
    cases hm : m.find k' with
    | none =>
        rw [find_eq_none] at hm ⊢
        exact fun w hw => hm w (mem_erase.mp hw).1
    | some w =>
        rw [find_eq_some] at hm ⊢
        refine ⟨mem_erase.mpr ⟨hm.1, ?_⟩, hm.2⟩
        rw [hm.2]
        exact Ne.symm h

/-- How storing changes the size. -/
theorem size_put (m : KeyedMap key) (v : ν) :
    (m.put v).size = if m.contains (key v) then m.size else m.size + 1 := by
  unfold contains
  cases h : m.find (key v) with
  | none => exact size_put_of_fresh fun w hw => find_eq_none.mp h w hw
  | some w =>
      obtain ⟨hw, e⟩ := find_eq_some.mp h
      exact size_put_of_mem hw e

/-- A map within a bound stays within it unless a new key finds it full. -/
theorem size_put_le_iff {m : KeyedMap key} {v : ν} {n : Nat} (h : m.size ≤ n) :
    (m.put v).size ≤ n ↔ m.contains (key v) = true ∨ m.size < n := by
  rw [size_put]
  by_cases hc : m.contains (key v) = true
  · simp [hc, h]
  · rw [if_neg hc]
    simp only [hc, false_or, Bool.false_eq_true]
    omega

/-! ## 5. Loading a list -/

/-- Clear the map and store the values one by one. -/
def ofList (key : ν → κ) (vs : List ν) : KeyedMap key := vs.foldl put ∅

theorem values_foldl_put : ∀ (vs : List ν) (m : KeyedMap key),
    ((m.values ++ vs).map key).Nodup → (vs.foldl put m).values.Perm (m.values ++ vs)
  | [], m, _ => by simp
  | v :: vs, m, h => by
      have hfresh : ∀ w ∈ m.values, key w ≠ key v := by
        intro w hw e
        rw [List.map_append, List.nodup_append] at h
        exact h.2.2 (key w) (List.mem_map_of_mem hw) (key v) (by simp) e
      have hmid : ((m.put v).values ++ vs).Perm (m.values ++ v :: vs) := by
        rw [put_of_fresh hfresh]
        exact List.perm_middle.symm
      exact (values_foldl_put vs (m.put v) ((hmid.map key).nodup_iff.mpr h)).trans hmid

/-- Loading never makes more than it was given. -/
theorem size_foldl_put_le : ∀ (vs : List ν) (m : KeyedMap key),
    (vs.foldl put m).size ≤ m.size + vs.length
  | [], m => Nat.le_refl _
  | v :: vs, m => by
      have h := size_foldl_put_le vs (m.put v)
      have hput : (m.put v).size ≤ m.size + 1 := by
        rw [size_put]
        split <;> omega
      rw [List.foldl_cons, List.length_cons]
      omega

theorem size_ofList_le (vs : List ν) : (ofList key vs).size ≤ vs.length := by
  have h := size_foldl_put_le vs (∅ : KeyedMap key)
  rw [show (∅ : KeyedMap key).size = 0 from rfl, Nat.zero_add] at h
  exact h

/-- Values with distinct keys are all kept. -/
theorem values_ofList {vs : List ν} (h : (vs.map key).Nodup) :
    (ofList key vs).values.Perm vs :=
  values_foldl_put vs ∅ h

theorem find_ofList_eq_some {vs : List ν} (h : (vs.map key).Nodup) {k : κ} {v : ν} :
    (ofList key vs).find k = some v ↔ v ∈ vs ∧ key v = k := by
  rw [find_eq_some, (values_ofList h).mem_iff]

end KeyedMap

end CacheDirectory.Library
