/-
  File:      CacheDirectory/Library/Pointwise.lean
  Subject:   LISTS CHANGED ENTRY BY ENTRY.

  A loop that edits the entries of a vector in place keeps its length and its order; what it does
  to one entry is a relation `R`, and the vector before and the vector after stand in
  `List.Forall₂ R`. The three shapes such loops have here are a map, a map that knows the
  position, and an assignment to one position. A search with an assignment behind it edits the
  first entry that passes a test (`reviseFirst`).

  Somebody may see some of the entries only, and not all of an entry (`part`). What is seen behind
  an edit then goes by what is seen before it.
-/
import Mathlib.Algebra.Group.Basic
import Mathlib.Data.List.Forall2

namespace CacheDirectory.Library

variable {α β : Type} {R : α → α → Prop}

theorem forall₂_refl (hR : ∀ a, R a a) (l : List α) : List.Forall₂ R l l :=
  List.forall₂_same.mpr fun a _ => hR a

theorem forall₂_map_self {f : α → α} (hf : ∀ a, R a (f a)) (l : List α) :
    List.Forall₂ R l (l.map f) := by
  rw [List.forall₂_map_right_iff]
  exact List.forall₂_same.mpr fun a _ => hf a

theorem forall₂_mapIdx_self {f : Nat → α → α} (hf : ∀ i a, R a (f i a)) (l : List α) :
    List.Forall₂ R l (l.mapIdx f) := by
  refine List.forall₂_iff_get.mpr ⟨by simp, fun i h1 h2 => ?_⟩
  simpa using hf i l[i]

theorem forall₂_set_self (hR : ∀ a, R a a) (l : List α) (i : Nat) (x : α)
    (h : ∀ (hi : i < l.length), R l[i] x) : List.Forall₂ R l (l.set i x) := by
  refine List.forall₂_iff_get.mpr ⟨by simp, fun j h1 h2 => ?_⟩
  by_cases hij : i = j
  · subst hij
    simpa using h h1
  · simpa [List.getElem_set_ne hij] using hR l[j]

theorem forall₂_trans (hR : ∀ a b c, R a b → R b c → R a c) {l l' l'' : List α}
    (h : List.Forall₂ R l l') (h' : List.Forall₂ R l' l'') : List.Forall₂ R l l'' := by
  induction h generalizing l'' with
  | nil => exact h'
  | cons hab _ ih =>
      cases h' with
      | cons hbc h'' => exact .cons (hR _ _ _ hab hbc) (ih h'')

/-- An edit of one entry that a key does not see. -/
theorem map_modify {g : α → β} {f : α → α} (hf : ∀ a, g (f a) = g a) (l : List α) (i : Nat) :
    (l.modify i f).map g = l.map g := by
  induction l generalizing i with
  | nil => rw [List.modify_nil]
  | cons a l ih =>
      cases i with
      | zero => rw [List.modify_zero_cons, List.map_cons, List.map_cons, hf]
      | succ i => rw [List.modify_succ_cons, List.map_cons, List.map_cons, ih]

/-- Nor a count. -/
theorem countP_modify {p : α → Bool} {f : α → α} (hf : ∀ a, p (f a) = p a) (l : List α) (i : Nat) :
    (l.modify i f).countP p = l.countP p := by
  have hmap (m : List α) : m.countP p = (m.map p).countP id := by
    rw [List.countP_map]
    rfl
  rw [hmap, hmap, map_modify hf]

/-- An entry raised raises the sum. -/
theorem sum_modify_add {M : Type} [AddCommMonoid M] (n : M) {l : List M} {i : Nat}
    (h : i < l.length) : (l.modify i (· + n)).sum = l.sum + n := by
  induction l generalizing i with
  | nil => exact absurd h (Nat.not_lt_zero i)
  | cons a l ih =>
      cases i with
      | zero =>
          rw [List.modify_zero_cons, List.sum_cons, List.sum_cons]
          exact add_right_comm a n l.sum
      | succ i =>
          rw [List.modify_succ_cons, List.sum_cons, List.sum_cons, ih (Nat.lt_of_succ_lt_succ h)]
          exact (add_assoc a l.sum n).symm

/-- What a partial function yields, entry by entry, from where it is defined. -/
theorem forall₂_filterMap (f : α → Option β) : ∀ l : List α,
    List.Forall₂ (fun a b => f a = some b) (l.filter fun a => (f a).isSome) (l.filterMap f)
  | [] => .nil
  | a :: l => by
      have ih := forall₂_filterMap f l
      cases hf : f a with
      | none =>
          rw [List.filter_cons_of_neg (by simp [hf]), List.filterMap_cons_none hf]
          exact ih
      | some b =>
          rw [List.filter_cons_of_pos (by simp [hf]), List.filterMap_cons_some hf]
          exact .cons hf ih

/-- Where an entry of the later list comes from. -/
theorem exists_of_forall₂ {S : α → β → Prop} {l : List α} {l' : List β}
    (h : List.Forall₂ S l l') {b : β} (hb : b ∈ l') : ∃ a ∈ l, S a b := by
  induction h with
  | nil => cases hb
  | cons hab _ ih =>
      rcases List.mem_cons.mp hb with rfl | hb
      · exact ⟨_, List.mem_cons_self, hab⟩
      · obtain ⟨a, ha, hr⟩ := ih hb
        exact ⟨a, List.mem_cons_of_mem _ ha, hr⟩

/-- The entry at a position, before and after, whatever was appended behind. -/
theorem exists_getElem?_of_forall₂ {l l' : List α} (h : List.Forall₂ R l l') (m : List α)
    {i : Nat} {a : α} (ha : l[i]? = some a) : ∃ b, (l' ++ m)[i]? = some b ∧ R a b := by
  obtain ⟨hi, hget⟩ := List.getElem?_eq_some_iff.mp ha
  have hi' : i < l'.length := by
    rw [← h.length_eq]
    exact hi
  have hr := h.get hi hi'
  rw [List.get_eq_getElem, List.get_eq_getElem, hget] at hr
  exact ⟨l'[i], by rw [List.getElem?_append_left hi', List.getElem?_eq_getElem hi'], hr⟩

/-- What holds between any two entries and survives the edits holds behind them. -/
theorem pairwise_of_forall₂ {P : α → α → Prop}
    (hP : ∀ a b a' b', R a a' → R b b' → P a b → P a' b') {l l' : List α}
    (h : List.Forall₂ R l l') (hl : l.Pairwise P) : l'.Pairwise P := by
  induction h with
  | nil => exact .nil
  | cons hab htail ih =>
      obtain ⟨hhead, hrest⟩ := List.pairwise_cons.mp hl
      refine List.pairwise_cons.mpr ⟨fun b' hb' => ?_, ih hrest⟩
      obtain ⟨b, hb, hr⟩ := exists_of_forall₂ htail hb'
      exact hP _ _ _ _ hab hr (hhead b hb)

/-- What every edit leaves alone reads the same in both lists. -/
theorem map_eq_of_forall₂ {f : α → β} (hf : ∀ a b, R a b → f b = f a) {l l' : List α}
    (h : List.Forall₂ R l l') : l'.map f = l.map f := by
  induction h with
  | nil => rfl
  | cons hab _ ih => rw [List.map_cons, List.map_cons, hf _ _ hab, ih]

/-- A map leaves the list alone exactly when it leaves every entry alone. -/
theorem map_eq_self_iff {f : α → α} {l : List α} : l.map f = l ↔ ∀ a ∈ l, f a = a := by
  have h : l.map f = l.map id ↔ ∀ a ∈ l, f a = id a := List.map_inj_left
  rwa [List.map_id] at h

/-- A loop that changes every entry it selects leaves the list alone exactly when it selects
    none. -/
theorem mapIdx_ite_eq_self_iff {p : α → Bool} {f : Nat → α → α}
    (hf : ∀ i a, p a = true → f i a ≠ a) {l : List α} :
    (l.mapIdx fun i a => if p a then f i a else a) = l ↔ ∀ a ∈ l, p a = false := by
  rw [List.mapIdx_eq_iff]
  constructor
  · intro h a ha
    obtain ⟨i, hi⟩ := List.mem_iff_getElem?.mp ha
    cases hp : p a with
    | false => rfl
    | true =>
        have hget := h i
        rw [hi, Option.map_some, if_pos hp] at hget
        exact absurd (Option.some.inj hget).symm (hf i a hp)
  · intro h i
    cases hi : l[i]? with
    | none => rfl
    | some a => rw [Option.map_some, if_neg (by simp [h a (List.mem_of_getElem? hi)])]

/-- Edits that change nothing of what others have made. -/
theorem mapIdx_again {f g : Nat → α → α} (h : ∀ i a, g i (f i a) = f i a) (l : List α) :
    (l.mapIdx f).mapIdx g = l.mapIdx f := by
  rw [List.mapIdx_mapIdx]
  exact congrArg (fun e => l.mapIdx e) (funext fun i => funext (h i))

/-! ## The first entry that passes a test -/

/-- Edit the first entry that passes `p`. -/
def reviseFirst (p : α → Bool) (f : α → α) : List α → List α
  | [] => []
  | a :: l => if p a then f a :: l else a :: reviseFirst p f l

section First

variable {p q : α → Bool} {f g : α → α}

/-- Such an edit is not noticed by a search for other entries. -/
theorem find?_reviseFirst (hpq : ∀ a, p a = true → q a = false ∧ q (f a) = false) (l : List α) :
    (reviseFirst p f l).find? q = l.find? q := by
  induction l with
  | nil => rfl
  | cons a l ih =>
      rw [reviseFirst]
      by_cases ha : p a = true
      · obtain ⟨hbefore, hbehind⟩ := hpq a ha
        rw [if_pos ha, List.find?_cons_of_neg (by simp [hbehind]),
          List.find?_cons_of_neg (by simp [hbefore])]
      · rw [if_neg ha, List.find?_cons, List.find?_cons, ih]

/-- Edits of different entries commute. -/
theorem reviseFirst_comm (hpq : ∀ a, p a = true → q a = false ∧ q (f a) = false)
    (hqp : ∀ a, q a = true → p a = false ∧ p (g a) = false) (l : List α) :
    reviseFirst p f (reviseFirst q g l) = reviseFirst q g (reviseFirst p f l) := by
  induction l with
  | nil => rfl
  | cons a l ih =>
      by_cases ha : p a = true
      · obtain ⟨hbefore, hbehind⟩ := hpq a ha
        simp [reviseFirst, ha, hbefore, hbehind]
      · by_cases hq : q a = true
        · obtain ⟨_, hbehind⟩ := hqp a hq
          simp [reviseFirst, ha, hq, hbehind]
        · simp [reviseFirst, ha, hq, ih]

/-- An assignment at the position a search found. -/
theorem set_eq_reviseFirst {l : List α} {i : Fin l.length} (h : l.findFinIdx? p = some i) :
    l.set i (f (l.get i)) = reviseFirst p f l := by
  induction l with
  | nil => cases h
  | cons a l ih =>
      rw [List.findFinIdx?_cons] at h
      by_cases ha : p a = true
      · rw [if_pos ha] at h
        cases h
        rw [reviseFirst, if_pos ha]
        rfl
      · rw [if_neg ha] at h
        obtain ⟨j, hj, rfl⟩ := Option.map_eq_some_iff.mp h
        rw [reviseFirst, if_neg ha]
        exact congrArg (a :: ·) (ih hj)

/-- A search that found an entry finds there what is assigned to it, if that passes. -/
theorem findFinIdx?_set {l : List α} {i : Fin l.length} {a : α} (hi : l.findFinIdx? p = some i)
    (ha : p a = true) {m : List α} (hm : m = l.set i a) {j : Fin m.length}
    (hj : m.findFinIdx? p = some j) : j.val = i.val ∧ m.get j = a := by
  subst hm
  obtain ⟨_, hbefore⟩ := List.findFinIdx?_eq_some_iff.mp hi
  have hlen : i.val < (l.set i a).length := by
    rw [List.length_set]
    exact i.isLt
  have hfound : (l.set i a).findFinIdx? p = some ⟨i.val, hlen⟩ := by
    refine List.findFinIdx?_eq_some_iff.mpr ⟨?_, fun k hk => ?_⟩
    · show p (l.set i a)[i.val] = true
      rw [List.getElem_set_self]
      exact ha
    · have hk' : k.val < i.val := hk
      show ¬ p (l.set i a)[k.val] = true
      rw [List.getElem_set_ne (Nat.ne_of_gt hk')]
      exact hbefore ⟨k.val, Nat.lt_trans hk' i.isLt⟩ hk'
  cases hj.symm.trans hfound
  exact ⟨rfl, List.getElem_set_self hlen⟩

end First

/-! ## Some of the entries, with something of them blanked -/

/-- The entries that pass `q`, blanked. -/
def part (q : α → Bool) (blank : α → α) (l : List α) : List α := (l.filter q).map blank

section Part

variable {q p : α → Bool} {blank f : α → α}

theorem part_append (l m : List α) : part q blank (l ++ m) = part q blank l ++ part q blank m := by
  unfold part
  rw [List.filter_append, List.map_append]

theorem part_cons (a : α) (l : List α) :
    part q blank (a :: l) = if q a = true then blank a :: part q blank l else part q blank l := by
  unfold part
  rw [List.filter_cons]
  split
  · rw [List.map_cons]
  · rfl

theorem part_part (hq : ∀ a, q (blank a) = q a) (hblank : ∀ a, blank (blank a) = blank a)
    (l : List α) : part q blank (part q blank l) = part q blank l := by
  induction l with
  | nil => rfl
  | cons a l ih =>
      rw [part_cons]
      split
      · rw [part_cons, hq, if_pos ‹_›, hblank, ih]
      · exact ih

/-- A loop that knows the position, where what is seen of an entry behind it does not depend on
    that, nor on what is blanked. -/
theorem part_mapIdx {g h : Nat → α → α} (hqg : ∀ i a, q (g i a) = q a)
    (hqh : ∀ i a, q (h i a) = q a) (hq : ∀ a, q (blank a) = q a)
    (hgh : ∀ i j a, blank (g i (blank a)) = blank (h j a)) (l : List α) :
    part q blank ((part q blank l).mapIdx g) = part q blank (l.mapIdx h) := by
  induction l generalizing g h with
  | nil => rfl
  | cons a l ih =>
      rw [part_cons, List.mapIdx_cons, part_cons, hqh]
      by_cases ha : q a = true
      · rw [if_pos ha, if_pos ha, List.mapIdx_cons, part_cons, hqg, hq, if_pos ha, hgh 0 0,
          ih (fun i => hqg (i + 1)) (fun i => hqh (i + 1)) fun i j => hgh (i + 1) (j + 1)]
      · rw [if_neg ha, if_neg ha]
        exact ih hqg (fun i => hqh (i + 1)) fun i j => hgh i (j + 1)

theorem map_eq_mapIdx (f : α → α) (l : List α) : l.map f = l.mapIdx fun _ => f :=
  (List.mapIdx_eq_iff.mpr fun _ => List.getElem?_map).symm

theorem part_map (hqf : ∀ a, q (f a) = q a) (hq : ∀ a, q (blank a) = q a)
    (hf : ∀ a, blank (f (blank a)) = blank (f a)) (l : List α) :
    part q blank ((part q blank l).map f) = part q blank (l.map f) := by
  rw [map_eq_mapIdx, map_eq_mapIdx]
  exact part_mapIdx (fun _ => hqf) (fun _ => hqf) hq (fun _ _ => hf) l

/-- An edit of entries nobody sees. -/
theorem part_of_forall₂ {l l' : List α}
    (h : List.Forall₂ (fun a b => b = a ∨ q a = false ∧ q b = false) l l') :
    part q blank l' = part q blank l := by
  induction h with
  | nil => rfl
  | cons hab _ ih =>
      rw [part_cons, part_cons, ih]
      rcases hab with rfl | ⟨ha, hb⟩
      · rfl
      · rw [ha, hb]
        rfl

/-- A search for entries that are seen. -/
theorem find?_part {l : List α} (hpq : ∀ a ∈ l, p a = true → q a = true)
    (hp : ∀ a, p (blank a) = p a) : (part q blank l).find? p = (l.find? p).map blank := by
  induction l with
  | nil => rfl
  | cons a l ih =>
      have hrest := ih fun b hb => hpq b (List.mem_cons_of_mem _ hb)
      rw [part_cons, List.find?_cons]
      by_cases ha : p a = true
      · rw [if_pos (hpq a List.mem_cons_self ha), List.find?_cons, hp, ha]
        rfl
      · rw [Bool.of_not_eq_true ha]
        split
        · rw [List.find?_cons, hp, Bool.of_not_eq_true ha]
          exact hrest
        · exact hrest

theorem filter_part {l : List α} (hpq : ∀ a ∈ l, p a = true → q a = true)
    (hp : ∀ a, p (blank a) = p a) : (part q blank l).filter p = (l.filter p).map blank := by
  induction l with
  | nil => rfl
  | cons a l ih =>
      have hrest := ih fun b hb => hpq b (List.mem_cons_of_mem _ hb)
      rw [part_cons]
      by_cases ha : p a = true
      · rw [if_pos (hpq a List.mem_cons_self ha), List.filter_cons_of_pos (by rw [hp]; exact ha),
          List.filter_cons_of_pos ha, List.map_cons, hrest]
      · rw [List.filter_cons_of_neg ha]
        split
        · rw [List.filter_cons_of_neg (by rw [hp]; exact ha)]
          exact hrest
        · exact hrest

/-- What is struck out of a list falls out of the part. -/
theorem part_struck {l : List α} {struck : α → Bool} (hf : ∀ a, q (f a) = false)
    (hp : ∀ a, p (blank a) = p a) (hstruck : ∀ a ∈ l, q a = true → struck a = p a) :
    part q blank (l.map fun a => if struck a then f a else a) =
      (part q blank l).filter fun a => !p a := by
  induction l with
  | nil => rfl
  | cons a l ih =>
      have hrest := ih fun b hb => hstruck b (List.mem_cons_of_mem _ hb)
      rw [List.map_cons, part_cons, part_cons, hrest]
      by_cases hq : q a = true
      · have ha := hstruck a List.mem_cons_self hq
        cases hpa : p a with
        | true => simp [ha, hpa, hf, hq, hp]
        | false => simp [ha, hpa, hq, hp]
      · have hno : ¬ q (if struck a = true then f a else a) = true := by
          split
          · rw [hf]
            exact Bool.false_ne_true
          · exact hq
        rw [if_neg hno, if_neg hq]

theorem countP_part {l : List α} (hpq : ∀ a ∈ l, p a = true → q a = true)
    (hp : ∀ a, p (blank a) = p a) : (part q blank l).countP p = l.countP p := by
  rw [List.countP_eq_length_filter, List.countP_eq_length_filter, filter_part hpq hp,
    List.length_map]

/-- An assignment to the first of them. -/
theorem part_reviseFirst {l : List α} (hpq : ∀ a ∈ l, p a = true → q a = true)
    (hp : ∀ a, p (blank a) = p a) (hq : ∀ a, q (blank a) = q a)
    (hblank : ∀ a, blank (blank a) = blank a) (hqf : ∀ a, q (f a) = q a)
    (hf : ∀ a, blank (f (blank a)) = blank (f a)) :
    part q blank (reviseFirst p f (part q blank l)) = part q blank (reviseFirst p f l) := by
  induction l with
  | nil => rfl
  | cons a l ih =>
      have hrest := ih fun b hb => hpq b (List.mem_cons_of_mem _ hb)
      rw [part_cons, reviseFirst]
      by_cases ha : p a = true
      · have hqa := hpq a List.mem_cons_self ha
        rw [if_pos hqa, if_pos ha, reviseFirst, hp, if_pos ha, part_cons, part_cons, hqf, hqf, hq,
          if_pos hqa, if_pos hqa, hf, part_part hq hblank]
      · rw [if_neg ha, part_cons]
        split
        · rw [reviseFirst, hp, if_neg ha, part_cons, hq, if_pos ‹_›, hblank, hrest]
        · exact hrest

end Part

end CacheDirectory.Library
