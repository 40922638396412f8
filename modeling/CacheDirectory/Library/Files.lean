/-
  File:      CacheDirectory/Library/Files.lean
  Subject:   REPLACING A FILE BY ANOTHER ONE.

  A disk is its files by their paths; a program makes calls on it, one after the other, and may
  stop between any two. Whoever writes a new file beside the old one and renames it at the end
  leaves the old contents or the new ones at the path, and nothing in between.

  * `after_untouched` -- calls that do not touch a path leave it alone;
  * `replacing_whole` -- all calls were made: the new contents;
  * `replacing_broken` -- the program stopped before: the old ones.
-/
import CacheDirectory.Library.Runs
import Mathlib.Logic.Function.Basic

namespace CacheDirectory.Library

variable {π α : Type}

/-- The files of a disk. -/
abbrev Files (π α : Type) : Type := π → Option (List α)

inductive FileCall (π α : Type) where
  | create (p : π)
  | append (p : π) (l : List α)
  | rename (p q : π)

/-- The paths a call touches. -/
def FileCall.touches (c : FileCall π α) (x : π) : Prop :=
  match c with
  | .create p => x = p
  | .append p _ => x = p
  | .rename p q => x = p ∨ x = q

/-- Write the pieces to a new file. -/
def writing (tmp : π) (pieces : List (List α)) : List (FileCall π α) :=
  .create tmp :: pieces.map (.append tmp)

/-- Replace the file at `p`, through a temporary one. -/
def replacing (tmp p : π) (pieces : List (List α)) : List (FileCall π α) :=
  writing tmp pieces ++ [.rename tmp p]

/-- A buffer as it is written: cut at the given sizes, the rest behind. -/
def cutAt : List Nat → List α → List (List α)
  | [], l => [l]
  | n :: ns, l => l.take n :: cutAt ns (l.drop n)

theorem flatten_cutAt : ∀ (ns : List Nat) (l : List α), (cutAt ns l).flatten = l
  | [], l => List.flatten_singleton
  | n :: ns, l => by rw [cutAt, List.flatten_cons, flatten_cutAt ns, List.take_append_drop]

section Touching

variable {tmp p : π} {pieces : List (List α)} {c : FileCall π α}

theorem touches_writing (hc : c ∈ writing tmp pieces) (x : π) : c.touches x ↔ x = tmp := by
  rcases List.mem_cons.mp hc with rfl | hc
  · exact Iff.rfl
  · obtain ⟨l, _, rfl⟩ := List.mem_map.mp hc
    exact Iff.rfl

theorem touches_replacing (hc : c ∈ replacing tmp p pieces) {x : π} (h : c.touches x) :
    x = tmp ∨ x = p := by
  rcases List.mem_append.mp hc with hc | hc
  · exact .inl ((touches_writing hc x).mp h)
  · rw [List.mem_singleton.mp hc] at h
    exact h

end Touching

variable [DecidableEq π]

/-- What a call does to the disk; a file that is not there cannot be appended to. -/
def FileCall.apply (c : FileCall π α) (fs : Files π α) : Files π α :=
  match c with
  | .create p => Function.update fs p (some [])
  | .append p l => Function.update fs p ((fs p).map (· ++ l))
  | .rename p q => Function.update (Function.update fs q (fs p)) p none

theorem apply_untouched {c : FileCall π α} {x : π} (h : ¬ c.touches x) (fs : Files π α) :
    c.apply fs x = fs x := by
  cases c with
  | create p => exact Function.update_of_ne h _ _
  | append p l => exact Function.update_of_ne h _ _
  | rename p q =>
      obtain ⟨hp, hq⟩ := not_or.mp h
      exact (Function.update_of_ne hp _ _).trans (Function.update_of_ne hq _ _)

theorem after_untouched {x : π} (cs : List (FileCall π α)) (h : ∀ c ∈ cs, ¬ c.touches x)
    (fs : Files π α) : after FileCall.apply fs cs x = fs x := by
  induction cs generalizing fs with
  | nil => rfl
  | cons c cs ih =>
      rw [after, ih (fun c' hc' => h c' (List.mem_cons_of_mem _ hc')),
        apply_untouched (h c List.mem_cons_self)]

/-! ## Through a temporary file -/

section Replacing

variable {tmp p : π} {pieces : List (List α)}

/-- What has been appended is in the file. -/
theorem after_appends (fs : Files π α) (l : List α) (h : fs tmp = some l) :
    after FileCall.apply fs (pieces.map (.append tmp)) tmp = some (l ++ pieces.flatten) := by
  induction pieces generalizing fs l with
  | nil => simpa [after] using h
  | cons piece pieces ih =>
      have hone : (FileCall.append tmp piece).apply fs tmp = some (l ++ piece) := by
        show Function.update fs tmp _ tmp = _
        rw [Function.update_self, h]
        rfl
      rw [List.map_cons, after, ih _ _ hone, List.flatten_cons, List.append_assoc]

theorem after_writing (fs : Files π α) :
    after FileCall.apply fs (writing tmp pieces) tmp = some pieces.flatten :=
  after_appends _ [] (Function.update_self _ _ _)

/-- **All calls were made**: the file holds all the pieces. -/
theorem replacing_whole (h : p ≠ tmp) (fs : Files π α) :
    after FileCall.apply fs (replacing tmp p pieces) p = some pieces.flatten := by
  have hrename (fs : Files π α) : (FileCall.rename tmp p).apply fs p = fs tmp := by
    show Function.update (Function.update fs p (fs tmp)) tmp none p = _
    rw [Function.update_of_ne h, Function.update_self]
  rw [replacing, after_append]
  exact (hrename _).trans (after_writing fs)

/-- **The program stopped before the last call**: the file is as it was. -/
theorem replacing_broken (h : p ≠ tmp) {k : Nat} (hk : k < (replacing tmp p pieces).length)
    (fs : Files π α) :
    after FileCall.apply fs ((replacing tmp p pieces).take k) p = fs p := by
  refine after_untouched _ (fun c hc => ?_) fs
  have hbefore : (replacing tmp p pieces).take k = (writing tmp pieces).take k := by
    unfold replacing at hk ⊢
    rw [List.length_append, List.length_singleton] at hk
    exact List.take_append_of_le_length (by omega)
  rw [hbefore] at hc
  rw [touches_writing (List.mem_of_mem_take hc)]
  exact h

/-- Other files are not touched, whenever the program stops. -/
theorem replacing_elsewhere {x : π} (htmp : x ≠ tmp) (hp : x ≠ p) (k : Nat) (fs : Files π α) :
    after FileCall.apply fs ((replacing tmp p pieces).take k) x = fs x := by
  refine after_untouched _ (fun c hc => ?_) fs
  intro htouches
  rcases touches_replacing (List.mem_of_mem_take hc) htouches with rfl | rfl
  · exact htmp rfl
  · exact hp rfl

end Replacing

end CacheDirectory.Library
