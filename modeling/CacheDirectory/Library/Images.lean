/-
  File:      CacheDirectory/Library/Images.lean
  Subject:   WHAT TWO EQUAL CONCATENATIONS SAY ABOUT THEIR PARTS.

  Two images cancel if, wherever they stand in front of equal inputs, something holds of the values
  they were written from and what follows them is equal too.

  * `Cancels.of_length` -- images of one length;
  * `Decodes.cancels` -- images that one parser reads;
  * `Cancels.append`, `Cancels.cons` -- concatenations; the second images may be chosen by what the
    first ones told, as an optional part is by the flag before it.
-/
import CacheDirectory.Library.Parser

namespace CacheDirectory.Library

variable {τ ε α : Type} {P Q : Prop}

/-- In front of equal inputs `P` holds, and the inputs behind are equal. -/
def Cancels (P : Prop) (xs ys : List τ) : Prop :=
  ∀ us vs : List τ, xs ++ us = ys ++ vs → P ∧ us = vs

/-- **Images that one parser reads are images of one value.** -/
theorem Decodes.cancels {p : Parser τ ε α} {xs ys : List τ} {a b : α} (hx : Decodes True p xs a)
    (hy : Decodes True p ys b) : Cancels (a = b) xs ys := by
  intro us vs h
  have hleft := (hx [] us).1 trivial
  have hright := (hy [] vs).1 trivial
  rw [h] at hleft
  have hend := hleft.symm.trans hright
  simp only [Except.ok.injEq, Prod.mk.injEq, Cursor.mk.injEq, true_and] at hend
  obtain ⟨hvalue, hpos⟩ := hend
  have hlen : xs.length = ys.length := by
    simpa only [List.length_nil, Nat.zero_add] using hpos
  exact ⟨hvalue, (List.append_inj h hlen).2⟩

namespace Cancels

variable {xs xs' ys ys' : List τ} {xss yss : List (List τ)}

theorem of_length (h : xs.length = ys.length) : Cancels (xs = ys) xs ys :=
  fun _ _ heq => List.append_inj heq h

theorem nil : Cancels True ([] : List τ) [] := fun _ _ h => ⟨trivial, h⟩

theorem imp (h : Cancels P xs ys) (himp : P → Q) : Cancels Q xs ys := by
  intro us vs heq
  obtain ⟨hP, hrest⟩ := h us vs heq
  exact ⟨himp hP, hrest⟩

/-- **Concatenation**: what the first images told is known of the second. -/
theorem append (h : Cancels P xs ys) (h' : P → Cancels Q xs' ys') :
    Cancels (P ∧ Q) (xs ++ xs') (ys ++ ys') := by
  intro us vs heq
  rw [List.append_assoc, List.append_assoc] at heq
  obtain ⟨hP, hrest⟩ := h _ _ heq
  obtain ⟨hQ, hend⟩ := h' hP us vs hrest
  exact ⟨⟨hP, hQ⟩, hend⟩

/-- Concatenation of a list of images. -/
theorem cons (h : Cancels P xs ys) (h' : P → Cancels Q xss.flatten yss.flatten) :
    Cancels (P ∧ Q) (xs :: xss).flatten (ys :: yss).flatten := by
  rw [List.flatten_cons, List.flatten_cons]
  exact h.append h'

/-- Two equal images. -/
theorem of_eq (h : Cancels P xs ys) (heq : xs = ys) : P :=
  (h [] [] (congrArg (· ++ []) heq)).1

/-- Equal inputs that start with the images. -/
theorem of_leading (h : Cancels P xs ys) {us vs : List τ} (heq : xs ++ us = ys ++ vs) : P :=
  (h us vs heq).1

end Cancels

end CacheDirectory.Library
