/-
  File:      CacheDirectory/Library/Reading.lean
  Subject:   READERS WHOSE POSITION MOVES ALSO WHERE THEY FAIL.

  A `Parser` says what a read gives and where it stops. A reader object has a position at any time,
  behind a failed read too: what was read before the failure stays read. A `Read` is a step on the
  object, an outcome and the cursor behind it in either case.

  * `Refines` -- a read ends as a parser does, and never leaves the input, failed or not;
  * `Refines.given`, `Refines.seq`, `Refines.times` -- the rules follow the composition;
  * `Refines.decoded`, `Refines.inside` -- what is known of the parser holds of the read.
-/
import CacheDirectory.Library.Parser

namespace CacheDirectory.Library

variable {τ ε α β : Type}

/-- A step on a reader object. -/
abbrev Read (τ ε : Type) := ExceptT (ReadFault ε) (StateM (Cursor τ))

/-- How the read ends, and the cursor behind it. -/
def Read.outcome (m : Read τ ε α) (c : Cursor τ) : Except (ReadFault ε) α × Cursor τ := m.run.run c

namespace Read

/-- A read that moves nothing when it fails. -/
def primitive (raw : RawRead τ ε α) : Read τ ε α := ExceptT.mk fun c =>
  match raw c with
  | .ok (a, c') => (.ok a, c')
  | .error f => (.error f, c)

/-- Read `n` values with `m`. -/
def times : Nat → Read τ ε α → Read τ ε (List α)
  | 0, _ => pure []
  | n + 1, m => do
      let a ← m
      let as ← times n m
      pure (a :: as)

/-- The outcome of a step, the cursor behind a failure forgotten. -/
def forget : Except (ReadFault ε) α × Cursor τ → Except (ReadFault ε) (α × Cursor τ)
  | (.ok a, c) => .ok (a, c)
  | (.error f, _) => .error f

theorem outcome_bind_ok {m : Read τ ε α} {k : α → Read τ ε β} {c c' : Cursor τ} {a : α}
    (h : m.outcome c = (.ok a, c')) : (m >>= k).outcome c = (k a).outcome c' := by
  show ExceptT.bindCont k (m.outcome c).1 (m.outcome c).2 = _
  rw [h]
  rfl

theorem outcome_bind_error {m : Read τ ε α} {k : α → Read τ ε β} {c c' : Cursor τ}
    {f : ReadFault ε} (h : m.outcome c = (.error f, c')) :
    (m >>= k).outcome c = (.error f, c') := by
  show ExceptT.bindCont k (m.outcome c).1 (m.outcome c).2 = _
  rw [h]
  rfl

end Read

/-- The same input, at the position or behind it, not past the end. -/
structure Cursor.Reaches (c c' : Cursor τ) : Prop where
  data : c'.data = c.data
  forward : c.pos ≤ c'.pos
  inBounds : c'.InBounds

namespace Cursor.Reaches

variable {c c' c'' : Cursor τ}

theorem refl (h : c.InBounds) : c.Reaches c := ⟨rfl, Nat.le_refl _, h⟩

theorem trans (h : c.Reaches c') (h' : c'.Reaches c'') : c.Reaches c'' :=
  ⟨h'.data.trans h.data, Nat.le_trans h.forward h'.forward, h'.inBounds⟩

end Cursor.Reaches

/-- From inside the input the read ends as the parser does, and leaves its cursor inside, failed or
    not. -/
structure Refines (m : Read τ ε α) (p : Parser τ ε α) : Prop where
  result : ∀ c : Cursor τ, c.InBounds → p.raw c = Read.forget (m.outcome c)
  behind : ∀ c : Cursor τ, c.InBounds → c.Reaches (m.outcome c).2

namespace Refines

variable {m : Read τ ε α} {p : Parser τ ε α}

theorem pure (a : α) : Refines (Pure.pure a) (Pure.pure a : Parser τ ε α) :=
  ⟨fun _ _ => rfl, fun _ hc => .refl hc⟩

theorem refuse (e : ε) : Refines (throw (.refused e)) (Parser.refuse e : Parser τ ε α) :=
  ⟨fun _ _ => rfl, fun _ hc => .refl hc⟩

theorem primitive (p : Parser τ ε α) : Refines (Read.primitive p.raw) p := by
  have houtcome (c : Cursor τ) : (Read.primitive p.raw).outcome c =
      match p.raw c with
      | .ok (a, c') => (.ok a, c')
      | .error f => (.error f, c) := rfl
  refine ⟨fun c hc => ?_, fun c hc => ?_⟩
  · rw [houtcome]
    cases p.raw c with
    | ok x => rfl
    | error f => rfl
  · rw [houtcome]
    cases h : p.raw c with
    | ok x =>
        obtain ⟨hdata, hle, hin⟩ := p.bounded.moves c x.1 x.2 hc h
        exact ⟨hdata, hle, hin⟩
    | error f => exact .refl hc

/-- **Sequencing** behind a read something is known of; where it fails, its cursor is the one left
    behind. -/
theorem given {P : α → Prop} {k : α → Read τ ε β} {l : α → Parser τ ε β} (h : Refines m p)
    (hp : Gives p P) (hk : ∀ a, P a → Refines (k a) (l a)) : Refines (m >>= k) (p >>= l) := by
  have hnext : ∀ c c' a, c.InBounds → m.outcome c = (.ok a, c') →
      c.Reaches c' ∧ Refines (k a) (l a) := by
    intro c c' a hc houtcome
    have hbehind := h.behind c hc
    have hresult := h.result c hc
    rw [houtcome] at hbehind hresult
    obtain ⟨_, hP, _⟩ := hp c a c' hc hresult
    exact ⟨hbehind, hk a hP⟩
  refine ⟨fun c hc => ?_, fun c hc => ?_⟩
  · have hresult := h.result c hc
    rw [Parser.bind_raw]
    unfold Parser.rawSeq
    rw [hresult]
    rcases houtcome : m.outcome c with ⟨f | a, c'⟩
    · rw [Read.outcome_bind_error houtcome]
      rfl
    · obtain ⟨hreach, hrest⟩ := hnext c c' a hc houtcome
      rw [Read.outcome_bind_ok houtcome]
      exact hrest.result c' hreach.inBounds
  · have hbehind := h.behind c hc
    rcases houtcome : m.outcome c with ⟨f | a, c'⟩
    · rw [Read.outcome_bind_error houtcome]
      rw [houtcome] at hbehind
      exact hbehind
    · obtain ⟨hreach, hrest⟩ := hnext c c' a hc houtcome
      rw [Read.outcome_bind_ok houtcome]
      exact hreach.trans (hrest.behind c' hreach.inBounds)

/-- **Sequencing**. -/
theorem seq {k : α → Read τ ε β} {l : α → Parser τ ε β} (h : Refines m p)
    (hk : ∀ a, Refines (k a) (l a)) : Refines (m >>= k) (p >>= l) :=
  given h (P := fun _ => True) (Spells.any p) fun a _ => hk a

theorem map (h : Refines m p) (wrap : α → β) : Refines (wrap <$> m) (wrap <$> p) := by
  rw [← bind_pure_comp]
  exact seq h fun a => pure (wrap a)

/-- **Repetition**. -/
theorem times (h : Refines m p) : ∀ n : Nat, Refines (Read.times n m) (Parser.times n p)
  | 0 => pure []
  | n + 1 => seq h fun _ => seq (times h n) fun _ => pure _

/-- A repetition may be read value by value. -/
theorem times_succ {n : Nat} {l : List α → Parser τ ε β} {m : Read τ ε β}
    (h : Refines m (p >>= fun a => Parser.times n p >>= fun as => l (a :: as))) :
    Refines m (Parser.times (n + 1) p >>= l) := by
  refine ⟨fun c hc => ?_, h.behind⟩
  rw [← h.result c hc, Parser.times]
  simp only [Parser.bind_raw, Parser.rawSeq]
  cases p.raw c with
  | error f => rfl
  | ok x =>
      simp only
      cases (Parser.times n p).raw x.2 with
      | error f => rfl
      | ok y => rfl

theorem times_zero {l : List α → Parser τ ε β} {m : Read τ ε β} (h : Refines m (l [])) :
    Refines m (Parser.times 0 p >>= l) := h

/-- No cell outside the input is touched. -/
theorem inside (h : Refines m p) {c : Cursor τ} (hc : c.InBounds) :
    (m.outcome c).1 ≠ .error .outside := by
  intro hout
  have hresult := h.result c hc
  rcases houtcome : m.outcome c with ⟨x, c'⟩
  rw [houtcome] at hresult hout
  rw [show x = .error .outside from hout] at hresult
  exact p.bounded.inside c hc hresult

/-- On the image of a value the read gives the value and stops behind the image. -/
theorem decoded (h : Refines m p) {bs : List τ} {a : α} (hp : Decodes True p bs a)
    (pre rest : List τ) :
    m.outcome ⟨pre ++ (bs ++ rest), pre.length⟩ =
      (.ok a, ⟨pre ++ (bs ++ rest), pre.length + bs.length⟩) := by
  have hin : Cursor.InBounds ⟨pre ++ (bs ++ rest), pre.length⟩ := by
    show pre.length ≤ (pre ++ (bs ++ rest)).length
    rw [List.length_append]
    exact Nat.le_add_right _ _
  have hresult := (h.result _ hin).symm.trans ((hp pre rest).1 trivial)
  rcases houtcome : m.outcome ⟨pre ++ (bs ++ rest), pre.length⟩ with ⟨f | a', c'⟩
  · rw [houtcome] at hresult
    cases hresult
  · rw [houtcome] at hresult
    cases hresult
    rfl

end Refines

end CacheDirectory.Library
