/-
  File:      CacheDirectory/Library/Parser.lean
  Subject:   POSITIONAL PARSERS THAT CARRY THEIR OWN SAFETY.

  A parser reads cells of a fixed input from a position on. A raw read has three outcomes: a
  value and the position behind it, a refusal with its reason, or a touch OUTSIDE the input (what
  undefined behaviour is in the languages such readers are written in). `Parser` bundles a raw
  read with the laws every composition keeps:

  * `inside`, `moves` -- from a position inside the input no cell outside is touched, and the
    position never runs past the end;
  * `frame` -- a successful read depends on the cells up to its final position only; so the inputs
    a parser consumes are prefix-free (`Consumes.eq_of_prefix`).

  `Decodes` says what a parser does on the image of a writer: exactly the written value when
  the side condition `fits` holds, a refusal when it does not. Its rules follow the parser's own
  composition (`Decodes.pure`, `Decodes.seq`, `Decodes.times`), so a reader is proved against
  its writer field by field.

  `Spells` goes the other way: what holds of every value a parser gives and of the cells it was
  read from, whatever the input is; `Gives` is the same about the value alone. Their rules follow
  the composition too.

  `Beside` runs two parsers on one input, `Begins` a parser and one that reads only the first part
  of what it reads. `Refuses` is about the reasons a parser gives when it gives no value.
-/
import Mathlib.Data.List.Basic

namespace CacheDirectory.Library

/-- Why a read gave no value. -/
inductive ReadFault (ε : Type) where
  | refused (e : ε)
  | outside
  deriving DecidableEq, Repr

/-- A position in a fixed input. -/
structure Cursor (τ : Type) where
  data : List τ
  pos : Nat

/-- The position does not run past the input. -/
def Cursor.InBounds {τ : Type} (c : Cursor τ) : Prop := c.pos ≤ c.data.length

/-- A read step, unconstrained. -/
abbrev RawRead (τ ε α : Type) := Cursor τ → Except (ReadFault ε) (α × Cursor τ)

/-- What every reader of a bounded input keeps. -/
structure Bounded {τ ε α : Type} (p : RawRead τ ε α) : Prop where
  inside : ∀ c, c.InBounds → p c ≠ .error .outside
  moves : ∀ c a c', c.InBounds → p c = .ok (a, c') →
    c'.data = c.data ∧ c.pos ≤ c'.pos ∧ c'.InBounds
  frame : ∀ c a c', c.InBounds → p c = .ok (a, c') → ∀ data : List τ,
    data.take c'.pos = c.data.take c'.pos → p ⟨data, c.pos⟩ = .ok (a, ⟨data, c'.pos⟩)

/-- A reader together with its laws: one that leaves the input cannot be built. -/
structure Parser (τ ε α : Type) where
  raw : RawRead τ ε α
  bounded : Bounded raw

namespace Parser

variable {τ ε ε' α β : Type}

/-! ## 1. The ways to build a parser -/

/-- Give a value without reading. -/
def ret (a : α) : Parser τ ε α where
  raw c := .ok (a, c)
  bounded :=
    { inside := fun _ _ h => by cases h
      moves := fun c b c' hc h => by
        cases h
        exact ⟨rfl, Nat.le_refl _, hc⟩
      frame := fun c b c' _ h data _ => by
        cases h
        rfl }

/-- Refuse. -/
def refuse (e : ε) : Parser τ ε α where
  raw _ := .error (.refused e)
  bounded :=
    { inside := fun _ _ h => by cases h
      moves := fun _ _ _ _ h => by cases h
      frame := fun _ _ _ _ h => by cases h }

/-- Run `p`, then the parser its value selects. -/
def rawSeq (p : RawRead τ ε α) (k : α → RawRead τ ε β) : RawRead τ ε β := fun c =>
  match p c with
  | .ok (a, c') => k a c'
  | .error e => .error e

theorem rawSeq_ok {p : RawRead τ ε α} {k : α → RawRead τ ε β} {c c'' : Cursor τ} {b : β}
    (h : rawSeq p k c = .ok (b, c'')) :
    ∃ a c', p c = .ok (a, c') ∧ k a c' = .ok (b, c'') := by
  unfold rawSeq at h
  cases hp : p c with
  | error e => rw [hp] at h; cases h
  | ok x =>
      obtain ⟨a, c'⟩ := x
      rw [hp] at h
      exact ⟨a, c', rfl, h⟩

theorem bounded_rawSeq {p : RawRead τ ε α} {k : α → RawRead τ ε β} (hp : Bounded p)
    (hk : ∀ a, Bounded (k a)) : Bounded (rawSeq p k) where
  inside c hc h := by
    unfold rawSeq at h
    cases hpc : p c with
    | error e =>
        rw [hpc] at h
        cases h
        exact hp.inside c hc hpc
    | ok x =>
        obtain ⟨a, c'⟩ := x
        rw [hpc] at h
        exact (hk a).inside c' (hp.moves c a c' hc hpc).2.2 h
  moves c b c'' hc h := by
    obtain ⟨a, c', h1, h2⟩ := rawSeq_ok h
    obtain ⟨hd, hle, hin⟩ := hp.moves c a c' hc h1
    obtain ⟨hd', hle', hin'⟩ := (hk a).moves c' b c'' hin h2
    exact ⟨hd'.trans hd, Nat.le_trans hle hle', hin'⟩
  frame c b c'' hc h data hdata := by
    obtain ⟨a, c', h1, h2⟩ := rawSeq_ok h
    obtain ⟨hd, _, hin⟩ := hp.moves c a c' hc h1
    obtain ⟨_, hle', _⟩ := (hk a).moves c' b c'' hin h2
    -- what the second parser saw is what the first one saw: cut the longer prefix
    have hcut : data.take c'.pos = c.data.take c'.pos := by
      have := congrArg (List.take c'.pos) hdata
      simpa [List.take_take, Nat.min_eq_left hle'] using this
    have h1' := hp.frame c a c' hc h1 data hcut
    have h2' := (hk a).frame c' b c'' hin h2 data (by rw [hd]; exact hdata)
    unfold rawSeq
    rw [h1']
    exact h2'

/-- Sequencing. -/
def seq (p : Parser τ ε α) (k : α → Parser τ ε β) : Parser τ ε β where
  raw := rawSeq p.raw fun a => (k a).raw
  bounded := bounded_rawSeq p.bounded fun a => (k a).bounded

instance : Monad (Parser τ ε) where
  pure := ret
  bind := seq

@[simp] theorem pure_raw (a : α) (c : Cursor τ) : (pure a : Parser τ ε α).raw c = .ok (a, c) := rfl

theorem bind_raw (p : Parser τ ε α) (k : α → Parser τ ε β) :
    (p >>= k).raw = rawSeq p.raw fun a => (k a).raw := rfl

theorem bind_ok {p : Parser τ ε α} {k : α → Parser τ ε β} {c c'' : Cursor τ} {b : β}
    (h : (p >>= k).raw c = .ok (b, c'')) :
    ∃ a c', p.raw c = .ok (a, c') ∧ (k a).raw c' = .ok (b, c'') :=
  rawSeq_ok h

/-- Read `n` values with `p`. -/
def times : Nat → Parser τ ε α → Parser τ ε (List α)
  | 0, _ => pure []
  | n + 1, p => do
      let a ← p
      let as ← times n p
      pure (a :: as)

/-- `times n` gives `n` values. -/
theorem length_times {p : Parser τ ε α} : ∀ (n : Nat) (c c' : Cursor τ) (as : List α),
    (times n p).raw c = .ok (as, c') → as.length = n
  | 0, c, c', as, h => by
      cases h
      rfl
  | n + 1, c, c', as, h => by
      obtain ⟨a, c1, _, h⟩ := bind_ok h
      obtain ⟨as', c2, hrest, h⟩ := bind_ok h
      cases h
      rw [List.length_cons, length_times n c1 _ as' hrest]

/-- The same reads, with `e` for the reason of every refusal. -/
def relabelRaw (e : ε') (p : RawRead τ ε α) : RawRead τ ε' α := fun c =>
  match p c with
  | .ok x => .ok x
  | .error (.refused _) => .error (.refused e)
  | .error .outside => .error .outside

theorem relabelRaw_ok {e : ε'} {p : RawRead τ ε α} {c : Cursor τ} {x : α × Cursor τ} :
    relabelRaw e p c = .ok x ↔ p c = .ok x := by
  unfold relabelRaw
  cases p c with
  | ok y => simp
  | error f => cases f <;> simp

def orFail (p : Parser τ ε α) (e : ε') : Parser τ ε' α where
  raw := relabelRaw e p.raw
  bounded :=
    { inside := fun c hc h => by
        refine p.bounded.inside c hc ?_
        unfold relabelRaw at h
        cases hp : p.raw c with
        | ok x => rw [hp] at h; cases h
        | error f =>
            cases f with
            | refused _ => rw [hp] at h; cases h
            | outside => rfl
      moves := fun c a c' hc h => p.bounded.moves c a c' hc (relabelRaw_ok.mp h)
      frame := fun c a c' hc h data hdata =>
        relabelRaw_ok.mpr (p.bounded.frame c a c' hc (relabelRaw_ok.mp h) data hdata) }

/-- Refuse when the test holds. -/
def refuseIf (b : Bool) (e : ε) : Parser τ ε Unit := if b then refuse e else pure ()

theorem refuseIf_ok {b : Bool} {e : ε} {c c' : Cursor τ} {u : Unit}
    (h : (refuseIf b e : Parser τ ε Unit).raw c = .ok (u, c')) : b = false := by
  cases b with
  | false => rfl
  | true => cases h

/-- Run a parser over a whole input; what it leaves over is refused. -/
def runAll (p : Parser τ ε α) (e : ε) (data : List τ) : Except (ReadFault ε) α :=
  match p.raw ⟨data, 0⟩ with
  | .ok (a, c) => if c.pos = c.data.length then .ok a else .error (.refused e)
  | .error f => .error f

theorem runAll_ok {p : Parser τ ε α} {e : ε} {data : List τ} {a : α}
    (h : runAll p e data = .ok a) : ∃ c, p.raw ⟨data, 0⟩ = .ok (a, c) := by
  unfold runAll at h
  cases hp : p.raw ⟨data, 0⟩ with
  | error f =>
      rw [hp] at h
      cases h
  | ok x =>
      rw [hp] at h
      simp only at h
      split at h
      · cases h
        exact ⟨x.2, rfl⟩
      · cases h

/-- The parser gives a value on the input and leaves nothing over. -/
def Consumes (p : Parser τ ε α) (data : List τ) : Prop :=
  ∃ a, p.raw ⟨data, 0⟩ = .ok (a, ⟨data, data.length⟩)

theorem consumes_iff_runAll {p : Parser τ ε α} (e : ε) {data : List τ} :
    p.Consumes data ↔ ∃ a, runAll p e data = .ok a := by
  constructor
  · rintro ⟨a, ha⟩
    refine ⟨a, ?_⟩
    unfold runAll
    rw [ha]
    exact if_pos rfl
  · rintro ⟨a, ha⟩
    refine ⟨a, ?_⟩
    unfold runAll at ha
    cases hp : p.raw ⟨data, 0⟩ with
    | error f =>
        rw [hp] at ha
        cases ha
    | ok x =>
        obtain ⟨b, c⟩ := x
        obtain ⟨hdata, _, _⟩ := p.bounded.moves _ b c (Nat.zero_le _) hp
        rw [hp] at ha
        simp only at ha
        split at ha
        case isTrue hend =>
            cases ha
            cases c
            simp only at hdata hend
            rw [hend, hdata]
        case isFalse => cases ha

/-- What follows a consumed input is not looked at. -/
theorem raw_append {p : Parser τ ε α} {data : List τ} {a : α}
    (h : p.raw ⟨data, 0⟩ = .ok (a, ⟨data, data.length⟩)) (rest : List τ) :
    p.raw ⟨data ++ rest, 0⟩ = .ok (a, ⟨data ++ rest, data.length⟩) := by
  have hcut : (data ++ rest).take data.length = data.take data.length := by
    rw [List.take_left, List.take_length]
  exact p.bounded.frame ⟨data, 0⟩ a ⟨data, data.length⟩ (Nat.zero_le _) h (data ++ rest) hcut

/-- **The inputs a parser consumes are prefix-free.** -/
theorem Consumes.eq_of_prefix {p : Parser τ ε α} {data data' : List τ} (h : p.Consumes data)
    (h' : p.Consumes data') (hpre : data <+: data') : data = data' := by
  obtain ⟨rest, rfl⟩ := hpre
  obtain ⟨a, ha⟩ := h
  obtain ⟨b, hb⟩ := h'
  have hend := (raw_append ha rest).symm.trans hb
  simp only [Except.ok.injEq, Prod.mk.injEq, Cursor.mk.injEq, List.length_append] at hend
  have hnil : rest = [] := List.eq_nil_of_length_eq_zero (by omega)
  rw [hnil, List.append_nil]

theorem runAll_inside (p : Parser τ ε α) (e : ε) (data : List τ) :
    runAll p e data ≠ .error .outside := by
  intro h
  unfold runAll at h
  cases hp : p.raw ⟨data, 0⟩ with
  | error f =>
      rw [hp] at h
      cases h
      exact p.bounded.inside ⟨data, 0⟩ (Nat.zero_le _) hp
  | ok x =>
      rw [hp] at h
      by_cases hend : x.2.pos = x.2.data.length
      · simp [hend] at h
      · simp [hend] at h

end Parser

/-! ## 2. A parser against the image of a writer -/

/-- On the image `bs` of a value, wherever it stands in the input, `p` gives `a` and stops
    behind the image when `fits` holds, and refuses when `fits` fails. -/
def Decodes {τ ε α : Type} (fits : Prop) (p : Parser τ ε α) (bs : List τ) (a : α) : Prop :=
  ∀ pre rest : List τ,
    (fits → p.raw ⟨pre ++ (bs ++ rest), pre.length⟩ =
      .ok (a, ⟨pre ++ (bs ++ rest), pre.length + bs.length⟩)) ∧
    (¬ fits → ∃ e, p.raw ⟨pre ++ (bs ++ rest), pre.length⟩ = .error (.refused e))

namespace Decodes

variable {τ ε ε' α β γ : Type} {f g : Prop}

theorem pure {a b : α} (h : b = a) : Decodes True (Pure.pure b : Parser τ ε α) [] a := by
  subst h
  intro pre rest
  exact ⟨fun _ => by simp, fun hn => absurd trivial hn⟩

/-- **Sequencing**: images concatenate, side conditions conjoin. -/
theorem seq {p : Parser τ ε α} {k : α → Parser τ ε β} {bs bs' : List τ} {a : α} {b : β}
    (hp : Decodes f p bs a) (hk : Decodes g (k a) bs' b) :
    Decodes (f ∧ g) (p >>= k) (bs ++ bs') b := by
  intro pre rest
  have hp' := hp pre (bs' ++ rest)
  have hk' := hk (pre ++ bs) rest
  have hassoc : pre ++ bs ++ (bs' ++ rest) = pre ++ (bs ++ (bs' ++ rest)) := by simp
  rw [hassoc, List.length_append] at hk'
  rw [List.append_assoc bs bs' rest, List.length_append, ← Nat.add_assoc, Parser.bind_raw]
  unfold Parser.rawSeq
  constructor
  · intro h
    obtain ⟨hf, hg⟩ := h
    rw [hp'.1 hf]
    exact hk'.1 hg
  · intro hn
    by_cases hf : f
    · rw [hp'.1 hf]
      exact hk'.2 fun hg => hn ⟨hf, hg⟩
    · obtain ⟨e, he⟩ := hp'.2 hf
      rw [he]
      exact ⟨e, rfl⟩

/-- Sequencing behind a parser that never refuses its image: the side condition passes on. -/
theorem step {p : Parser τ ε α} {k : α → Parser τ ε β} {bs bs' : List τ} {a : α} {b : β}
    (hp : Decodes True p bs a) (hk : Decodes g (k a) bs' b) :
    Decodes g (p >>= k) (bs ++ bs') b := by
  have h := seq hp hk
  rw [true_and] at h
  exact h

/-- Sequencing where what follows never refuses. -/
theorem last {p : Parser τ ε α} {k : α → Parser τ ε β} {bs bs' : List τ} {a : α} {b : β}
    (hp : Decodes f p bs a) (hk : Decodes True (k a) bs' b) :
    Decodes f (p >>= k) (bs ++ bs') b := by
  have h := seq hp hk
  rw [and_true] at h
  exact h

/-- Sequencing where what follows reads nothing. -/
theorem done {p : Parser τ ε α} {k : α → Parser τ ε β} {bs : List τ} {a : α} {b : β}
    (hp : Decodes f p bs a) (hk : Decodes True (k a) [] b) : Decodes f (p >>= k) bs b := by
  have h := last hp hk
  rw [List.append_nil] at h
  exact h

/-- A value wrapped after it was read. -/
theorem map {p : Parser τ ε α} {bs : List τ} {a : α} (h : Decodes f p bs a) (wrap : α → β) :
    Decodes f (wrap <$> p) bs (wrap a) :=
  done h (pure rfl)

/-- Sequencing behind a test, which reads nothing. -/
theorem check {k : Unit → Parser τ ε β} {c : Bool} {e : ε} {bs : List τ} {b : β}
    (hc : f ↔ c = false) (hk : Decodes g (k ()) bs b) :
    Decodes (f ∧ g) (Parser.refuseIf c e >>= k) bs b := by
  have h0 : Decodes f (Parser.refuseIf c e : Parser τ ε Unit) [] () := by
    intro pre rest
    cases c with
    | false => exact ⟨fun _ => by simp [Parser.refuseIf], fun hn => absurd (hc.mpr rfl) hn⟩
    | true => exact ⟨fun hf => absurd (hc.mp hf) (by simp), fun _ => ⟨e, rfl⟩⟩
  exact seq h0 hk

theorem of_iff {p : Parser τ ε α} {bs : List τ} {a : α} (h : Decodes f p bs a) (e : f ↔ g) :
    Decodes g p bs a := by
  rw [← propext e]
  exact h

theorem orFail {p : Parser τ ε α} {bs : List τ} {a : α} (h : Decodes f p bs a) (e : ε') :
    Decodes f (p.orFail e) bs a := by
  intro pre rest
  obtain ⟨hok, hno⟩ := h pre rest
  constructor
  · intro hf
    exact Parser.relabelRaw_ok.mpr (hok hf)
  · intro hf
    obtain ⟨e', he⟩ := hno hf
    refine ⟨e, ?_⟩
    show Parser.relabelRaw e p.raw _ = _
    unfold Parser.relabelRaw
    rw [he]

/-- **Repetition**: the images of a list of values, one behind the other. -/
theorem times {p : Parser τ ε β} {fits : γ → Prop} {enc : γ → List τ} {val : γ → β} :
    ∀ xs : List γ, (∀ x ∈ xs, Decodes (fits x) p (enc x) (val x)) →
      Decodes (∀ x ∈ xs, fits x) (Parser.times xs.length p) (xs.flatMap enc) (xs.map val)
  | [], _ => of_iff (pure rfl) (by simp)
  | x :: xs, h => by
      rw [List.forall_mem_cons] at h
      have hx : Decodes (fits x ∧ ∀ y ∈ xs, fits y) (Parser.times (x :: xs).length p)
          (enc x ++ (xs.flatMap enc ++ [])) (val x :: xs.map val) :=
        seq h.1 (last (times xs h.2) (pure rfl))
      rw [List.append_nil] at hx
      exact of_iff hx (by simp)

/-- On exactly the image, the whole input is read. -/
theorem runAll {p : Parser τ ε α} {bs : List τ} {a : α} (h : Decodes f p bs a) (e : ε) :
    (f → p.runAll e bs = .ok a) ∧ (¬ f → ∃ e', p.runAll e bs = .error (.refused e')) := by
  obtain ⟨hok, hno⟩ := h [] []
  simp only [List.nil_append, List.append_nil, List.length_nil, Nat.zero_add] at hok hno
  constructor
  · intro hf
    unfold Parser.runAll
    rw [hok hf]
    simp
  · intro hf
    obtain ⟨e', he⟩ := hno hf
    refine ⟨e', ?_⟩
    unfold Parser.runAll
    rw [he]

/-- Exactly then the parser gives a value. -/
theorem isOk_runAll_iff {p : Parser τ ε α} {bs : List τ} {a : α} (h : Decodes f p bs a) (e : ε) :
    (p.runAll e bs).isOk = true ↔ f := by
  obtain ⟨hok, hno⟩ := h.runAll e
  constructor
  · intro hread
    by_contra hf
    obtain ⟨e', he⟩ := hno hf
    rw [he] at hread
    cases hread
  · intro hf
    rw [hok hf]
    rfl

/-- An image that is never refused is read to its end. -/
theorem runAll_ok {p : Parser τ ε α} {bs : List τ} {a : α} (h : Decodes True p bs a) (e : ε) :
    p.runAll e bs = .ok a :=
  (h.runAll e).1 trivial

end Decodes

/-! ## 3. What a parser gives -/

/-- Every value the parser gives, from a position inside the input, has the property together with
    the cells it was read from. -/
def Spells {τ ε α : Type} (p : Parser τ ε α) (P : α → List τ → Prop) : Prop :=
  ∀ c a c', c.InBounds → p.raw c = .ok (a, c') →
    ∃ bs, P a bs ∧ c.data.drop c.pos = bs ++ c.data.drop c'.pos

namespace Spells

variable {τ ε ε' α β : Type} {P : α → List τ → Prop} {Q : β → List τ → Prop}

theorem pure {a : α} (h : P a []) : Spells (Pure.pure a : Parser τ ε α) P := by
  intro c b c' _ hb
  cases hb
  exact ⟨[], h, rfl⟩

theorem refuse (e : ε) : Spells (Parser.refuse e : Parser τ ε α) P :=
  fun _ _ _ _ h => by cases h

/-- A value is read from the cells between the two positions. -/
theorem any (p : Parser τ ε α) : Spells p fun _ _ => True := by
  intro c a c' hc h
  obtain ⟨_, hle, _⟩ := p.bounded.moves c a c' hc h
  refine ⟨(c.data.drop c.pos).take (c'.pos - c.pos), trivial, ?_⟩
  have hsplit : c.data.drop c'.pos = (c.data.drop c.pos).drop (c'.pos - c.pos) := by
    rw [List.drop_drop, Nat.add_sub_cancel' hle]
  rw [hsplit, List.take_append_drop]

/-- **Sequencing**: what the first was read from is known to the second, and the cells add up. -/
theorem seq {p : Parser τ ε α} {k : α → Parser τ ε β} (hp : Spells p P)
    (hk : ∀ a bs, P a bs → Spells (k a) fun b bs' => Q b (bs ++ bs')) :
    Spells (p >>= k) Q := by
  intro c b c'' hc h
  obtain ⟨a, c', ha, hb⟩ := Parser.bind_ok h
  obtain ⟨hdata, _, hin⟩ := p.bounded.moves c a c' hc ha
  obtain ⟨bs, hP, hcells⟩ := hp c a c' hc ha
  obtain ⟨bs', hQ, hcells'⟩ := hk a bs hP c' b c'' hin hb
  rw [hdata] at hcells'
  exact ⟨bs ++ bs', hQ, by rw [hcells, hcells', List.append_assoc]⟩

/-- Sequencing behind a test, which reads nothing and passes. -/
theorem check {k : Unit → Parser τ ε β} {b : Bool} {e : ε}
    (hk : b = false → Spells (k ()) Q) : Spells (Parser.refuseIf b e >>= k) Q := by
  have htest : Spells (Parser.refuseIf b e : Parser τ ε Unit) fun _ bs => bs = [] ∧ b = false := by
    cases b with
    | false => exact pure ⟨rfl, rfl⟩
    | true => exact refuse e
  refine seq htest fun _ bs h => ?_
  rw [h.1]
  exact hk h.2

theorem imp {p : Parser τ ε α} {P' : α → List τ → Prop} (h : Spells p P)
    (himp : ∀ a bs, P a bs → P' a bs) : Spells p P' := by
  intro c a c' hc ha
  obtain ⟨bs, hP, hcells⟩ := h c a c' hc ha
  exact ⟨bs, himp a bs hP, hcells⟩

theorem orFail {p : Parser τ ε α} (h : Spells p P) (e : ε') : Spells (p.orFail e) P :=
  fun c a c' hc ha => h c a c' hc (Parser.relabelRaw_ok.mp ha)

/-- **Repetition**: the cells of a list of values, one behind the other. -/
theorem times {p : Parser τ ε α} {enc : α → List τ} (h : Spells p fun a bs => bs = enc a) :
    ∀ n : Nat, Spells (Parser.times n p) fun as bs => as.length = n ∧ bs = as.flatMap enc
  | 0 => pure ⟨rfl, rfl⟩
  | n + 1 => by
      refine seq h fun a bs ha => seq (times h n) fun as bs' has => pure ?_
      rw [ha, has.2, List.append_nil, List.length_cons, has.1, List.flatMap_cons]
      exact ⟨rfl, rfl⟩

end Spells

/-- The same about the value alone. -/
def Gives {τ ε α : Type} (p : Parser τ ε α) (P : α → Prop) : Prop := Spells p fun a _ => P a

namespace Gives

variable {τ ε ε' α β : Type} {P : α → Prop} {Q : β → Prop}

theorem pure {a : α} (h : P a) : Gives (Pure.pure a : Parser τ ε α) P := Spells.pure h

/-- **Sequencing**: what the first gives is known to the second. -/
theorem seq {p : Parser τ ε α} {k : α → Parser τ ε β} (hp : Gives p P)
    (hk : ∀ a, P a → Gives (k a) Q) : Gives (p >>= k) Q :=
  Spells.seq hp fun a _ ha => hk a ha

/-- Sequencing behind a parser nothing need be known of. -/
theorem step {p : Parser τ ε α} {k : α → Parser τ ε β} (hk : ∀ a, Gives (k a) Q) :
    Gives (p >>= k) Q :=
  Spells.seq (Spells.any p) fun a _ _ => hk a

theorem orFail {p : Parser τ ε α} (h : Gives p P) (e : ε') : Gives (p.orFail e) P :=
  Spells.orFail h e

/-- **Repetition**. -/
theorem times {p : Parser τ ε α} (h : Gives p P) :
    ∀ n : Nat, Gives (Parser.times n p) fun as => ∀ a ∈ as, P a
  | 0 => pure fun _ ha => absurd ha List.not_mem_nil
  | n + 1 => by
      refine seq h fun a ha => seq (times h n) fun as has => pure ?_
      exact List.forall_mem_cons.mpr ⟨ha, has⟩

theorem runAll {p : Parser τ ε α} (h : Gives p P) {e : ε} {data : List τ} {a : α}
    (ha : p.runAll e data = .ok a) : P a := by
  obtain ⟨c, hc⟩ := Parser.runAll_ok ha
  obtain ⟨_, hP, _⟩ := h _ a c (Nat.zero_le _) hc
  exact hP

end Gives

/-! ## 4. Two parsers on one input -/

/-- Two outcomes: the same refusal, or values in the relation and the same position. -/
inductive Alike {τ ε α β : Type} (R : α → β → Prop) :
    Except (ReadFault ε) (α × Cursor τ) → Except (ReadFault ε) (β × Cursor τ) → Prop where
  | ok (a : α) (b : β) (c : Cursor τ) (h : R a b) : Alike R (.ok (a, c)) (.ok (b, c))
  | error (f : ReadFault ε) : Alike R (.error f) (.error f)

/-- From every position the two parsers end alike. -/
def Beside {τ ε α β : Type} (R : α → β → Prop) (p : Parser τ ε α) (q : Parser τ ε β) : Prop :=
  ∀ c, Alike R (p.raw c) (q.raw c)

namespace Beside

variable {τ ε α α' β β' : Type} {R : α → β → Prop} {S : α' → β' → Prop}

theorem pure {a : α} {b : β} (h : R a b) :
    Beside R (Pure.pure a : Parser τ ε α) (Pure.pure b) :=
  fun c => .ok a b c h

theorem refl (p : Parser τ ε α) : Beside Eq p p := by
  intro c
  cases p.raw c with
  | error f => exact .error f
  | ok x => exact .ok x.1 x.1 x.2 rfl

/-- **Sequencing**: what the first give in the relation, the second are run on. -/
theorem seq {p : Parser τ ε α} {q : Parser τ ε β} {k : α → Parser τ ε α'}
    {l : β → Parser τ ε β'} (hp : Beside R p q) (hk : ∀ a b, R a b → Beside S (k a) (l b)) :
    Beside S (p >>= k) (q >>= l) := by
  intro c
  have hrun := hp c
  rw [Parser.bind_raw, Parser.bind_raw]
  unfold Parser.rawSeq
  revert hrun
  generalize p.raw c = x
  generalize q.raw c = y
  intro hrun
  cases hrun with
  | error f => exact .error f
  | ok a b c' h => exact hk a b h c'

/-- Sequencing behind parsers that give the same. -/
theorem step {p q : Parser τ ε α} {k : α → Parser τ ε α'} {l : α → Parser τ ε β'}
    (hp : Beside Eq p q) (hk : ∀ a, Beside S (k a) (l a)) : Beside S (p >>= k) (q >>= l) := by
  refine seq hp fun a b hab => ?_
  rw [hab]
  exact hk b

/-- Sequencing behind one parser. -/
theorem same {p : Parser τ ε α} {k : α → Parser τ ε α'} {l : α → Parser τ ε β'}
    (hk : ∀ a, Beside S (k a) (l a)) : Beside S (p >>= k) (p >>= l) :=
  step (refl p) hk

/-- Where one parser gives an image of what the other gives, so it is over the whole input. -/
theorem runAll_map {p : Parser τ ε β} {q : Parser τ ε α} {f : α → β}
    (h : Beside (fun b a => b = f a) p q) (e : ε) (data : List τ) :
    p.runAll e data = (q.runAll e data).map f := by
  have hrun := h ⟨data, 0⟩
  unfold Parser.runAll
  revert hrun
  generalize p.raw ⟨data, 0⟩ = x
  generalize q.raw ⟨data, 0⟩ = y
  intro hrun
  cases hrun with
  | error f => rfl
  | ok b a c h =>
      simp only [h]
      split
      · rfl
      · rfl

end Beside

/-- Where `p` gives a value, `q` gives one in the relation, whatever it leaves over. -/
def Begins {τ ε α β : Type} (R : α → β → Prop) (p : Parser τ ε α) (q : Parser τ ε β) : Prop :=
  ∀ c a c', c.InBounds → p.raw c = .ok (a, c') → ∃ b c'', q.raw c = .ok (b, c'') ∧ R a b

namespace Begins

variable {τ ε α β γ : Type} {R : α → β → Prop}

/-- Sequencing behind one parser. -/
theorem same {p : Parser τ ε γ} {k : γ → Parser τ ε α} {l : γ → Parser τ ε β}
    (hk : ∀ x, Begins R (k x) (l x)) : Begins R (p >>= k) (p >>= l) := by
  intro c a c' hc ha
  obtain ⟨x, cx, hx, hrest⟩ := Parser.bind_ok ha
  have hin := (p.bounded.moves c x cx hc hx).2.2
  obtain ⟨b, c'', hb, hR⟩ := hk x cx a c' hin hrest
  refine ⟨b, c'', ?_, hR⟩
  rw [Parser.bind_raw]
  unfold Parser.rawSeq
  rw [hx]
  exact hb

/-- A repetition reads one value, and then the others. -/
theorem times_succ {p : Parser τ ε γ} {k : γ → Parser τ ε α} {n : Nat}
    {l : List γ → Parser τ ε β}
    (hk : ∀ x, Begins R (k x) (Parser.times n p >>= fun xs => l (x :: xs))) :
    Begins R (p >>= k) (Parser.times (n + 1) p >>= l) := by
  intro c a c' hc ha
  obtain ⟨b, c'', hb, hR⟩ := same hk c a c' hc ha
  refine ⟨b, c'', ?_, hR⟩
  obtain ⟨x, cx, hx, hrest⟩ := Parser.bind_ok hb
  obtain ⟨xs, cxs, hxs, hlast⟩ := Parser.bind_ok hrest
  rw [Parser.bind_raw]
  unfold Parser.rawSeq
  rw [Parser.times, Parser.bind_raw, Parser.rawSeq, hx]
  simp only
  rw [Parser.bind_raw, Parser.rawSeq, hxs]
  exact hlast

theorem times_zero {p : Parser τ ε α} {q : Parser τ ε γ} {l : List γ → Parser τ ε β}
    (hk : Begins R p (l [])) : Begins R p (Parser.times 0 q >>= l) := hk

/-- The first part is over; what is left is known of all that `p` gives. -/
theorem decided {p : Parser τ ε α} {b : β} (h : Gives p fun a => R a b) :
    Begins R p (Pure.pure b) := by
  intro c a c' hc ha
  obtain ⟨_, hR, _⟩ := h c a c' hc ha
  exact ⟨b, c, rfl, hR⟩

end Begins

/-! ## 5. The reasons of a refusal -/

/-- Every reason the parser refuses for has the property. -/
def Refuses {τ ε α : Type} (p : Parser τ ε α) (P : ε → Prop) : Prop :=
  ∀ c e, p.raw c = .error (.refused e) → P e

namespace Refuses

variable {τ ε ε' α β : Type} {P : ε → Prop}

theorem pure {a : α} : Refuses (Pure.pure a : Parser τ ε α) P := fun _ _ h => by cases h

/-- **Sequencing**. -/
theorem seq {p : Parser τ ε α} {k : α → Parser τ ε β} (hp : Refuses p P)
    (hk : ∀ a, Refuses (k a) P) : Refuses (p >>= k) P := by
  intro c e h
  rw [Parser.bind_raw] at h
  unfold Parser.rawSeq at h
  cases hpc : p.raw c with
  | error f =>
      rw [hpc] at h
      cases h
      exact hp c e hpc
  | ok x =>
      rw [hpc] at h
      exact hk x.1 x.2 e h

theorem orFail {p : Parser τ ε' α} {e : ε} (h : P e) : Refuses (p.orFail e) P := by
  intro c f hf
  have hraw : Parser.relabelRaw e p.raw c = .error (.refused f) := hf
  unfold Parser.relabelRaw at hraw
  cases hpc : p.raw c with
  | ok x =>
      rw [hpc] at hraw
      cases hraw
  | error g =>
      rw [hpc] at hraw
      cases g with
      | outside => cases hraw
      | refused _ =>
          cases hraw
          exact h

theorem refuseIf {b : Bool} {e : ε} (h : P e) :
    Refuses (Parser.refuseIf b e : Parser τ ε Unit) P := by
  intro c f hf
  cases b with
  | false => cases hf
  | true =>
      cases hf
      exact h

/-- **Repetition**. -/
theorem times {p : Parser τ ε α} (h : Refuses p P) : ∀ n : Nat, Refuses (Parser.times n p) P
  | 0 => pure
  | n + 1 => seq h fun _ => seq (times h n) fun _ => pure

theorem runAll {p : Parser τ ε α} (h : Refuses p P) {e : ε} (he : P e) {data : List τ} {f : ε}
    (hf : p.runAll e data = .error (.refused f)) : P f := by
  unfold Parser.runAll at hf
  cases hpc : p.raw ⟨data, 0⟩ with
  | error g =>
      rw [hpc] at hf
      cases hf
      exact h _ f hpc
  | ok x =>
      rw [hpc] at hf
      simp only at hf
      split at hf
      · cases hf
      · cases hf
        exact he

end Refuses

end CacheDirectory.Library
