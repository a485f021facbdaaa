import Mathlib.Order.Defs.Unbundled

/-!
# Stateful programs that can fail

Reasoning rules for programs in `EStateM ε σ`. A failing program keeps the
writes it made before it failed, so a statement about "the state afterwards"
speaks about both outcomes: `after x s` is that state, and `Keeps R x` says
that every run of `x`, returning or failing, moves the state inside the
relation `R`. What a successful run did is read off by inversion: the `_eq_ok`
lemmas take a program apart one statement at a time.

The rules are of three kinds:

- inversion (`bind_eq_ok` and its like): from a run that returned, the run of
  each statement;
- frames (`Keeps`): a relation that every statement keeps is kept by the
  program, with one rule for each way of building programs and instances for
  the common relations;
- refusals (`Refuses`, `Guarded`): programs that throw before they write.

Neither errors nor states are specific, so any model written in this monad can
use them; the simp lemmas evaluate a program on a known state.
-/

namespace Program

universe u
variable {ε σ α β γ : Type u}

/-- The state a run ends in, whether the program returned or failed. -/
def after (x : EStateM ε σ α) (s : σ) : σ :=
  match x s with
  | .ok _ s' => s'
  | .error _ s' => s'

/-- What a run answers, without the state it ends in. -/
def answer (x : EStateM ε σ α) (s : σ) : Except ε α :=
  match x s with
  | .ok a _ => .ok a
  | .error e _ => .error e

/-- A computation that neither reads nor writes the state. -/
def lift (x : Except ε α) : EStateM ε σ α := fun s =>
  match x with
  | .ok a => .ok a s
  | .error e => .error e s

/-- Look something up in the state. -/
def read (f : σ → α) : EStateM ε σ α := fun s => .ok (f s) s

/-- Replace the state. -/
def write (f : σ → σ) : EStateM ε σ PUnit := fun s => .ok PUnit.unit (f s)

/-- Fail with `e` when `c` holds. -/
def throwIf (c : Prop) [Decidable c] (e : ε) : EStateM ε σ PUnit :=
  if c then throw e else pure PUnit.unit

/-- The value of an option, or a failure where there is none. -/
def orThrow (x : Option α) (e : ε) : EStateM ε σ α := fun s =>
  match x with
  | some a => .ok a s
  | none => .error e s

/-! ## Inversion of successful runs -/

@[simp] theorem bind_eq_ok {x : EStateM ε σ α} {f : α → EStateM ε σ β} {s s'' : σ} {b : β} :
    (x >>= f) s = .ok b s'' ↔ ∃ a s', x s = .ok a s' ∧ f a s' = .ok b s'' := by
  show EStateM.bind x f s = _ ↔ _
  unfold EStateM.bind
  cases x s with
  | ok a s' =>
      exact ⟨fun h => ⟨a, s', rfl, h⟩, by rintro ⟨_, _, ⟨⟩, h⟩; exact h⟩
  | error e s' => exact ⟨fun h => (nomatch h), by rintro ⟨_, _, ⟨⟩, _⟩⟩

@[simp] theorem map_eq_ok {x : EStateM ε σ α} {f : α → β} {s s' : σ} {b : β} :
    (f <$> x) s = .ok b s' ↔ ∃ a, x s = .ok a s' ∧ f a = b := by
  show EStateM.map f x s = _ ↔ _
  unfold EStateM.map
  cases x s with
  | ok a s₁ =>
      constructor
      · rintro ⟨⟩
        exact ⟨a, rfl, rfl⟩
      · rintro ⟨_, ⟨⟩, rfl⟩
        rfl
  | error e s₁ => simp

@[simp] theorem pure_eq_ok {a b : α} {s s' : σ} :
    (pure a : EStateM ε σ α) s = .ok b s' ↔ a = b ∧ s = s' := by
  show EStateM.Result.ok a s = _ ↔ _
  simp

@[simp] theorem throw_eq_ok {e : ε} {b : α} {s s' : σ} :
    (throw e : EStateM ε σ α) s = .ok b s' ↔ False := by
  show EStateM.Result.error e s = _ ↔ _
  simp

@[simp] theorem read_eq_ok {f : σ → α} {b : α} {s s' : σ} :
    (read f : EStateM ε σ α) s = .ok b s' ↔ f s = b ∧ s = s' := by
  unfold read
  simp

@[simp] theorem write_eq_ok {f : σ → σ} {b : PUnit} {s s' : σ} :
    (write f : EStateM ε σ PUnit) s = .ok b s' ↔ f s = s' := by
  unfold write
  simp

@[simp] theorem lift_eq_ok {x : Except ε α} {b : α} {s s' : σ} :
    lift x s = .ok b s' ↔ x = .ok b ∧ s = s' := by
  unfold lift
  cases x <;> simp

@[simp] theorem throwIf_eq_ok {c : Prop} [Decidable c] {e : ε} {b : PUnit} {s s' : σ} :
    throwIf c e s = .ok b s' ↔ ¬c ∧ s = s' := by
  unfold throwIf
  by_cases h : c <;> simp [h]

@[simp] theorem orThrow_eq_ok {x : Option α} {e : ε} {b : α} {s s' : σ} :
    orThrow x e s = .ok b s' ↔ x = some b ∧ s = s' := by
  unfold orThrow
  cases x <;> simp

/-! ## Inversion of failing runs -/

@[simp] theorem bind_eq_error {x : EStateM ε σ α} {f : α → EStateM ε σ β} {s s'' : σ} {e : ε} :
    (x >>= f) s = .error e s'' ↔
      x s = .error e s'' ∨ ∃ a s', x s = .ok a s' ∧ f a s' = .error e s'' := by
  show EStateM.bind x f s = _ ↔ _
  unfold EStateM.bind
  cases x s with
  | ok a s' => exact ⟨fun h => .inr ⟨a, s', rfl, h⟩, by rintro (⟨⟨⟩⟩ | ⟨_, _, ⟨⟩, h⟩); exact h⟩
  | error e' s' => simp

@[simp] theorem map_eq_error {x : EStateM ε σ α} {f : α → β} {s s' : σ} {e : ε} :
    (f <$> x) s = .error e s' ↔ x s = .error e s' := by
  show EStateM.map f x s = _ ↔ _
  unfold EStateM.map
  cases x s <;> simp

@[simp] theorem pure_eq_error {a : α} {s s' : σ} {e : ε} :
    (pure a : EStateM ε σ α) s = .error e s' ↔ False := by
  show EStateM.Result.ok a s = _ ↔ _
  simp

@[simp] theorem read_eq_error {f : σ → α} {s s' : σ} {e : ε} :
    (read f : EStateM ε σ α) s = .error e s' ↔ False := by
  unfold read
  simp

@[simp] theorem write_eq_error {f : σ → σ} {s s' : σ} {e : ε} :
    (write f : EStateM ε σ PUnit) s = .error e s' ↔ False := by
  unfold write
  simp

@[simp] theorem lift_eq_error {x : Except ε α} {s s' : σ} {e : ε} :
    lift x s = .error e s' ↔ x = .error e ∧ s = s' := by
  unfold lift
  cases x <;> simp

/-- What every step of a successful fold keeps holds at its end. -/
theorem foldlM_invariant {f : β → α → EStateM ε σ β} (I : β → σ → Prop) :
    ∀ (l : List α), (∀ a ∈ l, ∀ b s b' s', I b s → f b a s = .ok b' s' → I b' s') →
      ∀ (b : β) (s : σ) (b' : β) (s' : σ), I b s → l.foldlM f b s = .ok b' s' → I b' s'
  | [], _, b, s, b', s', hI, h => by
      rw [List.foldlM_nil, pure_eq_ok] at h
      obtain ⟨rfl, rfl⟩ := h
      exact hI
  | a :: l, hf, b, s, b', s', hI, h => by
      rw [List.foldlM_cons, bind_eq_ok] at h
      obtain ⟨b₁, s₁, hstep, hrest⟩ := h
      exact foldlM_invariant I l (fun c hc => hf c (List.mem_cons_of_mem _ hc)) b₁ s₁ b' s'
        (hf a List.mem_cons_self b s b₁ s₁ hI hstep) hrest

theorem except_bind_eq_ok {x : Except ε α} {f : α → Except ε β} {b : β} :
    x >>= f = .ok b ↔ ∃ a, x = .ok a ∧ f a = .ok b := by
  cases x with
  | error e => exact ⟨nofun, fun ⟨_, h, _⟩ => nomatch h⟩
  | ok a =>
      constructor
      · intro h
        exact ⟨a, rfl, h⟩
      · rintro ⟨a', ha, h⟩
        obtain rfl := Except.ok.inj ha
        exact h

/-- The same for a loop of pure steps. -/
theorem except_foldlM_invariant {f : β → α → Except ε β} (I : β → Prop) :
    ∀ (l : List α), (∀ a ∈ l, ∀ b b', I b → f b a = .ok b' → I b') →
      ∀ (b b' : β), I b → l.foldlM f b = .ok b' → I b'
  | [], _, b, b', hI, h => by
      obtain rfl := Except.ok.inj h
      exact hI
  | a :: l, hf, b, b', hI, h => by
      rw [List.foldlM_cons, except_bind_eq_ok] at h
      obtain ⟨b₁, hstep, hrest⟩ := h
      exact except_foldlM_invariant I l (fun c hc => hf c (List.mem_cons_of_mem _ hc)) b₁ b'
        (hf a List.mem_cons_self b b₁ hI hstep) hrest

/-- Two loops whose steps agree wherever the invariant holds, which the steps keep, agree. -/
theorem except_foldlM_congr {f g : β → α → Except ε β} (I : β → Prop) :
    ∀ (l : List α), (∀ a ∈ l, ∀ b, I b → f b a = g b a) →
      (∀ a ∈ l, ∀ b b', I b → g b a = .ok b' → I b') → ∀ b, I b → l.foldlM f b = l.foldlM g b
  | [], _, _, b, _ => by rw [List.foldlM_nil, List.foldlM_nil]
  | a :: l, hagree, hkeep, b, hI => by
      rw [List.foldlM_cons, List.foldlM_cons, hagree a List.mem_cons_self b hI]
      cases hstep : g b a with
      | error e => rfl
      | ok b₁ =>
          exact except_foldlM_congr I l (fun c hc => hagree c (List.mem_cons_of_mem _ hc))
            (fun c hc => hkeep c (List.mem_cons_of_mem _ hc)) b₁ (hkeep a List.mem_cons_self b b₁ hI hstep)

/-- The same for steps that cannot fail; the invariant holds at the end. -/
theorem foldl_congr_invariant {f g : β → α → β} (I : β → Prop) :
    ∀ (l : List α), (∀ a ∈ l, ∀ b, I b → f b a = g b a) → (∀ a ∈ l, ∀ b, I b → I (g b a)) →
      ∀ b, I b → l.foldl f b = l.foldl g b ∧ I (l.foldl g b)
  | [], _, _, b, hI => ⟨by rw [List.foldl_nil, List.foldl_nil], hI⟩
  | a :: l, hagree, hkeep, b, hI => by
      rw [List.foldl_cons, List.foldl_cons, hagree a List.mem_cons_self b hI]
      exact foldl_congr_invariant I l (fun c hc => hagree c (List.mem_cons_of_mem _ hc))
        (fun c hc => hkeep c (List.mem_cons_of_mem _ hc)) (g b a) (hkeep a List.mem_cons_self b hI)

/-- Each element of a loop that went through had its step. -/
theorem step_of_except_foldlM {f : β → α → Except ε β} :
    ∀ {l : List α} {b b' : β}, l.foldlM f b = .ok b' → ∀ a ∈ l, ∃ b₁ b₂, f b₁ a = .ok b₂
  | [], _, _, _, a, ha => absurd ha List.not_mem_nil
  | first :: l, b, b', h, a, ha => by
      rw [List.foldlM_cons, except_bind_eq_ok] at h
      obtain ⟨b₁, hstep, hrest⟩ := h
      rcases List.mem_cons.mp ha with rfl | ha
      · exact ⟨b, b₁, hstep⟩
      · exact step_of_except_foldlM hrest a ha

/-- Answering a list in order keeps what every single answer keeps. -/
theorem except_mapM_map {f : α → Except ε β} {g : β → γ} {h : α → γ}
    (hf : ∀ a b, f a = .ok b → g b = h a) :
    ∀ {l : List α} {l' : List β}, l.mapM f = .ok l' → l'.map g = l.map h
  | [], l', hl => by
      rw [List.mapM_nil] at hl
      obtain rfl := Except.ok.inj hl
      rfl
  | a :: l, l', hl => by
      rw [List.mapM_cons, except_bind_eq_ok] at hl
      obtain ⟨b, hb, hl⟩ := hl
      obtain ⟨bs, hbs, hl⟩ := except_bind_eq_ok.mp hl
      obtain rfl := Except.ok.inj hl
      rw [List.map_cons, List.map_cons, hf a b hb, except_mapM_map hf hbs]

theorem except_mem_of_mapM {f : α → Except ε β} :
    ∀ {l : List α} {r : List β}, l.mapM f = .ok r → ∀ y ∈ r, ∃ x ∈ l, f x = .ok y
  | [], r, h, y, hy => by
      rw [List.mapM_nil] at h
      obtain rfl := Except.ok.inj h
      cases hy
  | a :: l, r, h, y, hy => by
      rw [List.mapM_cons, except_bind_eq_ok] at h
      obtain ⟨b, hb, h⟩ := h
      obtain ⟨bs, hbs, h⟩ := except_bind_eq_ok.mp h
      obtain rfl := Except.ok.inj h
      rcases List.mem_cons.mp hy with rfl | hy
      · exact ⟨a, List.mem_cons_self, hb⟩
      · obtain ⟨x, hx, hfx⟩ := except_mem_of_mapM hbs y hy
        exact ⟨x, List.mem_cons_of_mem _ hx, hfx⟩

/-- If every single answer succeeds, so does answering the list. -/
theorem except_mapM_isOk {f : α → Except ε β} :
    ∀ {l : List α}, (∀ a ∈ l, ∃ b, f a = .ok b) → ∃ r, l.mapM f = .ok r
  | [], _ => ⟨[], rfl⟩
  | a :: l, h => by
      obtain ⟨b, hb⟩ := h a List.mem_cons_self
      obtain ⟨bs, hbs⟩ := except_mapM_isOk fun c hc => h c (List.mem_cons_of_mem _ hc)
      refine ⟨b :: bs, ?_⟩
      rw [List.mapM_cons, hb, hbs]
      rfl

/-! ## Running a known first statement -/

theorem bind_of_ok {x : EStateM ε σ α} {f : α → EStateM ε σ β} {s s' : σ} {a : α}
    (h : x s = .ok a s') : (x >>= f) s = f a s' := by
  show EStateM.bind x f s = _
  simp only [EStateM.bind, h]

theorem bind_of_error {x : EStateM ε σ α} {f : α → EStateM ε σ β} {s s' : σ} {e : ε}
    (h : x s = .error e s') : (x >>= f) s = .error e s' := by
  show EStateM.bind x f s = _
  simp only [EStateM.bind, h]

theorem throwIf_bind (c : Prop) [Decidable c] (e : ε) (f : PUnit → EStateM ε σ β) (s : σ) :
    (throwIf c e >>= f) s = if c then .error e s else f PUnit.unit s := by
  by_cases h : c
  · have hthrow : throwIf c e s = .error e s := by
      unfold throwIf
      rw [if_pos h]
      rfl
    rw [if_pos h, bind_of_error hthrow]
  · rw [if_neg h, bind_of_ok (throwIf_eq_ok.mpr ⟨h, rfl⟩)]

theorem lift_bind {x : Except ε α} {a : α} (h : x = .ok a) (f : α → EStateM ε σ β) (s : σ) :
    (lift x >>= f) s = f a s := by
  rw [h]
  exact bind_of_ok rfl

theorem read_bind (g : σ → α) (f : α → EStateM ε σ β) (s : σ) :
    ((read g : EStateM ε σ α) >>= f) s = f (g s) s :=
  bind_of_ok rfl

theorem after_of_ok {x : EStateM ε σ α} {s s' : σ} {a : α} (h : x s = .ok a s') :
    after x s = s' := by
  simp only [after, h]

theorem after_of_error {x : EStateM ε σ α} {s s' : σ} {e : ε} (h : x s = .error e s') :
    after x s = s' := by
  simp only [after, h]

theorem after_bind_of_ok {x : EStateM ε σ α} {f : α → EStateM ε σ β} {s s' : σ} {a : α}
    (h : x s = .ok a s') : after (x >>= f) s = after (f a) s' := by
  simp only [after, bind_of_ok h]

theorem answer_bind_of_ok {x : EStateM ε σ α} {f : α → EStateM ε σ β} {s s' : σ} {a : α}
    (h : x s = .ok a s') : answer (x >>= f) s = answer (f a) s' := by
  simp only [answer, bind_of_ok h]

/-- A sequence that starts with a pure step answers what the step lets it. -/
theorem answer_bind_of_lift {x : EStateM ε σ α} {y : Except ε α} {f : α → EStateM ε σ β} {s : σ}
    (h : x s = lift y s) : answer (x >>= f) s = y >>= fun a => answer (f a) s := by
  cases y with
  | error e =>
      have herror : (x >>= f) s = .error e s := bind_of_error h
      unfold answer
      rw [herror]
      rfl
  | ok a => exact answer_bind_of_ok h

/-- Where a sequence ends: in the second program when the first returns, else where the first
failed. -/
theorem after_bind (x : EStateM ε σ α) (f : α → EStateM ε σ β) (s : σ) :
    (∃ a s', x s = .ok a s' ∧ after (x >>= f) s = after (f a) s') ∨
      (∃ e s', x s = .error e s' ∧ after (x >>= f) s = s') := by
  cases h : x s with
  | ok a s' => exact .inl ⟨a, s', rfl, after_bind_of_ok h⟩
  | error e s' => exact .inr ⟨e, s', rfl, after_of_error (bind_of_error h)⟩

/-! ## Where a guarded program ends -/

/-- Sequences that go on alike end alike. -/
theorem after_bind_congr {x : EStateM ε σ α} {f : α → EStateM ε σ β} {g : α → EStateM ε σ γ}
    (h : ∀ a s, after (f a) s = after (g a) s) (s : σ) : after (x >>= f) s = after (x >>= g) s := by
  cases hx : x s with
  | ok a s' => rw [after_bind_of_ok hx, after_bind_of_ok hx, h]
  | error e s' => rw [after_of_error (bind_of_error hx), after_of_error (bind_of_error hx)]

theorem after_throwIf_bind (c : Prop) [Decidable c] (e : ε) (f : PUnit → EStateM ε σ β) (s : σ) :
    after (throwIf c e >>= f) s = if c then s else after (f PUnit.unit) s := by
  unfold after
  rw [throwIf_bind]
  by_cases h : c
  · rw [if_pos h, if_pos h]
  · rw [if_neg h, if_neg h]

theorem after_read_bind (g : σ → α) (f : α → EStateM ε σ β) (s : σ) :
    after (read g >>= f) s = after (f (g s)) s :=
  after_bind_of_ok (read_eq_ok.mpr ⟨rfl, rfl⟩)

/-- A program that guards its rest with a pure check ends at once or in the rest. -/
theorem after_lift_bind (x : Except ε α) (f : α → EStateM ε σ β) (s : σ) :
    after (lift x >>= f) s = s ∨ ∃ a, x = .ok a ∧ after (lift x >>= f) s = after (f a) s := by
  cases x with
  | error e => exact .inl (after_of_error (bind_of_error rfl))
  | ok a => exact .inr ⟨a, rfl, after_bind_of_ok rfl⟩

@[simp] theorem after_map (f : α → β) (x : EStateM ε σ α) (s : σ) :
    after (f <$> x) s = after x s := by
  show after (EStateM.map f x) s = after x s
  unfold after EStateM.map
  cases x s <;> rfl

@[simp] theorem after_pure (a : α) (s : σ) : after (pure a : EStateM ε σ α) s = s := rfl

@[simp] theorem after_throw (e : ε) (s : σ) : after (throw e : EStateM ε σ α) s = s := rfl

@[simp] theorem after_read (f : σ → α) (s : σ) : after (read f : EStateM ε σ α) s = s := rfl

@[simp] theorem after_write (f : σ → σ) (s : σ) :
    after (write f : EStateM ε σ PUnit) s = f s := rfl

@[simp] theorem after_lift (x : Except ε α) (s : σ) : after (lift x) s = s := by
  cases x <;> rfl

@[simp] theorem after_orThrow (x : Option α) (e : ε) (s : σ) :
    after (orThrow x e) s = s := by
  cases x <;> rfl

@[simp] theorem after_throwIf (c : Prop) [Decidable c] (e : ε) (s : σ) :
    after (throwIf c e) s = s := by
  unfold throwIf
  by_cases h : c <;> simp [h]

/-! ## Frames -/

/-- Every run of `x`, returning or failing, moves the state inside `R`. As a class, it is found for
a program from what its statements keep. -/
class Keeps (R : σ → σ → Prop) (x : EStateM ε σ α) : Prop where
  keeps : ∀ s, R s (after x s)

section Frames

variable {R : σ → σ → Prop}

theorem Keeps.of_ok {x : EStateM ε σ α} [h : Keeps R x] {s s' : σ} {a : α}
    (hx : x s = .ok a s') : R s s' := by
  have := h.keeps s
  rwa [after_of_ok hx] at this

theorem Keeps.of_error {x : EStateM ε σ α} [h : Keeps R x] {s s' : σ} {e : ε}
    (hx : x s = .error e s') : R s s' := by
  have := h.keeps s
  rwa [after_of_error hx] at this

theorem Keeps.mono {S : σ → σ → Prop} {x : EStateM ε σ α} (h : Keeps R x)
    (hsub : ∀ s s', R s s' → S s s') : Keeps S x :=
  ⟨fun s => hsub _ _ (h.keeps s)⟩

/-- A program that ends where it started keeps every reflexive relation. -/
theorem Keeps.of_after_eq [Std.Refl R] {x : EStateM ε σ α} (h : ∀ s, after x s = s) :
    Keeps R x := ⟨fun s => by
  rw [h s]
  exact Std.Refl.refl s⟩

/-- A program that only reads ends where it started. -/
theorem readOnly_of_ok {x : EStateM ε σ α} [h : Keeps (· = ·) x] {s s' : σ} {a : α}
    (hx : x s = .ok a s') : s' = s :=
  (Keeps.of_ok hx : s = s').symm

/-- What holds at the start, and at the end of the rest wherever a reading statement lets it run, holds
at the end. -/
theorem after_bind_of_readOnly {P : σ → Prop} {x : EStateM ε σ α} [h : Keeps (· = ·) x]
    {f : α → EStateM ε σ β} {s : σ} (hs : P s) (hf : ∀ a, x s = .ok a s → P (after (f a) s)) :
    P (after (x >>= f) s) := by
  rcases after_bind x f s with ⟨a, s', hok, hend⟩ | ⟨e, s', herr, hend⟩
  · obtain rfl := readOnly_of_ok hok
    rw [hend]
    exact hf a hok
  · have hsame : s = s' := Keeps.of_error herr
    rwa [hend, ← hsame]

instance Keeps.pure [Std.Refl R] (a : α) : Keeps R (pure a : EStateM ε σ α) :=
  .of_after_eq fun _ => rfl

instance Keeps.throw [Std.Refl R] (e : ε) : Keeps R (throw e : EStateM ε σ α) :=
  .of_after_eq fun _ => rfl

instance Keeps.read [Std.Refl R] (f : σ → α) : Keeps R (read f : EStateM ε σ α) :=
  .of_after_eq fun _ => rfl

theorem Keeps.write {f : σ → σ} (hf : ∀ s, R s (f s)) :
    Keeps R (write f : EStateM ε σ PUnit) := ⟨hf⟩

instance Keeps.lift [Std.Refl R] (x : Except ε α) : Keeps R (lift x) :=
  .of_after_eq (after_lift x)

instance Keeps.orThrow [Std.Refl R] (x : Option α) (e : ε) : Keeps R (orThrow x e) :=
  .of_after_eq (after_orThrow x e)

instance Keeps.throwIf [Std.Refl R] (c : Prop) [Decidable c] (e : ε) :
    Keeps R (throwIf c e : EStateM ε σ PUnit) :=
  .of_after_eq (after_throwIf c e)

/-- A sequence keeps what its first program keeps and its second keeps after any answer the first
can give. -/
theorem Keeps.bind_of [IsTrans σ R] {x : EStateM ε σ α} {f : α → EStateM ε σ β}
    (hx : Keeps R x) (hf : ∀ a s s', x s = .ok a s' → Keeps R (f a)) : Keeps R (x >>= f) where
  keeps s := by
    rcases after_bind x f s with ⟨a, s', hok, heq⟩ | ⟨e, s', herr, heq⟩
    · rw [heq]
      exact IsTrans.trans _ _ _ (hx.of_ok hok) ((hf a s s' hok).keeps s')
    · rw [heq]
      exact hx.of_error herr

instance Keeps.bind [IsTrans σ R] {x : EStateM ε σ α} {f : α → EStateM ε σ β}
    [hx : Keeps R x] [hf : ∀ a, Keeps R (f a)] : Keeps R (x >>= f) :=
  hx.bind_of fun a _ _ _ => hf a

instance Keeps.map {x : EStateM ε σ α} {f : α → β} [hx : Keeps R x] : Keeps R (f <$> x) where
  keeps s := by
    rw [after_map]
    exact hx.keeps s

instance Keeps.ite {c : Prop} [Decidable c] {x y : EStateM ε σ α} [hx : Keeps R x]
    [hy : Keeps R y] : Keeps R (if c then x else y) := by
  by_cases h : c
  · rwa [if_pos h]
  · rwa [if_neg h]

/-- A fold keeps what its step keeps for each element. -/
theorem Keeps.foldlM_of [Std.Refl R] [IsTrans σ R] {f : β → α → EStateM ε σ β} {l : List α}
    (hf : ∀ a ∈ l, ∀ b, Keeps R (f b a)) (b : β) : Keeps R (l.foldlM f b) := by
  induction l generalizing b with
  | nil =>
      rw [List.foldlM_nil]
      infer_instance
  | cons a l ih =>
      have hstep := hf a List.mem_cons_self b
      have hrest := ih fun a ha => hf a (List.mem_cons_of_mem _ ha)
      rw [List.foldlM_cons]
      infer_instance

instance Keeps.foldlM [Std.Refl R] [IsTrans σ R] {f : β → α → EStateM ε σ β}
    [hf : ∀ b a, Keeps R (f b a)] (l : List α) (b : β) : Keeps R (l.foldlM f b) :=
  .foldlM_of (fun a _ b => hf b a) b

end Frames

/-! ## Programs that cannot fail -/

/-- Every run of `x` returns. -/
class Total (x : EStateM ε σ α) : Prop where
  total : ∀ s, ∃ a s', x s = .ok a s'

instance Total.pure (a : α) : Total (pure a : EStateM ε σ α) := ⟨fun s => ⟨a, s, rfl⟩⟩

instance Total.read (f : σ → α) : Total (read f : EStateM ε σ α) := ⟨fun s => ⟨f s, s, rfl⟩⟩

instance Total.write (f : σ → σ) : Total (write f : EStateM ε σ PUnit) :=
  ⟨fun s => ⟨PUnit.unit, f s, rfl⟩⟩

instance Total.bind {x : EStateM ε σ α} {f : α → EStateM ε σ β} [hx : Total x]
    [hf : ∀ a, Total (f a)] : Total (x >>= f) where
  total s := by
    obtain ⟨a, s', hok⟩ := hx.total s
    obtain ⟨b, s'', hlast⟩ := (hf a).total s'
    exact ⟨b, s'', (bind_of_ok hok).trans hlast⟩

instance Total.ite {c : Prop} [Decidable c] {x y : EStateM ε σ α} [hx : Total x] [hy : Total y] :
    Total (if c then x else y) := by
  by_cases h : c
  · rwa [if_pos h]
  · rwa [if_neg h]

/-! ## One run that returns, one that is refused -/

/-- The run of `x` from `s` returns. -/
def Returns (x : EStateM ε σ α) (s : σ) : Prop := ∃ a s', x s = .ok a s'

/-- The run of `x` from `s` fails and leaves the state as it was. -/
def Refuses (x : EStateM ε σ α) (s : σ) : Prop := ∃ e, x s = .error e s

theorem throwIf_of_not {c : Prop} [Decidable c] (h : ¬c) (e : ε) (s : σ) :
    throwIf c e s = .ok ⟨⟩ s :=
  throwIf_eq_ok.mpr ⟨h, rfl⟩

theorem Returns.of_total (x : EStateM ε σ α) [h : Total x] (s : σ) : Returns x s := h.total s

theorem Returns.bind {x : EStateM ε σ α} {f : α → EStateM ε σ β} {s s' : σ} {a : α}
    (hx : x s = .ok a s') (hf : Returns (f a) s') : Returns (x >>= f) s := by
  obtain ⟨b, s'', hok⟩ := hf
  exact ⟨b, s'', (bind_of_ok hx).trans hok⟩

theorem Refuses.bind {x : EStateM ε σ α} {f : α → EStateM ε σ β} {s : σ} (hx : Refuses x s) :
    Refuses (x >>= f) s := by
  obtain ⟨e, herror⟩ := hx
  exact ⟨e, bind_of_error herror⟩

/-- A sequence is refused where its second program is, if the first changes nothing. -/
theorem Refuses.after_ok {x : EStateM ε σ α} {f : α → EStateM ε σ β} {s : σ} {a : α}
    (hx : x s = .ok a s) (hf : Refuses (f a) s) : Refuses (x >>= f) s := by
  obtain ⟨e, herror⟩ := hf
  exact ⟨e, (bind_of_ok hx).trans herror⟩

theorem Refuses.map {x : EStateM ε σ α} {s : σ} (hx : Refuses x s) (f : α → β) :
    Refuses (f <$> x) s := by
  obtain ⟨e, herror⟩ := hx
  exact ⟨e, map_eq_error.mpr herror⟩

theorem Refuses.throwIf {c : Prop} [Decidable c] (h : c) (e : ε) (s : σ) :
    Refuses (throwIf c e) s := by
  refine ⟨e, ?_⟩
  unfold Program.throwIf
  rw [if_pos h]
  rfl

theorem Refuses.not_returns {x : EStateM ε σ α} {s : σ} (h : Refuses x s) : ¬Returns x s := by
  rintro ⟨a, s', hok⟩
  obtain ⟨e, herror⟩ := h
  rw [hok] at herror
  cases herror

end Program
