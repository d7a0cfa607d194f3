import BlueROV2.Base.Transition

/-!
# Programs that are answered

Library `Base`. A program reads from its surroundings, which is done at once; it asks them, and
waits for an answer that may never come; and it does things that they see. An exception may be
raised. What a program does is run by a machine; the rules tell where the machine is when the
program stops, and why it stopped.
-/

namespace BlueROV2.Base

/-- Why a program stopped before its end: it waits for an answer; an exception was raised; or a
loop went on for ever without asking. -/
inductive Stop where
  | waiting
  | raised
  | endless
  deriving DecidableEq, Repr

/-- All that a program will read, in order, and the answers to come. -/
structure Surroundings (ρ τ : Type) where
  readings : Nat → ρ
  answers : List τ

/-- How a program ended or stopped, what is left to read and to be answered, and what it did, in
order. -/
structure Outcome (ρ τ ω β : Type) where
  result : Except Stop β
  left : Surroundings ρ τ
  did : List ω

/-- A program, by its surroundings. -/
def Program (ρ τ ω β : Type) : Type := Surroundings ρ τ → Outcome ρ τ ω β

namespace Program

variable {ρ τ ω β γ : Type}

/-- One program after another. -/
def andThen (m : Program ρ τ ω β) (f : β → Program ρ τ ω γ) : Program ρ τ ω γ := fun w ↦
  match (m w).result with
  | .ok b => { f b (m w).left with did := (m w).did ++ (f b (m w).left).did }
  | .error e => ⟨.error e, (m w).left, (m w).did⟩

instance : Monad (Program ρ τ ω) where
  pure b := fun w ↦ ⟨.ok b, w, []⟩
  bind := andThen

/-- The next reading. -/
def read : Program ρ τ ω ρ := fun w ↦
  ⟨.ok (w.readings 0), { w with readings := fun n ↦ w.readings (n + 1) }, []⟩

/-- The next answer. -/
def ask : Program ρ τ ω τ := fun w ↦
  match w.answers with
  | [] => ⟨.error .waiting, w, []⟩
  | t :: ts => ⟨.ok t, { w with answers := ts }, []⟩

def tell (x : ω) : Program ρ τ ω Unit := fun w ↦ ⟨.ok (), w, [x]⟩

def raise : Program ρ τ ω β := fun w ↦ ⟨.error .raised, w, []⟩

/-- `try` and `finally`: the second program is run when the first one ends or raises, and what it
raises itself takes precedence. -/
def always (m : Program ρ τ ω β) (f : Program ρ τ ω Unit) : Program ρ τ ω β := fun w ↦
  match (m w).result with
  | .ok b => andThen m (fun _ ↦ andThen f fun _ ↦ pure b) w
  | .error .raised =>
    let o := andThen f (fun _ ↦ raise) (m w).left
    { o with did := (m w).did ++ o.did }
  | .error e => ⟨.error e, (m w).left, (m w).did⟩

/-- Some rounds of a loop, which ends when its body brings something. -/
def rounds (body : Program ρ τ ω (Option β)) : Nat → Program ρ τ ω β
  | 0 => fun w ↦ ⟨.error .endless, w, []⟩
  | n + 1 => andThen body fun
    | some b => pure b
    | none => rounds body n

/-- A loop. One round more than there are answers is enough if it asks in every round after which
it goes on. -/
def loop (body : Program ρ τ ω (Option β)) : Program ρ τ ω β := fun w ↦
  rounds body (w.answers.length + 1) w

/-! ### How many answers a program uses -/

/-- When it ends, a program has used so many answers. -/
def Uses (n : Nat) (m : Program ρ τ ω β) : Prop :=
  ∀ w b, (m w).result = .ok b → (m w).left.answers.length + n ≤ w.answers.length

/-- A round after which the loop goes on has used an answer. -/
def Asks (body : Program ρ τ ω (Option β)) : Prop :=
  ∀ w, (body w).result = .ok none → (body w).left.answers.length < w.answers.length

variable {m : Program ρ τ ω β} {f : β → Program ρ τ ω γ} {g : β → Program ρ τ ω (Option γ)}
  {body : Program ρ τ ω (Option β)} {n k : Nat}

theorem uses_pure (b : β) : Uses 0 (pure b : Program ρ τ ω β) := fun _ _ _ ↦ Nat.le_refl _

theorem uses_read : Uses 0 (read : Program ρ τ ω ρ) := fun _ _ _ ↦ Nat.le_refl _

theorem uses_ask : Uses 1 (ask : Program ρ τ ω τ) := by
  intro w t h
  unfold ask at h ⊢
  split at h
  · cases h
  · next hanswers =>
    rw [hanswers]
    exact Nat.le_refl _

theorem uses_tell (x : ω) : Uses 0 (tell x : Program ρ τ ω Unit) := fun _ _ _ ↦ Nat.le_refl _

theorem uses_raise : Uses n (raise : Program ρ τ ω β) := by
  intro w b h
  cases h

theorem Uses.weaken (h : Uses n m) (hk : k ≤ n) : Uses k m := fun w b hb ↦
  Nat.le_trans (Nat.add_le_add_left hk _) (h w b hb)

/-- When two programs have ended, the second one has begun where the first one ended. -/
theorem andThen_ok {w : Surroundings ρ τ} {c : γ} (h : ((m >>= f) w).result = .ok c) :
    ∃ b, (m w).result = .ok b ∧ (f b (m w).left).result = .ok c ∧
      ((m >>= f) w).left = (f b (m w).left).left := by
  change (andThen m f w).result = _ at h
  change ∃ b, _ ∧ _ ∧ (andThen m f w).left = _
  unfold andThen at h ⊢
  cases hr : (m w).result with
  | error e =>
    rw [hr] at h
    cases h
  | ok b =>
    rw [hr] at h
    exact ⟨b, rfl, h, rfl⟩

theorem Uses.bind (hm : Uses n m) (hf : ∀ b, Uses k (f b)) : Uses (n + k) (m >>= f) := by
  intro w c h
  rcases andThen_ok h with ⟨b, hb, hc, hleft⟩
  have hfirst := hm w b hb
  have hrest := hf b (m w).left c hc
  rw [hleft]
  omega

/-- What the first program uses is used. -/
theorem Uses.first (hm : Uses n m) (hf : ∀ b, Uses 0 (f b)) : Uses n (m >>= f) := hm.bind hf

/-- What the second program uses is used. -/
theorem Uses.rest (hm : Uses n m) (hf : ∀ b, Uses k (f b)) : Uses k (m >>= f) :=
  (hm.bind hf).weaken (Nat.le_add_left k n)

theorem Uses.rounds (h : Uses 0 body) (n : Nat) : Uses 0 (rounds body n) := by
  induction n with
  | zero =>
    intro w b h
    cases h
  | succ n ih =>
    have hround : ∀ r, Uses 0 (match r with
        | some b => pure b
        | none => Program.rounds body n) := by
      intro r
      cases r with
      | none => exact ih
      | some b => exact uses_pure b
    exact h.bind hround

theorem Uses.loop (h : Uses 0 body) : Uses 0 (loop body) := fun w ↦
  h.rounds (w.answers.length + 1) w

theorem Uses.asks (h : Uses 1 body) : Asks body := fun w hw ↦ h w none hw

theorem asks_some (b : β) : Asks (pure (some b) : Program ρ τ ω (Option β)) := by
  intro w h
  cases h

/-- A round asks if it does so behind its first part. -/
theorem Uses.asks_bind (hm : Uses 0 m) (hg : ∀ b, Asks (g b)) : Asks (m >>= g) := by
  intro w h
  rcases andThen_ok h with ⟨b, hb, hnone, hleft⟩
  have hfirst := hm w b hb
  have hrest := hg b (m w).left hnone
  rw [hleft]
  omega

/-! ### Where a machine is led -/

section Machine

variable {S : Type} {after : ω → S → Option S} {s : S}

/-- What a program does is admitted by a machine in some state, and leads it on. -/
def Leads (after : ω → S → Option S) (s : S) (m : Program ρ τ ω β) (Q : Except Stop β → S → Prop) :
    Prop :=
  ∀ w, ∃ s', Transition.run after (m w).did s = some s' ∧ Q (m w).result s'

variable {Q R : Except Stop β → S → Prop}

theorem Leads.mono (h : Leads after s m Q) (hQ : ∀ r s', Q r s' → R r s') : Leads after s m R :=
  fun w ↦
    let ⟨s', hs', hq⟩ := h w
    ⟨s', hs', hQ _ _ hq⟩

theorem leads_pure {b : β} (h : Q (.ok b) s) : Leads after s (pure b : Program ρ τ ω β) Q :=
  fun _ ↦ ⟨s, rfl, h⟩

theorem leads_raise (h : Q (.error .raised) s) : Leads after s (raise : Program ρ τ ω β) Q :=
  fun _ ↦ ⟨s, rfl, h⟩

theorem leads_read {Q : Except Stop ρ → S → Prop} (h : ∀ r, Q (.ok r) s) :
    Leads after s (read : Program ρ τ ω ρ) Q := fun w ↦ ⟨s, rfl, h (w.readings 0)⟩

theorem leads_ask {Q : Except Stop τ → S → Prop} (h : ∀ t, Q (.ok t) s)
    (hwait : Q (.error .waiting) s) : Leads after s (ask : Program ρ τ ω τ) Q := by
  intro w
  unfold ask
  split
  · exact ⟨s, rfl, hwait⟩
  · exact ⟨s, rfl, h _⟩

theorem leads_tell {Q : Except Stop Unit → S → Prop} {x : ω} {s' : S} (hx : after x s = some s')
    (h : Q (.ok ()) s') : Leads after s (tell x : Program ρ τ ω Unit) Q := by
  refine fun _ ↦ ⟨s', ?_, h⟩
  change (after x s).bind some = some s'
  rw [hx]
  rfl

/-- What has to hold behind a part of a program. -/
def Then (after : ω → S → Option S) (f : β → Program ρ τ ω γ) (Q : Except Stop γ → S → Prop) :
    Except Stop β → S → Prop
  | .ok b, s => Leads after s (f b) Q
  | .error e, s => Q (.error e) s

theorem Leads.bind {Q : Except Stop γ → S → Prop} (h : Leads after s m (Then after f Q)) :
    Leads after s (m >>= f) Q := by
  intro w
  rcases h w with ⟨s₁, hs₁, hthen⟩
  change ∃ s', Transition.run after (andThen m f w).did s = some s' ∧ Q (andThen m f w).result s'
  unfold andThen
  cases hr : (m w).result with
  | error e =>
    rw [hr] at hthen
    exact ⟨s₁, hs₁, hthen⟩
  | ok b =>
    rw [hr] at hthen
    rcases hthen (m w).left with ⟨s', hs', hq⟩
    refine ⟨s', ?_, hq⟩
    simp only [Transition.run_append, hs₁, Option.bind_some, hs']

/-- What has to hold before the second program of a `try`. -/
def Finally (after : ω → S → Option S) (f : Program ρ τ ω Unit) (Q : Except Stop β → S → Prop) :
    Except Stop β → S → Prop
  | .ok b, s => Leads after s f (Then after (fun _ ↦ (pure b : Program ρ τ ω β)) Q)
  | .error .raised, s => Leads after s f (Then after (fun _ ↦ (raise : Program ρ τ ω β)) Q)
  | .error e, s => Q (.error e) s

theorem Leads.always {f : Program ρ τ ω Unit} (h : Leads after s m (Finally after f Q)) :
    Leads after s (m.always f) Q := by
  intro w
  rcases h w with ⟨s₁, hs₁, hfinally⟩
  unfold Program.always
  cases hr : (m w).result with
  | ok b =>
    rw [hr] at hfinally
    rcases Leads.bind hfinally (m w).left with ⟨s', hs', hq⟩
    refine ⟨s', ?_, ?_⟩
    · simp only [andThen, hr, Transition.run_append, hs₁, Option.bind_some]
      exact hs'
    · simp only [andThen, hr]
      exact hq
  | error e =>
    rw [hr] at hfinally
    cases e with
    | raised =>
      rcases Leads.bind hfinally (m w).left with ⟨s', hs', hq⟩
      refine ⟨s', ?_, hq⟩
      simp only [Transition.run_append, hs₁, Option.bind_some]
      exact hs'
    | waiting => exact ⟨s₁, hs₁, hfinally⟩
    | endless => exact ⟨s₁, hs₁, hfinally⟩

/-- What has to hold behind a round of a loop. -/
def Again (I : S → Prop) (Q : Except Stop β → S → Prop) : Except Stop (Option β) → S → Prop
  | .ok (some b), s => Q (.ok b) s
  | .ok none, s => I s
  | .error e, s => Q (.error e) s

/-- A loop that asks in its rounds, which keep an invariant, ends, or stops in a round. -/
theorem Leads.loop {I : S → Prop} (hasks : Asks body) (hI : I s)
    (h : ∀ s, I s → Leads after s body (Again I Q)) : Leads after s (loop body) Q := by
  intro w
  suffices hall : ∀ n (w : Surroundings ρ τ) (s : S), w.answers.length < n → I s → ∃ s',
      Transition.run after (rounds body n w).did s = some s' ∧ Q (rounds body n w).result s' from
    hall (w.answers.length + 1) w s (Nat.lt_succ_self _) hI
  intro n
  induction n with
  | zero => exact fun w s hn _ ↦ absurd hn (Nat.not_lt_zero _)
  | succ n ih =>
    intro w s hn hI
    rcases h s hI w with ⟨s₁, hs₁, hagain⟩
    rw [Program.rounds]
    unfold andThen
    cases hr : (body w).result with
    | error e =>
      rw [hr] at hagain
      exact ⟨s₁, hs₁, hagain⟩
    | ok r =>
      rw [hr] at hagain
      cases r with
      | some b =>
        refine ⟨s₁, ?_, hagain⟩
        change Transition.run after ((body w).did ++ []) s = _
        rw [List.append_nil, hs₁]
      | none =>
        have hless := hasks w hr
        rcases ih (body w).left s₁ (by omega) hagain with ⟨s', hs', hq⟩
        refine ⟨s', ?_, hq⟩
        simp only [Transition.run_append, hs₁, Option.bind_some, hs']

end Machine

end Program

end BlueROV2.Base
