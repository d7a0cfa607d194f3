import BlueROV2.Driver.Lifecycle

/-!
# Which teardowns are safe

Library `Driver`. A list of actions is safe whatever the read thread does meanwhile when the
thread is joined before anything it may use goes away; `on_configure` and `on_cleanup` are.
The destructor is not: `client_` is declared first, so it goes last.
-/

namespace BlueROV2.Driver.Lifecycle

open BlueROV2.Base

/-- A read thread is running. -/
def reading (s : State) : Bool := s.client.any (!·.finished)

/-- Actions are safe, if a thread is running or not, for what is held and whether nothing is
destroyed yet: publishers and lifetimes end after the thread, and it starts after they began. -/
def ScriptSafe : Bool → List Member → Bool → List Action → Prop
  | _, _, _, [] => True
  | reading, held, intact, .set m :: rest => ScriptSafe reading (m :: held) intact rest
  | reading, held, intact, .reset m :: rest =>
    (reading = true → m ≠ .imuPub ∧ m ≠ .calibPub) ∧
      ScriptSafe reading (held.filter (· ≠ m)) intact rest
  | _, held, intact, .openClient :: rest =>
    intact = true ∧ .imuPub ∈ held ∧ .calibPub ∈ held ∧ ScriptSafe true held intact rest
  | _, held, intact, .joinClient :: rest => ScriptSafe false held intact rest
  | reading, held, _, .destroy m :: rest =>
    reading = false ∧ ScriptSafe reading (held.filter (· ≠ m)) false rest
  | reading, held, intact, _ :: rest => ScriptSafe reading held intact rest

/-- Whether there is a client after a list of actions. -/
def clientAfter : Bool → List Action → Bool
  | client, [] => client
  | _, .openClient :: rest => clientAfter true rest
  | _, .joinClient :: rest => clientAfter false rest
  | client, _ :: rest => clientAfter client rest

/-- Once there is a client, the callback for responses is registered with it. -/
def Registers : List Action → Prop
  | [] => True
  | .openClient :: rest => .register .commandResponse ∈ rest ∧ Registers rest
  | _ :: rest => Registers rest

/-- A thread that has ended makes nothing less safe. -/
theorem ScriptSafe.mono {reading intact : Bool} {held : List Member} {script : List Action}
    (h : ScriptSafe reading held intact script) : ScriptSafe false held intact script := by
  induction script generalizing held intact with
  | nil => exact trivial
  | cons a rest ih =>
    cases a with
    | set | activate | register | stopClient => exact ih h
    | reset => exact ⟨nofun, ih h.2⟩
    | openClient => exact h
    | joinClient => exact h
    | destroy => exact ⟨rfl, ih h.2⟩

/-- Configuring is safe when there is no client yet. -/
theorem scriptSafe_onConfigure (outcome : Configured) (held : List Member) :
    ScriptSafe false held true (onConfigure outcome) := by
  cases outcome <;> simp [onConfigure, ScriptSafe]

/-- Cleaning up is safe. -/
theorem scriptSafe_onCleanup (reading intact : Bool) (held : List Member) :
    ScriptSafe reading held intact onCleanup := by
  simp [onCleanup, ScriptSafe]

/-- Destroying the driver is safe when no thread is running. -/
theorem scriptSafe_destructor (held : List Member) (intact : Bool) :
    ScriptSafe false held intact destructor := by
  simp [destructor, declared, destroyMember, ScriptSafe]

/-- The invariant of runs that destroy the driver only when no read thread is running. -/
structure Inv (s : State) : Prop where
  script : ScriptSafe (reading s) s.held s.destroyed.isEmpty s.script
  reading : reading s = true → .imuPub ∈ s.held ∧ .calibPub ∈ s.held ∧ s.destroyed = []
  finished : ∀ t ∈ s.client, t.finished = true → t.callback = none

/-- Under the invariant callbacks use only what can be used. -/
theorem Inv.safe {s : State} (hi : Inv s) : Safe s := by
  intro t ht used hused m hm
  have hnot : t.finished = false := by
    cases hf : t.finished with
    | false => rfl
    | true =>
      rw [hi.finished t ht hf] at hused
      cases hused
  have hread : Lifecycle.reading s = true := by
    rw [Lifecycle.reading, Option.mem_def.mp ht, Option.any_some, hnot]
    rfl
  rcases hi.reading hread with ⟨himu, hcalib, hintact⟩
  refine ⟨?_, ?_⟩
  · rw [hintact]
    exact List.not_mem_nil
  · rintro (rfl | rfl)
    · exact himu
    · exact hcalib

/-- What holds of every run: an unconfigured driver has no client, nothing is destroyed before
the destructor, and a client has the callback for responses. -/
structure Structure (s : State) : Prop where
  unconfigured : s.phase = .unconfigured → clientAfter s.client.isSome s.script = false
  intact : s.phase ≠ .destroyed → s.destroyed = [] ∧ ∀ m, .destroy m ∉ s.script
  registers : Registers s.script
  registered : ∀ t ∈ s.client,
    .commandResponse ∈ t.registered ∨ .register .commandResponse ∈ s.script

variable {s s' : State}

private theorem begin_eq_some {allowed : Bool} {phase : Phase} {script : List Action} :
    begin s allowed phase script = some s' ↔
      s.script = [] ∧ allowed = true ∧ { s with phase, script } = s' := by
  simp [begin, and_assoc]

private theorem onThread_eq_some {f : ReadThread → Option ReadThread} :
    onThread s f = some s' ↔ ∃ t u, s.client = some t ∧ t.finished = false ∧ f t = some u ∧
      { s with client := some u } = s' := by
  unfold onThread
  cases s.client with
  | none => simp
  | some t => cases ht : t.finished <;> simp [ht]

/-- What each step needs and what it leads to. Of what the read thread does, it matters that it
keeps its callbacks registered and ends only between two of them. -/
inductive Takes (s : State) : Label → State → Prop
  | configure (outcome : Configured) (hscript : s.script = []) (hphase : s.phase = .unconfigured) :
      Takes s (.configure outcome) { s with
        phase := if outcome = .opened then .inactive else .unconfigured
        script := onConfigure outcome }
  | activate (hscript : s.script = []) (hphase : s.phase = .inactive) :
      Takes s .activate { s with phase := .active, script := onActivate true }
  | deactivate (hscript : s.script = []) (hphase : s.phase = .active) :
      Takes s .deactivate { s with phase := .inactive, script := onActivate false }
  | cleanup (hscript : s.script = []) (hphase : s.phase = .inactive) :
      Takes s .cleanup { s with phase := .unconfigured, script := onCleanup }
  | destroy (hscript : s.script = []) (hphase : s.phase ≠ .destroyed) :
      Takes s .destroy { s with phase := .destroyed, script := destructor }
  | act {a : Action} {rest : List Action} {s₁ : State} (hscript : s.script = a :: rest)
      (h : perform a s = some s₁) : Takes s .act { s₁ with script := rest }
  | thread {l : Label} {t u : ReadThread} (hclient : s.client = some t) (hrun : t.finished = false)
      (hreg : u.registered = t.registered) (hend : u.finished = true → u.callback = none) :
      Takes s l { s with client := some u }

/-- Every step is one of these. -/
theorem takes_of_step {l : Label} (h : step l s = some s') : Takes s l s' := by
  cases l with
  | configure outcome =>
    rcases begin_eq_some.mp h with ⟨hscript, hphase, rfl⟩
    exact .configure outcome hscript (of_decide_eq_true hphase)
  | activate =>
    rcases begin_eq_some.mp h with ⟨hscript, hphase, rfl⟩
    exact .activate hscript (of_decide_eq_true hphase)
  | deactivate =>
    rcases begin_eq_some.mp h with ⟨hscript, hphase, rfl⟩
    exact .deactivate hscript (of_decide_eq_true hphase)
  | cleanup =>
    rcases begin_eq_some.mp h with ⟨hscript, hphase, rfl⟩
    exact .cleanup hscript (of_decide_eq_true hphase)
  | destroy =>
    rcases begin_eq_some.mp h with ⟨hscript, hphase, rfl⟩
    exact .destroy hscript (of_decide_eq_true hphase)
  | act =>
    simp only [step] at h
    split at h
    · next a rest hscript =>
      rcases Option.map_eq_some_iff.mp h with ⟨s₁, hs₁, rfl⟩
      exact .act hscript hs₁
    · cases h
  | dispatch kind size =>
    rcases onThread_eq_some.mp h with ⟨t, u, ht, hrun, hu, rfl⟩
    rw [Option.ite_none_right_eq_some] at hu
    cases hu.2
    exact .thread ht hrun rfl (fun hend ↦ absurd (hrun.symm.trans hend) Bool.false_ne_true)
  | leave =>
    rcases onThread_eq_some.mp h with ⟨t, u, ht, hrun, hu, rfl⟩
    rw [Option.ite_none_left_eq_some] at hu
    cases hu.2
    exact .thread ht hrun rfl (fun _ ↦ rfl)
  | finish =>
    rcases onThread_eq_some.mp h with ⟨t, u, ht, hrun, hu, rfl⟩
    rw [Option.ite_none_right_eq_some] at hu
    cases hu.2
    exact .thread ht hrun rfl (fun _ ↦ hu.1.1)
  | readError =>
    rcases onThread_eq_some.mp h with ⟨t, u, ht, hrun, hu, rfl⟩
    rw [Option.ite_none_right_eq_some] at hu
    cases hu.2
    exact .thread ht hrun rfl (fun _ ↦ hu.1)

private theorem mem_filter_ne {m n : Member} {held : List Member} (h : n ∈ held) (hne : m ≠ n) :
    n ∈ held.filter (· ≠ m) :=
  List.mem_filter.mpr ⟨h, by simpa using Ne.symm hne⟩

private theorem inv_act {a : Action} {rest : List Action} (hscript : s.script = a :: rest)
    (hi : Inv s) (h : perform a s = some s') : Inv { s' with script := rest } := by
  have hs := hi.script
  rw [hscript] at hs
  cases a with
  | set m =>
    cases h
    refine ⟨hs, fun hr ↦ ?_, hi.finished⟩
    rcases hi.reading hr with ⟨himu, hcalib, hintact⟩
    exact ⟨List.mem_cons_of_mem _ himu, List.mem_cons_of_mem _ hcalib, hintact⟩
  | reset m =>
    cases h
    refine ⟨hs.2, fun hr ↦ ?_, hi.finished⟩
    rcases hi.reading hr with ⟨himu, hcalib, hintact⟩
    exact ⟨mem_filter_ne himu (hs.1 hr).1, mem_filter_ne hcalib (hs.1 hr).2, hintact⟩
  | activate m value =>
    cases h
    exact ⟨hs, hi.reading, hi.finished⟩
  | openClient =>
    cases h
    rcases hs with ⟨hintact, himu, hcalib, hs⟩
    refine ⟨hs, fun _ ↦ ⟨himu, hcalib, List.isEmpty_iff.mp hintact⟩, ?_⟩
    intro t ht hf
    cases ht
    cases hf
  | register kind =>
    rcases Option.map_eq_some_iff.mp h with ⟨t, ht, rfl⟩
    have hr : reading { s with client := some { t with registered := t.registered ++ [kind] } } =
        reading s := by
      rw [reading, reading, ht]
      rfl
    refine ⟨?_, fun hr' ↦ hi.reading (hr ▸ hr'), ?_⟩
    · exact hr ▸ hs
    · intro t' ht' hf
      cases ht'
      exact hi.finished t ht hf
  | stopClient =>
    cases h
    have hr : reading { s with client := s.client.map ({ · with running := false }) } =
        reading s := by
      rw [reading, reading, Option.any_map]
    refine ⟨?_, fun hr' ↦ hi.reading (hr ▸ hr'), ?_⟩
    · exact hr ▸ hs
    · intro t' ht' hf
      rcases Option.map_eq_some_iff.mp ht' with ⟨t, ht, rfl⟩
      exact hi.finished t ht hf
  | joinClient =>
    simp only [perform] at h
    split at h
    · next hnone =>
      cases h
      have hr : reading s = false := by rw [reading, hnone]; rfl
      refine ⟨?_, hi.reading, hi.finished⟩
      change ScriptSafe (reading s) s.held s.destroyed.isEmpty rest
      rw [hr]
      exact hs
    · split at h
      · cases h
        exact ⟨hs, nofun, nofun⟩
      · cases h
  | destroy m =>
    cases h
    refine ⟨hs.2, fun hr ↦ ?_, hi.finished⟩
    have hr' : reading s = true := hr
    rw [hs.1] at hr'
    cases hr'

/-- A callback in progress belongs to a thread that is running, before and after a step of it. -/
private theorem inv_thread {t u : ReadThread} (hi : Inv s) (hclient : s.client = some t)
    (ht : t.finished = false) (hu : u.finished = true → u.callback = none) :
    Inv { s with client := some u } := by
  have hr : reading s = true := by
    rw [reading, hclient, Option.any_some, ht]
    rfl
  have hs := hi.script
  rw [hr] at hs
  refine ⟨?_, fun _ ↦ hi.reading hr, ?_⟩
  · change ScriptSafe (!u.finished) s.held s.destroyed.isEmpty s.script
    cases u.finished with
    | false => exact hs
    | true => exact hs.mono
  · intro t' ht' hf
    cases ht'
    exact hu hf

private theorem structure_act {a : Action} {rest : List Action} (hscript : s.script = a :: rest)
    (hi : Structure s) (h : perform a s = some s') : Structure { s' with script := rest } := by
  have hun := hi.unconfigured
  have hin := hi.intact
  have hreg := hi.registers
  have hcb := hi.registered
  rw [hscript] at hun hin hreg hcb
  have hrest : ∀ m, Action.destroy m ∉ a :: rest → Action.destroy m ∉ rest :=
    fun m hm hmem ↦ hm (List.mem_cons_of_mem _ hmem)
  cases a with
  | set | reset | activate =>
    cases h
    refine ⟨hun, fun hp ↦ ⟨(hin hp).1, fun m ↦ hrest m ((hin hp).2 m)⟩, hreg, ?_⟩
    exact fun t ht ↦ (hcb t ht).imp_right (fun hm ↦ by simpa using hm)
  | openClient =>
    cases h
    refine ⟨hun, fun hp ↦ ⟨(hin hp).1, fun m ↦ hrest m ((hin hp).2 m)⟩, hreg.2, ?_⟩
    exact fun t ht ↦ Or.inr hreg.1
  | register kind =>
    rcases Option.map_eq_some_iff.mp h with ⟨t, ht, rfl⟩
    refine ⟨?_, fun hp ↦ ⟨(hin hp).1, fun m ↦ hrest m ((hin hp).2 m)⟩, hreg, ?_⟩
    · intro hp
      have hafter := hun hp
      rw [ht] at hafter
      exact hafter
    · intro u hu
      cases hu
      by_cases hkind : kind = .commandResponse
      · exact Or.inl (by rw [hkind]; exact List.mem_append_right _ List.mem_cons_self)
      · apply (hcb t ht).imp
        · exact List.mem_append_left _
        · intro hm
          simpa [Ne.symm hkind] using hm
  | stopClient =>
    cases h
    refine ⟨?_, fun hp ↦ ⟨(hin hp).1, fun m ↦ hrest m ((hin hp).2 m)⟩, hreg, ?_⟩
    · intro hp
      have hafter := hun hp
      simpa [clientAfter] using hafter
    · intro u hu
      rcases Option.map_eq_some_iff.mp hu with ⟨t, ht, rfl⟩
      exact (hcb t ht).imp_right (fun hm ↦ by simpa using hm)
  | joinClient =>
    simp only [perform] at h
    split at h
    · next hnone =>
      cases h
      refine ⟨?_, fun hp ↦ ⟨(hin hp).1, fun m ↦ hrest m ((hin hp).2 m)⟩, hreg, ?_⟩
      · intro hp
        have hafter := hun hp
        simp only [hnone]
        exact hafter
      · intro u hu
        simp only [hnone] at hu
        cases hu
    · split at h
      · cases h
        exact ⟨hun, fun hp ↦ ⟨(hin hp).1, fun m ↦ hrest m ((hin hp).2 m)⟩, hreg, nofun⟩
      · cases h
  | destroy m =>
    cases h
    refine ⟨hun, fun hp ↦ absurd List.mem_cons_self ((hin hp).2 m), hreg, ?_⟩
    exact fun t ht ↦ (hcb t ht).imp_right (fun hm ↦ by simpa using hm)

private theorem structure_thread {t u : ReadThread} (hi : Structure s) (hclient : s.client = some t)
    (hu : u.registered = t.registered) : Structure { s with client := some u } := by
  refine ⟨?_, hi.intact, hi.registers, ?_⟩
  · intro hp
    have hafter := hi.unconfigured hp
    rw [hclient] at hafter
    exact hafter
  · intro u' hu'
    cases hu'
    rw [hu]
    exact hi.registered t hclient

/-- A transition that begins is one that the driver's state admits. -/
private theorem structure_begin {phase : Phase} {script : List Action} (hi : Structure s)
    (hscript : s.script = [])
    (hun : phase = .unconfigured → clientAfter s.client.isSome script = false)
    (hin : phase ≠ .destroyed → s.phase ≠ .destroyed ∧ ∀ m, Action.destroy m ∉ script)
    (hreg : Registers script) : Structure { s with phase, script } := by
  refine ⟨hun, fun hp ↦ ⟨(hi.intact (hin hp).1).1, (hin hp).2⟩, hreg, ?_⟩
  intro t ht
  apply (hi.registered t ht).imp_right
  intro hm
  rw [hscript] at hm
  cases hm

/-- Every step keeps the structure. -/
theorem structure_step (l : Label) (s s' : State) (h : step l s = some s') (hi : Structure s) :
    Structure s' := by
  cases takes_of_step h with
  | configure outcome hscript hphase =>
    have hun := hi.unconfigured hphase
    rw [hscript] at hun
    refine structure_begin hi hscript ?_ ?_ ?_
    · intro hp
      have hnone : s.client.isSome = false := hun
      rw [hnone]
      cases outcome with
      | opened => cases hp
      | noParameters => rfl
      | noPort => rfl
    · intro _
      rw [hphase]
      exact ⟨nofun, by cases outcome <;> simp [onConfigure]⟩
    · cases outcome <;> simp [onConfigure, Registers]
  | activate hscript hphase =>
    exact structure_begin hi hscript nofun (fun _ ↦ ⟨by rw [hphase]; nofun, by simp [onActivate]⟩)
      trivial
  | deactivate hscript hphase =>
    exact structure_begin hi hscript nofun (fun _ ↦ ⟨by rw [hphase]; nofun, by simp [onActivate]⟩)
      trivial
  | cleanup hscript hphase =>
    exact structure_begin hi hscript (fun _ ↦ rfl)
      (fun _ ↦ ⟨by rw [hphase]; nofun, by simp [onCleanup]⟩) trivial
  | destroy hscript => exact structure_begin hi hscript nofun (fun hp ↦ absurd rfl hp) trivial
  | act hscript hact => exact structure_act hscript hi hact
  | thread hclient _ hreg => exact structure_thread hi hclient hreg

/-- A transition that is safe to begin keeps the invariant. -/
private theorem inv_begin {phase : Phase} {script : List Action} (hi : Inv s)
    (hsafe : ScriptSafe (reading s) s.held s.destroyed.isEmpty script) :
    Inv { s with phase, script } :=
  ⟨hsafe, hi.reading, hi.finished⟩

/-- Every step keeps the invariant, if the driver is not destroyed while a thread is running. -/
theorem inv_step (l : Label) (s s' : State) (hl : DestroyedQuiet l s) (h : step l s = some s')
    (hi : Structure s ∧ Inv s) : Structure s' ∧ Inv s' := by
  refine ⟨structure_step l s s' h hi.1, ?_⟩
  cases takes_of_step h with
  | configure outcome hscript hphase =>
    have hun := hi.1.unconfigured hphase
    have hintact := (hi.1.intact (by rw [hphase]; nofun)).1
    rw [hscript] at hun
    have hnone : s.client = none := Option.not_isSome_iff_eq_none.mp (by
      rw [show s.client.isSome = false from hun]
      exact Bool.false_ne_true)
    apply inv_begin hi.2
    rw [reading, hnone, hintact]
    exact scriptSafe_onConfigure outcome s.held
  | activate | deactivate => exact inv_begin hi.2 trivial
  | cleanup => exact inv_begin hi.2 (scriptSafe_onCleanup _ _ _)
  | destroy =>
    have hquiet : reading s = false := by
      rw [reading]
      cases hc : s.client with
      | none => rfl
      | some t => rw [Option.any_some, hl rfl t hc]; rfl
    apply inv_begin hi.2
    rw [hquiet]
    exact scriptSafe_destructor _ _
  | act hscript hact => exact inv_act hscript hi.2 hact
  | thread hclient hrun _ hend => exact inv_thread hi.2 hclient hrun hend

private theorem structure_start : Structure start :=
  ⟨fun _ ↦ rfl, fun _ ↦ ⟨rfl, nofun⟩, trivial, nofun⟩

private theorem inv_start : Inv start := ⟨trivial, nofun, nofun⟩

private theorem run_teardown (hscript : s.script = []) (hphase : s.phase ≠ .destroyed) :
    ∃ script held, Transition.run step [.destroy, .act, .act, .act] s = some { s with
      phase := .destroyed, script, held
      destroyed := .pendingPromise :: .pendingSeq :: .commandSeq :: s.destroyed } := by
  simp [Transition.run, step, begin, hscript, hphase, destructor, declared, destroyMember, perform]

/-- A thread that is running when the destructor begins can enter the callback for responses
after the members it uses are gone. -/
theorem exists_unsafe (hi : Structure s) (hscript : s.script = []) (hphase : s.phase ≠ .destroyed)
    {t : ReadThread} (ht : s.client = some t) (hrun : t.finished = false) :
    ∃ more s', Transition.run step (.destroy :: more) s = some s' ∧ ¬ Safe s' := by
  have hreg : Kind.commandResponse ∈ t.registered := by
    rcases hi.registered t ht with hreg | hscript'
    · exact hreg
    · rw [hscript] at hscript'
      cases hscript'
  rcases run_teardown hscript hphase with ⟨script, held, hgone⟩
  -- a callback in progress is left first
  obtain ⟨more, hmore⟩ : ∃ more : List Label,
      Transition.run step more { s with
        phase := .destroyed, script, held
        destroyed := .pendingPromise :: .pendingSeq :: .commandSeq :: s.destroyed } =
      some { s with
        phase := .destroyed, script, held
        destroyed := .pendingPromise :: .pendingSeq :: .commandSeq :: s.destroyed
        client := some { t with
          callback := some [.commandLock, .pendingPromise, .pendingSeq] } } := by
    cases hc : t.callback with
    | none =>
      exact ⟨[.dispatch .commandResponse 3], by
        simp [Transition.run, step, onThread, ht, hrun, hc, hreg, uses]⟩
    | some used =>
      exact ⟨[.leave, .dispatch .commandResponse 3], by
        simp [Transition.run, step, onThread, ht, hrun, hc, hreg, uses]⟩
  have hwhole : Transition.run step ([.destroy, .act, .act, .act] ++ more) s =
      (Transition.run step [.destroy, .act, .act, .act] s).bind (Transition.run step more) :=
    Transition.run_append _ _ _
  rw [hgone, Option.bind_some, hmore] at hwhole
  refine ⟨.act :: .act :: .act :: more, _, hwhole, ?_⟩
  intro hsafe
  have hused := hsafe _ rfl _ rfl .pendingPromise (by simp)
  exact hused.1 List.mem_cons_self

/-- In every run of lifecycle transitions, callbacks and a destruction, in any interleaving, in
which the driver is destroyed only when no read thread is running, no callback is in progress
with a member that it uses reset or destroyed. A driver destroyed with its read thread running
can get there. -/
theorem callbacks_safe (ls : List Label) (s : State)
    (h : Transition.run step ls start = some s) :
    (Transition.Along step DestroyedQuiet ls start → Safe s) ∧
    (s.script = [] → s.phase ≠ .destroyed → ¬ DestroyedQuiet .destroy s →
      ∃ more s', Transition.run step (.destroy :: more) s = some s' ∧ ¬ Safe s') := by
  constructor
  · intro hall
    exact (Transition.invariant_run (I := fun s ↦ Structure s ∧ Inv s) inv_step
      ⟨structure_start, inv_start⟩ hall h).2.safe
  · intro hscript hphase hquiet
    have hi : Structure s := Transition.invariant structure_step structure_start h
    rcases Classical.not_forall.mp (fun hall ↦ hquiet (fun _ ↦ hall)) with ⟨t, ht⟩
    rcases Classical.not_forall.mp ht with ⟨hclient, hrun⟩
    exact exists_unsafe hi hscript hphase hclient (Bool.eq_false_iff.mpr hrun)

/-- A driver that is configured and activated, cleaned up while a callback runs, and destroyed. -/
def cleanedUp : List Label :=
  [.configure .opened, .act, .act, .act, .act, .act, .act, .act, .act, .act, .act, .activate, .act,
    .act, .dispatch .imuData 40, .deactivate, .act, .act, .cleanup, .act, .leave,
    .dispatch .commandResponse 3, .leave, .finish, .act, .act, .act, .act, .act, .act, .act, .act,
    .destroy, .act, .act]

/-- The driver left by that run is safe. -/
theorem callbacks_safe_cleanedUp : ∃ s, Transition.run step cleanedUp start = some s ∧ Safe s := by
  obtain ⟨s, hs⟩ : ∃ s, Transition.run step cleanedUp start = some s := ⟨_, rfl⟩
  exact ⟨s, hs, (callbacks_safe cleanedUp s hs).1 (by decide +kernel)⟩

/-- A driver that is configured and then destroyed without a cleanup runs the callback for a
response on a promise that no longer exists. -/
theorem destructor_outruns_client : ∃ s,
    Transition.run step ([.configure .opened] ++ List.replicate 10 .act ++
      [.destroy, .act, .act, .act, .act, .dispatch .commandResponse 3]) start = some s ∧
    ¬ Safe s ∧ [.commandLock, .pendingPromise] ⊆ s.destroyed := by
  refine ⟨_, rfl, ?_, ?_⟩
  · decide
  · decide

end BlueROV2.Driver.Lifecycle
