import BlueROV2.Base.Transition
import BlueROV2.Driver.Client

/-!
# Callbacks that are registered while packets are dispatched

Library `Driver`. `register_callback` and `dispatch` of
`modules/autonomy_pi/ros/autonomy_teensy/src/client.cpp`. The read thread runs before `on_configure`
registers the callbacks. It copies the list of a packet under `callbacks_lock_` and calls the
copies without the lock, so other threads may register callbacks in between.
-/

namespace BlueROV2.Driver.Dispatching

open BlueROV2.Base BlueROV2.Wire

variable {σ : Type}

/-- The callbacks, the dispatch under way with the callbacks that it has still to call, and the
rest of the program. -/
structure State (σ : Type) where
  callbacks : Callbacks σ
  toCall : Option (Packet × List (Callback σ))
  world : σ

/-- A client just constructed. -/
def start (world : σ) : State σ := ⟨fun _ ↦ [], none, world⟩

/-- The steps: another thread registers a callback; the read thread looks up the callbacks of a
packet, calls the next one, or is done. -/
inductive Label (σ : Type) where
  | register (packetId : PacketId) (callback : Callback σ)
  | lookup (packet : Packet)
  | call
  | done

/-- The steps; an exception out of a callback would end the program; `client.cpp:45–49,123–139`. -/
def step : Label σ → State σ → Option (State σ)
  | .register packetId callback, s =>
    some { s with callbacks := registerCallback s.callbacks packetId callback }
  | .lookup packet, s =>
    if s.toCall.isNone then some { s with toCall := some (packet, s.callbacks packet.packetId) }
    else none
  | .call, s =>
    match s.toCall with
    | some (packet, callback :: toCall) =>
      match callback packet s.world with
      | .ok world => some { s with world, toCall := some (packet, toCall) }
      | .error _ => none
    | _ => none
  | .done, s =>
    match s.toCall with
    | some (_, []) => some { s with toCall := none }
    | _ => none

/-! ### One after another -/

/-- A registration or a whole dispatch, with nothing in between. -/
inductive Operation (σ : Type) where
  | register (packetId : PacketId) (callback : Callback σ)
  | dispatch (packet : Packet)

/-- What an operation does. -/
def Operation.perform : Operation σ → Callbacks σ × σ → Cpp (Callbacks σ × σ)
  | .register packetId callback, (callbacks, world) =>
    pure (registerCallback callbacks packetId callback, world)
  | .dispatch packet, (callbacks, world) =>
    (Driver.dispatch callbacks packet world).map (callbacks, ·)

/-- The operation that takes effect with a step: a dispatch does so when its callbacks are looked
up. -/
def Label.operation : Label σ → Option (Operation σ)
  | .register packetId callback => some (.register packetId callback)
  | .lookup packet => some (.dispatch packet)
  | .call | .done => none

/-- What the dispatch under way still does to the rest of the program. -/
def State.rest (s : State σ) : Cpp σ :=
  match s.toCall with
  | some (packet, toCall) => toCall.foldlM (fun world callback ↦ callback packet world) s.world
  | none => pure s.world

/-- The state as it will be when the dispatch under way is done. -/
def State.finished (s : State σ) : Cpp (Callbacks σ × σ) := s.rest.map (s.callbacks, ·)

variable {s s' : State σ}

/-- A step has the effect of its operation. -/
theorem finished_step {l : Label σ} (h : step l s = some s') :
    (s.finished >>= fun x ↦ l.operation.toList.foldlM (fun x o ↦ o.perform x) x) =
      s'.finished := by
  cases l with
  | register packetId callback =>
    cases h
    have hrest : State.rest { s with callbacks := registerCallback s.callbacks packetId callback } =
        s.rest := rfl
    rw [State.finished, State.finished, hrest]
    cases s.rest with
    | error e => rfl
    | ok world => rfl
  | lookup packet =>
    simp only [step, Option.isNone_iff_eq_none, Option.ite_none_right_eq_some] at h
    rcases h with ⟨hidle, h⟩
    cases h
    rw [State.finished, State.rest, hidle]
    change (Operation.perform (.dispatch packet) (s.callbacks, s.world) >>= pure) = _
    rw [bind_pure]
    rfl
  | call =>
    simp only [step] at h
    split at h
    · next packet callback toCall htoCall =>
      split at h
      · next world hcall =>
        cases h
        have hrest : s.rest =
            State.rest { s with world, toCall := some (packet, toCall) } := by
          simp only [State.rest, htoCall, List.foldlM_cons, hcall, Cpp.ok_bind]
        rw [State.finished, hrest]
        exact Cpp.bind_ok _
      · cases h
    · cases h
  | done =>
    simp only [step] at h
    split at h
    · next htoCall =>
      cases h
      rw [State.finished, State.rest, htoCall]
      rfl
    · cases h

/-- A run has the effect of its operations, one after another. -/
theorem finished_run {ls : List (Label σ)} (h : Transition.run step ls s = some s') :
    (s.finished >>= fun x ↦ (ls.filterMap Label.operation).foldlM (fun x o ↦ o.perform x) x) =
      s'.finished := by
  induction ls generalizing s with
  | nil =>
    cases h
    exact Cpp.bind_ok _
  | cons l ls ih =>
    rcases Option.bind_eq_some_iff.mp h with ⟨s₁, hl, hls⟩
    rw [← ih hls, ← finished_step hl, bind_assoc]
    congr 1
    funext x
    cases ho : l.operation with
    | none =>
      rw [List.filterMap_cons_none ho]
      exact (Cpp.ok_bind _ _).symm
    | some o =>
      simp only [List.filterMap_cons_some ho, Option.toList_some, List.foldlM_cons,
        List.foldlM_nil, bind_pure]

/-! ### What a callback is called with -/

/-- A callback that leaves a note of each packet it is called with. -/
def noting (k : Nat) (callback : Callback σ) : Callback (σ × List (Nat × Packet)) :=
  fun packet (world, notes) ↦
    (callback packet world).map (·, notes ++ [(k, packet)])

/-- The numbers of the callbacks, instead of the callbacks themselves. -/
def Numbered (callbacks : Callbacks (σ × List (Nat × Packet))) (numbers : PacketId → List Nat) :
    Prop :=
  ∀ packetId, ∃ plain : List (Nat × Callback σ),
    callbacks packetId = plain.map (fun x ↦ noting x.1 x.2) ∧ numbers packetId = plain.map (·.1)

/-- A dispatch calls each callback of the packet once, in order. -/
theorem notes_dispatch {callbacks : Callbacks (σ × List (Nat × Packet))}
    {numbers : PacketId → List Nat} (hnumbers : Numbered callbacks numbers) {packet : Packet}
    {world world' : σ} {notes notes' : List (Nat × Packet)}
    (h : dispatch callbacks packet (world, notes) = .ok (world', notes')) :
    notes' = notes ++ (numbers packet.packetId).map (·, packet) := by
  rcases hnumbers packet.packetId with ⟨plain, hcallbacks, hplain⟩
  rw [dispatch, hcallbacks] at h
  rw [hplain]
  clear hcallbacks hplain
  induction plain generalizing world notes with
  | nil =>
    cases h
    exact (List.append_nil _).symm
  | cons x plain ih =>
    rw [List.map_cons, List.foldlM_cons] at h
    rcases Cpp.bind_eq_ok.mp h with ⟨⟨world₁, notes₁⟩, hcall, hrest⟩
    have hnotes : notes₁ = notes ++ [(x.1, packet)] := by
      change (x.2 packet world).map (·, notes ++ [(x.1, packet)]) = _ at hcall
      cases hx : x.2 packet world with
      | error e =>
        rw [hx] at hcall
        cases hcall
      | ok w =>
        rw [hx] at hcall
        cases hcall
        rfl
    rw [ih hrest, hnotes, List.append_assoc]
    rfl

/-- What a registration adds is numbered, by another number than one of interest. -/
def Operation.Avoids (k : Nat) : Operation (σ × List (Nat × Packet)) → Prop
  | .register _ callback => ∃ j plain, j ≠ k ∧ callback = noting j plain
  | .dispatch _ => True

/-- The packet that an operation dispatches. -/
def Operation.packet : Operation σ → Option Packet
  | .register _ _ => none
  | .dispatch packet => some packet

/-- Registering adds a number. -/
theorem Numbered.register {callbacks : Callbacks (σ × List (Nat × Packet))}
    {numbers : PacketId → List Nat} (h : Numbered callbacks numbers) (packetId : PacketId)
    (j : Nat) (plain : Callback σ) : Numbered (registerCallback callbacks packetId (noting j plain))
      (fun id ↦ if id = packetId then numbers id ++ [j] else numbers id) := by
  intro id
  rcases h id with ⟨before, hcallbacks, hnumbers⟩
  by_cases hid : id = packetId
  · refine ⟨before ++ [(j, plain)], ?_, ?_⟩
    · rw [registerCallback, if_pos hid, hcallbacks, List.map_append]
      rfl
    · simp only [if_pos hid, hnumbers, List.map_append]
      rfl
  · refine ⟨before, ?_, ?_⟩
    · rw [registerCallback, if_neg hid, hcallbacks]
    · simp only [if_neg hid, hnumbers]

/-- A callback that is registered for the packets of some kinds, once, notes those packets. -/
theorem notes_perform (k : Nat) (kinds : PacketId → Bool)
    (os : List (Operation (σ × List (Nat × Packet)))) (havoids : ∀ o ∈ os, o.Avoids k)
    {callbacks : Callbacks (σ × List (Nat × Packet))} {numbers : PacketId → List Nat}
    (hnumbers : Numbered callbacks numbers)
    (honce : ∀ id, (numbers id).filter (· = k) = if kinds id then [k] else []) {world : σ}
    {notes : List (Nat × Packet)}
    {x : Callbacks (σ × List (Nat × Packet)) × σ × List (Nat × Packet)}
    (h : os.foldlM (fun x o ↦ o.perform x) (callbacks, world, notes) = .ok x) :
    ∃ numbers, Numbered x.1 numbers ∧
      (∀ id, (numbers id).filter (· = k) = if kinds id then [k] else []) ∧
      x.2.2.filter (·.1 = k) = notes.filter (·.1 = k) ++
        ((os.filterMap Operation.packet).filter (kinds ·.packetId)).map (k, ·) := by
  induction os generalizing callbacks numbers world notes with
  | nil =>
    cases h
    exact ⟨numbers, hnumbers, honce, (List.append_nil _).symm⟩
  | cons o os ih =>
    rw [List.foldlM_cons] at h
    rcases Cpp.bind_eq_ok.mp h with ⟨⟨callbacks₁, world₁, notes₁⟩, ho, hos⟩
    have hlater : ∀ o ∈ os, o.Avoids k := fun o ho ↦ havoids o (List.mem_cons_of_mem _ ho)
    cases o with
    | register packetId callback =>
      rcases havoids _ List.mem_cons_self with ⟨j, plain, hj, rfl⟩
      cases ho
      refine ih hlater (hnumbers.register packetId j plain) (fun id ↦ ?_) hos
      have hother : [j].filter (· = k) = [] := List.filter_cons_of_neg (by simpa using hj)
      by_cases hid : id = packetId
      · simp only [if_pos hid, List.filter_append, honce, hother, List.append_nil]
      · simp only [if_neg hid, honce]
    | dispatch packet =>
      cases hd : dispatch callbacks packet (world, notes) with
      | error e =>
        simp only [Operation.perform, hd] at ho
        cases ho
      | ok y =>
        simp only [Operation.perform, hd] at ho
        cases ho
        have hnotes := notes_dispatch hnumbers hd
        rcases ih hlater hnumbers honce hos with ⟨numbers', hnumbers', honce', heq⟩
        refine ⟨numbers', hnumbers', honce', ?_⟩
        have hone : ((numbers packet.packetId).map (·, packet)).filter (·.1 = k) =
            if kinds packet.packetId then [(k, packet)] else [] := by
          rw [List.filter_map]
          change ((numbers packet.packetId).filter (· = k)).map _ = _
          rw [honce]
          split <;> rfl
        rw [heq, hnotes, List.filter_append, hone, List.append_assoc]
        congr 1
        change _ = ((packet :: os.filterMap Operation.packet).filter (kinds ·.packetId)).map (k, ·)
        rw [List.filter_cons]
        split <;> rfl

/-- What a registration adds notes its packets by another number than one of interest. -/
def Label.Avoids (k : Nat) : Label (σ × List (Nat × Packet)) → Prop
  | .register _ callback => ∃ j plain, j ≠ k ∧ callback = noting j plain
  | _ => True

/-- The packet whose callbacks are looked up. -/
def Label.packet : Label σ → Option Packet
  | .lookup packet => some packet
  | _ => none

theorem avoids_operation {k : Nat} {l : Label (σ × List (Nat × Packet))}
    {o : Operation (σ × List (Nat × Packet))} (h : l.Avoids k) (ho : l.operation = some o) :
    o.Avoids k := by
  cases l with
  | register packetId callback =>
    cases ho
    exact h
  | lookup packet =>
    cases ho
    trivial
  | call => cases ho
  | done => cases ho

theorem packets_operations (ls : List (Label σ)) :
    (ls.filterMap Label.operation).filterMap Operation.packet = ls.filterMap Label.packet := by
  rw [List.filterMap_filterMap]
  congr 1
  funext l
  cases l <;> rfl

/-- Whenever other threads register callbacks, the read thread calls each callback with the
packets of its identifier that are looked up after it was registered, each once and in order, and
with no other packets. The effect of a run is that of its registrations and dispatches one after
another, a dispatch being where its callbacks are looked up. -/
theorem each_callback_called_once (world : σ) (k : Nat) (packetId : PacketId)
    (callback : Callback σ) (before after : List (Label (σ × List (Nat × Packet))))
    (s : State (σ × List (Nat × Packet))) (havoids : ∀ l ∈ before ++ after, l.Avoids k)
    (h : Transition.run step (before ++ .register packetId (noting k callback) :: after)
      (start (world, [])) = some s) (hdone : s.toCall = none) :
    ((before ++ .register packetId (noting k callback) :: after).filterMap
        Label.operation).foldlM (fun x o ↦ o.perform x) (fun _ ↦ [], world, []) =
      .ok (s.callbacks, s.world) ∧
    (s.world.2.filter (·.1 = k)).map (·.2) =
      (after.filterMap Label.packet).filter (·.packetId = packetId) := by
  have hrun := finished_run h
  have hstart : (start (world, ([] : List (Nat × Packet)))).finished =
      .ok (fun _ ↦ [], world, []) := rfl
  have hend : s.finished = .ok (s.callbacks, s.world) := by
    rw [State.finished, State.rest, hdone]
    rfl
  rw [hstart, Cpp.ok_bind, hend] at hrun
  refine ⟨hrun, ?_⟩
  have hops (ls : List (Label (σ × List (Nat × Packet)))) (hls : ∀ l ∈ ls, l.Avoids k) :
      ∀ o ∈ ls.filterMap Label.operation, o.Avoids k := by
    intro o ho
    rcases List.mem_filterMap.mp ho with ⟨l, hl, hlo⟩
    exact avoids_operation (hls l hl) hlo
  rw [List.filterMap_append, List.foldlM_append] at hrun
  rcases Cpp.bind_eq_ok.mp hrun with ⟨⟨callbacks, w, notes⟩, hbefore, hrest⟩
  have hfirst : (Label.register packetId (noting k callback) :: after).filterMap Label.operation =
      .register packetId (noting k callback) :: after.filterMap Label.operation := rfl
  rw [hfirst, List.foldlM_cons] at hrest
  rcases Cpp.bind_eq_ok.mp hrest with ⟨x, hregister, hafter⟩
  cases hregister
  have hnil : Numbered (σ := σ) (fun _ ↦ []) (fun _ ↦ []) := fun _ ↦ ⟨[], rfl, rfl⟩
  -- before it is registered, the callback is called with nothing
  rcases notes_perform k (fun _ ↦ false) _
    (hops before fun l hl ↦ havoids l (List.mem_append_left _ hl)) hnil (fun _ ↦ rfl) hbefore with
    ⟨numbers, hnumbers, honce, hnotes⟩
  have hnone : notes.filter (·.1 = k) = [] := by
    rw [hnotes]
    simp
  have honce' (id : PacketId) :
      (if id = packetId then numbers id ++ [k] else numbers id).filter (· = k) =
        if decide (id = packetId) then [k] else [] := by
    have hself : [k].filter (· = k) = [k] := List.filter_cons_of_pos (by simp)
    by_cases hid : id = packetId
    · simp only [if_pos hid, List.filter_append, honce, hself, decide_eq_true hid]
      rfl
    · simp only [if_neg hid, honce, decide_eq_false hid]
  rcases notes_perform k (fun id ↦ decide (id = packetId)) _
    (hops after fun l hl ↦ havoids l (List.mem_append_right _ hl))
    (hnumbers.register packetId k callback) honce' hafter with ⟨-, -, -, hlater⟩
  rw [hlater, hnone, List.nil_append, packets_operations, List.map_map]
  exact List.map_id _

/-- A packet with a number for its payload. -/
def numberedPacket (n : UInt8) : Packet := ⟨.imuData, .imu01, [n]⟩

/-- A packet comes before the callback is registered, and another callback is registered while it
is called with the second one. -/
def registeredLate : List (Label (Unit × List (Nat × Packet))) := [
  .lookup (numberedPacket 2), .register .imuData (noting 1 fun _ w ↦ pure w), .call, .done,
  .lookup (numberedPacket 3), .call, .call, .done]

theorem each_callback_called_once_registeredLate : ∃ s,
    Transition.run step ([.lookup (numberedPacket 1), .done] ++
      .register .imuData (noting 0 fun _ w ↦ pure w) :: registeredLate) (start ((), [])) = some s ∧
    (s.world.2.filter (·.1 = 0)).map (·.2) = [numberedPacket 2, numberedPacket 3] := by
  obtain ⟨s, h, hdone⟩ : ∃ s, Transition.run step ([.lookup (numberedPacket 1), .done] ++
      .register .imuData (noting 0 fun _ w ↦ pure w) :: registeredLate) (start ((), [])) = some s ∧
      s.toCall = none := ⟨_, rfl, rfl⟩
  have havoids : ∀ l ∈ [.lookup (numberedPacket 1), .done] ++ registeredLate, l.Avoids 0 := by
    simp only [registeredLate, List.cons_append, List.nil_append, List.forall_mem_cons,
      Label.Avoids, true_and, List.not_mem_nil, false_implies, implies_true, and_true]
    exact ⟨1, fun _ w ↦ pure w, by decide, rfl⟩
  exact ⟨s, h, (each_callback_called_once () 0 .imuData _ _ _ s havoids h hdone).2⟩

end BlueROV2.Driver.Dispatching
