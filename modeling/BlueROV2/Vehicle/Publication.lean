import BlueROV2.Vehicle.Agreement

/-!
# What is published

Library `Vehicle`. Every message that the driver publishes is made of one packet that the Teensy
sent. The packets of successive messages were sent one after another, and none is used twice.
-/

namespace BlueROV2.Vehicle

open BlueROV2.Base BlueROV2.Wire
open Driver (Params)
open Firmware (BNO085 CommandHandlers Iteration Puts crcOf packetsOf writesOf)

/-- The frame of a sample or a status. -/
def Telemetry.frame (x : Telemetry) : List UInt8 := Wire.frame crcOf x.packet ++ [0]

/-- What was published was made of what was taken off the link, by the clock of the driver, and
what was taken and what is on the link was written in this order. -/
structure Published (s : State) (taken : List (Nat × Telemetry)) : Prop where
  published : s.published = taken.map fun x ↦ x.2.publishedAt s.params x.1
  written : (taken.map (·.2.frame) ++ s.downlink.map Frame.bytes).Sublist
    (writesOf s.teensy.outputs)
  packets : ∃ ms, Puts ms s.teensy.outputs

variable {handlers : CommandHandlers BNO085} {s s' : State} {i : Iteration}
  {taken : List (Nat × Telemetry)}

/-- More is written on the link. -/
theorem Published.append (h : Published s taken) {later : List Firmware.Output}
    {ms : List Message} (hparams : s'.params = s.params) (hpublished : s'.published = s.published)
    (houtputs : s'.teensy.outputs = s.teensy.outputs ++ later) (hputs : Puts ms later)
    (hdown : s'.downlink.map Frame.bytes = s.downlink.map Frame.bytes ++ writesOf later) :
    Published s' taken := by
  rcases h.packets with ⟨before, hbefore⟩
  refine ⟨?_, ?_, before ++ ms, ?_⟩
  · rw [hpublished, hparams]
    exact h.published
  · rw [hdown, houtputs, Firmware.writesOf_append, ← List.append_assoc]
    exact h.written.append (List.Sublist.refl _)
  · rw [houtputs]
    exact hbefore.append hputs

/-- Something is lost from the link, or delivered and not published. -/
theorem Published.lose (h : Published s taken) (hparams : s'.params = s.params)
    (hpublished : s'.published = s.published) (hteensy : s'.teensy = s.teensy)
    (hdown : s'.downlink.Sublist s.downlink) : Published s' taken := by
  refine ⟨?_, ?_, hteensy ▸ h.packets⟩
  · rw [hpublished, hparams]
    exact h.published
  · rw [hteensy]
    exact ((List.Sublist.refl _).append (hdown.map _)).trans h.written

/-- Frames in a row are read as their messages. -/
private theorem filterMap_frames (ms : List Message) :
    (ms.map fun m ↦ frame crcOf m ++ [0]).filterMap (fun bytes ↦ readFrame crcOf bytes.dropLast) =
      ms := by
  have hread : (fun bytes : List UInt8 ↦ readFrame crcOf bytes.dropLast) ∘
      (fun m ↦ frame crcOf m ++ [0]) = some := by
    funext m
    rw [Function.comp_apply, List.dropLast_concat, readFrame_frame]
  rw [List.filterMap_map, hread, List.filterMap_some]

/-- What was taken off the link was sent, in the same order. -/
theorem Published.sublist (h : Published s taken) :
    (taken.map (·.2.packet)).Sublist (packetsOf s.teensy.outputs) := by
  rcases h.packets with ⟨ms, hputs⟩
  have hframes : (taken.map (·.2.frame)).Sublist (writesOf s.teensy.outputs) :=
    (List.sublist_append_left _ _).trans h.written
  have hread := hframes.filterMap fun bytes ↦ readFrame crcOf bytes.dropLast
  have htaken : taken.map (·.2.frame) =
      (taken.map (·.2.packet)).map fun m ↦ frame crcOf m ++ [0] := by
    rw [List.map_map]
    rfl
  rwa [hputs, htaken, filterMap_frames, filterMap_frames, ← hputs.packetsOf_eq] at hread

end BlueROV2.Vehicle
