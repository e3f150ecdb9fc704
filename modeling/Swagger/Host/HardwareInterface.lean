/-
**The host's packet layer, `src/hardwareinterface.cpp`.**

The serial port is the environment: `incoming` lists what the coming reads observe (a byte, or a
`waitForReadyRead` that times out), `writes` lists how the coming writes end. Nothing is assumed
about either. When a list is exhausted, no byte comes any more, and writes succeed.

`encode_readPackets` is the framing round trip: the encodings of any list of payloads, sent one
after the other, are cut at their zero bytes into one frame each, and reading them gives the
payloads back.
-/

import Swagger.Host.Cobs
import Swagger.Library.Framing

namespace Swagger.Host

open Library

/-- What a round of `readPacket`'s loop observes. -/
inductive RxEvent
  | byte (value : Byte)
  | timeout
  deriving DecidableEq, Repr

/-- How one write ends: the return values of `write` and of `waitForBytesWritten`. -/
structure WriteOutcome where
  accepted : Int
  flushed : Bool

/-- The interface object and its port. `sent` are the bytes the port has taken so far. -/
structure HardwareInterface where
  isOpen : Bool
  incoming : List RxEvent
  writes : List WriteOutcome
  sent : List Byte
  lastError : String

namespace HardwareInterface

/-- The outcome of the next write of `count` bytes. -/
def nextWrite (hw : HardwareInterface) (count : Nat) : WriteOutcome :=
  hw.writes.head?.getD { accepted := count, flushed := true }

/-- `writePacket`. -/
def writePacket (data : List Byte) (hw : HardwareInterface) : Bool × HardwareInterface :=
  if hw.isOpen = false then (false, { hw with lastError := "COM port not open" })
  else
    let cobsbuffer := encode data
    let outcome := hw.nextWrite cobsbuffer.length
    let hw := { hw with
      writes := hw.writes.tail
      sent := hw.sent ++ cobsbuffer.take outcome.accepted.toNat }
    if outcome.accepted ≠ cobsbuffer.length then
      (false, { hw with lastError := "Unexpected fragmentation" })
    else if outcome.flushed = false then
      (false, { hw with lastError := "COM port timed out on write" })
    else (true, hw)

/-- The receive loop of `readPacket`: the bytes up to and including a zero, or `none` on a
time-out, and what is still to come. -/
def receive : List RxEvent → List Byte → Option (List Byte) × List RxEvent
  | [], _ => (none, [])
  | .timeout :: rest, _ => (none, rest)
  | .byte c :: rest, rxbuffer =>
      if c = 0 then (some (rxbuffer ++ [c]), rest) else receive rest (rxbuffer ++ [c])

/-- `readPacket`. The vector `data` is left alone unless a frame arrives. -/
def readPacket (data : List Byte) (hw : HardwareInterface) :
    Bool × List Byte × HardwareInterface :=
  if hw.isOpen = false then (false, data, { hw with lastError := "COM port not open" })
  else match receive hw.incoming [] with
    | (none, rest) =>
        (false, data, { hw with incoming := rest, lastError := "COM port timed out on read" })
    | (some rxbuffer, rest) =>
        let data := decode rxbuffer.dropLast
        if data.length > 0 then (true, data.dropLast, { hw with incoming := rest })
        else (false, data,
          { hw with incoming := rest, lastError := "Error removing zero byte at end of packet" })

/-- A write does not touch what is received. -/
theorem writePacket_incoming (data : List Byte) (hw : HardwareInterface) :
    (hw.writePacket data).2.incoming = hw.incoming ∧
      (hw.writePacket data).2.isOpen = hw.isOpen := by
  unfold writePacket
  split_ifs
  · exact ⟨rfl, rfl⟩
  · simp only
    split_ifs <;> exact ⟨rfl, rfl⟩

/-- Reading from a port on which nothing arrives. -/
theorem readPacket_silent (data : List Byte) (hw : HardwareInterface) (silent : hw.incoming = []) :
    (hw.readPacket data).1 = false := by
  unfold readPacket
  split_ifs
  · rfl
  · rw [silent, receive]

/-- A failed read leaves an empty vector empty. -/
theorem readPacket_failed (hw : HardwareInterface) (failed : (hw.readPacket []).1 = false) :
    (hw.readPacket []).2.1 = [] := by
  unfold readPacket at failed ⊢
  by_cases closed : hw.isOpen = false
  · rw [if_pos closed]
  · rw [if_neg closed] at failed ⊢
    rcases received : receive hw.incoming [] with ⟨_ | rxbuffer, rest⟩
    · rfl
    · rw [received] at failed
      by_cases nonempty : (decode rxbuffer.dropLast).length > 0
      · simp only [if_pos nonempty] at failed
        cases failed
      · simp only [if_neg nonempty]
        exact List.length_eq_zero_iff.mp (Nat.eq_zero_of_not_pos nonempty)

/-- `count` packets read one after the other, each into a fresh vector. -/
def readPackets : Nat → HardwareInterface → List (Bool × List Byte) × HardwareInterface
  | 0, hw => ([], hw)
  | count + 1, hw =>
      let first := hw.readPacket []
      let rest := readPackets count first.2.2
      ((first.1, first.2.1) :: rest.1, rest.2)

/-- A frame without zeros, closed by one, is received as a whole. -/
theorem receive_frame (frame rxbuffer : List Byte) (rest : List RxEvent)
    (free : (0 : Byte) ∉ frame) :
    receive ((frame ++ [0]).map .byte ++ rest) rxbuffer =
      (some (rxbuffer ++ frame ++ [0]), rest) := by
  induction frame generalizing rxbuffer with
  | nil => simp [receive]
  | cons head tail ih =>
      have headNe : head ≠ 0 := fun same => free (by rw [same]; exact List.mem_cons_self)
      have tailFree : (0 : Byte) ∉ tail := fun member => free (List.mem_cons_of_mem _ member)
      have step := ih (rxbuffer ++ [head]) tailFree
      rw [List.cons_append, List.map_cons, List.cons_append, receive, if_neg headNe, step]
      simp

/-- Bytes in front of a time-out are lost. -/
theorem receive_timeout (bytes rxbuffer : List Byte) (rest : List RxEvent)
    (free : (0 : Byte) ∉ bytes) :
    receive (bytes.map .byte ++ .timeout :: rest) rxbuffer = (none, rest) := by
  induction bytes generalizing rxbuffer with
  | nil => rfl
  | cons head tail ih =>
      have headNe : head ≠ 0 := fun same => free (by rw [same]; exact List.mem_cons_self)
      have tailFree : (0 : Byte) ∉ tail := fun member => free (List.mem_cons_of_mem _ member)
      rw [List.map_cons, List.cons_append, receive, if_neg headNe]
      exact ih (rxbuffer ++ [head]) tailFree

/-- Reading the encoding of a payload gives the payload. -/
theorem readPacket_encode (payload data : List Byte) (rest : List RxEvent)
    (hw : HardwareInterface) :
    readPacket data
        { hw with isOpen := true, incoming := (encode payload).map .byte ++ rest } =
      (true, payload, { hw with isOpen := true, incoming := rest }) := by
  have received := receive_frame (cobs.stuff [] payload) [] rest (zero_notMem_stuff payload)
  rw [readPacket, if_neg (by simp)]
  simp only [encode_eq, received, List.nil_append, List.dropLast_concat, decode_stuff]
  rw [if_pos (by simp)]

/-- Reading the encodings of a list of payloads gives the payloads, in order. -/
theorem readPackets_encode (payloads : List (List Byte)) (rest : List RxEvent)
    (hw : HardwareInterface) :
    readPackets payloads.length
        { hw with isOpen := true, incoming := (payloads.flatMap encode).map .byte ++ rest } =
      (payloads.map fun payload => (true, payload),
        { hw with isOpen := true, incoming := rest }) := by
  induction payloads with
  | nil => rfl
  | cons payload payloads ih =>
      have first := readPacket_encode payload []
        ((payloads.flatMap encode).map .byte ++ rest) hw
      rw [List.length_cons, List.flatMap_cons, List.map_append, List.append_assoc, readPackets,
        first]
      simp only
      rw [ih, List.map_cons]

end HardwareInterface

/-- Cutting the concatenation of encodings at its zeros gives the frames of the payloads. -/
theorem frames_encode (payloads : List (List Byte)) :
    frames 0 (payloads.flatMap encode) = (payloads.map (cobs.stuff []), []) := by
  have closed : payloads.flatMap encode =
      (payloads.map (cobs.stuff [])).flatMap fun frame => frame ++ [0] := by
    rw [List.flatMap_map]
    exact congrArg payloads.flatMap (funext encode_eq)
  rw [closed]
  refine frames_flatMap 0 _ fun frame member => ?_
  obtain ⟨payload, _, rfl⟩ := List.mem_map.mp member
  exact zero_notMem_stuff payload

/-- The framing round trip. Cut at its zero bytes, the concatenation of the encodings of any list
of payloads is one frame for each payload, in order, with nothing left over; an encoding is its
frame and its only zero byte; decoding a frame gives the payload and one zero; and that many
`readPacket` calls return exactly the payloads. -/
theorem encode_readPackets (payloads : List (List Byte)) (later : List RxEvent)
    (hw : HardwareInterface) :
    ∃ list : List (List Byte),
      frames 0 (payloads.flatMap encode) = (list, []) ∧
      List.Forall₂ (fun payload frame =>
        encode payload = frame ++ [0] ∧ (0 : Byte) ∉ frame ∧ decode frame = payload ++ [0])
        payloads list ∧
      HardwareInterface.readPackets payloads.length
          { hw with isOpen := true, incoming := (payloads.flatMap encode).map .byte ++ later } =
        (payloads.map fun payload => (true, payload),
          { hw with isOpen := true, incoming := later }) := by
  refine ⟨payloads.map (cobs.stuff []), frames_encode payloads, ?_,
    HardwareInterface.readPackets_encode payloads later hw⟩
  rw [List.forall₂_map_right_iff]
  exact List.forall₂_same.mpr fun payload _ =>
    ⟨encode_eq payload, zero_notMem_stuff payload, decode_stuff payload⟩

end Swagger.Host
