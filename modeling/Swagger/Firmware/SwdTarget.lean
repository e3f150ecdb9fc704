/-
**A target on the wire.**

A debug port answers each request with an acknowledgement, and a read that is acknowledged OK with
a word; a write that is acknowledged OK is followed by its word (`SwdTarget`). Nothing is assumed
about the answers.

`TargetState.step` is what the port does at a rising clock edge: it waits for a start bit, takes in
the seven bits of a header behind it, gives its acknowledgement, and sends or takes in the 33 bits
of the data phase, with one turnaround cycle wherever the line changes hands. `TargetState.drives`
is the level it puts on the line, when the line is its own. A transfer is recorded in the log when
it is over.
-/

import Swagger.Firmware.MidLevel

namespace Swagger.Firmware

/-! ### Requests and answers -/

inductive Ack
  | ok
  | wait
  | fault
  deriving DecidableEq, Repr

/-- The three bits of an acknowledgement, as a number. -/
def Ack.code : Ack → Byte
  | .ok => 1
  | .wait => 2
  | .fault => 4

theorem Ack.code_ok : Ack.ok.code = swdOk := rfl

/-- What the header of a transfer asks for. -/
structure Request where
  apNotDp : Bool
  readNotWrite : Bool
  a23 : BitVec 2
  deriving DecidableEq, Repr

/-- What the arguments of a transaction ask for. -/
def requestOf (apNotDp readNotWrite : Bool) (address : Byte) : Request :=
  { apNotDp, readNotWrite, a23 := address.setWidth 2 }

/-- What a debug port does with requests, in a state of its own. -/
structure SwdTarget (τ : Type) where
  respond : Request → τ → Ack × Word × τ
  accept : Request → Word → τ → τ

/-- A transfer that is over: the data, if there was a data phase, and whether its parity was
even. -/
structure Transfer where
  request : Request
  ack : Ack
  data : Option Word
  parity : Bool
  deriving DecidableEq, Repr

/-- What a request with its data amounts to at the target: the transfer, and the state behind it. -/
def SwdTarget.transfer {τ : Type} (target : SwdTarget τ) (request : Request) (data : Word)
    (state : τ) : Transfer × τ :=
  let (ack, word, state) := target.respond request state
  if ack ≠ .ok then ({ request, ack, data := none, parity := true }, state)
  else if request.readNotWrite then ({ request, ack, data := some word, parity := true }, state)
  else ({ request, ack, data := some data, parity := true }, target.accept request data state)

namespace SwdTarget

variable {τ : Type} {target : SwdTarget τ} {request : Request} {before state : τ} {ack : Ack}
  {word : Word}

theorem transfer_refused (answer : target.respond request before = (ack, word, state))
    (refused : ack ≠ .ok) (data : Word) :
    target.transfer request data before =
      ({ request, ack, data := none, parity := true }, state) := by
  unfold transfer
  rw [answer]
  exact if_pos refused

theorem transfer_read (answer : target.respond request before = (.ok, word, state))
    (read : request.readNotWrite = true) (data : Word) :
    target.transfer request data before =
      ({ request, ack := .ok, data := some word, parity := true }, state) := by
  unfold transfer
  rw [answer]
  simp only
  rw [if_neg (not_not.mpr rfl), if_pos read]

theorem transfer_write (answer : target.respond request before = (.ok, word, state))
    (write : request.readNotWrite = false) (data : Word) :
    target.transfer request data before =
      ({ request, ack := .ok, data := some data, parity := true },
        target.accept request data state) := by
  unfold transfer
  rw [answer]
  simp only
  rw [if_neg (not_not.mpr rfl), write, if_neg Bool.false_ne_true]

end SwdTarget

/-! ### Bits -/

/-- The bits of a word, the lowest first. -/
def bitsOfWord (word : Word) : List Bool := (List.range 32).map word.getLsbD

/-- The word of 32 bits, the first one lowest. -/
def wordOfBits (bits : List Bool) : Word := (BitVec.ofBoolListLE bits).setWidth 32

/-- Whether the number of ones is odd. -/
def oddParity (bits : List Bool) : Bool := bits.foldr xor false

/-! ### The port, clock edge by clock edge -/

inductive TargetPhase
  | idle
  /-- These bits have come behind the start bit. -/
  | header (bits : List Bool)
  /-- The turnaround cycle in front of the acknowledgement. -/
  | turnaround (request : Request) (ack : Ack) (word : Word)
  | acknowledging (request : Request) (ack : Ack) (word : Word) (sent : Nat)
  | sending (request : Request) (word : Word) (sent : Nat)
  /-- The turnaround cycle in front of the data of a write. -/
  | yielding (request : Request)
  | receiving (request : Request) (bits : List Bool)
  /-- The turnaround cycle at the end. -/
  | ending (transfer : Transfer)
  /-- A header was malformed. -/
  | lost

structure TargetState (τ : Type) where
  phase : TargetPhase
  state : τ
  log : List Transfer

namespace TargetState

variable {τ : Type} (target : SwdTarget τ)

/-- The bit that the port drives in its phase. -/
def drives (port : TargetState τ) : Option Bool :=
  match port.phase with
  | .acknowledging _ ack _ sent => some (ack.code.getLsbD sent)
  | .sending _ word sent =>
      some (if sent < 32 then word.getLsbD sent else oddParity (bitsOfWord word))
  | _ => none

/-- The seventh bit behind the start bit completes the header. -/
def endHeader (apNotDp readNotWrite a2 a3 parity stop park : Bool) (port : TargetState τ) :
    TargetState τ :=
  if parity = oddParity [apNotDp, readNotWrite, a2, a3] ∧ stop = false ∧ park = true then
    let request : Request :=
      { apNotDp, readNotWrite, a23 := (BitVec.ofBoolListLE [a2, a3]).setWidth 2 }
    let (ack, word, state) := target.respond request port.state
    { port with phase := .turnaround request ack word, state }
  else { port with phase := .lost }

/-- The bit behind the data is their parity bit. -/
def endData (request : Request) (bits : List Bool) (port : TargetState τ) : TargetState τ :=
  let word := wordOfBits (bits.take 32)
  let even := !oddParity bits
  { phase := .idle
    state := if even then target.accept request word port.state else port.state
    log := port.log ++ [{ request, ack := .ok, data := some word, parity := even }] }

/-- One rising clock edge, with the level of the line. -/
def step (line : Bool) (port : TargetState τ) : TargetState τ :=
  match port.phase with
  | .idle => if line then { port with phase := .header [] } else port
  | .header [apNotDp, readNotWrite, a2, a3, parity, stop] =>
      port.endHeader target apNotDp readNotWrite a2 a3 parity stop line
  | .header bits => { port with phase := .header (bits ++ [line]) }
  | .turnaround request ack word => { port with phase := .acknowledging request ack word 0 }
  | .acknowledging request ack word sent =>
      if sent + 1 < 3 then { port with phase := .acknowledging request ack word (sent + 1) }
      else if ack ≠ .ok then
        { port with phase := .ending { request, ack, data := none, parity := true } }
      else if request.readNotWrite then { port with phase := .sending request word 0 }
      else { port with phase := .yielding request }
  | .sending request word sent =>
      if sent + 1 < 33 then { port with phase := .sending request word (sent + 1) }
      else { port with phase := .ending { request, ack := .ok, data := some word, parity := true } }
  | .yielding request => { port with phase := .receiving request [] }
  | .receiving request bits =>
      if bits.length + 1 < 33 then { port with phase := .receiving request (bits ++ [line]) }
      else port.endData target request (bits ++ [line])
  | .ending transfer => { port with phase := .idle, log := port.log ++ [transfer] }
  | .lost => port

end TargetState

/-! ### Laws of the bits -/

theorem length_bitsOfWord (word : Word) : (bitsOfWord word).length = 32 := by
  rw [bitsOfWord, List.length_map, List.length_range]

/-- Taking a word apart and putting it together again. -/
theorem wordOfBits_bitsOfWord (word : Word) : wordOfBits (bitsOfWord word) = word := by
  apply BitVec.eq_of_getLsbD_eq
  intro index small
  rw [wordOfBits, BitVec.getLsbD_setWidth, BitVec.getLsbD_ofBoolListLE, bitsOfWord,
    List.getD_eq_getElem?_getD, List.getElem?_map, List.getElem?_range small, Option.map_some,
    Option.getD_some, decide_eq_true small, Bool.true_and]

theorem oddParity_append (bits others : List Bool) :
    oddParity (bits ++ others) = (oddParity bits ^^ oddParity others) := by
  induction bits with
  | nil =>
      change oddParity others = (false ^^ oddParity others)
      rw [Bool.false_xor]
  | cons bit bits ih =>
      unfold oddParity at ih ⊢
      rw [List.cons_append, List.foldr_cons, List.foldr_cons, ih, Bool.xor_assoc]

/-- With its parity bit behind it, a list has even parity. -/
theorem oddParity_closed (bits : List Bool) : oddParity (bits ++ [oddParity bits]) = false := by
  rw [oddParity_append]
  change (oddParity bits ^^ (oddParity bits ^^ false)) = false
  rw [Bool.xor_false, Bool.xor_self]

end Swagger.Firmware
