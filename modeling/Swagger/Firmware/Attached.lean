/-
**The driver on the pins.**

`SwjBench.port` is the class with its pins, and `SwdTarget.port` the target transaction by
transaction. Once a connect has found the port they are alike (`ports_attached`), so the mid-level
driver on the pins does what it does on the transactions. The first connect is alike from every
state in which no transfer is going on, whatever is selected (`connect_attaches`).
-/

import Swagger.Firmware.Connect
import Swagger.Firmware.Alike
import Swagger.Firmware.MemAp

namespace Swagger.Firmware

section Ports

variable {τ : Type} (target : SwdTarget τ) (noise : Nat → Bool) (resets : Bool → τ → τ)

/-- What the reset pin does to the target, and to nothing else. -/
def SwjBench.reset (value : Bool) (bench : SwjBench τ) : SwjBench τ :=
  { bench with
    swj :=
      { bench.swj with port := { bench.swj.port with state := resets value bench.swj.port.state } } }

/-- The transactions of the class on its pins. -/
def SwjBench.port : SwdPort (SwjBench τ) :=
  (SwjBench.pins target noise).port (SwjBench.reset resets)

/-- What a connect is at the target: the identification is read. -/
def SwdTarget.identified (state : τ) : Byte × Word × τ :=
  let (ack, word, state) := target.respond identify.request state
  (ack.code, word, state)

/-- The target is at the end of the wire, and in this state. -/
structure Attached (bench : SwjBench τ) (state : τ) : Prop where
  mirrors : Mirrors 34 bench bench.alone
  idle : bench.swj.port.phase = .idle
  state : bench.swj.port.state = state

variable {target noise} {bench : SwjBench τ} {state : τ}

theorem Mirrors.attached {alone : Bench τ} (mirrors : Mirrors 34 bench alone)
    {port : TargetState τ} {result : Transfer × τ} (wire : alone.wire = port.closed result) :
    Attached bench result.2 := by
  have same := mirrors.port.trans wire
  have own : Mirrors 34 bench bench.alone := mirrors.alone.symm ▸ mirrors
  exact ⟨own, congrArg TargetState.phase same, congrArg TargetState.state same⟩

theorem Attached.call (attached : Attached bench state) (call : Call) :
    let result := target.transfer call.request call.data state
    (call.on (SwjBench.pins target noise) bench).1 = call.answer result.1 ∧
      Attached (call.on (SwjBench.pins target noise) bench).2 result.2 := by
  obtain ⟨mirrors, idle, rfl⟩ := attached
  obtain ⟨answer, mirrors'⟩ := call.on_mirrors target noise mirrors idle
  obtain ⟨told, wire⟩ := call.on_alone target noise bench.alone idle
  exact ⟨answer.trans told, mirrors'.attached wire⟩

/-! ### Transfers and transactions -/

theorem Ack.code_eq_ok {ack : Ack} (ok : ack.code = swdOk) : ack = .ok := by
  by_contra refused
  exact (Ack.refused refused).1 ok

/-- What a read amounts to. -/
theorem transfer_reads (request : Request) (reads : request.readNotWrite = true) (data : Word)
    (state : τ) :
    let result := target.transfer request data state
    let answer := target.respond request state
    result.1.ack = answer.1 ∧ result.2 = answer.2.2 ∧
      (answer.1 = .ok → result.1.data.getD data = answer.2.1) := by
  intro result answer
  rcases same : target.respond request state with ⟨ack, word, state'⟩
  by_cases ok : ack = .ok
  · subst ok
    unfold result answer
    rw [SwdTarget.transfer_read same reads, same]
    exact ⟨rfl, rfl, fun _ => rfl⟩
  · unfold result answer
    rw [SwdTarget.transfer_refused same ok, same]
    exact ⟨rfl, rfl, fun isOk => absurd isOk ok⟩

/-- What a write amounts to. -/
theorem transfer_writes (request : Request) (writes : request.readNotWrite = false) (data : Word)
    (state : τ) :
    let result := target.transfer request data state
    let answer := target.respond request state
    result.1.ack = answer.1 ∧
      result.2 = if answer.1 = .ok then target.accept request data answer.2.2 else answer.2.2 := by
  intro result answer
  rcases same : target.respond request state with ⟨ack, word, state'⟩
  by_cases ok : ack = .ok
  · subst ok
    unfold result answer
    rw [SwdTarget.transfer_write same writes, same]
    exact ⟨rfl, rfl⟩
  · unfold result answer
    rw [SwdTarget.transfer_refused same ok, same, if_neg ok]
    exact ⟨rfl, rfl⟩

/-- A read that returns what was transferred. -/
theorem reads_attached {call : Call} (reads : call.request.readNotWrite = true)
    {answer : Byte × Word × SwjBench τ}
    (answers : (answer.1, answer.2.1) =
      call.answer (target.transfer call.request call.data state).1)
    (attached : Attached answer.2.2 (target.transfer call.request call.data state).2) :
    ReadsAlike Attached swdOk answer
      ((target.respond call.request state).1.code, (target.respond call.request state).2.1,
        (target.respond call.request state).2.2) := by
  obtain ⟨ack, after, word⟩ := @transfer_reads τ target call.request reads call.data state
  rw [after] at attached
  refine ⟨(congrArg Prod.fst answers).trans (congrArg Ack.code ack), fun ok => ?_, attached⟩
  exact (congrArg Prod.snd answers).trans (word (Ack.code_eq_ok ok))

theorem identified_attached {connected : Byte × Word × SwjBench τ} {ready : Bench τ}
    (idle : ready.wire.phase = .idle)
    (answer : (connected.1, connected.2.1) = (identify.on (Bench.pins target noise) ready).1)
    (mirrors : Mirrors 34 connected.2.2 (identify.on (Bench.pins target noise) ready).2) :
    ReadsAlike Attached swdOk connected (target.identified ready.wire.state) := by
  obtain ⟨told, wire⟩ := identify.on_alone target noise ready idle
  exact reads_attached rfl (answer.trans told) (mirrors.attached wire)

/-- The first connect, from every state in which no transfer is going on. -/
theorem connect_attaches (rests : pending bench.swj.port.phase = 0) :
    ReadsAlike Attached swdOk ((SwjBench.pins target noise).doConnect bench)
      (target.identified bench.swj.port.state) := by
  obtain ⟨ready, idle, logged, answer, mirrors⟩ := doConnect_spec target noise bench
  rw [← logged.state rests]
  exact identified_attached idle answer mirrors

/-- The class on its pins, and the target transaction by transaction. -/
theorem ports_attached :
    PortsAlike Attached (SwjBench.port target noise resets)
      (target.port resets target.identified) where
  setReset value bench state attached := by
    obtain ⟨mirrors, idle, rfl⟩ := attached
    exact ⟨⟨mirrors.selected, mirrors.calm, mirrors.spare, rfl⟩, idle, rfl⟩
  doConnect {bench state} attached := by
    obtain ⟨mirrors, idle, rfl⟩ := attached
    have rests : pending bench.swj.port.phase = 0 := congrArg pending idle
    dsimp only [SwjBench.port, SWDInterfaceBase.port, SwdTarget.port]
    exact connect_attaches rests
  doReadTransaction apNotDp a23 bench state attached := by
    have called := @Attached.call τ target noise bench state attached (.read apNotDp a23 0)
    exact reads_attached rfl called.1 called.2
  doWriteTransaction apNotDp a23 data bench state attached := by
    obtain ⟨answers, after⟩ :=
      @Attached.call τ target noise bench state attached (.write apNotDp a23 data)
    obtain ⟨ack, written⟩ :=
      @transfer_writes τ target (requestOf apNotDp false a23) rfl data state
    refine ⟨(congrArg Prod.fst answers).trans (congrArg Ack.code ack), ?_⟩
    rw [Call.request, Call.data, written] at after
    exact after

end Ports

end Swagger.Firmware
