/-
**A target with a memory access port.**

The debug port has a SELECT register and a read buffer, and access port 0 is a MEM-AP: through its
registers CSW, TAR and DRW it accesses a memory of words. AP reads are posted: a read returns the
result of the one before, and RDBUFF returns the last result.

`Surroundings` is everything else about the target, all of it arbitrary: which transactions are
acknowledged, the other registers and access ports, the status bits of CSW, what a connect leaves in
SELECT, and what an access to AP 0 beside the three registers does. A transaction that is not
acknowledged OK has no effect on the registers and the memory.
-/

import Swagger.Firmware.SwdTarget

namespace Swagger.Firmware

/-! ### The access port -/

/-- The address of the word in which an address lies. -/
def wordAddress (address : Word) : Word := address &&& 0xFFFFFFFC

/-- The bits of CSW that report the state of the port. -/
def cswStatus : Word := 0xC0

/-- A MEM-AP, and the memory behind it by the addresses of the words. -/
structure MemAp where
  csw : Word
  tar : Word
  memory : Word → Word

namespace MemAp

/-- CSW asks for the increment of a single transfer. -/
def Increments (memAp : MemAp) : Prop := memAp.csw &&& 0x30 = 0x10

instance (memAp : MemAp) : Decidable memAp.Increments := inferInstanceAs (Decidable (_ = _))

/-- Behind an access through DRW. -/
def advance (memAp : MemAp) : MemAp :=
  { memAp with tar := if memAp.Increments then memAp.tar + 4 else memAp.tar }

/-- An access to one of the three registers; `bits` are A[3:2] of its address. -/
def read (bits : BitVec 2) (status : Word) (memAp : MemAp) : Word × MemAp :=
  if bits = 0 then (memAp.csw &&& ~~~cswStatus ||| status &&& cswStatus, memAp)
  else if bits = 1 then (memAp.tar, memAp)
  else (memAp.memory (wordAddress memAp.tar), memAp.advance)

def write (bits : BitVec 2) (data : Word) (memAp : MemAp) : MemAp :=
  if bits = 0 then { memAp with csw := data }
  else if bits = 1 then { memAp with tar := data }
  else
    let memory := Function.update memAp.memory (wordAddress memAp.tar) data
    { memAp.advance with memory }

end MemAp

/-! ### The debug port -/

/-- The access port that SELECT names. -/
def apSel (select : Word) : Word := select &&& 0xFF000000

/-- An AP request reaches CSW, TAR or DRW. -/
def ReachesMemAp (select : Word) (request : Request) : Prop :=
  select &&& apMask = 0 ∧ request.a23 ≠ 2

instance (select : Word) (request : Request) : Decidable (ReachesMemAp select request) :=
  inferInstanceAs (Decidable (_ ∧ _))

/-- A target with a MEM-AP; `rest` is the state of everything else. -/
structure MemTarget (ε : Type) where
  rest : ε
  select : Word
  rdbuff : Word
  memAp : MemAp

/-- Everything else about the target. -/
structure Surroundings (ε : Type) where
  rest : SwdTarget ε
  /-- An access to AP 0 that reaches none of the three registers. -/
  elsewhere : Request → Word → MemTarget ε → Word × MemTarget ε
  setReset : Bool → MemTarget ε → MemTarget ε
  /-- The acknowledgement, the IDCODE, the rest of the target, and SELECT. -/
  connect : MemTarget ε → Byte × Word × ε × Word

namespace Surroundings

variable {ε : Type} (around : Surroundings ε)

/-- The result of an AP read that is acknowledged OK; `word` is what the rest of the target
answers. -/
def apRead (request : Request) (word : Word) (target : MemTarget ε) : Word × MemTarget ε :=
  if ReachesMemAp target.select request then
    let (result, memAp) := target.memAp.read request.a23 word
    (result, { target with memAp })
  else if apSel target.select = 0 then around.elsewhere request word target
  else (word, target)

/-- A read that is acknowledged OK: an AP read is posted. -/
def read (request : Request) (word : Word) (target : MemTarget ε) : Word × MemTarget ε :=
  if request.apNotDp then
    let (result, after) := around.apRead request word target
    (target.rdbuff, { after with rdbuff := result })
  else if request.a23 = 3 then (target.rdbuff, target)
  else (word, target)

/-- A write that is acknowledged OK. -/
def write (request : Request) (data : Word) (target : MemTarget ε) : MemTarget ε :=
  if request.apNotDp then
    if ReachesMemAp target.select request then
      { target with memAp := target.memAp.write request.a23 data }
    else if apSel target.select = 0 then (around.elsewhere request data target).2
    else target
  else if request.a23 = 2 then { target with select := data }
  else target

/-- The target as a whole. -/
def target : SwdTarget (MemTarget ε) where
  respond request target :=
    let (ack, word, rest) := around.rest.respond request target.rest
    if ack = .ok ∧ request.readNotWrite = true then
      let (word, target) := around.read request word { target with rest }
      (ack, word, target)
    else (ack, word, { target with rest })
  accept request data target :=
    around.write request data { target with rest := around.rest.accept request data target.rest }

end Surroundings

/-! ### Transactions -/

/-- A target, transaction by transaction. -/
def SwdTarget.port {τ : Type} (target : SwdTarget τ) (setReset : Bool → τ → τ)
    (doConnect : τ → Byte × Word × τ) : SwdPort τ where
  setReset := setReset
  doConnect := doConnect
  doReadTransaction apNotDp a23 state :=
    let (ack, word, state) := target.respond (requestOf apNotDp true a23) state
    (ack.code, word, state)
  doWriteTransaction apNotDp a23 data state :=
    let request := requestOf apNotDp false a23
    let (ack, _, state) := target.respond request state
    (ack.code, if ack = .ok then target.accept request data state else state)

/-- The target with the MEM-AP; a connect may leave anything in SELECT. -/
def Surroundings.port {ε : Type} (around : Surroundings ε) : SwdPort (MemTarget ε) :=
  around.target.port around.setReset fun target =>
    let (ack, idcode, rest, select) := around.connect target
    (ack, idcode, { target with rest, select })

end Swagger.Firmware
