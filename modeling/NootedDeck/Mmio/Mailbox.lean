import NootedDeck.Mmio.Registers

set_option autoImplicit false

namespace NootedDeck.Mmio

open Interleaving

structure Mailboxes where
  aperture : Aperture
  c2pmsg66 : BitVec 32
  c2pmsg82 : BitVec 32
  c2pmsg90 : BitVec 32
  plain66 : aperture.Plain c2pmsg66
  plain82 : aperture.Plain c2pmsg82
  plain90 : aperture.Plain c2pmsg90
  distinct : [c2pmsg66, c2pmsg82, c2pmsg90].Nodup

namespace Mailboxes

variable (mailboxes : Mailboxes)

theorem c2pmsg66_ne_c2pmsg90 : mailboxes.c2pmsg66 ≠ mailboxes.c2pmsg90 := by
  have distinct := mailboxes.distinct
  simp only [List.nodup_cons, List.mem_cons, List.not_mem_nil, or_false, not_or] at distinct
  exact distinct.1.2

theorem c2pmsg82_ne_c2pmsg90 : mailboxes.c2pmsg82 ≠ mailboxes.c2pmsg90 := by
  have distinct := mailboxes.distinct
  simp only [List.nodup_cons, List.mem_cons, List.not_mem_nil, or_false] at distinct
  exact distinct.2.1

end Mailboxes

structure Firmware where
  delay : Nat → Nat
  result : Nat → BitVec 32
  response : Nat → BitVec 32
  responds : ∀ message, response message ≠ 0

/-- `postedFor` remembers the message a register was last written for by the firmware. -/
structure Mailbox where
  device : Device
  postedFor : BitVec 32 → Option Nat
  unanswered : List (Nat × Nat)
  received : Nat
  overrun : Bool

structure Reading where
  value : BitVec 32
  postedFor : Option Nat
deriving DecidableEq

variable (mailboxes : Mailboxes) (firmware : Firmware)

namespace Mailbox

def setRegister (region value : BitVec 32) (message : Option Nat) (mailbox : Mailbox) : Mailbox :=
  { mailbox with
    device := { mailbox.device with
      registers := Function.update mailbox.device.registers region value }
    postedFor := Function.update mailbox.postedFor region message }

def reading (mailbox : Mailbox) (region : BitVec 32) : Reading :=
  ⟨mailbox.device.registers region, mailbox.postedFor region⟩

@[simp] theorem reading_setRegister_same (region value : BitVec 32) (message : Option Nat)
    (mailbox : Mailbox) :
    (mailbox.setRegister region value message).reading region = ⟨value, message⟩ := by
  simp [reading, setRegister]

theorem reading_setRegister_other {region other : BitVec 32} (different : other ≠ region)
    (value : BitVec 32) (message : Option Nat) (mailbox : Mailbox) :
    (mailbox.setRegister region value message).reading other = mailbox.reading other := by
  simp [reading, setRegister, different]

def reach (region : BitVec 32) (mailbox : Mailbox) : Mailbox :=
  { mailbox with device := reached mailboxes.aperture region mailbox.device }

@[simp] theorem reading_reach (region other : BitVec 32) (mailbox : Mailbox) :
    (mailbox.reach mailboxes region).reading other = mailbox.reading other := by
  simp [reading, reach]

-- The firmware works on one message at a time, the oldest.
def act (mailbox : Mailbox) : Mailbox :=
  match mailbox.unanswered with
  | [] => mailbox
  | (message, wait + 1) :: rest => { mailbox with unanswered := (message, wait) :: rest }
  | (message, 0) :: rest =>
      { mailbox with unanswered := rest }
        |>.setRegister mailboxes.c2pmsg82 (firmware.result message) (some message)
        |>.setRegister mailboxes.c2pmsg90 (firmware.response message) (some message)

def receive (mailbox : Mailbox) : Mailbox :=
  { mailbox with
    unanswered := mailbox.unanswered ++ [(mailbox.received, firmware.delay mailbox.received)]
    received := mailbox.received + 1
    overrun := mailbox.overrun || !mailbox.unanswered.isEmpty }

end Mailbox

open Mailbox

def onDevice {α : Type} (program : Program Device α) : Program Mailbox α :=
  program.focus Mailbox.device fun device mailbox => { mailbox with device := device }

theorem onDevice_run {α : Type} (program : Program Device α) (mailbox : Mailbox) :
    (onDevice program).run mailbox =
      (program.run mailbox.device).map fun result =>
        (result.1, { mailbox with device := result.2 }) := by
  apply Program.run_focus <;> intros <;> rfl

def readMailbox (region : BitVec 32) : Program Mailbox Reading := do
  Program.modify (act mailboxes firmware)
  let mailbox ← Program.get
  let value ← onDevice (readRegion32Bit mailboxes.aperture region)
  return ⟨value, mailbox.postedFor region⟩

def writeMailbox (region value : BitVec 32) : Program Mailbox Unit := do
  Program.modify (act mailboxes firmware)
  onDevice (writeRegion32Bit mailboxes.aperture region value)
  Program.modify fun mailbox =>
    { mailbox with postedFor := Function.update mailbox.postedFor region none }

def pollResponse : Nat → Reading → Program Mailbox Reading
  | 0, returnValue => pure returnValue
  | polls + 1, _ => do
      let returnValue ← readMailbox mailboxes firmware mailboxes.c2pmsg90
      if returnValue.value ≠ 0 then pure returnValue else pollResponse polls returnValue

def smuWaitForResponse (amdMaxUsecTimeout : Nat) : Program Mailbox Reading :=
  pollResponse mailboxes firmware amdMaxUsecTimeout ⟨0, none⟩

structure Request where
  message : BitVec 32
  parameter : BitVec 32
  wantsOut : Bool

structure Answer where
  response : Reading
  outParameter : Option Reading
deriving DecidableEq

def postMessage (request : Request) : Program Mailbox Unit := do
  writeMailbox mailboxes firmware mailboxes.c2pmsg82 request.parameter
  writeMailbox mailboxes firmware mailboxes.c2pmsg90 0
  writeMailbox mailboxes firmware mailboxes.c2pmsg66 request.message
  -- this write is what hands the message to the firmware
  Program.modify (receive firmware)

def readOutParameter (wantsOut : Bool) : Program Mailbox (Option Reading) :=
  match wantsOut with
  | true => do
      let reading ← readMailbox mailboxes firmware mailboxes.c2pmsg82
      return some reading
  | false => pure none

def sendMessageToSMC (amdMaxUsecTimeout : Nat) (request : Request) : Program Mailbox Answer := do
  let _ ← smuWaitForResponse mailboxes firmware amdMaxUsecTimeout
  postMessage mailboxes firmware request
  let response ← smuWaitForResponse mailboxes firmware amdMaxUsecTimeout
  let outParameter ← readOutParameter mailboxes firmware request.wantsOut
  return ⟨response, outParameter⟩

def sendMessages (amdMaxUsecTimeout : Nat) : List Request → Program Mailbox (List Answer)
  | [] => pure []
  | request :: rest => do
      let answer ← sendMessageToSMC mailboxes firmware amdMaxUsecTimeout request
      let answers ← sendMessages amdMaxUsecTimeout rest
      return answer :: answers

end NootedDeck.Mmio
