import NootedDeck.Mmio.Mailbox

set_option autoImplicit false

namespace NootedDeck.Mmio

open Interleaving Mailbox

variable {mailboxes : Mailboxes} {firmware : Firmware}

section Accesses

theorem readMailbox_run {region : BitVec 32} (plain : mailboxes.aperture.Plain region)
    (mailbox : Mailbox) :
    (readMailbox mailboxes firmware region).run mailbox =
      some ((mailbox.act mailboxes firmware).reading region,
        (mailbox.act mailboxes firmware).reach mailboxes region) := by
  simp [readMailbox, onDevice_run, readRegion32Bit_run plain, reading, reach]

theorem writeMailbox_run {region : BitVec 32} (plain : mailboxes.aperture.Plain region)
    (value : BitVec 32) (mailbox : Mailbox) :
    (writeMailbox mailboxes firmware region value).run mailbox =
      some ((), ((mailbox.act mailboxes firmware).reach mailboxes region).setRegister region value
        none) := by
  simp [writeMailbox, onDevice_run, writeRegion32Bit_run plain, setRegister, reach]

theorem act_of_unanswered_nil {mailbox : Mailbox} (none : mailbox.unanswered = []) :
    mailbox.act mailboxes firmware = mailbox := by
  rw [act, none]

end Accesses

structure Idle (mailbox : Mailbox) (sent : Nat) : Prop where
  unanswered : mailbox.unanswered = []
  received : mailbox.received = sent
  overrun : mailbox.overrun = false

structure Awaiting (mailboxes : Mailboxes) (mailbox : Mailbox) (sent wait : Nat) : Prop where
  unanswered : mailbox.unanswered = [(sent, wait)]
  received : mailbox.received = sent + 1
  overrun : mailbox.overrun = false
  cleared : mailbox.reading mailboxes.c2pmsg90 = ⟨0, none⟩

structure Answered (mailboxes : Mailboxes) (firmware : Firmware) (mailbox : Mailbox)
    (sent : Nat) : Prop extends Idle mailbox (sent + 1) where
  response : mailbox.reading mailboxes.c2pmsg90 = ⟨firmware.response sent, some sent⟩
  result : mailbox.reading mailboxes.c2pmsg82 = ⟨firmware.result sent, some sent⟩

section Steps

theorem Idle.reach (mailboxes : Mailboxes) {mailbox : Mailbox} {sent : Nat}
    (idle : Idle mailbox sent) (region : BitVec 32) : Idle (mailbox.reach mailboxes region) sent :=
  ⟨idle.unanswered, idle.received, idle.overrun⟩

theorem Idle.setRegister {mailbox : Mailbox} {sent : Nat} (idle : Idle mailbox sent)
    (region value : BitVec 32) (message : Option Nat) :
    Idle (mailbox.setRegister region value message) sent :=
  ⟨idle.unanswered, idle.received, idle.overrun⟩

theorem Answered.reach {mailbox : Mailbox} {sent : Nat}
    (answered : Answered mailboxes firmware mailbox sent) (region : BitVec 32) :
    Answered mailboxes firmware (mailbox.reach mailboxes region) sent :=
  ⟨answered.toIdle.reach mailboxes region, by rw [reading_reach, answered.response],
    by rw [reading_reach, answered.result]⟩

theorem Awaiting.reach {mailbox : Mailbox} {sent wait : Nat}
    (awaiting : Awaiting mailboxes mailbox sent wait) (region : BitVec 32) :
    Awaiting mailboxes (mailbox.reach mailboxes region) sent wait :=
  ⟨awaiting.unanswered, awaiting.received, awaiting.overrun, by
    rw [reading_reach, awaiting.cleared]⟩

theorem Awaiting.act_wait (firmware : Firmware) {mailbox : Mailbox} {sent wait : Nat}
    (awaiting : Awaiting mailboxes mailbox sent (wait + 1)) :
    Awaiting mailboxes (mailbox.act mailboxes firmware) sent wait := by
  rw [act, awaiting.unanswered]
  exact ⟨rfl, awaiting.received, awaiting.overrun, awaiting.cleared⟩

theorem Awaiting.act_answer (firmware : Firmware) {mailbox : Mailbox} {sent : Nat}
    (awaiting : Awaiting mailboxes mailbox sent 0) :
    Answered mailboxes firmware (mailbox.act mailboxes firmware) sent := by
  rw [act, awaiting.unanswered]
  refine ⟨⟨rfl, awaiting.received, awaiting.overrun⟩, reading_setRegister_same .., ?_⟩
  rw [reading_setRegister_other mailboxes.c2pmsg82_ne_c2pmsg90, reading_setRegister_same]

end Steps

variable (mailboxes firmware)

section Polls

theorem pollResponse_idle {sent : Nat} (polls : Nat) (last : Reading) (mailbox : Mailbox)
    (idle : Idle mailbox sent) :
    ∃ returned final, (pollResponse mailboxes firmware polls last).run mailbox =
      some (returned, final) ∧ Idle final sent := by
  induction polls generalizing last mailbox with
  | zero => exact ⟨last, mailbox, rfl, idle⟩
  | succ polls ih =>
      simp only [pollResponse, Program.run_bind, readMailbox_run mailboxes.plain90,
        act_of_unanswered_nil idle.unanswered, Option.bind_some]
      split
      · exact ⟨_, _, rfl, idle.reach mailboxes _⟩
      · exact ih _ _ (idle.reach mailboxes _)

theorem pollResponse_answered {sent : Nat} (polls wait : Nat) (inTime : wait < polls)
    (last : Reading) (mailbox : Mailbox) (awaiting : Awaiting mailboxes mailbox sent wait) :
    ∃ final, (pollResponse mailboxes firmware polls last).run mailbox =
      some (⟨firmware.response sent, some sent⟩, final) ∧
        Answered mailboxes firmware final sent := by
  induction polls generalizing wait last mailbox with
  | zero => omega
  | succ polls ih =>
      simp only [pollResponse, Program.run_bind, readMailbox_run mailboxes.plain90,
        Option.bind_some]
      cases wait with
      | zero =>
          have answered := awaiting.act_answer firmware
          rw [answered.response, if_pos (firmware.responds sent)]
          exact ⟨_, rfl, answered.reach _⟩
      | succ wait =>
          have waiting := awaiting.act_wait firmware
          rw [waiting.cleared, if_neg (not_not_intro rfl)]
          exact ih wait (by omega) _ _ (waiting.reach _)

theorem pollResponse_late {sent : Nat} (polls wait : Nat) (late : polls ≤ wait)
    (mailbox : Mailbox) (awaiting : Awaiting mailboxes mailbox sent wait) :
    ∃ final, (pollResponse mailboxes firmware polls ⟨0, none⟩).run mailbox =
      some (⟨0, none⟩, final) := by
  induction polls generalizing wait mailbox with
  | zero => exact ⟨mailbox, rfl⟩
  | succ polls ih =>
      obtain ⟨wait, rfl⟩ : ∃ earlier, wait = earlier + 1 := ⟨wait - 1, by omega⟩
      have waiting := awaiting.act_wait firmware
      simp only [pollResponse, Program.run_bind, readMailbox_run mailboxes.plain90,
        Option.bind_some, waiting.cleared]
      exact ih wait (by omega) _ (waiting.reach _)

theorem pollResponse_returns (polls : Nat) (last : Reading) (mailbox : Mailbox) :
    ∃ returned final, (pollResponse mailboxes firmware polls last).run mailbox =
      some (returned, final) := by
  induction polls generalizing last mailbox with
  | zero => exact ⟨last, mailbox, rfl⟩
  | succ polls ih =>
      simp only [pollResponse, Program.run_bind, readMailbox_run mailboxes.plain90,
        Option.bind_some]
      split
      · exact ⟨_, _, rfl⟩
      · exact ih _ _

end Polls

section Messages

theorem postMessage_returns (request : Request) (mailbox : Mailbox) :
    ∃ final, (postMessage mailboxes firmware request).run mailbox = some ((), final) := by
  simp [postMessage, writeMailbox_run mailboxes.plain66, writeMailbox_run mailboxes.plain82,
    writeMailbox_run mailboxes.plain90]

theorem postMessage_awaiting {sent : Nat} (request : Request) (mailbox : Mailbox)
    (idle : Idle mailbox sent) :
    ∃ final, (postMessage mailboxes firmware request).run mailbox = some ((), final) ∧
      Awaiting mailboxes final sent (firmware.delay sent) := by
  -- the firmware is at rest during the three writes
  have first := (idle.reach mailboxes mailboxes.c2pmsg82).setRegister
    mailboxes.c2pmsg82 request.parameter none
  have second := (first.reach mailboxes mailboxes.c2pmsg90).setRegister
    mailboxes.c2pmsg90 0 none
  have third := (second.reach mailboxes mailboxes.c2pmsg66).setRegister
    mailboxes.c2pmsg66 request.message none
  simp only [postMessage, Program.run_bind, writeMailbox_run mailboxes.plain82,
    writeMailbox_run mailboxes.plain90, writeMailbox_run mailboxes.plain66, Option.bind_some,
    act_of_unanswered_nil idle.unanswered, act_of_unanswered_nil first.unanswered,
    act_of_unanswered_nil second.unanswered, Program.run_modify]
  refine ⟨_, rfl, ?_, ?_, ?_, ?_⟩
  · simp only [receive, third.unanswered, third.received, List.nil_append]
  · simp only [receive, third.received]
  · simp only [receive, third.unanswered, third.overrun, List.isEmpty_nil, Bool.not_true, Bool.or_self]
  · change (setRegister _ _ _ _).reading _ = _
    rw [reading_setRegister_other mailboxes.c2pmsg66_ne_c2pmsg90.symm, reading_reach,
      reading_setRegister_same]

theorem readOutParameter_returns (wantsOut : Bool) (mailbox : Mailbox) :
    ∃ out final, (readOutParameter mailboxes firmware wantsOut).run mailbox = some (out, final) := by
  cases wantsOut <;>
    simp [readOutParameter, readMailbox_run mailboxes.plain82]

theorem readOutParameter_answered {sent : Nat} (wantsOut : Bool) (mailbox : Mailbox)
    (answered : Answered mailboxes firmware mailbox sent) :
    ∃ final, (readOutParameter mailboxes firmware wantsOut).run mailbox =
      some (if wantsOut then some ⟨firmware.result sent, some sent⟩ else none, final) ∧
        Idle final (sent + 1) := by
  cases wantsOut with
  | false => exact ⟨mailbox, rfl, answered.toIdle⟩
  | true =>
      refine ⟨mailbox.reach mailboxes mailboxes.c2pmsg82, ?_, answered.toIdle.reach mailboxes _⟩
      simp [readOutParameter, readMailbox_run mailboxes.plain82,
        act_of_unanswered_nil answered.unanswered, answered.result]

end Messages

section Calls

def Answer.PostedFor (answer : Answer) (firmware : Firmware) (sent : Nat) : Prop :=
  answer.response = ⟨firmware.response sent, some sent⟩ ∧
    ∀ out ∈ answer.outParameter, out = ⟨firmware.result sent, some sent⟩

variable (amdMaxUsecTimeout : Nat)

variable {mailboxes firmware amdMaxUsecTimeout} in
theorem sendMessageToSMC_run {request : Request} {mailbox rested posted replied final : Mailbox}
    {earlier response : Reading} {out : Option Reading}
    (waited : (smuWaitForResponse mailboxes firmware amdMaxUsecTimeout).run mailbox =
      some (earlier, rested))
    (sent : (postMessage mailboxes firmware request).run rested = some ((), posted))
    (polled : (smuWaitForResponse mailboxes firmware amdMaxUsecTimeout).run posted =
      some (response, replied))
    (reading : (readOutParameter mailboxes firmware request.wantsOut).run replied =
      some (out, final)) :
    (sendMessageToSMC mailboxes firmware amdMaxUsecTimeout request).run mailbox =
      some (⟨response, out⟩, final) := by
  simp only [sendMessageToSMC, Program.run_bind, waited, sent, polled, reading, Option.bind_some,
    Program.run_pure]

theorem sendMessageToSMC_returns (request : Request) (mailbox : Mailbox) :
    ∃ answer final, (sendMessageToSMC mailboxes firmware amdMaxUsecTimeout request).run mailbox =
      some (answer, final) := by
  obtain ⟨_, rested, waited⟩ :=
    pollResponse_returns mailboxes firmware amdMaxUsecTimeout ⟨0, none⟩ mailbox
  obtain ⟨posted, sent⟩ := postMessage_returns mailboxes firmware request rested
  obtain ⟨_, replied, polled⟩ :=
    pollResponse_returns mailboxes firmware amdMaxUsecTimeout ⟨0, none⟩ posted
  obtain ⟨_, final, reading⟩ :=
    readOutParameter_returns mailboxes firmware request.wantsOut replied
  exact ⟨_, final, sendMessageToSMC_run waited sent polled reading⟩

theorem postMessage_after_wait {sent : Nat} (request : Request) (mailbox : Mailbox)
    (idle : Idle mailbox sent) :
    ∃ earlier rested posted,
      (smuWaitForResponse mailboxes firmware amdMaxUsecTimeout).run mailbox =
        some (earlier, rested) ∧
      (postMessage mailboxes firmware request).run rested = some ((), posted) ∧
      Awaiting mailboxes posted sent (firmware.delay sent) := by
  obtain ⟨earlier, rested, waited, rest⟩ :=
    pollResponse_idle mailboxes firmware amdMaxUsecTimeout ⟨0, none⟩ mailbox idle
  obtain ⟨posted, sending, awaiting⟩ := postMessage_awaiting mailboxes firmware request rested rest
  exact ⟨earlier, rested, posted, waited, sending, awaiting⟩

theorem sendMessageToSMC_answered {sent : Nat} (request : Request) (mailbox : Mailbox)
    (idle : Idle mailbox sent) (inTime : firmware.delay sent < amdMaxUsecTimeout) :
    ∃ answer final, (sendMessageToSMC mailboxes firmware amdMaxUsecTimeout request).run mailbox =
      some (answer, final) ∧ answer.PostedFor firmware sent ∧ Idle final (sent + 1) := by
  obtain ⟨_, _, posted, waited, sending, awaiting⟩ :=
    postMessage_after_wait mailboxes firmware amdMaxUsecTimeout request mailbox idle
  obtain ⟨replied, polled, answered⟩ :=
    pollResponse_answered mailboxes firmware amdMaxUsecTimeout _ inTime ⟨0, none⟩ posted awaiting
  obtain ⟨final, reading, finished⟩ :=
    readOutParameter_answered mailboxes firmware request.wantsOut replied answered
  refine ⟨_, final, sendMessageToSMC_run waited sending polled reading, ⟨rfl, ?_⟩, finished⟩
  intro out asked
  cases wanted : request.wantsOut <;> simp_all

theorem sendMessageToSMC_late {sent : Nat} (request : Request) (mailbox : Mailbox)
    (idle : Idle mailbox sent) (late : amdMaxUsecTimeout ≤ firmware.delay sent) :
    ∃ answer final, (sendMessageToSMC mailboxes firmware amdMaxUsecTimeout request).run mailbox =
      some (answer, final) ∧ ¬ answer.PostedFor firmware sent := by
  obtain ⟨_, _, posted, waited, sending, awaiting⟩ :=
    postMessage_after_wait mailboxes firmware amdMaxUsecTimeout request mailbox idle
  obtain ⟨silent, polled⟩ :=
    pollResponse_late mailboxes firmware amdMaxUsecTimeout _ late posted awaiting
  obtain ⟨out, final, reading⟩ :=
    readOutParameter_returns mailboxes firmware request.wantsOut silent
  refine ⟨_, final, sendMessageToSMC_run waited sending polled reading, fun own => ?_⟩
  have same := congrArg Reading.postedFor own.1
  cases same

theorem sendMessages_returns (requests : List Request) (mailbox : Mailbox) :
    ∃ answers final, (sendMessages mailboxes firmware amdMaxUsecTimeout requests).run mailbox =
      some (answers, final) := by
  induction requests generalizing mailbox with
  | nil => exact ⟨[], mailbox, rfl⟩
  | cons request rest ih =>
      obtain ⟨answer, middle, first⟩ :=
        sendMessageToSMC_returns mailboxes firmware amdMaxUsecTimeout request mailbox
      obtain ⟨answers, final, later⟩ := ih middle
      exact ⟨answer :: answers, final, by simp [sendMessages, first, later]⟩

def Paired (firmware : Firmware) (sent : Nat) (answers : List Answer) (final : Mailbox) : Prop :=
  final.overrun = false ∧
    ∀ turn (answer : Answer), answers[turn]? = some answer → answer.PostedFor firmware (sent + turn)

variable {firmware} in
theorem paired_cons {sent : Nat} {answer : Answer} {answers : List Answer} {final : Mailbox} :
    Paired firmware sent (answer :: answers) final ↔
      answer.PostedFor firmware sent ∧ Paired firmware (sent + 1) answers final := by
  constructor
  · rintro ⟨orderly, own⟩
    refine ⟨own 0 answer rfl, orderly, fun turn other found => ?_⟩
    have later := own (turn + 1) other found
    rwa [Nat.add_left_comm, Nat.add_comm] at later
  · rintro ⟨own, orderly, later⟩
    refine ⟨orderly, fun turn other found => ?_⟩
    cases turn with
    | zero => cases found; exact own
    | succ turn =>
        have this := later turn other found
        rwa [Nat.add_right_comm] at this

theorem sendMessages_paired_iff (requests : List Request) (sent : Nat) (mailbox : Mailbox)
    (idle : Idle mailbox sent) :
    ∃ answers final, (sendMessages mailboxes firmware amdMaxUsecTimeout requests).run mailbox =
      some (answers, final) ∧
      (Paired firmware sent answers final ↔
        ∀ turn < requests.length, firmware.delay (sent + turn) < amdMaxUsecTimeout) := by
  induction requests generalizing mailbox sent with
  | nil => exact ⟨[], mailbox, rfl, by simp [Paired, idle.overrun]⟩
  | cons request rest ih =>
      by_cases inTime : firmware.delay sent < amdMaxUsecTimeout
      · obtain ⟨answer, middle, first, own, rested⟩ :=
          sendMessageToSMC_answered mailboxes firmware amdMaxUsecTimeout request mailbox idle inTime
        obtain ⟨answers, final, later, iff⟩ := ih (sent + 1) middle rested
        refine ⟨answer :: answers, final, by simp [sendMessages, first, later], ?_⟩
        rw [paired_cons, iff, List.length_cons, Nat.forall_lt_succ_left]
        simp only [own, inTime, true_and, Nat.add_zero, Nat.add_assoc, Nat.add_comm 1]
      · obtain ⟨answer, middle, first, foreign⟩ := sendMessageToSMC_late mailboxes firmware
          amdMaxUsecTimeout request mailbox idle (Nat.le_of_not_lt inTime)
        obtain ⟨answers, final, later⟩ :=
          sendMessages_returns mailboxes firmware amdMaxUsecTimeout rest middle
        refine ⟨answer :: answers, final, by simp [sendMessages, first, later], ?_⟩
        rw [paired_cons]
        exact iff_of_false (fun both => foreign both.1)
          (fun all => inTime (all 0 (Nat.succ_pos _)))

/--
From a mailbox with nothing unanswered, whatever its registers hold, the calls are paired with their
answers exactly if the firmware answers each message before the wait for it runs out.
-/
theorem sendMessages_answered_iff (requests : List Request) (device : Device)
    (postedFor : BitVec 32 → Option Nat) :
    ∃ answers final, (sendMessages mailboxes firmware amdMaxUsecTimeout requests).run
        ⟨device, postedFor, [], 0, false⟩ = some (answers, final) ∧
      (Paired firmware 0 answers final ↔
        ∀ turn < requests.length, firmware.delay turn < amdMaxUsecTimeout) := by
  have paired := sendMessages_paired_iff mailboxes firmware amdMaxUsecTimeout requests 0
    ⟨device, postedFor, [], 0, false⟩ ⟨rfl, rfl, rfl⟩
  simpa only [Nat.zero_add] using paired

def exampleMailboxes : Mailboxes where
  aperture := exampleAperture
  c2pmsg66 := 100
  c2pmsg82 := 101
  c2pmsg90 := 300
  plain66 := ⟨by decide, by decide⟩
  plain82 := ⟨by decide, by decide⟩
  plain90 := ⟨by decide, by decide⟩
  distinct := by decide

def lateFirmware : Firmware where
  delay := fun message => if message = 0 then 8 else 1
  result := fun message => BitVec.ofNat 32 (message + 50)
  response := fun _ => 1
  responds := fun _ => by decide

-- Both waits of the second call end too early: it writes its message while the first is unanswered
-- and takes the answer to the first for its own.
theorem late_answer_taken_for_next :
    ∃ answers final, (sendMessages exampleMailboxes lateFirmware 2
        [⟨3, 7, true⟩, ⟨4, 8, true⟩]).run ⟨⟨0, fun _ => 0⟩, fun _ => none, [], 0, false⟩ =
          some (answers, final) ∧
      answers = [⟨⟨0, none⟩, some ⟨7, none⟩⟩, ⟨⟨1, some 0⟩, some ⟨50, some 0⟩⟩] ∧
      final.overrun = true ∧ ¬ Paired lateFirmware 0 answers final := by
  refine ⟨_, _, rfl, rfl, rfl, fun paired => ?_⟩
  cases paired.1

end Calls

end NootedDeck.Mmio
