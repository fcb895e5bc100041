import Ferry.Proofs.Peer.Admission
import Ferry.Proofs.Peer.Oversize

/-!
# The two ends of a call agree

While the network is up, a caller learns what the service says. The service is called once, for the
message that was sent, if the server lets the message through, and not at all otherwise. Its reply
is the result of the call; its failure comes as a status of 500 with the description, and a message
whose snapshot is not well formed as a status of 400. A server does not take bodies beyond its
limit: a message that is too large comes to a status of 413, whether or not it is well formed.
-/

namespace Ferry.Peer

open Wire

variable {σ α : Type}

/-- What a caller learns from what the service says. -/
def learned (operation : String) : Except Failure α → Except Error α
  | .ok reply => .ok reply
  | .error failure => .error (.status operation 500 failure.message)

namespace Caller

theorem reply_respond [Wire α] (caller : Caller) (operation : String)
    (back : ∀ reply : α, ReadsBack reply) (said : Except Failure α) :
    caller.reply operation (.answered (respond said)) = learned operation said := by
  cases said with
  | ok reply => exact Peer.reply_respond caller operation (back reply)
  | error failure => exact caller.reply_text operation failure.message (by decide)

variable (caller : Caller) (service : Service σ) (state : σ) {message : ExecuteRequest}

/-- A hand-over whose snapshot is well formed comes to what the service says. -/
theorem execute_of_sound (small : (Wire.write message).length ≤ maxMessage)
    (sound : message.check = .ok ()) :
    caller.execute .up service state message =
      (learned "execute" (service.execute state message).1, (service.execute state message).2) := by
  have delivered : service.answer state message.toRequest =
      (respond (service.execute state message).1, (service.execute state message).2) :=
    answer_execute small sound rfl
  simp only [execute, Link.send, delivered, caller.reply_respond "execute" readsBack_executeReply]

/-- Any other hand-over that is not too large comes to a refusal that does not depend on the
service. -/
theorem execute_of_unsound {failure : Failure} (small : (Wire.write message).length ≤ maxMessage)
    (unsound : message.check = .error failure) :
    caller.execute .up service state message =
      (.error (.status "execute" 400 (Error.codec "execute" failure.message).message), state) := by
  have delivered := answer_execute_of_unsound service state small unsound
  have isFailure : 300 ≤ 400 := by decide
  simp only [execute, Link.send, delivered, caller.reply_text "execute" _ isFailure]

/-- A hand-over that is too large comes to a refusal, whatever it says. -/
theorem execute_of_large (large : maxMessage < (Wire.write message).length) :
    caller.execute .up service state message = (.error .oversized, state) := by
  have delivered := answer_execute_of_large service state large
  simp only [execute, Link.send, delivered, caller.reply_tooLarge]

/-- A notice comes to what the service says. -/
theorem finish_up (session : SessionId) :
    caller.finish .up service state session =
      (learned "finish" (service.finish state ⟨session⟩).1, (service.finish state ⟨session⟩).2) := by
  have delivered : service.answer state (FinishRequest.toRequest ⟨session⟩) =
      (respond (service.finish state ⟨session⟩).1, (service.finish state ⟨session⟩).2) :=
    answer_finish rfl
  simp only [finish, Link.send, delivered, caller.reply_respond "finish" readsBack_finishReply]

end Caller

/-- A call to a service comes to a result and to a state, whether or not an account is kept of how the
service is called; what has been called is in the account. -/
structure Comes (call : {τ : Type} → Service τ → τ → Except Error α × τ) (service : Service σ)
    (state : σ) (result : Except Error α) (after : σ × List Remote.Call) : Prop where
  plain : call service state = (result, after.1)
  recorded : call service.recording (state, []) = (result, after)

/-- A result agrees with what the service says and does if the message is sound, with one call, and is
a refusal otherwise, without a call. -/
structure Agrees (operation : String) (sound : Prop) (call : Remote.Call) (state : σ)
    (served : Except Failure α × σ) (result : Except Error α)
    (after : σ × List Remote.Call) : Prop where
  called_once : sound → after = (served.2, [call])
  not_called : ¬ sound → after = (state, [])
  replied_iff : ∀ reply, result = .ok reply ↔ sound ∧ served.1 = .ok reply
  refused_iff : (∃ text, result = .error (.status operation 400 text)) ↔ ¬ sound
  failed_iff : ∀ text, result = .error (.status operation 500 text) ↔
    sound ∧ ∃ failure, served.1 = .error failure ∧ failure.message = text

namespace Agrees

variable {operation : String} {sound : Prop} {call : Remote.Call} {state : σ}
  {served : Except Failure α × σ}

theorem of_sound (holds : sound) :
    Agrees operation sound call state served (learned operation served.1) (served.2, [call]) := by
  obtain ⟨said, next⟩ := served
  constructor
  case called_once => exact fun _ => rfl
  case not_called => exact fun unsound => absurd holds unsound
  all_goals cases said <;> simp [learned, holds]

theorem of_refused {text : String} (fails : ¬ sound) :
    Agrees operation sound call state served (.error (.status operation 400 text)) (state, []) := by
  constructor
  case called_once => exact fun holds => absurd holds fails
  case not_called => exact fun _ => rfl
  all_goals simp [fails]

end Agrees

/-- Whatever the service is, a caller and a server agree on every message that the server takes. A
hand-over beyond the limit of the server is not looked at: the caller learns that it is too large,
and the service is not called. -/
theorem call_agrees (caller : Caller) (service : Service σ) (state : σ) :
    (∀ message, (Wire.write message).length ≤ maxMessage → ∃ result after,
      Comes (fun service state => caller.execute .up service state message) service state
        result after ∧
      Agrees "execute" (message.check = .ok ()) (.execute message) state
        (service.execute state message) result after) ∧
    (∀ message, maxMessage < (Wire.write message).length →
      Comes (fun service state => caller.execute .up service state message) service state
        (.error .oversized) (state, [])) ∧
    ∀ session, ∃ result after,
      Comes (fun service state => caller.finish .up service state session) service state
        result after ∧
      Agrees "finish" True (.finish ⟨session⟩) state (service.finish state ⟨session⟩)
        result after := by
  refine ⟨?_, ?_, ?_⟩
  · intro message small
    cases sound : message.check with
    | ok _ =>
        exact ⟨_, _, ⟨caller.execute_of_sound service state small sound,
          caller.execute_of_sound service.recording (state, []) small sound⟩, .of_sound rfl⟩
    | error failure =>
        exact ⟨_, _, ⟨caller.execute_of_unsound service state small sound,
          caller.execute_of_unsound service.recording (state, []) small sound⟩,
          .of_refused nofun⟩
  · exact fun message large => ⟨caller.execute_of_large service state large,
      caller.execute_of_large service.recording (state, []) large⟩
  · exact fun session => ⟨_, _, ⟨caller.finish_up service state session,
      caller.finish_up service.recording (state, []) session⟩, .of_sound trivial⟩

/-- A service that takes over as many computations as it has room for. -/
def Service.ofRoom : Service Nat where
  execute
    | 0, _ => (.error (.transport "execute" "no room – try again later"), 0)
    | room + 1, _ => (.ok ⟨true⟩, room)
  finish room _ := (.ok ⟨⟩, room + 1)

/-- With room for one computation, a hand-over is accepted; without, the caller learns the reason. A
hand-over whose snapshot is not well formed does not reach the service. -/
theorem call_agrees_ofRoom :
    let caller : Caller := { baseUrl := "http://peer:7070" }
    let sound : ExecuteRequest := .start strayRequest.session "fib"
    sound.check = .ok () ∧ strayRequest.check ≠ .ok () ∧
    caller.execute .up Service.ofRoom.recording (1, []) sound = (.ok ⟨true⟩, 0, [.execute sound]) ∧
    (caller.execute .up Service.ofRoom 0 sound).1 =
      .error (.status "execute" 500 "Transport error during execute: no room – try again later") ∧
    (∃ text, caller.execute .up Service.ofRoom.recording (1, []) strayRequest =
      (.error (.status "execute" 400 text), 1, [])) ∧
    caller.finish .up Service.ofRoom.recording (0, []) sound.session =
      (.ok ⟨⟩, 1, [.finish ⟨sound.session⟩]) := by
  intro caller sound
  have checked : sound.check = .ok () := rfl
  have unchecked : strayRequest.check ≠ .ok () := nofun
  have small : (Wire.write sound).length ≤ maxMessage := by decide +kernel
  have stray_small : (Wire.write strayRequest).length ≤ maxMessage := by decide +kernel
  obtain ⟨one, -, -⟩ := call_agrees caller Service.ofRoom 1
  obtain ⟨none, -, notices⟩ := call_agrees caller Service.ofRoom 0
  obtain ⟨result, after, ⟨-, accepted⟩, agrees⟩ := one sound small
  rw [(agrees.replied_iff ⟨true⟩).mpr ⟨checked, rfl⟩, agrees.called_once checked] at accepted
  obtain ⟨result, after, ⟨-, strayed⟩, agrees⟩ := one strayRequest stray_small
  obtain ⟨text, refused⟩ := agrees.refused_iff.mpr unchecked
  rw [refused, agrees.not_called unchecked] at strayed
  obtain ⟨result, after, ⟨full, -⟩, agrees⟩ := none sound small
  rw [(agrees.failed_iff _).mpr ⟨checked, _, rfl, rfl⟩] at full
  obtain ⟨result, after, ⟨-, told⟩, agrees⟩ := notices sound.session
  rw [(agrees.replied_iff ⟨⟩).mpr ⟨trivial, rfl⟩, agrees.called_once trivial] at told
  exact ⟨checked, unchecked, accepted, congrArg Prod.fst full, ⟨text, strayed⟩, told⟩

/-- A service that refuses everything for the same reason. -/
def Service.failing (failure : Failure) : Service Unit where
  execute _ _ := (.error failure, ())
  finish _ _ := (.error failure, ())

/-- A program whose name alone has the size of the limit is not handed over, although there is room
for it and the message is sound. So a caller and a server do not agree on messages of every size. And
a caller learns the text of a failure only, which two failures can share. -/
theorem longName_unserved_and_text_shared :
    (∃ (caller : Caller) (message : ExecuteRequest),
      message = .start strayRequest.session (longName maxMessage) ∧ message.check = .ok () ∧
      caller.execute .up Service.ofRoom.recording (1, []) message = (.error (.status "execute" 413
        "Failed to buffer the request body: length limit exceeded"), 1, [])) ∧
    (¬ ∀ (caller : Caller) (message : ExecuteRequest), ∃ result after,
      Comes (fun service state => caller.execute .up service state message) Service.ofRoom 1
        result after ∧
      Agrees "execute" (message.check = .ok ()) (.execute message) 1
        (Service.ofRoom.execute 1 message) result after) ∧
    ∃ (caller : Caller) (message : ExecuteRequest) (failure other : Failure),
      failure = .transport "a: b" "c" ∧ other = .transport "a" "b: c" ∧ failure ≠ other ∧
      caller.execute .up (Service.failing failure) () message =
        (.error (.status "execute" 500 other.message), ()) := by
  have caller : Caller := { baseUrl := "http://peer:7070" }
  obtain ⟨message, isMessage⟩ : ∃ message : ExecuteRequest,
      message = .start strayRequest.session (longName maxMessage) := ⟨_, rfl⟩
  have sound : message.check = .ok () := by rw [isMessage]; rfl
  have large : maxMessage < (Wire.write message).length :=
    ExecuteRequest.large_of_longName (by rw [isMessage]; rfl)
  have refused := caller.execute_of_large Service.ofRoom.recording (1, []) large
  refine ⟨⟨caller, message, isMessage, sound, refused⟩, fun agreed => ?_, ?_⟩
  · obtain ⟨result, after, comes, agrees⟩ := agreed caller message
    have same := congrArg Prod.snd (refused.symm.trans comes.recorded)
    rw [agrees.called_once sound] at same
    cases same
  · have small : (Wire.write (ExecuteRequest.start strayRequest.session "fib")).length ≤
        maxMessage := by decide +kernel
    have told := caller.execute_of_sound (Service.failing (.transport "a: b" "c")) () small rfl
    exact ⟨caller, _, _, _, rfl, rfl, by decide, told⟩

end Ferry.Peer
