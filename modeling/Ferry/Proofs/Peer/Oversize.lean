import Ferry.Proofs.Peer.Exchange
import Ferry.Proofs.Text.Replacement

/-!
# Messages that are too large

A server does not look into a body beyond its limit. It says that the body is too large, whatever it
spells, and the service is not called. Names of programs have any length, so there are such messages
among the well-formed ones.
-/

namespace Ferry

namespace Peer

variable {σ : Type}

/-- What the sender of a hand-over learns if it is too large. -/
def Error.oversized : Error :=
  .status "execute" 413 "Failed to buffer the request body: length limit exceeded"

/-- A hand-over that is too large does not reach the service. -/
theorem answer_execute_of_large (service : Service σ) (state : σ) {request : ExecuteRequest}
    (large : maxMessage < (Wire.write request).length) :
    service.answer state request.toRequest = (tooLarge, state) := by
  rw [answer_toRequest_execute, Service.answerExecute, if_pos large]

/-- A text without success is an error that tells the status and the text as it was written. -/
theorem Caller.reply_text {α : Type} [Wire α] (caller : Caller) (operation text : String)
    {status : Nat} (failure : 300 ≤ status) :
    caller.reply (α := α) operation (.answered (.text status text)) =
      .error (.status operation status text) := by
  have not_below : decide (status < 300) = false := decide_eq_false (Nat.not_lt.mpr failure)
  have failed : (Response.text status text).isSuccess = false := by
    rw [Response.isSuccess, Response.text, not_below, Bool.and_false]
  have read : String.ofList (Text.decodeReplacing (Response.text status text).body) = text := by
    rw [Response.text, Text.decodeReplacing_ofText, String.ofList_toList]
  have refused : caller.body operation (.answered (.text status text)) =
      .error (.status operation status text) := by
    rw [body, failed, if_neg Bool.false_ne_true, read]
    rfl
  rw [reply, refused]

theorem Caller.reply_tooLarge (caller : Caller) :
    caller.reply (α := ExecuteReply) "execute" (.answered tooLarge) = .error .oversized :=
  caller.reply_text "execute" _ (by decide)

/-- A name of a number of letters. -/
def longName (letters : Nat) : String := String.ofList (List.replicate letters 'a')

theorem length_ofText_longName (letters : Nat) :
    (Bytes.ofText (longName letters)).length = letters := by
  have one_byte : (String.utf8EncodeChar 'a').length = 1 := by decide
  rw [Text.ofText_eq_flatMap, longName, String.toList_ofList, List.length_flatMap,
    List.map_replicate, List.sum_replicate_nat, one_byte, Nat.mul_one]

/-- A hand-over is longer than the name of its program. -/
theorem ExecuteRequest.length_program_lt (request : ExecuteRequest) :
    (Bytes.ofText request.program).length < (Wire.write request).length := by
  have number : (Wire.write request.program).length =
      (Wire.writeNumber (Bytes.ofText request.program).length).length +
        (Bytes.ofText request.program).length := List.length_append
  have id : (Wire.write request.session).length =
      (Wire.writeNumber 16).length + request.session.bytes.length := List.length_append
  rw [request.session.length_eq] at id
  rw [request.write_eq, List.length_append, List.length_append]
  omega

/-- A program can have so long a name that it is never handed over. -/
theorem ExecuteRequest.large_of_longName {request : ExecuteRequest}
    (named : request.program = longName maxMessage) :
    maxMessage < (Wire.write request).length := by
  have longer := request.length_program_lt
  rw [named, length_ofText_longName] at longer
  exact longer

end Peer

namespace Remote

/-- The sender of a hand-over that is too large learns so, and the peer stays as it is. -/
theorem Call.exchange_execute_of_large {σ : Type} (caller : Peer.Caller)
    (service : Peer.Service σ) (state : σ) {request : Peer.ExecuteRequest}
    (large : Peer.maxMessage < (Wire.write request).length) :
    (Call.execute request).exchange caller .up service state =
      (.execute (.error .oversized), state) := by
  have delivered : service.answer state (Call.execute request).toRequest =
      (Peer.tooLarge, state) := Peer.answer_execute_of_large service state large
  simp only [exchange, Peer.Link.send, delivered, answer, caller.reply_tooLarge]

end Remote

end Ferry
