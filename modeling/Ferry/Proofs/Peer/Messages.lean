import Ferry.Proofs.Peer.Exchange
import Ferry.Proofs.Wire.Measured
import Ferry.Proofs.Wire.SelfDelimiting

/-!
# Messages delimit themselves

The bytes of a message are the spellings of its parts, one after the other: a session id and a text
with their lengths, and a snapshot with a mark that tells whether there is one. The readers of messages
are exact. So a message comes back from its bytes, nothing is read from a beginning of them or from
more than them, and different messages have different bytes.
-/

namespace Ferry

namespace Wire

variable {α : Type}

/-- The bytes spell a zero, or a one and a value. -/
inductive Marked (spelled : Bytes → α → Prop) : Bytes → Option α → Prop where
  | none : Marked spelled [0] none
  | some {bytes : Bytes} {value : α} (spells : spelled bytes value) :
      Marked spelled (1 :: bytes) (some value)

theorem exact_option [Wire α] {spelled : Bytes → α → Prop}
    (exact : Exact (Wire.read (α := α)) spelled) :
    Exact (Wire.read (α := Option α)) (Marked spelled) := by
  intro input value rest
  constructor
  · intro taken
    cases input with
    | nil => cases taken
    | cons byte input =>
        simp only [Wire.read] at taken
        split at taken
        · rename_i zero
          cases taken
          exact ⟨[0], .none, by rw [zero, List.singleton_append]⟩
        split at taken
        · rename_i one
          obtain ⟨front, ⟨inner, spells, rfl⟩, rfl⟩ := ((exact.map some) _ _ _).mp taken
          exact ⟨1 :: front, .some spells, by rw [one, List.cons_append]⟩
        · cases taken
  · rintro ⟨_, spells, rfl⟩
    cases spells with
    | none => rfl
    | some spells => exact map_of_ok ((exact _ _ _).mpr ⟨_, spells, rfl⟩)

end Wire

namespace Peer

open Wire

/-- The bytes spell a request to take over a computation: its id, the name of its program, and perhaps
a snapshot. -/
inductive SpellsExecute : Bytes → ExecuteRequest → Prop where
  | intro {first second third : Bytes} {session : SessionId} {program : String}
      {snapshot : Option Snapshot} (spells_session : SpellsId first session)
      (spells_program : SpellsText second program)
      (spells_snapshot : Marked SpellsSnapshot third snapshot) :
      SpellsExecute (first ++ (second ++ third)) ⟨session, program, snapshot⟩

/-- The bytes spell a notice: the id of the computation that has ended. -/
def SpellsFinish (bytes : Bytes) (notice : FinishRequest) : Prop := SpellsId bytes notice.session

theorem exact_executeRequest : Exact (Wire.read (α := ExecuteRequest)) SpellsExecute := by
  refine (exact_sessionId.andThen fun session => exact_string.andThen fun program =>
    (exact_option exact_snapshot).map (ExecuteRequest.mk session program)).congr
      fun bytes request => ?_
  constructor
  · rintro ⟨_, _, _, rfl, session, _, _, _, rfl, program, _, snapshot, rfl⟩
    exact .intro session program snapshot
  · rintro ⟨session, program, snapshot⟩
    exact ⟨_, _, _, rfl, session, _, _, _, rfl, program, _, snapshot, rfl⟩

theorem exact_finishRequest : Exact (Wire.read (α := FinishRequest)) SpellsFinish := by
  refine (exact_sessionId.map FinishRequest.mk).congr fun bytes notice => ?_
  constructor
  · rintro ⟨session, spells, rfl⟩
    exact spells
  · intro spells
    exact ⟨notice.session, spells, rfl⟩

theorem steady_executeReply : Steady (Wire.read (α := ExecuteReply)) :=
  exact_bool.steady.map ExecuteReply.mk

theorem steady_finishReply : Steady (Wire.read (α := FinishReply)) := by
  intro input reply rest more taken
  cases taken
  rfl

/-- The messages of a kind come back from their bytes. What is cut off somewhere or has something
after it is refused, in the name of the operation that was to read it; and different messages have
different bytes. -/
structure SelfDelimiting (α : Type) [Wire α] (sendable : α → Prop) : Prop where
  reads_back : ∀ operation message, sendable message →
    decode operation (Wire.write message) = .ok message
  refuses_part : ∀ operation message part, sendable message → part <+: Wire.write message →
    part ≠ Wire.write message → ∃ reason, decode (α := α) operation part =
      .error (.codec operation reason)
  refuses_more : ∀ operation message more, sendable message → more ≠ [] →
    ∃ reason, decode (α := α) operation (Wire.write message ++ more) =
      .error (.codec operation reason)
  distinct : ∀ message other, sendable message → sendable other →
    Wire.write message = Wire.write other → message = other

/-- Messages delimit themselves if they read back and what is read does not depend on what follows. -/
theorem SelfDelimiting.of_steady {α : Type} [Wire α] {sendable : α → Prop}
    (steady : Steady (Wire.read (α := α)))
    (back : ∀ message, sendable message → ReadsBack message) : SelfDelimiting α sendable := by
  have reads_back : ∀ operation message, sendable message →
      decode operation (Wire.write message) = .ok message :=
    fun operation message sent => decode_write operation (back message sent)
  constructor
  case reads_back => exact reads_back
  case refuses_part =>
    intro operation message part sent within proper
    obtain ⟨cause, malformed⟩ :=
      decode_eq_malformed_of_isPrefix steady (back message sent) within proper
    exact ⟨cause.message, by rw [decode, malformed]⟩
  case refuses_more =>
    intro operation message more sent some_more
    have trailing := decode_append_eq_trailing (back message sent) some_more
    exact ⟨_, by rw [decode, trailing]⟩
  case distinct =>
    intro message other sent other_sent same
    have read := reads_back "" message sent
    rw [same, reads_back "" other other_sent] at read
    exact (Except.ok.inj read).symm

/-- The messages of all four kinds delimit themselves. Of a request to take over a computation the
name of the program and the sequences in the snapshot have lengths of 64 bits, as all sequences in
memory have; the snapshot need not be well formed. -/
theorem messages_selfDelimiting :
    SelfDelimiting ExecuteRequest ExecuteRequest.Countable ∧
    SelfDelimiting ExecuteReply (fun _ => True) ∧
    SelfDelimiting FinishRequest (fun _ => True) ∧
    SelfDelimiting FinishReply fun _ => True := by
  refine ⟨?_, ?_, ?_, ?_⟩
  · exact .of_steady exact_executeRequest.steady fun request countable => countable.readsBack
  · exact .of_steady steady_executeReply fun reply _ => readsBack_executeReply reply
  · exact .of_steady exact_finishRequest.steady fun notice _ => readsBack_finishRequest notice
  · exact .of_steady steady_finishReply fun reply _ => readsBack_finishReply reply

/-- A request with a snapshot that is not well formed. -/
def strayRequest : ExecuteRequest :=
  .resume ⟨List.replicate 16 255, rfl⟩ "fíb" ⟨false, [⟨4294967295, 128, [-1], []⟩], 0⟩

/-- It comes back like any other, unless its last byte is missing; and for the acknowledgement of a
notice one byte is too many. -/
theorem messages_selfDelimiting_stray :
    strayRequest.check ≠ .ok () ∧
    decode "execute" (Wire.write strayRequest) = .ok strayRequest ∧
    (∃ reason, decode (α := ExecuteRequest) "execute" (Wire.write strayRequest).dropLast =
      .error (.codec "execute" reason)) ∧
    ∃ reason, decode (α := FinishReply) "finish" (Wire.write FinishReply.mk ++ [0]) =
      .error (.codec "finish" reason) := by
  have countable : strayRequest.Countable := by
    refine ⟨by decide, ?_⟩
    rintro _ ⟨⟩
    refine ⟨by decide, ?_⟩
    intro frame member
    obtain rfl := List.mem_singleton.mp member
    exact ⟨by decide, by decide⟩
  obtain ⟨requests, -, -, acknowledgements⟩ := messages_selfDelimiting
  have back := requests.reads_back "execute" strayRequest countable
  refine ⟨nofun, back, requests.refuses_part "execute" strayRequest _ countable (List.dropLast_prefix _) ?_,
    acknowledgements.refuses_more "finish" ⟨⟩ [0] trivial (by decide)⟩
  intro same
  have shorter := congrArg List.length same
  rw [List.length_dropLast] at shorter
  have empty : Wire.write strayRequest = [] := List.eq_nil_of_length_eq_zero (by omega)
  rw [empty] at back
  cases back

end Peer

end Ferry
