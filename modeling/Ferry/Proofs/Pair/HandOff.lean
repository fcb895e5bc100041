import Ferry.Proofs.Pair.Course
import Ferry.Proofs.Pair.Serving

/-!
# Two hosts share one computation

On an undisturbed course two hosts that are each other's peers hand one computation to and fro. There
is always one share of it, in one of the hosts or under way, and this is the invariant that carries
everything else: a host that receives the computation has none of it, and a host that has completed
it is told nothing more.
-/

namespace Ferry

namespace Pair

variable {computation : Computation} {pair next : Pair} {event : Event}

/-- Whether a parcel is a message that hands the computation over. -/
def Parcel.handsOver : Parcel → Bool
  | .message _ _ (.execute _) => true
  | .message _ _ (.finish _) | .reply _ _ _ => false

/-- The computation was completed on one of the sides. -/
def Settled (pair : Pair) : Prop := ∃ side, (pair.host side).session.phase = .completed

/-- What travels is genuine, and tells of an end only after the computation was completed. -/
def Parcel.Genuine (computation : Computation) (pair : Pair) : Parcel → Prop
  | .message sender _ call => call.Genuine computation ∧
      ∀ request, call = .finish request → (pair.host sender).session.phase = .completed
  | .reply _ _ answer => answer.Genuine

/-- Two hosts share one computation: both serve it, what travels between them is genuine, and there
is one share of it. The second host never begins it. -/
structure Shares (computation : Computation) (pair : Pair) : Prop where
  serves : ∀ side, (pair.host side).Serves computation pair.Settled
  parcels : ∀ parcel ∈ pair.parcels, parcel.Genuine computation pair
  one : (pair.host .first).share + (pair.host .second).share +
    pair.parcels.countP Parcel.handsOver = 1
  waits : (pair.host .second).config.startImmediately = false

theorem share_setHost (pair : Pair) (side : Side) (host : Remote) :
    ((pair.setHost side host).host .first).share + ((pair.setHost side host).host .second).share +
        (pair.host side).share =
      (pair.host .first).share + (pair.host .second).share + host.share := by
  cases side <;> simp only [setHost, Pair.host] <;> omega

theorem countP_message (sender : Side) (run : Nat) (call : Option Remote.Call) :
    (call.toList.map (Parcel.message sender run)).countP Parcel.handsOver =
      call.elim 0 Remote.Call.share := by
  rcases call with - | (request | request) <;> rfl

/-- A reply takes the place of its message. -/
theorem countP_set_reply {position : Nat} {parcel : Parcel}
    (found : pair.parcels[position]? = some parcel) (sender : Side) (run : Nat)
    (answer : Remote.Answer) :
    (pair.parcels.set position (.reply sender run answer)).countP Parcel.handsOver +
        (if parcel.handsOver = true then 1 else 0) =
      pair.parcels.countP Parcel.handsOver := by
  obtain ⟨inside, here⟩ := List.getElem?_eq_some_iff.mp found
  have kept : (.reply sender run answer : Parcel).handsOver = false := rfl
  rw [List.countP_set inside, here, kept, if_neg Bool.false_ne_true, Nat.add_zero]
  apply Nat.sub_add_cancel
  split
  · rename_i handsOver
    exact List.countP_pos_iff.mpr ⟨parcel, List.mem_of_getElem? found, handsOver⟩
  · exact Nat.zero_le _

/-- A reply is taken out. -/
theorem countP_eraseIdx_reply {position : Nat} {sender : Side} {run : Nat} {answer : Remote.Answer}
    (found : pair.parcels[position]? = some (.reply sender run answer)) :
    (pair.parcels.eraseIdx position).countP Parcel.handsOver =
      pair.parcels.countP Parcel.handsOver := by
  obtain ⟨inside, here⟩ := List.getElem?_eq_some_iff.mp found
  have split_at : pair.parcels = pair.parcels.take position ++
      .reply sender run answer :: pair.parcels.drop (position + 1) := by
    rw [← here, ← List.drop_eq_getElem_cons inside, List.take_append_drop]
  have kept : (.reply sender run answer : Parcel).handsOver = false := rfl
  conv => rhs; rw [split_at]
  rw [List.eraseIdx_eq_take_drop_succ, List.countP_append, List.countP_append, List.countP_cons,
    kept, if_neg Bool.false_ne_true]
  rfl

namespace Shares

/-- The share of a side and that of the other side. -/
theorem share_other_le (shares : pair.Shares computation) (side : Side) :
    (pair.host side).share + (pair.host side.other).share +
      pair.parcels.countP Parcel.handsOver = 1 := by
  have one := shares.one
  cases side
  · exact one
  · simp only [Side.other]
    omega

/-- As long as a host works on the computation, nobody has completed it. -/
theorem not_settled (shares : pair.Shares computation) {side : Side}
    (active : (pair.host side).session.phase.isActive = true) : ¬ pair.Settled := by
  rintro ⟨place, completed⟩
  have one := shares.share_other_le side
  have mine := Phase.share_of_isActive active
  by_cases same : place = side
  · rw [same] at completed
    rw [completed] at active
    contradiction
  · have other : place = side.other := by
      revert same
      cases place <;> cases side <;> simp [Side.other]
    have theirs : (pair.host side.other).session.phase.share = 1 := by
      rw [← other, completed]
      rfl
    simp only [Remote.share, mine, theirs] at one
    omega

/-- As long as the computation travels, no host has a share of it. -/
theorem free (shares : pair.Shares computation) {sender : Side} {run : Nat}
    {request : Peer.ExecuteRequest} (travels : .message sender run (.execute request) ∈ pair.parcels)
    (side : Side) : (pair.host side).share = 0 := by
  have one := shares.share_other_le side
  have positive : 0 < pair.parcels.countP Parcel.handsOver :=
    List.countP_pos_iff.mpr ⟨_, travels, rfl⟩
  omega

/-- A step changes one host and what travels. -/
theorem change (shares : pair.Shares computation) {side : Side} {host : Remote}
    {parcels : List Parcel}
    (serves : ∀ later, (pair.Settled → later) → host.Serves computation later)
    (config : host.config = (pair.host side).config)
    (stays : (pair.host side).session.phase = .completed → host.session.phase = .completed)
    (one : host.share + parcels.countP Parcel.handsOver =
      (pair.host side).share + pair.parcels.countP Parcel.handsOver)
    (genuine : ∀ parcel ∈ parcels, parcel ∈ pair.parcels ∨
      parcel.Genuine computation (pair.setHost side host)) :
    ({ pair.setHost side host with parcels } : Pair).Shares computation := by
  have phase_stays : ∀ other, (pair.host other).session.phase = .completed →
      ((pair.setHost side host).host other).session.phase = .completed := by
    intro other completed
    rw [host_setHost]
    split
    · rename_i same
      rw [same] at completed
      exact stays completed
    · exact completed
  have weaker : pair.Settled → (pair.setHost side host).Settled := by
    rintro ⟨other, completed⟩
    exact ⟨other, phase_stays other completed⟩
  constructor
  · intro other
    change ((pair.setHost side host).host other).Serves computation (pair.setHost side host).Settled
    rw [host_setHost]
    split
    · exact serves _ weaker
    · exact (shares.serves other).mono weaker
  · intro parcel member
    change parcel.Genuine computation (pair.setHost side host)
    rcases genuine parcel member with earlier | new
    · have before := shares.parcels parcel earlier
      cases parcel with
      | message sender run call =>
          exact ⟨before.1, fun request isFinish => phase_stays _ (before.2 request isFinish)⟩
      | reply sender run answer => exact before
    · exact new
  · have before := shares.one
    have hosts := share_setHost pair side host
    change ((pair.setHost side host).host .first).share +
      ((pair.setHost side host).host .second).share + parcels.countP Parcel.handsOver = 1
    omega
  · change ((pair.setHost side host).host .second).config.startImmediately = false
    rw [host_setHost]
    split
    · rename_i same
      rw [config, ← same]
      exact shares.waits
    · exact shares.waits

/-- Something happens inside one host. -/
theorem inside (shares : pair.Shares computation) {side : Side} {event : Remote.Event}
    (proceeds : pair.Proceeds (.inside side event) next) : next.Shares computation := by
  rcases inside_cases proceeds.stepped with ⟨internal, host, call, stepped, rfl⟩
  have moves := Remote.moves_of_step stepped
  have noKey : ∀ action, event ≠ .key action := by
    rintro action rfl
    have admitted := proceeds.admitted
    contradiction
  have one := shares.share_other_le side
  have step : ∀ later, (pair.Settled → later) →
      Remote.Proceeds computation later (pair.host side) host call := fun later weaker =>
    (shares.serves side).proceeds moves internal noKey (proceeds.unfaulted side) (by omega)
      shares.not_settled weaker
  have passes := step pair.Settled id
  apply shares.change
  · exact fun later weaker => (step later weaker).serves
  · exact moves.config_eq
  · exact moves.phase_completed
  · have share := passes.share
    rw [List.countP_append, countP_message]
    omega
  · intro parcel member
    rcases List.mem_append.mp member with earlier | new
    · exact .inl earlier
    · obtain ⟨message, isCall, rfl⟩ := List.mem_map.mp new
      have sent : call = some message := Option.mem_toList.mp isCall
      refine .inr ⟨passes.genuine message sent, ?_⟩
      rintro request rfl
      rw [host_setHost, if_pos rfl]
      exact passes.told request sent

variable {position : Nat} {sender : Side} {run : Nat}

/-- A hand-over arrives. -/
theorem arrival_execute (shares : pair.Shares computation) {request : Peer.ExecuteRequest}
    (found : pair.parcels[position]? = some (.message sender run (.execute request)))
    (small : (Wire.write request).length ≤ Peer.maxMessage)
    (stepped : pair.arrive position = some next) : next.Shares computation := by
  have member := List.mem_of_getElem? found
  rcases shares.parcels _ member with ⟨genuine, -⟩
  have serves := shares.serves sender.other
  have share_zero := shares.free member sender.other
  have free : (pair.host sender.other).session.phase.share = 0 := Nat.eq_zero_of_add_eq_zero_left share_zero
  have takes := serves.takes genuine free
  have answered : Remote.service.execute (pair.host sender.other) request =
      (.ok ⟨true⟩, ((pair.host sender.other).takeOver request).2) :=
    Prod.ext (Remote.takeOver_accepts_iff.mpr takes) rfl
  have exchanged := Remote.Call.exchange_execute (pair.host sender).peer small takes.sound answered
  rw [arrive_message found exchanged] at stepped
  cases stepped
  apply shares.change
  · exact fun later weaker => (serves.takeOver genuine free weaker).1
  · exact (Remote.takeOver_moves _ request).config_eq
  · intro completed
    rw [completed] at free
    contradiction
  · have share := (serves.takeOver genuine free id).2
    have delivered := countP_set_reply found sender run (.execute (.ok ⟨true⟩))
    simp only [Parcel.handsOver, if_true] at delivered
    omega
  · intro parcel isParcel
    rcases List.mem_or_eq_of_mem_set isParcel with earlier | rfl
    · exact .inl earlier
    · exact .inr rfl

/-- A notice of the end arrives. -/
theorem arrival_finish (shares : pair.Shares computation) {request : Peer.FinishRequest}
    (found : pair.parcels[position]? = some (.message sender run (.finish request)))
    (stepped : pair.arrive position = some next) : next.Shares computation := by
  obtain ⟨-, told⟩ := shares.parcels _ (List.mem_of_getElem? found)
  have settled : pair.Settled := ⟨sender, told request rfl⟩
  have serves := shares.serves sender.other
  have answered : Remote.service.finish (pair.host sender.other) request =
      (.ok ⟨⟩, ((pair.host sender.other).takeNotice request).2) :=
    Prod.ext (Remote.takeNotice_fst _ request) rfl
  have exchanged := Remote.Call.exchange_finish (pair.host sender).peer answered
  rw [arrive_message found exchanged] at stepped
  cases stepped
  apply shares.change
  · exact fun later weaker => (serves.takeNotice settled request).1.mono weaker
  · exact (Remote.takeNotice_moves _ request).config_eq
  · intro completed
    rw [Remote.takeNotice_session]
    exact completed
  · have share := (serves.takeNotice settled request).2
    have delivered := countP_set_reply found sender run (.finish (.ok ⟨⟩))
    simp only [Parcel.handsOver, Bool.false_eq_true, if_false] at delivered
    omega
  · intro parcel isParcel
    rcases List.mem_or_eq_of_mem_set isParcel with earlier | rfl
    · exact .inl earlier
    · exact .inr rfl

/-- A reply arrives. -/
theorem arrival_reply (shares : pair.Shares computation) {answer : Remote.Answer}
    (found : pair.parcels[position]? = some (.reply sender run answer))
    (stepped : pair.arrive position = some next) : next.Shares computation := by
  rcases arrive_reply found stepped with ⟨host, call, answered, rfl⟩
  have genuine : answer.Genuine := shares.parcels _ (List.mem_of_getElem? found)
  have moves := Remote.moves_of_step answered
  have step := (shares.serves sender).answer moves genuine fun completed => ⟨sender, completed⟩
  apply shares.change
  · exact fun later weaker => step.1.mono weaker
  · exact moves.config_eq
  · exact moves.phase_completed
  · rw [step.2, countP_eraseIdx_reply found]
  · intro parcel isParcel
    exact .inl (List.mem_of_mem_eraseIdx isParcel)

/-- Every event of an undisturbed course leaves one share. -/
theorem proceeds (shares : pair.Shares computation) (proceeds : pair.Proceeds event next) :
    next.Shares computation := by
  cases event with
  | inside side event => exact shares.inside proceeds
  | arrival position =>
      have stepped : pair.arrive position = some next := proceeds.stepped
      have admitted := proceeds.admitted
      cases found : pair.parcels[position]? with
      | none => simp [arrive, found] at stepped
      | some parcel =>
          rcases parcel with ⟨sender, run, request | request⟩ | ⟨sender, run, answer⟩
          · rw [admits, found] at admitted
            exact shares.arrival_execute found (of_decide_eq_true admitted) stepped
          · exact shares.arrival_finish found stepped
          · exact shares.arrival_reply found stepped

end Shares

end Pair

end Ferry
