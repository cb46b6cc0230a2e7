import MagnumTcp.Proof.Sender

namespace MagnumTcp.Tcp

open MagnumTcp.Tcp.Core

inductive Leads : Event → TcbState → TcbState → Prop
  | stay (event : Event) (state : TcbState) : Leads event state state
  | reset (now : Instant) (seg : TcpSegment) (state : TcbState) :
      Leads (.processSegment now seg) state .closed
  | syn (now : Instant) (seg : TcpSegment) : Leads (.processSegment now seg) .listen .synReceived
  | relisten (now : Instant) (seg : TcpSegment) : Leads (.processSegment now seg) .synReceived .listen
  | synAck (now : Instant) (seg : TcpSegment) :
      Leads (.processSegment now seg) .synSent .established
  | simultaneousSyn (now : Instant) (seg : TcpSegment) :
      Leads (.processSegment now seg) .synSent .synReceived
  | ack (now : Instant) (seg : TcpSegment) :
      Leads (.processSegment now seg) .synReceived .established
  | fin (now : Instant) (seg : TcpSegment) :
      Leads (.processSegment now seg) .established .closeWait
  | finAcked (now : Instant) (seg : TcpSegment) :
      Leads (.processSegment now seg) .finWait1 .finWait2
  | finBoth (now : Instant) (seg : TcpSegment) :
      Leads (.processSegment now seg) .finWait1 .timeWait
  | finCrossing (now : Instant) (seg : TcpSegment) :
      Leads (.processSegment now seg) .finWait1 .closing
  | finAfter (now : Instant) (seg : TcpSegment) :
      Leads (.processSegment now seg) .finWait2 .timeWait
  | closingAcked (now : Instant) (seg : TcpSegment) :
      Leads (.processSegment now seg) .closing .timeWait
  | close : Leads .initiateClose .established .finWait1
  | closeAfter : Leads .initiateClose .closeWait .lastAck
  | expire (now : Instant) : Leads (.tickTimeWait now) .timeWait .closed
  | connect : Leads .connect .closed .synSent

theorem SegmentStep.leads {early : Bool} {now : Instant} {seg : TcpSegment} {c c' : Core}
    {out : List SegmentBuilder} (step : SegmentStep early seg c c' out) :
    Leads (.processSegment now seg) c.state c'.state := by
  cases step with
  | reset => exact .reset now seg _
  | relisten state => exact state ▸ .relisten now seg
  | listenSyn _ state => exact state ▸ .syn now seg
  | synSentAck _ state => exact state ▸ .synAck now seg
  | synSentSyn _ state => exact state ▸ .simultaneousSyn now seg
  | synReceivedAck state => exact state ▸ .ack now seg
  | quiet _ _ _ acked =>
      rw [acked.state]
      exact .stay _ _
  | receive k _ _ _ acked =>
      rw [insert_state, acked.state]
      exact .stay _ _
  | receiveFin _ _ state => exact state ▸ .fin now seg
  | finWait1Done state => exact state ▸ .finAcked now seg
  | finWait1Both _ state => exact state ▸ .finBoth now seg
  | finWait1Fin _ _ state => exact state ▸ .finCrossing now seg
  | finWait2Fin _ state => exact state ▸ .finAfter now seg
  | closingAck state => exact state ▸ .closingAcked now seg
  | lastAckAck => exact .reset now seg _
  | _ => exact .stay _ _

theorem CoreStep.leads {event : Event} {c c' : Core} {out : List SegmentBuilder}
    (step : CoreStep event c c' out) : Leads event c.state c'.state := by
  cases step with
  | segment step => exact step.leads
  | close _ _ _ able =>
      rcases able with ⟨state, rfl⟩ | ⟨state, rfl⟩
      · exact state ▸ .close
      · exact state ▸ .closeAfter
  | expire now _ state => exact state ▸ .expire now
  | connect _ state => exact state ▸ .connect
  | _ => exact .stay _ _

namespace Leads

variable {event : Event} {before after : TcbState}

theorem opening (leads : Leads event before after) (opening : after.opening = true) :
    before.opening = true ∨ event = .connect := by
  cases leads with
  | stay => exact .inl opening
  | syn => exact .inl rfl
  | relisten => exact .inl rfl
  | simultaneousSyn => exact .inl rfl
  | connect => exact .inr rfl
  | _ => cases opening

theorem opening_kept (leads : Leads event before after)
    (calls : ∀ now seg, event ≠ .processSegment now seg) (opening : before.opening = true) :
    after = before := by
  cases leads with
  | stay => rfl
  | close => cases opening
  | closeAfter => cases opening
  | expire => cases opening
  | connect => cases opening
  | _ => exact absurd rfl (calls _ _)

theorem established (leads : Leads event before .established) :
    before.opening = true ∨ before = .established := by
  cases leads with
  | stay => exact .inr rfl
  | synAck => exact .inl rfl
  | ack => exact .inl rfl

theorem listen (leads : Leads event before .listen) :
    before = .listen ∨ before = .synReceived ∧ ∃ now seg, event = .processSegment now seg := by
  cases leads with
  | stay => exact .inl rfl
  | relisten now seg => exact .inr ⟨rfl, now, seg, rfl⟩

end Leads

end MagnumTcp.Tcp
