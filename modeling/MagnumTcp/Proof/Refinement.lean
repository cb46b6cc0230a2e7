import MagnumTcp.Proof.Core
import MagnumTcp.Proof.Frame
import Mathlib.Tactic.SplitIfs

namespace MagnumTcp.Tcp

open MagnumTcp.Tcp.Core

namespace Connection

variable (c : Connection) (now : Instant) (seg : TcpSegment)

theorem acceptable_core :
    c.core.Acceptable seg ↔ (seg.header.flags.ack && c.acceptable seg) = true := by
  rw [Bool.and_eq_true]
  rfl

theorem updateRto_entries (q : RetransmitQueue) (rtts : List Duration) :
    (rtts.foldl RetransmitQueue.updateRto q).entries = q.entries := by
  induction rtts generalizing q with
  | nil => rfl
  | cons rtt rest ih => exact ih _

theorem acknowledge_core : (c.acknowledge now seg).core = c.core.acknowledge seg := by
  unfold acknowledge core Core.acknowledge RetransmitQueue.acknowledgeAndSampleRtt
  simp only [updateRto_entries, List.filter_map]
  rfl

theorem push_core (c : Connection) (now : Instant) (segment : U32 × Bytes) :
    (c.retransmitQueue.push now segment.1 segment.2).entries.map RetransmitEntry.segment =
      c.core.push segment := by
  unfold RetransmitQueue.push Core.push
  simp only [core, List.length_map]
  split_ifs
  · simp [RetransmitEntry.segment]
  · rfl

theorem insertPayload_core : (c.insertPayload seg).core = c.core.insert seg := by
  unfold insertPayload Core.insert
  cases h : c.recvBuf <;> simp [core, h]

/-! ## Handlers -/

def Refines (early : Bool) (result : Connection × Option Bytes) : Prop :=
  ∃ out, SegmentStep early seg c.core result.1.core out ∧
    result.2.toList = out.map SegmentBuilder.build

variable {c now seg} {early : Bool}

theorem refines_none {c' : Connection} (step : SegmentStep early seg c.core c'.core []) :
    c.Refines seg early (c', none) := ⟨[], step, rfl⟩

theorem refines_some {c' : Connection} {b : SegmentBuilder}
    (step : SegmentStep early seg c.core c'.core [b]) :
    c.Refines seg early (c', some b.build) := ⟨[b], step, rfl⟩

theorem idle_of_state (state : c.tcb.state = .listen ∨ c.tcb.state = .synSent ∨
    c.tcb.state = .synReceived ∨ c.tcb.state = .closeWait ∨ c.tcb.state = .timeWait ∨
    c.tcb.state = .closed) : c.core.Idle seg := by
  constructor <;> rcases state with h | h | h | h | h | h <;> simp [core, h]

theorem handleListen_core (state : c.tcb.state = .listen) :
    c.Refines seg early (c.handleListen seg) := by
  unfold handleListen
  dsimp only
  split_ifs with rst ack syn
  · exact refines_none (.ignore _ (idle_of_state (.inl state)))
  · exact refines_some (.refuse c.core (.inl state))
  · exact refines_none (.ignore _ (idle_of_state (.inl state)))
  · exact refines_some (.listenSyn c.core _ state (by simpa using syn))

theorem handleSynSent_core (state : c.tcb.state = .synSent) :
    c.Refines seg early (c.handleSynSent seg) := by
  unfold handleSynSent
  dsimp only
  split_ifs with rst both bad syn
  · exact refines_none (.reset c.core rst)
  · exact refines_some (.refuse c.core (.inr (.inl state)))
  · rw [Bool.and_eq_true] at both
    have good : c.core.Acceptable seg := (acceptable_core c seg).mpr (by simpa [both.2] using bad)
    exact refines_some (.synSentAck c.core _ state both.1 good)
  · exact refines_some (.synSentSyn c.core _ state syn)
  · exact refines_none (.ignore _ (idle_of_state (.inr (.inl state))))

theorem handleSynReceived_core (state : c.tcb.state = .synReceived) :
    c.Refines seg early (c.handleSynReceived seg) := by
  unfold handleSynReceived
  dsimp only
  split_ifs with rst again ack bad
  · exact refines_none (.relisten c.core state)
  · exact refines_some (.repeatSynAck c.core _ state)
  · exact refines_none (.ignore _ (idle_of_state (.inr (.inr (.inl state)))))
  · exact refines_some (.refuse c.core (.inr (.inr state)))
  · have good : c.core.Acceptable seg := (acceptable_core c seg).mpr (by simp_all)
    exact refines_none (.synReceivedAck c.core state good)

theorem core_congestion (cwnd ssthresh : U32) (dupAckCount : U8) :
    { c with
      tcb := { c.tcb with cwnd := cwnd, ssthresh := ssthresh, dupAckCount := dupAckCount } }.core =
      c.core := rfl

theorem fastRetransmitSegment_core (cwnd ssthresh : U32) (dupAckCount : U8) :
    { c with
      tcb := { c.tcb with
        cwnd := cwnd, ssthresh := ssthresh, dupAckCount := dupAckCount } }.fastRetransmitSegment =
      c.core.queue.head?.map fun segment => (c.core.data c.currentWindow segment).build := by
  unfold fastRetransmitSegment RetransmitQueue.firstUnacked
  simp only [core, List.head?_map, Option.map_map]
  rfl

theorem countDupAck_core :
    c.countDupAck.1.core = c.core ∧
      c.countDupAck.2 = if c.tcb.dupAckCount = 2#8 then
        c.core.queue.head?.map fun segment => (c.core.data c.currentWindow segment).build
      else none := by
  unfold countDupAck
  simp only [saturatingAdd_eq_three]
  split_ifs with third more
  · exact ⟨core_congestion _ _ _, fastRetransmitSegment_core _ _ _⟩
  · exact ⟨core_congestion _ _ _, rfl⟩
  · exact ⟨core_congestion _ _ _, rfl⟩

theorem establishedAck_core (now : Instant) (state : c.tcb.state = .established)
    (alive : seg.header.flags.rst = false) :
    (∃ segment, c.fastRetransmits seg = true ∧ c.core.queue.head? = some segment ∧
      (c.establishedAck now seg).1.core = c.core ∧
      (c.establishedAck now seg).2 = some ((c.core.data c.currentWindow segment).build)) ∨
    (c.fastRetransmits seg = false ∧ c.core.Acked seg (c.establishedAck now seg).1.core ∧
      (c.establishedAck now seg).2 = none) := by
  unfold establishedAck
  split_ifs with ack good dup
  · refine .inr ⟨by simp_all [fastRetransmits], .inl ⟨?_, rfl⟩, rfl⟩
    simp_all [acceptable_core]
  · have notDup : c.isDupAck seg = false := by
      cases h : c.isDupAck seg with
      | false => rfl
      | true => simp [not_acceptable_of_isDupAck h] at good
    refine .inr ⟨by simp [fastRetransmits, notDup], .inr ⟨?_, ?_⟩, rfl⟩
    · simp_all [acceptable_core]
    · rw [← acknowledge_core c now seg]
      rfl
  · obtain ⟨same, answer⟩ := c.countDupAck_core
    have unacceptable : ¬ c.core.Acceptable seg := by simp_all [acceptable_core]
    rw [answer]
    cases first : c.retransmitQueue.entries with
    | nil =>
        refine .inr ⟨by simp [fastRetransmits, first], .inl ⟨unacceptable, same⟩, ?_⟩
        simp [core, first]
    | cons e rest =>
        by_cases third : c.tcb.dupAckCount = 2#8
        · refine .inl ⟨e.segment, ?_, by simp [core, first], same, by simp [core, first, third]⟩
          simp_all [fastRetransmits]
        · exact .inr ⟨by simp [fastRetransmits, third], .inl ⟨unacceptable, same⟩, by simp [third]⟩
  · refine .inr ⟨by simp_all [fastRetransmits], .inl ⟨?_, rfl⟩, rfl⟩
    simp_all [acceptable_core]

theorem insert_acceptFin_of_nil (k : Core) (empty : seg.payload = []) (state : TcbState) :
    (k.insert seg).acceptFin seg state = k.acceptFin seg state := by
  unfold Core.insert
  cases h : k.recvBuf with
  | none => rfl
  | some rb => simp [Core.acceptFin, RecvBuffer.insert, empty, ← h]

theorem establishedReceive_core {c' : Connection} (state : c.tcb.state = .established)
    (alive : seg.header.flags.rst = false) (acked : c.core.Acked seg c'.core) :
    c.Refines seg false (c'.establishedReceive seg) := by
  unfold establishedReceive
  cases payload : seg.payload with
  | nil =>
      simp only [List.isEmpty_nil, if_true, Bool.not_true, Bool.false_and, Bool.false_eq_true,
        if_false]
      split_ifs with fin
      · have step : SegmentStep false seg _ _ _ := .receiveFin c.core c'.core
          (c'.acceptFin seg .closeWait).currentWindow state rfl alive acked fin
        rw [insert_acceptFin_of_nil _ payload] at step
        exact refines_some step
      · exact refines_none (.quiet _ _ state rfl acked payload (by simpa using fin))
  | cons b rest =>
      have nonempty : seg.payload ≠ [] := by simp [payload]
      simp only [List.isEmpty_cons, Bool.false_eq_true, if_false, Bool.not_false, Bool.true_and,
        Bool.not_eq_true']
      split_ifs with more fin
      · have step : SegmentStep false seg _ _ _ := .receive c.core c'.core
          (c'.insertPayload seg).currentWindow state rfl acked nonempty more
        rw [← insertPayload_core] at step
        exact refines_some step
      · have step : SegmentStep false seg _ _ _ := .receiveFin c.core c'.core
          ((c'.insertPayload seg).acceptFin seg .closeWait).currentWindow state rfl alive acked fin
        rw [← insertPayload_core] at step
        exact refines_some step
      · simp_all

theorem handleEstablished_core (state : c.tcb.state = .established) :
    c.Refines seg (c.fastRetransmits seg) (c.handleEstablished now seg) := by
  unfold handleEstablished
  split_ifs with rst
  · exact refines_none (.reset c.core rst)
  · have alive : seg.header.flags.rst = false := by simpa using rst
    rcases establishedAck_core now state alive with
      ⟨segment, third, first, same, answer⟩ | ⟨late, acked, answer⟩
    · cases branch : c.establishedAck now seg with
      | mk c' reply =>
          simp only [branch] at same answer
          subst answer
          refine refines_some ?_
          rw [same]
          exact .fastRetransmit c.core _ segment state third first
    · cases branch : c.establishedAck now seg with
      | mk c' reply =>
          simp only [branch] at acked answer
          subst answer
          rw [late]
          exact establishedReceive_core state alive acked

theorem handleCloseWait_core (state : c.tcb.state = .closeWait) :
    c.Refines seg early (c.handleCloseWait seg) := by
  unfold handleCloseWait
  split_ifs with rst
  · exact refines_none (.reset c.core rst)
  · exact refines_none (.ignore _ (idle_of_state (by simp [state])))

theorem handleFinWait1_core (state : c.tcb.state = .finWait1) :
    c.Refines seg early (c.handleFinWait1 now seg) := by
  unfold handleFinWait1
  dsimp only
  by_cases rst : seg.header.flags.rst = true
  · rw [if_pos rst]
    exact refines_none (.reset c.core rst)
  rw [if_neg rst]
  have alive : seg.header.flags.rst = false := by simpa using rst
  have booked := acknowledge_core c now seg
  by_cases good : c.core.Acceptable seg
  · have finAcked : seqLe c.tcb.snd.nxt seg.header.ackNum = true ↔ c.core.FinAcked seg :=
      ⟨fun le => ⟨good, le⟩, fun done => done.2⟩
    rw [(acceptable_core c seg).mp good, Bool.true_and, if_pos rfl]
    split_ifs with both done fin
    · rw [Bool.and_eq_true] at both
      have step : SegmentStep early seg _ _ _ := .finWait1Both c.core
        (c.acknowledge now seg).currentWindow state alive (finAcked.mp both.1) both.2
      rw [← booked] at step
      exact refines_some step
    · have step : SegmentStep early seg _ _ _ := .finWait1Done c.core state (finAcked.mp done)
        (by simpa [done] using both)
      rw [← booked] at step
      exact refines_none step
    · have step : SegmentStep early seg _ _ _ := .finWait1Fin c.core (c.acknowledge now seg).core
        (c.acknowledge now seg).currentWindow state alive (.inr ⟨good, booked⟩)
        (fun acked => done (finAcked.mpr acked)) fin
      exact refines_some step
    · have step : SegmentStep early seg _ _ _ := .finWait1Ack c.core state good
        (fun acked => done (finAcked.mpr acked)) (by simpa using fin)
      rw [← booked] at step
      exact refines_none step
  · have bad : (seg.header.flags.ack && c.acceptable seg) = false :=
      Bool.eq_false_of_not_eq_true fun h => good ((acceptable_core c seg).mpr h)
    simp only [bad, Bool.false_and, Bool.false_eq_true, if_false]
    split_ifs with fin
    · exact refines_some (.finWait1Fin c.core c.core c.currentWindow state alive (.inl ⟨good, rfl⟩)
        (fun acked => good acked.1) fin)
    · refine refines_none (.ignore _ ⟨?_, ?_, ?_⟩) <;> simp_all [core]

theorem handleFinWait2_core (state : c.tcb.state = .finWait2) :
    c.Refines seg early (c.handleFinWait2 now seg) := by
  unfold handleFinWait2
  split_ifs with rst fin
  · exact refines_none (.reset c.core rst)
  · exact refines_some (.finWait2Fin c.core _ state (by simpa using rst) fin)
  · refine refines_none (.ignore _ ⟨?_, ?_, ?_⟩) <;> simp_all [core]

theorem handleClosing_core (state : c.tcb.state = .closing) :
    c.Refines seg early (c.handleClosing now seg) := by
  unfold handleClosing
  split_ifs with rst good
  · exact refines_none (.reset c.core rst)
  · exact refines_none
      (.closingAck c.core state (by simpa using rst) ((acceptable_core c seg).mpr good))
  · rw [← acceptable_core] at good
    refine refines_none (.ignore _ ⟨?_, ?_, fun _ => good⟩) <;> simp [core, state]

theorem handleLastAck_core (state : c.tcb.state = .lastAck) :
    c.Refines seg early (c.handleLastAck seg) := by
  unfold handleLastAck
  split_ifs with rst good
  · exact refines_none (.reset c.core rst)
  · exact refines_none
      (.lastAckAck c.core state (by simpa using rst) ((acceptable_core c seg).mpr good))
  · rw [← acceptable_core] at good
    refine refines_none (.ignore _ ⟨?_, ?_, fun _ => good⟩) <;> simp [core, state]

theorem handleTimeWait_core (state : c.tcb.state = .timeWait) :
    c.Refines seg early (c.handleTimeWait seg) := by
  unfold handleTimeWait
  split_ifs with fin
  · exact refines_some (.timeWaitFin c.core _ state)
  · exact refines_none (.ignore _ (idle_of_state (by simp [state])))

theorem processSegment_core (c : Connection) (now : Instant) (seg : TcpSegment) :
    c.Refines seg (c.fastRetransmits seg) (c.processSegment now seg) := by
  unfold processSegment
  cases state : c.tcb.state with
  | listen => exact handleListen_core state
  | synSent => exact handleSynSent_core state
  | synReceived => exact handleSynReceived_core state
  | established => exact handleEstablished_core state
  | finWait1 => exact handleFinWait1_core state
  | finWait2 => exact handleFinWait2_core state
  | closeWait => exact handleCloseWait_core state
  | closing => exact handleClosing_core state
  | lastAck => exact handleLastAck_core state
  | timeWait => exact handleTimeWait_core state
  | closed => exact refines_none (.ignore _ (idle_of_state (by simp [state])))

/-! ## Calls -/

theorem segmentLimit_le (c : Connection) (maxPayload : Nat) :
    min maxPayload (c.effectiveWindow - c.inflight) ≤ 65535 := by
  have := c.tcb.snd.wnd.isLt
  have : c.effectiveWindow ≤ c.tcb.snd.wnd.toNat := Nat.min_le_right _ _
  omega

theorem nextSegmentToSend_core (c : Connection) (now : Instant) (maxPayload : Nat) :
    ∃ out, CoreStep (.nextSegmentToSend now maxPayload) c.core
        (c.nextSegmentToSend now maxPayload).1.core out ∧
      (c.nextSegmentToSend now maxPayload).2.toList = out.map SegmentBuilder.build := by
  unfold nextSegmentToSend
  split_ifs with full
  · exact ⟨[], .sendNothing _ _ _, rfl⟩
  · dsimp only
    cases next : c.sendBuf.nextSegment (min maxPayload (c.effectiveWindow - c.inflight)) with
    | none => exact ⟨[], .sendNothing _ _ _, rfl⟩
    | some segment =>
        have pushed := push_core c now segment
        refine ⟨[(c.core.sent segment).data c.currentWindow segment], ?_, ?_⟩
        · have step := CoreStep.send now maxPayload _ c.core segment c.currentWindow
            (c.segmentLimit_le maxPayload) next
          unfold Core.sent at step
          rw [← pushed] at step
          exact step
        · rfl

theorem expiredSegments_core (q : RetransmitQueue) (now : Instant) :
    (q.expiredSegments now).1.entries.map RetransmitEntry.segment =
        q.entries.map RetransmitEntry.segment ∧
      ∀ segment ∈ (q.expiredSegments now).2, segment ∈ q.entries.map RetransmitEntry.segment := by
  constructor
  · simp only [RetransmitQueue.expiredSegments, List.map_map]
    apply List.map_congr_left
    intro e _
    simp only [Function.comp_apply]
    split_ifs <;> rfl
  · intro segment member
    obtain ⟨e, late, rfl⟩ := List.mem_map.mp member
    exact List.mem_map.mpr ⟨e, List.mem_of_mem_filter late, rfl⟩

theorem takeRetransmits_core (c : Connection) (now : Instant) :
    ∃ out, CoreStep (.takeRetransmits now) c.core (c.takeRetransmits now).1.core out ∧
      (c.takeRetransmits now).2 = out.map SegmentBuilder.build := by
  obtain ⟨same, held⟩ := expiredSegments_core c.retransmitQueue now
  have after : (c.takeRetransmits now).1.core = c.core := by
    unfold takeRetransmits
    dsimp only
    split_ifs
    · simp only [core, same]
    · simp only [core, same]
  have window : (c.takeRetransmits now).1.currentWindow = c.currentWindow := by
    unfold takeRetransmits
    dsimp only
    split_ifs <;> rfl
  refine ⟨(c.retransmitQueue.expiredSegments now).2.map (c.core.data c.currentWindow), ?_, ?_⟩
  · rw [after]
    exact .retransmit now c.core _ _ held
  · rw [← after, ← window, List.map_map]
    rfl

theorem zeroWindowProbe_core (c : Connection) :
    ∃ out, CoreStep .zeroWindowProbe c.core c.zeroWindowProbe.1.core out ∧
      c.zeroWindowProbe.2.toList = out.map SegmentBuilder.build := by
  unfold zeroWindowProbe
  split_ifs with blocked
  · exact ⟨[], .probeNothing _, rfl⟩
  · have state : c.tcb.state = .established := by simp_all
    cases next : c.sendBuf.nextSegment 1 with
    | none => exact ⟨[], .probeNothing _, rfl⟩
    | some segment => exact ⟨[_], .probe c.core segment c.currentWindow state next, rfl⟩

theorem initiateClose_core (c : Connection) :
    ∃ out, CoreStep .initiateClose c.core c.initiateClose.1.core out ∧
      c.initiateClose.2.toList = out.map SegmentBuilder.build := by
  unfold initiateClose
  dsimp only
  cases state : c.tcb.state
  case established =>
    exact ⟨[_], .close c.core c.currentWindow .finWait1 (.inl ⟨state, rfl⟩), rfl⟩
  case closeWait =>
    exact ⟨[_], .close c.core c.currentWindow .lastAck (.inr ⟨state, rfl⟩), rfl⟩
  all_goals exact ⟨[], .closeNothing c.core (by simp [core, state]), rfl⟩

theorem tickTimeWait_core (c : Connection) (now : Instant) :
    CoreStep (.tickTimeWait now) c.core (c.tickTimeWait now).1.core [] := by
  unfold tickTimeWait
  split_ifs with other
  · exact .tickNothing _ _
  · cases c.timeWaitStart with
    | none => exact .tickNothing _ _
    | some start =>
        dsimp only
        split_ifs
        · exact .expire now c.core (not_not.mp other)
        · exact .tickNothing _ _

theorem connect_core (c : Connection) :
    ∃ out, CoreStep .connect c.core c.connect.1.core out ∧
      c.connect.2.toList = out.map SegmentBuilder.build := by
  unfold connect
  split_ifs with opened
  · exact ⟨[], .connectNothing c.core opened, rfl⟩
  · exact ⟨[_], .connect c.core (not_not.mp opened), rfl⟩

theorem readReceived_core (c : Connection) (bufLen : Nat) :
    CoreStep (.readReceived bufLen) c.core (c.readReceived bufLen).1.core [] := by
  have step := CoreStep.read bufLen c.core
  unfold readReceived
  cases buffer : c.recvBuf with
  | none => simpa [core, buffer] using step
  | some rb => simpa [core, buffer] using step

end Connection

theorem Session.step_core (s : Session) (event : Event) :
    ∃ out, CoreStep event s.conn.core (s.step event).conn.core out ∧
      s.output event = out.map SegmentBuilder.build := by
  cases event with
  | processSegment now seg =>
      obtain ⟨out, step, built⟩ := s.conn.processSegment_core now seg
      exact ⟨out, .segment step, built⟩
  | writeData data => exact ⟨[], .write data _, rfl⟩
  | nextSegmentToSend now maxPayload => exact s.conn.nextSegmentToSend_core now maxPayload
  | readReceived bufLen => exact ⟨[], s.conn.readReceived_core bufLen, rfl⟩
  | takeRetransmits now => exact s.conn.takeRetransmits_core now
  | initiateClose => exact s.conn.initiateClose_core
  | tickTimeWait now => exact ⟨[], s.conn.tickTimeWait_core now, rfl⟩
  | connect => exact s.conn.connect_core
  | zeroWindowProbe => exact s.conn.zeroWindowProbe_core

end MagnumTcp.Tcp
