import MagnumTcp.Proof.Accounts
import MagnumTcp.Proof.Chaos
import MagnumTcp.Proof.Layers
import MagnumTcp.Proof.Pcap

namespace MagnumTcp

open Tcp

namespace HostRun

variable {r : HostRun}

inductive Passes (r : HostRun) : HostEvent → HostRun → Prop
  | stay (event : HostEvent) : Passes r event r
  | reads (raw : Bytes) (moment : Moment) (time : SystemTime) :
      Passes r (.readable raw moment time)
        { r with
          host := r.host.read (received raw) moment time
          captured := r.captured ++ [(time, received raw)] }
  | transmits (msg : OutboundMsg) (rest : List OutboundMsg) (now : Instant) (time : SystemTime)
      (queue : r.host.outbound = msg :: rest) :
      Passes r (.outbound now time)
        { r with
          host := r.host.transmit msg rest now time
          taken := r.taken + 1
          captured := r.captured ++ [(time, frameOutbound msg)] }
  | sends (id : Nat) (s : Spawned) (link : Link) (tcpBytes : Bytes)
      (spawned : r.host.dispatch.tasks[id]? = some s) (found : r.host.links[id]? = some link)
      (next : s.task.session.emitted[link.sent]? = some tcpBytes)
      (room : r.host.outbound.length < outboundCapacity) :
      Passes r (.send id)
        { r with
          host := { r.host with
            outbound := r.host.outbound ++ [Host.message s link tcpBytes]
            links := r.host.links.set id { link with sent := link.sent + 1 } }
          sent := r.sent ++ [(id, Host.message s link tcpBytes)] }
  | goesOn (event : HostEvent) (dispatch : AsyncDispatch) (grows : r.host.dispatch.Grows dispatch) :
      Passes r event { r with host := { r.host with dispatch := dispatch } }

theorem step_send (r : HostRun) (id : Nat) : Passes r (.send id) (r.step (.send id)) := by
  have silent (same : r.host.step (.send id) = r.host) : Passes r (.send id) (r.step (.send id)) := by
    have stays : r.step (.send id) = r := by
      dsimp only [step]
      rw [same, List.drop_length, List.map_nil, List.append_nil]
    rw [stays]
    exact .stay _
  cases spawned : r.host.dispatch.tasks[id]? with
  | none => exact silent (by simp [Host.step, Host.send, spawned])
  | some s =>
      cases found : r.host.links[id]? with
      | none => exact silent (by simp [Host.step, Host.send, spawned, found])
      | some link =>
          cases next : s.task.session.emitted[link.sent]? with
          | none => exact silent (by simp [Host.step, Host.send, spawned, found, next])
          | some tcpBytes =>
              by_cases room : r.host.outbound.length < outboundCapacity
              · have sent : r.host.step (.send id) = { r.host with
                    outbound := r.host.outbound ++ [Host.message s link tcpBytes]
                    links := r.host.links.set id { link with sent := link.sent + 1 } } := by
                  simp [Host.step, Host.send, spawned, found, next, room]
                have moves := Passes.sends id s link tcpBytes spawned found next room
                rw [← sent] at moves
                dsimp only [step]
                rw [sent] at moves ⊢
                simpa using moves
              · exact silent (by simp [Host.step, Host.send, spawned, found, next, room])

theorem step_passes (r : HostRun) (event : HostEvent) : Passes r event (r.step event) := by
  cases event with
  | readable raw moment time =>
      dsimp only [step, Host.step]
      split_ifs
      · exact .stay _
      · exact .reads raw moment time
  | outbound now time =>
      dsimp only [step, Host.step]
      split
      · rename_i msg rest queue
        exact .transmits msg rest now time queue
      · exact .stay _
  | send id => exact r.step_send id
  | receive id clock =>
      dsimp only [step, Host.step]
      split_ifs
      · exact .goesOn _ _ (r.host.dispatch.step_grows rfl)
      · exact .stay _
  | own id event =>
      dsimp only [step, Host.step]
      split_ifs
      · exact .goesOn _ _ (r.host.dispatch.step_grows rfl)
      · exact .stay _

/-! ## Tasks and channel -/

structure Channel (r : HostRun) : Prop where
  taken : r.taken ≤ r.sent.length
  queued : (r.sent.drop r.taken).map Prod.snd = r.host.outbound
  room : r.host.outbound.length ≤ outboundCapacity

theorem Channel.next (channel : r.Channel) {msg : OutboundMsg} {rest : List OutboundMsg}
    (queue : r.host.outbound = msg :: rest) :
    ∃ entry, r.sent[r.taken]? = some entry ∧ entry.2 = msg ∧
      (r.sent.drop (r.taken + 1)).map Prod.snd = rest := by
  have queued := channel.queued
  rw [queue] at queued
  obtain ⟨entry, more, split, first, later⟩ := List.map_eq_cons_iff.mp queued
  refine ⟨entry, ?_, first, ?_⟩
  · rw [← List.head?_drop, split]
    rfl
  · rw [← List.tail_drop, split]
    exact later

theorem transmit_kept (h : Host) (msg : OutboundMsg) (rest : List OutboundMsg) (now : Instant)
    (time : SystemTime) : (h.transmit msg rest now time).outbound = rest ∧
      (h.transmit msg rest now time).dispatch = h.dispatch ∧
      (h.transmit msg rest now time).links = h.links ∧
      (h.transmit msg rest now time).ourIp = h.ourIp ∧
      (h.transmit msg rest now time).ourMac = h.ourMac ∧
      (h.transmit msg rest now time).pcap = h.pcap.writePacket time (frameOutbound msg) := by
  unfold Host.transmit
  dsimp only
  cases h.chaos <;> exact ⟨rfl, rfl, rfl, rfl, rfl, rfl⟩

theorem Channel.step (channel : r.Channel) (event : HostEvent) : (r.step event).Channel := by
  have passes := r.step_passes event
  generalize r.step event = r' at passes ⊢
  cases passes with
  | stay => exact channel
  | reads => exact ⟨channel.taken, channel.queued, channel.room⟩
  | goesOn => exact ⟨channel.taken, channel.queued, channel.room⟩
  | transmits msg rest now time queue =>
      obtain ⟨entry, found, -, later⟩ := channel.next queue
      have left := (transmit_kept r.host msg rest now time).1
      have room := channel.room
      rw [queue] at room
      refine ⟨(List.getElem?_eq_some_iff.mp found).1, ?_, ?_⟩
      · rw [left]
        exact later
      · rw [left]
        exact Nat.le_of_succ_le room
  | sends id s link tcpBytes spawned found next room =>
      refine ⟨?_, ?_, ?_⟩
      · rw [List.length_append]
        exact Nat.le_add_right_of_le channel.taken
      · rw [List.drop_append_of_le_length channel.taken, List.map_append, channel.queued]
        rfl
      · rw [List.length_append]
        exact room

def Accounted (r : HostRun) : Prop := Accounts r.host.dispatch r.host.links r.sent

theorem Accounted.step (accounted : r.Accounted) (event : HostEvent) : (r.step event).Accounted := by
  have passes := r.step_passes event
  generalize r.step event = r' at passes ⊢
  cases passes with
  | stay => exact accounted
  | reads raw moment time =>
      unfold Accounted Host.read
      dsimp only
      rcases inboundDispatch_tasks (received raw) r.host.dispatch r.host.ourIp r.host.ourMac moment with
        ⟨a, frame, framed, opened, spawned⟩ | ⟨none, grows⟩
      · have link : Host.linkOf (received raw) = [⟨frame.dstMac, frame.srcMac, 0⟩] := by
          rw [Host.linkOf, framed]
        rw [opened, if_pos spawned, link]
        exact accounted.opened a rfl
      · rw [none, if_neg (by simp)]
        exact accounted.grow grows
  | goesOn event dispatch grows => exact accounted.grow grows
  | transmits msg rest now time queue =>
      obtain ⟨-, dispatch, links, -⟩ := transmit_kept r.host msg rest now time
      unfold Accounted
      rw [dispatch, links]
      exact accounted
  | sends id s link tcpBytes spawned found next room => exact accounted.send spawned found next

end HostRun

/-! ## Frames -/

def isIpv4 (frame : Bytes) : Bool := (EthernetFrame.parse frame).toOption.isSome

theorem isIpv4_frameOutbound (msg : OutboundMsg) : isIpv4 (frameOutbound msg) = true := by
  have parsed := EthernetFrame.parse_build msg.etherDst msg.etherSrc
    (Ipv4.buildPacket msg.srcIp msg.dstIp (BitVec.ofNat 8 protoTcp) msg.tcpBytes) []
  rw [List.append_nil] at parsed
  simp only [isIpv4, frameOutbound, parsed]
  rfl

theorem isIpv4_arpReply (ourMac mac : Mac) (ourIp ip : Ip) :
    isIpv4 (buildArpReplyFrame ourMac ourIp mac ip) = false := by
  have bytes : ∃ rest, buildArpReplyFrame ourMac ourIp mac ip =
      mac.a :: mac.b :: mac.c :: mac.d :: mac.e :: mac.f ::
        ourMac.a :: ourMac.b :: ourMac.c :: ourMac.d :: ourMac.e :: ourMac.f ::
          0x08#8 :: 0x06#8 :: rest := by
    unfold buildArpReplyFrame Mac.bytes ethertypeArp
    simp only [List.cons_append, List.nil_append]
    exact ⟨_, rfl⟩
  obtain ⟨rest, bytes⟩ := bytes
  unfold isIpv4 EthernetFrame.parse
  simp only [bytes, List.length_cons, ethernetHeaderLen, List.getD_cons_succ, List.getD_cons_zero]
  rw [if_neg (by omega), if_pos (by decide)]
  rfl

theorem inboundDispatch_replies {raw frame : Bytes} {d : AsyncDispatch} {ourIp : Ip} {ourMac : Mac}
    {moment : Moment} (reply : (inboundDispatch raw d ourIp ourMac moment).reply = some frame) :
    ∃ mac ip, frame = buildArpReplyFrame ourMac ourIp mac ip := by
  cases framed : EthernetFrame.parse raw with
  | ok eth =>
      rw [inboundDispatch_silent _ _ _ _ framed] at reply
      cases reply
  | error e =>
      unfold inboundDispatch at reply
      rw [framed] at reply
      cases e with
      | nonIpv4EtherType ethertype =>
          dsimp only at reply
          split_ifs at reply
          · cases asked : parseArpRequest raw with
            | none =>
                rw [asked] at reply
                cases reply
            | some req =>
                rw [asked] at reply
                dsimp only at reply
                split_ifs at reply
                · exact ⟨req.senderMac, req.senderIp, (Option.some.inj reply).symm⟩
                · cases reply
          · cases reply
      | _ => cases reply

theorem ChaosMiddleware.interceptWith_packets (m : ChaosMiddleware) (packet : Bytes) (fate : Fate)
    (now : Instant) :
    (∀ out ∈ (m.interceptWith packet fate now).2, out = packet ∨ ∃ entry ∈ m.pending, entry.1 = out) ∧
      ∀ entry ∈ (m.interceptWith packet fate now).1.pending,
        entry ∈ m.pending ∨ entry.1 = packet := by
  unfold interceptWith
  split
  · exact ⟨fun _ member => absurd member List.not_mem_nil, fun _ member => .inl member⟩
  · have queued {entry : Bytes × Instant} {release : Instant}
        (member : entry ∈ m.pending ++ [(packet, release)]) :
        entry ∈ m.pending ∨ entry.1 = packet := by
      rcases List.mem_append.mp member with old | new
      · exact .inl old
      · exact .inr (congrArg Prod.fst (List.mem_singleton.mp new))
    split
    · simp only [flushReady_eq]
      constructor
      · intro out member
        obtain ⟨entry, inside, rfl⟩ := List.mem_map.mp member
        rcases queued ((List.takeWhile_sublist _).mem inside) with old | new
        · exact .inr ⟨entry, old, rfl⟩
        · exact .inl new
      · exact fun entry member => queued ((List.dropWhile_sublist _).mem member)
    · simp only [flushReady_eq]
      constructor
      · intro out member
        rcases List.mem_append.mp member with old | new
        · obtain ⟨entry, inside, rfl⟩ := List.mem_map.mp old
          exact .inr ⟨entry, (List.takeWhile_sublist _).mem inside, rfl⟩
        · exact .inl (List.mem_singleton.mp new)
      · exact fun entry member => .inl ((List.dropWhile_sublist _).mem member)

theorem filter_reply (raw : Bytes) (d : AsyncDispatch) (ourIp : Ip) (ourMac : Mac) (moment : Moment) :
    (inboundDispatch raw d ourIp ourMac moment).reply.toList.filter isIpv4 = [] := by
  rw [List.filter_eq_nil_iff]
  intro frame reply
  obtain ⟨mac, ip, rfl⟩ := inboundDispatch_replies (Option.mem_toList.mp reply)
  simp [isIpv4_arpReply]

theorem ChaosMiddleware.interceptWith_once (m : ChaosMiddleware) (packet : Bytes) (fate : Fate)
    (now : Instant) :
    ((m.interceptWith packet fate now).2 ++
        (m.interceptWith packet fate now).1.pending.map Prod.fst).Perm
      (m.pending.map Prod.fst ++ if fate.dropped then [] else [packet]) := by
  have flushed : ∀ pending : Pending, (pending.takeWhile (due now)).map Prod.fst ++
      (pending.dropWhile (due now)).map Prod.fst = pending.map Prod.fst := by
    intro pending
    rw [← List.map_append, List.takeWhile_append_dropWhile]
  unfold interceptWith
  split_ifs with dropped queued
  · rw [List.nil_append, List.append_nil]
  · rw [flushReady_eq, flushed, List.map_append]
    rfl
  · simp only [flushReady_eq]
    rw [← flushed m.pending, List.append_assoc, List.append_assoc]
    exact List.perm_append_comm.append_left _

def Host.waiting (h : Host) : List Bytes := h.chaos.elim [] fun chaos => chaos.pending.map Prod.fst

namespace HostRun

variable {r : HostRun}

def Carried (r : HostRun) (frame : Bytes) : Prop :=
  ∃ entry ∈ r.sent.take r.taken, frame = frameOutbound entry.2

def Replied (r : HostRun) (frame : Bytes) : Prop :=
  ∃ mac ip, frame = buildArpReplyFrame r.host.ourMac r.host.ourIp mac ip

structure OnWire (r : HostRun) : Prop where
  written : ∀ frame ∈ r.host.written, r.Replied frame ∨ r.Carried frame
  held : ∀ chaos ∈ r.host.chaos, ∀ packet ∈ chaos.pending, r.Carried packet.1
  plain : r.host.chaos = none →
    r.host.written.filter isIpv4 = (r.sent.take r.taken).map fun entry => frameOutbound entry.2

theorem Carried.later {frame : Bytes} (carried : r.Carried frame) {r' : HostRun}
    (taken : r.sent.take r.taken ⊆ r'.sent.take r'.taken) : r'.Carried frame := by
  obtain ⟨entry, member, same⟩ := carried
  exact ⟨entry, taken member, same⟩

theorem OnWire.reads (onWire : r.OnWire) (raw : Bytes) (moment : Moment) (time : SystemTime)
    (captured : List (SystemTime × Bytes)) :
    ({ r with host := r.host.read raw moment time, captured := captured } : HostRun).OnWire := by
  refine ⟨?_, onWire.held, ?_⟩
  · intro frame member
    rcases List.mem_append.mp member with old | new
    · exact onWire.written frame old
    · exact .inl (inboundDispatch_replies (Option.mem_toList.mp new))
  · intro plain
    change (r.host.written ++ _).filter isIpv4 = _
    rw [List.filter_append, filter_reply, List.append_nil]
    exact onWire.plain plain

theorem OnWire.transmits (onWire : r.OnWire) (channel : r.Channel) {msg : OutboundMsg}
    {rest : List OutboundMsg} (now : Instant) (time : SystemTime)
    (queue : r.host.outbound = msg :: rest) (captured : List (SystemTime × Bytes)) :
    ({ r with
      host := r.host.transmit msg rest now time
      taken := r.taken + 1
      captured := captured } : HostRun).OnWire := by
  obtain ⟨entry, found, same, -⟩ := channel.next queue
  obtain ⟨-, -, -, ourIp, ourMac, -⟩ := transmit_kept r.host msg rest now time
  have grown : r.sent.take (r.taken + 1) = r.sent.take r.taken ++ [entry] := by
    rw [List.take_add_one, found]
    rfl
  generalize moved : ({ r with
      host := r.host.transmit msg rest now time
      taken := r.taken + 1
      captured := captured } : HostRun) = r'
  have sent : r'.sent.take r'.taken = r.sent.take r.taken ++ [entry] := by
    rw [← moved]
    exact grown
  have older : r.sent.take r.taken ⊆ r'.sent.take r'.taken := by
    rw [sent]
    exact List.subset_append_left _ _
  have newest : r'.Carried (frameOutbound msg) := by
    refine ⟨entry, ?_, by rw [same]⟩
    rw [sent]
    exact List.mem_append_right _ (List.mem_singleton_self _)
  have replied {frame : Bytes} (before : r.Replied frame) : r'.Replied frame := by
    unfold Replied at before ⊢
    rw [← moved]
    dsimp only
    rw [ourIp, ourMac]
    exact before
  have writes : r'.host = r.host.transmit msg rest now time := by rw [← moved]
  cases middleware : r.host.chaos with
  | none =>
      have host : r'.host.written = r.host.written ++ [frameOutbound msg] ∧ r'.host.chaos = none := by
        rw [writes, Host.transmit]
        simp only [middleware, and_self]
      refine ⟨?_, ?_, ?_⟩
      · intro frame member
        rw [host.1] at member
        rcases List.mem_append.mp member with old | new
        · exact (onWire.written frame old).imp replied fun carried => carried.later older
        · rw [List.mem_singleton.mp new]
          exact .inr newest
      · rw [host.2]
        intro chaos absent
        cases absent
      · intro _
        rw [host.1, sent, List.filter_append, onWire.plain middleware, List.map_append]
        simp [isIpv4_frameOutbound, same]
  | some chaos =>
      have host : r'.host.written = r.host.written ++ (chaos.intercept (frameOutbound msg) now).2 ∧
          r'.host.chaos = some (chaos.intercept (frameOutbound msg) now).1 := by
        rw [writes, Host.transmit]
        simp only [middleware, and_self]
      obtain ⟨fate, -, out, pending⟩ := chaos.intercept_fate (frameOutbound msg) now
      obtain ⟨puts, holds⟩ := chaos.interceptWith_packets (frameOutbound msg) fate now
      have waiting := onWire.held chaos middleware
      refine ⟨?_, ?_, ?_⟩
      · intro frame member
        rw [host.1, out] at member
        rcases List.mem_append.mp member with old | new
        · exact (onWire.written frame old).imp replied fun carried => carried.later older
        · rcases puts frame new with rfl | ⟨packet, held, rfl⟩
          · exact .inr newest
          · exact .inr ((waiting packet held).later older)
      · rw [host.2]
        rintro _ ⟨⟩ packet member
        rw [pending] at member
        rcases holds packet member with old | new
        · exact (waiting packet old).later older
        · rw [new]
          exact newest
      · intro none
        rw [host.2] at none
        cases none

theorem OnWire.step (onWire : r.OnWire) (channel : r.Channel) (event : HostEvent) :
    (r.step event).OnWire := by
  have passes := r.step_passes event
  generalize r.step event = r' at passes ⊢
  cases passes with
  | stay => exact onWire
  | goesOn => exact ⟨onWire.written, onWire.held, onWire.plain⟩
  | reads raw moment time => exact onWire.reads _ moment time _
  | transmits msg rest now time queue => exact onWire.transmits channel now time queue _
  | sends id s link tcpBytes spawned found next room =>
      have taken : (r.sent ++ [(id, Host.message s link tcpBytes)]).take r.taken =
          r.sent.take r.taken := List.take_append_of_le_length channel.taken
      have carried {frame : Bytes} (before : r.Carried frame) : ({ r with
          host := { r.host with
            outbound := r.host.outbound ++ [Host.message s link tcpBytes]
            links := r.host.links.set id { link with sent := link.sent + 1 } }
          sent := r.sent ++ [(id, Host.message s link tcpBytes)] } : HostRun).Carried frame :=
        before.later (by dsimp only; rw [taken]; exact List.Subset.refl _)
      refine ⟨?_, ?_, ?_⟩
      · exact fun frame member => (onWire.written frame member).imp_right carried
      · exact fun chaos present packet member => carried (onWire.held chaos present packet member)
      · dsimp only
        rw [taken]
        exact onWire.plain

def Conserves (r : HostRun) : Prop :=
  (r.host.written.filter isIpv4 ++ r.host.waiting).Subperm
    ((r.sent.take r.taken).map fun entry => frameOutbound entry.2)

theorem Conserves.transmits (conserves : r.Conserves) (channel : r.Channel) {msg : OutboundMsg}
    {rest : List OutboundMsg} (now : Instant) (time : SystemTime)
    (queue : r.host.outbound = msg :: rest) (captured : List (SystemTime × Bytes)) :
    ({ r with
      host := r.host.transmit msg rest now time
      taken := r.taken + 1
      captured := captured } : HostRun).Conserves := by
  obtain ⟨entry, found, same, -⟩ := channel.next queue
  have grown : (r.sent.take (r.taken + 1)).map (fun entry => frameOutbound entry.2) =
      (r.sent.take r.taken).map (fun entry => frameOutbound entry.2) ++ [frameOutbound msg] := by
    rw [List.take_add_one, found, List.map_append, ← same]
    rfl
  unfold Conserves at conserves ⊢
  dsimp only
  rw [grown]
  cases middleware : r.host.chaos with
  | none =>
      have plain : (r.host.transmit msg rest now time).written = r.host.written ++ [frameOutbound msg] ∧
          (r.host.transmit msg rest now time).waiting = r.host.waiting := by
        simp [Host.transmit, Host.waiting, middleware]
      have nothing : r.host.waiting = [] := by simp [Host.waiting, middleware]
      rw [nothing, List.append_nil] at conserves
      rw [plain.1, plain.2, nothing, List.append_nil, List.filter_append]
      exact conserves.append (List.filter_sublist.subperm)
  | some chaos =>
      obtain ⟨fate, -, out, pending⟩ := chaos.intercept_fate (frameOutbound msg) now
      have once := chaos.interceptWith_once (frameOutbound msg) fate now
      have written : (r.host.transmit msg rest now time).written =
          r.host.written ++ (chaos.interceptWith (frameOutbound msg) fate now).2 := by
        simp [Host.transmit, middleware, out]
      have holds : (r.host.transmit msg rest now time).waiting =
          (chaos.interceptWith (frameOutbound msg) fate now).1.pending.map Prod.fst := by
        simp [Host.transmit, Host.waiting, middleware, pending]
      have held : r.host.waiting = chaos.pending.map Prod.fst := by simp [Host.waiting, middleware]
      rw [written, holds, List.filter_append, List.append_assoc]
      have put : ((chaos.interceptWith (frameOutbound msg) fate now).2.filter isIpv4 ++
          (chaos.interceptWith (frameOutbound msg) fate now).1.pending.map Prod.fst).Subperm
            (r.host.waiting ++ [frameOutbound msg]) := by
        refine (List.filter_sublist.subperm.append (List.Subperm.refl _)).trans (once.subperm.trans ?_)
        rw [held]
        split_ifs
        · exact (List.Subperm.refl _).append (List.nil_sublist _).subperm
        · exact List.Subperm.refl _
      refine ((List.Subperm.refl _).append put).trans ?_
      rw [← List.append_assoc]
      exact conserves.append (List.Subperm.refl _)

theorem Conserves.step (conserves : r.Conserves) (channel : r.Channel) (event : HostEvent) :
    (r.step event).Conserves := by
  have passes := r.step_passes event
  generalize r.step event = r' at passes ⊢
  cases passes with
  | stay => exact conserves
  | goesOn => exact conserves
  | transmits msg rest now time queue => exact conserves.transmits channel now time queue _
  | reads raw moment time =>
      unfold Conserves
      change ((r.host.written ++ _).filter isIpv4 ++ r.host.waiting).Subperm _
      rw [List.filter_append, filter_reply, List.append_nil]
      exact conserves
  | sends id s link tcpBytes =>
      unfold Conserves
      dsimp only
      rw [List.take_append_of_le_length channel.taken]
      exact conserves

structure Capture (r : HostRun) : Prop where
  file : r.host.pcap = (PcapWriter.new linktypeEthernet).writeAll r.captured
  sized : ∀ packet ∈ r.captured, packet.2.length ≤ mtu * 2

theorem frameOutbound_length (msg : OutboundMsg) :
    (frameOutbound msg).length = ethernetHeaderLen + ipv4MinHeaderLen + msg.tcpBytes.length := by
  have packet : (Ipv4.buildPacket msg.srcIp msg.dstIp (BitVec.ofNat 8 protoTcp)
      msg.tcpBytes).length = ipv4MinHeaderLen + msg.tcpBytes.length := by
    rw [Ipv4.buildPacket, List.length_append, Ipv4.layout_length]
  rw [frameOutbound, EthernetFrame.build, List.length_append, packet, ← Nat.add_assoc]
  rfl

theorem Accounted.fits_mtu (accounted : r.Accounted) {entry : Nat × OutboundMsg}
    (member : entry ∈ r.sent) : (frameOutbound entry.2).length ≤ ethernetHeaderLen + mtu := by
  obtain ⟨s, link, spawned, -, tcpBytes, emitted, same⟩ := accounted.sent_by member
  obtain ⟨b, rfl, -, -, -, -, short⟩ :=
    (accounted.sized _ s spawned).emitted tcpBytes (List.mem_of_mem_take emitted)
  have length : b.build.length = b.payload.length + 20 := b.layout_length _
  have limit : mss.toNat = 1460 := rfl
  rw [frameOutbound_length, same, Host.message, length]
  unfold ipv4MinHeaderLen mtu
  omega

theorem Capture.add (capture : r.Capture) {time : SystemTime} {packet : Bytes}
    (short : packet.length ≤ mtu * 2) {r' : HostRun}
    (file : r'.host.pcap = r.host.pcap.writePacket time packet)
    (captured : r'.captured = r.captured ++ [(time, packet)]) : r'.Capture := by
  constructor
  · rw [file, captured, capture.file, PcapWriter.writeAll, PcapWriter.writeAll, List.foldl_append]
    rfl
  · rw [captured, List.forall_mem_append, List.forall_mem_singleton]
    exact ⟨capture.sized, short⟩

theorem Capture.step (capture : r.Capture) (channel : r.Channel) (accounted : r.Accounted)
    (event : HostEvent) : (r.step event).Capture := by
  have passes := r.step_passes event
  generalize r.step event = r' at passes ⊢
  cases passes with
  | stay => exact capture
  | goesOn => exact ⟨capture.file, capture.sized⟩
  | sends => exact ⟨capture.file, capture.sized⟩
  | reads raw moment time =>
      have short : (received raw).length ≤ mtu * 2 := List.length_take_le _ _
      exact capture.add short rfl rfl
  | transmits msg rest now time queue =>
      obtain ⟨entry, found, same, -⟩ := channel.next queue
      have short := accounted.fits_mtu (List.mem_of_getElem? found)
      rw [same] at short
      obtain ⟨-, -, -, -, -, pcap⟩ := transmit_kept r.host msg rest now time
      exact capture.add (short.trans (by decide)) pcap rfl

/-! ## Any run -/

structure Inv (r : HostRun) : Prop where
  channel : r.Channel
  accounted : r.Accounted
  onWire : r.OnWire
  conserves : r.Conserves
  capture : r.Capture

theorem start_inv (ports : List U16) (ourIp : Ip) (ourMac : Mac) (config : ChaosConfig) :
    (start ports ourIp ourMac config).Inv where
  channel := ⟨Nat.le_refl _, rfl, Nat.zero_le _⟩
  accounted := by
    unfold Accounted start Host.start
    rw [AsyncDispatch.start_eq]
    refine ⟨rfl, ?_, List.forall_mem_nil _, ?_⟩
    · intro id s spawned
      exact absurd spawned (by simp)
    · intro id s link spawned
      exact absurd spawned (by simp)
  onWire := by
    refine ⟨List.forall_mem_nil _, ?_, fun _ => rfl⟩
    intro chaos active packet member
    dsimp only [start, Host.start] at active
    split_ifs at active
    · cases active
      exact absurd member List.not_mem_nil
    · cases active
  conserves := by
    dsimp only [Conserves, start, Host.start, Host.waiting]
    split_ifs
    · exact List.Subperm.refl _
    · exact List.Subperm.refl _
  capture := ⟨rfl, List.forall_mem_nil _⟩

theorem Inv.step (inv : r.Inv) (event : HostEvent) : (r.step event).Inv where
  channel := inv.channel.step event
  accounted := inv.accounted.step event
  onWire := inv.onWire.step inv.channel event
  conserves := inv.conserves.step inv.channel event
  capture := inv.capture.step inv.channel inv.accounted event

/-- The frame is a segment of the task `id`: it goes to the link address that the connection was opened
from, and the three parsers find the addresses and the ports of the connection in it. -/
structure Belongs (r : HostRun) (frame : Bytes) (id : Nat) (s : Spawned) (link : Link) : Prop where
  spawned : r.host.dispatch.tasks[id]? = some s
  linked : r.host.links[id]? = some link
  emitted : ∃ tcpBytes ∈ s.task.session.emitted.take link.sent,
    frame = frameOutbound (Host.message s link tcpBytes)
  parsed : ∃ eth packet seg, EthernetFrame.parse frame = .ok eth ∧
    Ipv4Packet.parse eth.payload = .ok packet ∧
    TcpSegment.parse packet.payload packet.header.src packet.header.dst = .ok seg ∧
    eth.dstMac = link.etherDst ∧ eth.srcMac = link.etherSrc ∧
    packet.header.src = s.key.localIp ∧ packet.header.dst = s.key.remoteIp ∧
    seg.header.srcPort = s.key.localPort ∧ seg.header.dstPort = s.key.remotePort

theorem Accounted.belongs (accounted : r.Accounted) {entry : Nat × OutboundMsg}
    (member : entry ∈ r.sent) :
    ∃ s link, r.Belongs (frameOutbound entry.2) entry.1 s link := by
  obtain ⟨s, link, spawned, found, tcpBytes, emitted, same⟩ := accounted.sent_by member
  have sized := accounted.sized _ s spawned
  obtain ⟨b, rfl, srcIp, dstIp, srcPort, dstPort, short⟩ :=
    sized.emitted tcpBytes (List.mem_of_mem_take emitted)
  obtain ⟨eth, packet, seg, framed, packed, parsed, dstMac, srcMac, src, dst, -, source, target, -⟩ :=
    parse_frameOutbound b link.etherSrc link.etherDst [] (short.trans (by decide))
  have message : Host.message s link b.build = ⟨b.srcIp, b.dstIp, b.build, link.etherSrc, link.etherDst⟩ := by
    have localIp : s.task.session.conn.tcb.localIp = b.srcIp :=
      (congrArg Endpoint.localIp sized.ends).trans srcIp.symm
    have remoteIp : s.task.session.conn.tcb.remoteIp = b.dstIp :=
      (congrArg Endpoint.remoteIp sized.ends).trans dstIp.symm
    rw [Host.message, localIp, remoteIp]
  refine ⟨s, link, spawned, found, ⟨b.build, emitted, congrArg frameOutbound same⟩, ?_⟩
  rw [List.append_nil, ← message, ← same] at framed
  exact ⟨eth, packet, seg, framed, packed, parsed, dstMac, srcMac, src.trans srcIp, dst.trans dstIp,
    source.trans srcPort, target.trans dstPort⟩

/-- Whatever arrives, whatever the applications and the timers do and whatever the middleware delays,
each frame that is written is an answer to ARP with the addresses of the host or an unaltered segment of
one connection under the addresses of that connection, and none is longer than the device allows. -/
theorem wire_frames (ports : List U16) (ourIp : Ip) (ourMac : Mac) (config : ChaosConfig)
    (events : List HostEvent) :
    Runs.Always step
      (fun r => ∀ frame ∈ r.host.written, r.Replied frame ∨
        frame.length ≤ ethernetHeaderLen + mtu ∧ ∃ id s link, r.Belongs frame id s link)
      (start ports ourIp ourMac config) events := by
  refine Runs.always_inv (C := fun _ _ => True) (fun r event (inv : r.Inv) _ => inv.step event) ?_
    (start_inv ports ourIp ourMac config) (Runs.along_true _ _)
  intro r inv frame member
  refine (inv.onWire.written frame member).imp_right ?_
  rintro ⟨entry, taken, rfl⟩
  have sent := List.mem_of_mem_take taken
  obtain ⟨s, link, belongs⟩ := inv.accounted.belongs sent
  exact ⟨inv.accounted.fits_mtu sent, entry.1, s, link, belongs⟩

/-- Whatever the middleware does, no message is on the wire twice: the IPv4 frames that were written and
those that are held back are, counted with repetition, among the messages that were taken off the
channel. -/
theorem chaos_conserves (ports : List U16) (ourIp : Ip) (ourMac : Mac) (config : ChaosConfig)
    (events : List HostEvent) :
    Runs.Always step
      (fun r => (r.host.written.filter isIpv4 ++ r.host.waiting).Subperm
        ((r.sent.take r.taken).map fun entry => frameOutbound entry.2))
      (start ports ourIp ourMac config) events :=
  Runs.always_inv (C := fun _ _ => True) (fun r event (inv : r.Inv) _ => inv.step event)
    (fun _ inv => inv.conserves) (start_inv ports ourIp ourMac config) (Runs.along_true _ _)

end HostRun

end MagnumTcp
