import MagnumTcp.Net.Host
import MagnumTcp.Proof.Dispatch
import MagnumTcp.Proof.Inbound
import MagnumTcp.Proof.SegmentSize

namespace MagnumTcp.Tcp

def FourTuple.endpoint (key : FourTuple) : Endpoint where
  localIp := key.localIp
  localPort := key.localPort
  remoteIp := key.remoteIp
  remotePort := key.remotePort

namespace Spawned

structure Grows (s s' : Spawned) : Prop where
  key : s'.key = s.key
  calls : s.task.session.Calls Event.OfTask s'.task.session

theorem Grows.refl (s : Spawned) : s.Grows s := ⟨rfl, .refl _⟩

theorem receive_grows (s : Spawned) (connected : Bool) (clock : Clock) :
    s.Grows (s.receive connected clock) := by
  unfold receive
  split
  · split
    · exact ⟨rfl, s.task.step_calls _⟩
    · split
      · exact .refl s
      · exact ⟨rfl, s.task.step_calls _⟩
  · exact .refl s

theorem own_grows (s : Spawned) (event : TaskEvent) : s.Grows (s.own event) := by
  cases event with
  | inbound | inboundClosed => exact .refl s
  | _ => exact ⟨rfl, s.task.step_calls _⟩

end Spawned

namespace AsyncDispatch

structure Grows (d d' : AsyncDispatch) : Prop where
  length : d'.tasks.length = d.tasks.length
  tasks : ∀ (id : Nat) (s' : Spawned), d'.tasks[id]? = some s' → ∃ s, d.tasks[id]? = some s ∧ s.Grows s'

variable {d : AsyncDispatch}

theorem Grows.refl (d : AsyncDispatch) : d.Grows d :=
  ⟨rfl, fun _ s spawned => ⟨s, spawned, .refl s⟩⟩

theorem modify_grows (id : Nat) {f : Spawned → Spawned}
    (grows : ∀ s, d.tasks[id]? = some s → s.Grows (f s)) :
    d.Grows { d with tasks := d.tasks.modify id f } := by
  refine ⟨List.length_modify _ _ _, ?_⟩
  intro j s' spawned
  obtain ⟨s, before, rfl⟩ := modify_some spawned
  refine ⟨s, before, ?_⟩
  split_ifs with here
  · subst here
    exact grows s before
  · exact .refl s

theorem dispatch_grows (d : AsyncDispatch) (a : Arrival) :
    (d.dispatch a).1 = d.opened a ∧ (d.dispatch a).2.isSome ∨
      (d.dispatch a).2 = none ∧ d.Grows (d.dispatch a).1 := by
  unfold dispatch
  cases channel : d.channels a.key with
  | none =>
      dsimp only
      split_ifs
      · exact .inl ⟨rfl, rfl⟩
      · exact .inr ⟨rfl, .refl d⟩
  | some id =>
      refine .inr ?_
      dsimp only
      cases sending : d.tasks[id]?.bind fun s => s.trySend a.seg with
      | none => exact ⟨rfl, rfl, fun _ s spawned => ⟨s, spawned, .refl s⟩⟩
      | some sent =>
          obtain ⟨s, spawned, sends⟩ := Option.bind_eq_some_iff.mp sending
          obtain ⟨-, rfl⟩ := trySend_eq_some.mp sends
          refine ⟨rfl, ?_⟩
          dsimp only
          rw [List.set_eq_modify]
          refine modify_grows id ?_
          intro t there
          cases spawned.symm.trans there
          exact ⟨rfl, .refl _⟩

theorem step_grows (d : AsyncDispatch) {event : DispatchEvent} (task : event.arrival = none) :
    d.Grows (d.step event) := by
  cases event with
  | dispatch a => cases task
  | receive id clock => exact modify_grows id fun s _ => s.receive_grows _ clock
  | own id event => exact modify_grows id fun s _ => s.own_grows event

end AsyncDispatch

end MagnumTcp.Tcp

namespace MagnumTcp

open Tcp

theorem inboundDispatch_tasks (raw : Bytes) (d : AsyncDispatch) (ourIp : Ip) (ourMac : Mac)
    (moment : Moment) :
    (∃ a frame, EthernetFrame.parse raw = .ok frame ∧
        (inboundDispatch raw d ourIp ourMac moment).dispatch = d.opened a ∧
        (inboundDispatch raw d ourIp ourMac moment).spawned.isSome) ∨
      (inboundDispatch raw d ourIp ourMac moment).spawned = none ∧
        d.Grows (inboundDispatch raw d ourIp ourMac moment).dispatch := by
  by_cases tcp : ∃ packet seg, CarriesTcp raw packet seg
  · obtain ⟨packet, seg, tcp⟩ := tcp
    obtain ⟨dispatch, spawned⟩ := inboundDispatch_tcp d ourIp ourMac moment tcp
    rw [dispatch, spawned]
    rcases d.dispatch_grows (arrivalOf moment packet seg) with ⟨opened, handle⟩ | ⟨none, grows⟩
    · obtain ⟨frame, framed, -⟩ := tcp
      exact .inl ⟨_, frame, framed, opened, handle⟩
    · exact .inr ⟨none, grows⟩
  · obtain ⟨same, silent⟩ := inboundDispatch_quiet d ourIp ourMac moment
      fun packet seg carries => tcp ⟨packet, seg, carries⟩
    rw [same]
    exact .inr ⟨silent, .refl d⟩

theorem getElem?_concat {α : Type*} {xs : List α} {x y : α} {i : Nat}
    (found : (xs ++ [x])[i]? = some y) : xs[i]? = some y ∨ i = xs.length ∧ y = x := by
  rw [List.getElem?_append] at found
  split_ifs at found with old
  · exact .inl found
  · obtain ⟨inside, same⟩ := List.getElem?_eq_some_iff.mp found
    rw [List.length_singleton] at inside
    exact .inr ⟨by omega, by simpa using same.symm⟩

/-- The segments that a task has sent are the first ones that it has emitted, under its own addresses. -/
structure Accounts (d : AsyncDispatch) (links : List Link) (sent : List (Nat × OutboundMsg)) :
    Prop where
  linked : links.length = d.tasks.length
  sized : ∀ (id : Nat) (s : Spawned), d.tasks[id]? = some s → s.task.session.Sized s.key.endpoint
  known : ∀ entry ∈ sent, entry.1 < d.tasks.length
  flow : ∀ (id : Nat) (s : Spawned) (link : Link), d.tasks[id]? = some s → links[id]? = some link →
    link.sent ≤ s.task.session.emitted.length ∧
      (sent.filter fun entry => entry.1 == id).map Prod.snd =
        (s.task.session.emitted.take link.sent).map (Host.message s link)

namespace Accounts

variable {d : AsyncDispatch} {links : List Link} {sent : List (Nat × OutboundMsg)}

theorem message_eq {s s' : Spawned} {e : Endpoint} (before : s.task.session.Sized e)
    (after : s'.task.session.Sized e) (link : Link) : Host.message s' link = Host.message s link := by
  have ends := after.ends.trans before.ends.symm
  funext tcpBytes
  have localIp : s'.task.session.conn.tcb.localIp = s.task.session.conn.tcb.localIp :=
    congrArg Endpoint.localIp ends
  have remoteIp : s'.task.session.conn.tcb.remoteIp = s.task.session.conn.tcb.remoteIp :=
    congrArg Endpoint.remoteIp ends
  unfold Host.message
  rw [localIp, remoteIp]

theorem grow (accounts : Accounts d links sent) {d' : AsyncDispatch} (grows : d.Grows d') :
    Accounts d' links sent := by
  have sized : ∀ (id : Nat) (s' : Spawned), d'.tasks[id]? = some s' →
      s'.task.session.Sized s'.key.endpoint := by
    intro id s' spawned
    obtain ⟨s, before, step⟩ := grows.tasks id s' spawned
    rw [step.key]
    exact step.calls.sized (accounts.sized id s before)
  refine ⟨accounts.linked.trans grows.length.symm, sized, ?_, ?_⟩
  · rw [grows.length]
    exact accounts.known
  · intro id s' link spawned found
    obtain ⟨s, before, step⟩ := grows.tasks id s' spawned
    obtain ⟨inside, flow⟩ := accounts.flow id s link before found
    have after := sized id s' spawned
    rw [step.key] at after
    have longer := step.calls.emits
    refine ⟨inside.trans longer.length_le, ?_⟩
    rw [flow, message_eq (accounts.sized id s before) after]
    obtain ⟨more, grown⟩ := longer
    rw [← grown, List.take_append_of_le_length inside]

theorem opened (accounts : Accounts d links sent) (a : Arrival) {link : Link} (fresh : link.sent = 0) :
    Accounts (d.opened a) (links ++ [link]) sent := by
  have longer : (d.opened a).tasks.length = d.tasks.length + 1 := by
    simp [AsyncDispatch.opened]
  refine ⟨?_, ?_, ?_, ?_⟩
  · rw [longer, List.length_append, accounts.linked, List.length_singleton]
  · intro id s spawned
    rcases getElem?_concat spawned with before | ⟨-, rfl⟩
    · exact accounts.sized id s before
    · exact Session.start_sized .passive a.isn a.key.endpoint
  · intro entry member
    rw [longer]
    exact Nat.lt_succ_of_lt (accounts.known entry member)
  · intro id s l spawned found
    rcases getElem?_concat spawned with before | ⟨rfl, rfl⟩
    · rcases getElem?_concat found with there | ⟨rfl, -⟩
      · exact accounts.flow id s l before there
      · have inside := (List.getElem?_eq_some_iff.mp before).1
        rw [accounts.linked] at inside
        exact absurd inside (Nat.lt_irrefl _)
    · obtain rfl : l = link := by
        rw [← accounts.linked, List.getElem?_concat_length] at found
        exact (Option.some.inj found).symm
      rw [fresh]
      refine ⟨Nat.zero_le _, ?_⟩
      -- No message of this task has been sent.
      rw [List.take_zero, List.map_nil, List.map_eq_nil_iff, List.filter_eq_nil_iff]
      intro entry member same
      have known := accounts.known entry member
      rw [beq_iff_eq.mp same] at known
      exact Nat.lt_irrefl _ known

theorem send (accounts : Accounts d links sent) {id : Nat} {s : Spawned} {link : Link}
    {tcpBytes : Bytes} (spawned : d.tasks[id]? = some s) (found : links[id]? = some link)
    (next : s.task.session.emitted[link.sent]? = some tcpBytes) :
    Accounts d (links.set id { link with sent := link.sent + 1 })
      (sent ++ [(id, Host.message s link tcpBytes)]) := by
  have task := (List.getElem?_eq_some_iff.mp spawned).1
  have place := (List.getElem?_eq_some_iff.mp found).1
  refine ⟨?_, accounts.sized, ?_, ?_⟩
  · rw [List.length_set]
    exact accounts.linked
  · rw [List.forall_mem_append, List.forall_mem_singleton]
    exact ⟨accounts.known, task⟩
  · intro j t l there link'
    rw [List.filter_append, List.map_append]
    by_cases here : id = j
    · subst here
      cases spawned.symm.trans there
      rw [List.getElem?_set_self place] at link'
      cases link'
      obtain ⟨-, flow⟩ := accounts.flow id s link spawned found
      obtain ⟨inside, same⟩ := List.getElem?_eq_some_iff.mp next
      refine ⟨inside, ?_⟩
      have moved : Host.message s { link with sent := link.sent + 1 } = Host.message s link := rfl
      rw [flow, moved, List.take_add_one, next]
      simp
    · rw [List.getElem?_set_ne here] at link'
      have other : ([(id, Host.message s link tcpBytes)].filter fun entry => entry.1 == j) = [] := by
        simp [here]
      rw [other, List.map_nil, List.append_nil]
      exact accounts.flow j t l there link'

theorem sent_by (accounts : Accounts d links sent) {entry : Nat × OutboundMsg} (member : entry ∈ sent) :
    ∃ s link, d.tasks[entry.1]? = some s ∧ links[entry.1]? = some link ∧
      ∃ tcpBytes ∈ s.task.session.emitted.take link.sent, entry.2 = Host.message s link tcpBytes := by
  have inside := accounts.known entry member
  obtain ⟨s, spawned⟩ : ∃ s, d.tasks[entry.1]? = some s := ⟨_, List.getElem?_eq_getElem inside⟩
  rw [← accounts.linked] at inside
  obtain ⟨link, found⟩ : ∃ link, links[entry.1]? = some link := ⟨_, List.getElem?_eq_getElem inside⟩
  refine ⟨s, link, spawned, found, ?_⟩
  have own : entry.2 ∈ (sent.filter fun other => other.1 == entry.1).map Prod.snd :=
    List.mem_map_of_mem (List.mem_filter.mpr ⟨member, beq_self_eq_true _⟩)
  rw [(accounts.flow _ s link spawned found).2] at own
  obtain ⟨tcpBytes, emitted, same⟩ := List.mem_map.mp own
  exact ⟨tcpBytes, emitted, same.symm⟩

end Accounts

end MagnumTcp
