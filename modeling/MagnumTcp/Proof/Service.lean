import MagnumTcp.Lib.Simulation
import MagnumTcp.Proof.HandOver
import MagnumTcp.Proof.Network
import MagnumTcp.Tcp.Service

namespace MagnumTcp.Tcp

theorem Event.Local.rule {event : Event} (local_ : event.Local) (n : Network) :
    n.Rule Session.ConnectFirst (.call .left event) := by
  refine ⟨local_.2, ?_⟩
  cases event with
  | connect => exact local_.1.elim
  | _ => trivial

namespace Service

variable {respond : Instant → Bytes → Bytes} {v : Service} {action : ServiceAction}

def network (v : Service) : Network where
  party := fun | .left => v.server.task.session | .right => v.client

theorem network_client (v : Service) (event : Event) :
    v.network.perform .right event = ({ v with client := v.client.step event } : Service).network := by
  unfold Network.perform network
  congr 1
  funext side
  cases side <;> simp [Function.update]

theorem network_server (v : Service) (event : Event) (server : Served)
    (same : server.task.session = v.server.task.session.step event) :
    v.network.perform .left event = ({ v with server := server } : Service).network := by
  unfold Network.perform network
  congr 1
  funext side
  cases side <;> simp [Function.update, same]

theorem arrival_segment (n : Network) (side : Side) (now : Instant) (k : Nat) :
    n.arrival side now k = ((n.party side.other).segment k).map (.processSegment now) := by
  unfold Network.arrival Session.segment
  dsimp only
  cases (n.party side.other).emitted[k]? with
  | none => rfl
  | some raw =>
      rw [Option.bind_some, Option.bind_some]
      cases TcpSegment.parse raw (n.party side.other).conn.tcb.localIp
        (n.party side.other).conn.tcb.remoteIp <;> rfl

theorem network_arrival (v : Service) (now : Instant) (k : Nat) :
    v.network.arrival .right now k = (v.server.task.session.segment k).map (.processSegment now) ∧
      v.network.arrival .left now k = (v.client.segment k).map (.processSegment now) :=
  ⟨arrival_segment _ _ _ _, arrival_segment _ _ _ _⟩

theorem network_calls {server : Served} (v : Service)
    (calls : v.server.task.session.Calls Event.Local server.task.session) :
    ∃ actions, v.network.Along (Network.Rule Session.ConnectFirst) actions ∧
      v.network.exec actions = ({ v with server := server } : Service).network := by
  obtain ⟨events, allowed, same⟩ := calls
  induction events generalizing v with
  | nil =>
      refine ⟨[], trivial, ?_⟩
      simp only [Runs.exec_nil] at same ⊢
      unfold network
      rw [same]
  | cons event rest ih =>
      obtain ⟨first, later⟩ := List.forall_mem_cons.mp allowed
      -- Only the session counts for the network.
      have next := ih { v with
        server.task.session := v.server.task.session.step event } later same
      obtain ⟨actions, run, taken⟩ := next
      have performed := v.network_server event
        { v.server with task.session := v.server.task.session.step event } rfl
      refine ⟨.call .left event :: actions, ⟨first.rule _, ?_⟩, ?_⟩
      · change Runs.Along _ _ (v.network.perform .left event) actions
        rw [performed]
        exact run
      · rw [Network.exec, Runs.exec_cons]
        change Runs.exec Network.step (v.network.perform .left event) actions = _
        rw [performed]
        exact taken

theorem simulates (respond : Instant → Bytes → Bytes) :
    Runs.Simulates (step respond) Network.step (fun v => v.server.Coupled respond) Rule
      (Network.Rule Session.ConnectFirst) network := by
  intro v action _ rule
  cases action with
  | call event =>
      exact ⟨[.call .right event], ⟨rule, trivial⟩, v.network_client event⟩
  | deliver now k =>
      refine ⟨[.deliver .right now k], ⟨trivial, trivial⟩, ?_⟩
      change (v.network.arrival .right now k).elim v.network (v.network.perform .right) =
        ((v.server.task.session.segment k).elim v _).network
      rw [(v.network_arrival now k).1]
      cases v.server.task.session.segment k with
      | none => rfl
      | some seg => exact v.network_client (.processSegment now seg)
  | serve event =>
      rcases Served.step_calls respond v.server event with calls | ⟨clock, seg, rfl, -⟩
      · exact v.network_calls calls
      · cases rule
  | arrive clock k =>
      cases found : v.client.segment k with
      | none =>
          refine ⟨[], trivial, ?_⟩
          simp only [step, found, Option.elim_none, Runs.exec_nil]
      | some seg =>
          have taken : v.step respond (.arrive clock k) =
              { v with server := v.server.step respond (.inbound clock seg) } := by
            simp only [step, found, Option.elim_some]
          rw [taken]
          rcases Served.step_calls respond v.server (.inbound clock seg) with
            calls | ⟨clock', seg', same, calls⟩
          · exact v.network_calls calls
          · cases same
            have processed := v.network_server (.processSegment clock.call seg)
              { v.server with
                task.session := v.server.task.session.step (.processSegment clock.call seg) } rfl
            have arrives : v.network.step (.deliver .left clock.call k) =
                v.network.perform .left (.processSegment clock.call seg) := by
              change (v.network.arrival .left clock.call k).elim v.network
                (v.network.perform .left) = _
              rw [(v.network_arrival clock.call k).2, found]
              rfl
            obtain ⟨actions, run, reached⟩ := network_calls
              { v with server.task.session :=
                  v.server.task.session.step (.processSegment clock.call seg) } calls
            rw [← processed, ← arrives] at run reached
            exact ⟨.deliver .left clock.call k :: actions, ⟨trivial, run⟩, reached⟩

theorem start_network (iss : U32) (a : Arrival) :
    (start iss a).network =
      Network.start (fun | .left => .passive | .right => .active)
        (fun | .left => a.isn | .right => iss) a.endpoint := by
  unfold network Network.start
  congr 1
  funext side
  cases side <;> rfl

theorem step_coupled (v : Service) (action : ServiceAction) (coupled : v.server.Coupled respond) :
    (v.step respond action).server.Coupled respond := by
  cases action with
  | call event => exact coupled
  | deliver now k =>
      dsimp only [step]
      cases v.server.task.session.segment k <;> exact coupled
  | serve event => exact Served.step_coupled _ event coupled
  | arrive clock k =>
      dsimp only [step]
      cases v.client.segment k with
      | none => exact coupled
      | some seg => exact Served.step_coupled _ (.inbound clock seg) coupled

/-- What the client reads is the beginning of the answer, at one time, to one way of cutting the beginning of
what it has written. -/
def Answered (respond : Instant → Bytes → Bytes) (v : Service) : Prop :=
  ∃ c now, (∀ chunk ∈ c, chunk ≠ []) ∧ c.flatten <+: v.client.written ∧
    v.client.received <+: (Handler.start.loop (respond now) c).2.flatten

theorem answered (coupled : v.server.Coupled respond) (short : v.client.written.length < 2 ^ 31)
    (safe : v.network.Short → v.network.PrefixSafe) : v.Answered respond := by
  have stored := coupled.stored.written
  obtain ⟨c, filled, stage⟩ := coupled.staged
  obtain ⟨now, begins, -⟩ := stage.once
  have bounded : v.server.task.session.written.length ≤ sendBufSize := by
    rw [stored, List.length_take]
    exact Nat.min_le_left _ _
  have prefixes := safe fun side => by
    cases side with
    | left => exact Nat.lt_of_le_of_lt bounded (by decide)
    | right => exact short
  refine ⟨c, now, filled, ?_, ?_⟩
  · have read : v.server.task.session.received <+: v.client.written := prefixes .left
    rw [← stage.requestBuf]
    refine List.IsPrefix.trans ?_ read
    rw [← coupled.handed.bytes, List.append_assoc]
    exact List.prefix_append _ _
  · have read : v.client.received <+: v.server.task.session.written := prefixes .right
    rw [stored] at read
    obtain ⟨later, sends⟩ := begins
    rw [← sends, Served.sent, List.flatten_append, List.flatten_append, List.append_assoc]
    exact (read.trans (List.take_prefix _ _)).trans (List.prefix_append _ _)

theorem always_answered (respond : Instant → Bytes → Bytes) (iss : U32) (a : Arrival)
    (actions : List ServiceAction) (rule : Runs.Along (step respond) Rule (start iss a) actions) :
    Runs.Always (step respond) (fun v => v.client.written.length < 2 ^ 31 → v.Answered respond) (start iss a)
      actions := by
  refine Runs.always_simulates (simulates _) (P := fun n => n.Short → n.PrefixSafe)
    (fun v action coupled _ => step_coupled v action coupled) (Served.start_coupled _ a) rule ?_ ?_
  · intro image run short side
    rw [start_network] at run short ⊢
    have linked := Runs.exec_inv Network.linked_step
      (fun _ => Network.start_linked _ _ a.endpoint) run short
    obtain ⟨m, follows⟩ := linked.follows side
    exact follows.begins
  · exact fun v coupled safe short => answered coupled short safe

/-- End to end: whatever the network does, and however the task, the handler and the timers take turns,
the client reads the first bytes of the response that the server builds for the first bytes that the
client has written. -/
theorem reads_response (secs : Instant → Nat) (iss : U32) (a : Arrival) (actions : List ServiceAction)
    (rule : Runs.Along (step fun now => buildHttpResponse (secs now)) Rule (start iss a) actions) :
    Runs.Always (step fun now => buildHttpResponse (secs now))
      (fun v => v.client.written.length < 2 ^ 31 →
        ∃ c now, (∀ chunk ∈ c, chunk ≠ []) ∧ c.flatten <+: v.client.written ∧
          v.client.received <+: sentBytes (secs now) c)
      (start iss a) actions :=
  always_answered (fun now => buildHttpResponse (secs now)) iss a actions rule

def greetingRequest : Bytes := ascii "GET / HTTP/1.1\r\n\r\n"

def browsing : List ServiceAction :=
  [.call .connect, .arrive Task.still 0, .deliver 0 0, .arrive Task.still 1,
    .call (.writeData greetingRequest), .call (.nextSegmentToSend 0 1460), .arrive Task.still 2,
    .serve .forwarded, .serve (.handler 0), .serve (.handler 0), .serve (.appSend Task.still),
    .deliver 0 1, .deliver 0 2, .call (.readReceived 2000)]

def responds : Instant → Bytes → Bytes := fun now => buildHttpResponse now

theorem reads_response_browsing :
    (exec responds (start clientIsn Served.client) browsing).client.received =
        buildHttpResponse 0 greetingRequest ∧
      ∃ c now, (∀ chunk ∈ c, chunk ≠ []) ∧ c.flatten <+: greetingRequest ∧
        buildHttpResponse 0 greetingRequest <+: sentBytes now c := by
  have rule : Runs.Along (step responds) Rule (start clientIsn Served.client) browsing := by
    decide +kernel
  have read : (exec responds (start clientIsn Served.client) browsing).client.received =
      buildHttpResponse 0 greetingRequest := by decide +kernel
  have wrote : (exec responds (start clientIsn Served.client) browsing).client.written =
      greetingRequest := by decide +kernel
  have answer := Runs.always_exec (reads_response id clientIsn Served.client browsing rule)
  change (exec responds (start clientIsn Served.client) browsing).client.written.length < 2 ^ 31 →
    ∃ c now, (∀ chunk ∈ c, chunk ≠ []) ∧
      c.flatten <+: (exec responds (start clientIsn Served.client) browsing).client.written ∧
      (exec responds (start clientIsn Served.client) browsing).client.received <+: sentBytes now c
    at answer
  rw [read, wrote] at answer
  exact ⟨read, answer (by decide)⟩

end Service

end MagnumTcp.Tcp
