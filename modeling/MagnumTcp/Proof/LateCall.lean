import MagnumTcp.Proof.Establish
import MagnumTcp.Proof.Queue

namespace MagnumTcp.Tcp

open MagnumTcp.Tcp.Core

theorem Session.step_still {s : Session} {event : Event} (nothing : call s.conn event = (s.conn, []))
    (unwritten : s.accepted event = []) (unread : s.handedOut event = [])
    (noted : s.conn.tcb.state = .established → s.established = true) :
    s.step event = { s with used := true } := by
  have known : (s.established || s.conn.tcb.state == .established) = s.established := by
    rw [Bool.or_eq_left_iff_imp, beq_iff_eq]
    exact noted
  unfold Session.step Session.output
  rw [nothing, unwritten, unread, List.append_nil, List.append_nil, List.append_nil]
  dsimp only
  rw [known]

theorem Connection.takeRetransmits_idle {c : Connection} (idle : c.retransmitQueue.entries = []) (now : Instant) :
    c.takeRetransmits now = (c, []) := by
  obtain ⟨tcb, sendBuf, recvBuf, ⟨entries, rto, srtt, rttvar⟩, start⟩ := c
  cases idle
  rfl

theorem Opening.idle (iss : U32) (e : Endpoint) {event : Event} (silent : ∀ data, event ≠ .writeData data)
    (waits : event ≠ .connect) : (Opening.active.session iss e).step event =
      { Opening.active.session iss e with used := true } := by
  have closed : (Opening.active.session iss e).conn.tcb.state ≠ .established := by
    intro now
    cases now
  cases event with
  | connect => exact absurd rfl waits
  | writeData data => exact absurd rfl (silent data)
  | nextSegmentToSend now maxPayload =>
      have nothing : (Opening.active.session iss e).conn.nextSegmentToSend now maxPayload =
          ((Opening.active.session iss e).conn, none) :=
        Connection.nextSegmentToSend_idle now fun able => Nat.not_lt_zero _ able.2.1
      exact Session.step_still (congrArg (Prod.map id Option.toList) nothing) rfl rfl (absurd · closed)
  | takeRetransmits now =>
      exact Session.step_still (Connection.takeRetransmits_idle rfl now) rfl rfl (absurd · closed)
  | _ => exact Session.step_still rfl rfl rfl (absurd · closed)

theorem Session.connect_again {s : Session} (state : s.conn.tcb.state ≠ .closed) (used : s.used = true)
    (noted : s.conn.tcb.state = .established → s.established = true) : s.step .connect = s := by
  have again : s.conn.connect = (s.conn, none) := if_pos state
  have nothing : call s.conn .connect = (s.conn, []) := congrArg (Prod.map id Option.toList) again
  rw [step_still nothing rfl rfl noted, ← used]

theorem Event.orderly_of_opens {event : Event} (opens : event.opens = true) {s : Session}
    (unused : event = .connect → s.used = false) : event.isArrival = false ∧ s.Orderly event := by
  cases event with
  | connect => exact ⟨rfl, unused rfl, trivial⟩
  | processSegment | writeData | initiateClose => cases opens
  | _ => exact ⟨rfl, trivial, trivial⟩

namespace Network

variable {n n' : Network} {o : Side → Opening} {e : Endpoint} {iss : Side → U32} {side : Side} {event : Event}

theorem established_step (n : Network) (action : Action)
    (noted : ∀ side, (n.party side).conn.tcb.state = .established → (n.party side).established = true)
    (rule : n.Rule Session.Orderly action) (side : Side) :
    ((n.step action).party side).conn.tcb.state = .established →
      ((n.step action).party side).established = true := by
  revert side
  rcases step_cases rule (fun _ _ _ => ⟨trivial, trivial⟩) with same | ⟨side, event, taken, -⟩
  · rw [same]
    exact noted
  · rw [taken, Side.forall_iff side, perform_self, perform_other]
    exact ⟨fun now => Bool.or_eq_true_iff.mpr (.inr (beq_iff_eq.mpr now)), noted side.other⟩

/-- A side of `n` is as it is in `n'`, or it is still to call, and `n'` knows nothing of what it has lost. -/
structure Twin (o : Side → Opening) (e : Endpoint) (iss : Side → U32) (n' n : Network) : Prop where
  greeting : n'.Greeting o e iss
  noted : ∀ x, (n'.party x).conn.tcb.state = .established → (n'.party x).established = true
  waiting : ∀ x, (n'.party x).conn.tcb.state = .closed →
    n'.party x = Opening.active.session (iss x) (e.at x)
  same : ∀ x, n.party x = n'.party x ∨ n'.party x = Opening.active.session (iss x) (e.at x) ∧
    n.party x = { n'.party x with used := true }

theorem start_twin (o : Side → Opening) (iss : Side → U32) (e : Endpoint) :
    Twin o e iss (start o iss e) (start o iss e) := by
  refine ⟨start_greeting o iss e, fun x now => ?_, fun x now => ?_, fun x => .inl rfl⟩
  · cases kind : o x <;> simp [start, kind] at now <;> cases now
  · cases kind : o x with
    | passive =>
        simp only [start, kind] at now
        cases now
    | active => simp only [start, kind]

theorem Twin.step_eq (twin : Twin o e iss n' n) (x : Side) (event : Event) :
    (n.party x).step event = (n'.party x).step event := by
  rcases twin.same x with same | ⟨-, same⟩ <;> rw [same]
  rfl

theorem Twin.performs (twin : Twin o e iss n' n) {action : Action} (opens : n'.Opens action)
    (taken : n'.step action = n'.perform side event) (rule : n'.Rule Session.Orderly action)
    (live : (n'.party side).conn.tcb.state = .closed → event = .connect) :
    Twin o e iss (n'.perform side event) (n.perform side event) := by
  obtain ⟨greeting, hears⟩ := greeting_step n' action twin.greeting opens
  have noted := established_step n' action twin.noted rule
  rw [taken] at greeting hears noted
  have never : ((n'.perform side event).party side).conn.tcb.state ≠ .closed := by
    intro closed
    have active := (greeting.party side).core.active closed
    have said : ((n'.perform side event).party side).conn.tcb.state.said = true := by
      by_cases before : (n'.party side).conn.tcb.state = .closed
      · rw [perform_self]
        exact ((twin.greeting.party side).call (by rw [live before]; rfl)).2 (live before) active
      · refine hears.said side ?_
        have listens := (twin.greeting.party side).core.passive
        cases state : (n'.party side).conn.tcb.state with
        | closed => exact absurd state before
        | listen => exact absurd (active.symm.trans (listens state)) (by simp)
        | _ => rfl
    rw [closed] at said
    cases said
  refine ⟨greeting, noted, ?_, ?_⟩ <;> rw [Side.forall_iff side]
  · refine ⟨fun closed => absurd closed never, ?_⟩
    rw [perform_other]
    exact twin.waiting side.other
  · rw [perform_self, perform_self, perform_other, perform_other]
    exact ⟨.inl (twin.step_eq side event), twin.same side.other⟩

theorem Twin.drops (twin : Twin o e iss n' n) (lost : (n'.party side).step event = n'.party side ∨
      n'.party side = Opening.active.session (iss side) (e.at side) ∧
        (n'.party side).step event = { n'.party side with used := true }) :
    Twin o e iss n' (n.perform side event) := by
  refine ⟨twin.greeting, twin.noted, twin.waiting, ?_⟩
  rw [Side.forall_iff side, perform_self, perform_other, twin.step_eq side event]
  exact ⟨lost, twin.same side.other⟩

theorem Twin.follows (twin : Twin o e iss n' n) {action : Action} (opens : n'.Opens action)
    (taken : n'.step action = n'.perform side event) (silent : ∀ data, event ≠ .writeData data)
    (rule : (event = .connect → (n'.party side).used = false) → n'.Rule Session.Orderly action) :
    ∃ actions, n'.Along (Rule Session.Orderly) actions ∧
      Twin o e iss (n'.exec actions) (n.perform side event) := by
  have both (live : (n'.party side).conn.tcb.state = .closed → event = .connect)
      (unused : event = .connect → (n'.party side).used = false) :
      ∃ actions, n'.Along (Rule Session.Orderly) actions ∧
        Twin o e iss (n'.exec actions) (n.perform side event) := by
    refine ⟨[action], ⟨rule unused, trivial⟩, ?_⟩
    rw [exec, Runs.exec_cons, Runs.exec_nil, taken]
    exact twin.performs opens taken (rule unused) live
  by_cases calls : event = .connect
  · cases used : (n'.party side).used with
    | false => exact both (fun _ => calls) fun _ => used
    | true =>
        have open_ : (n'.party side).conn.tcb.state ≠ .closed := by
          intro closed
          rw [twin.waiting side closed] at used
          cases used
        exact ⟨[], trivial, twin.drops (.inl (calls ▸ Session.connect_again open_ used (twin.noted side)))⟩
  · by_cases closed : (n'.party side).conn.tcb.state = .closed
    · have fresh := twin.waiting side closed
      refine ⟨[], trivial, twin.drops (.inr ⟨fresh, ?_⟩)⟩
      rw [fresh]
      exact Opening.idle _ _ silent calls
    · exact both (absurd · closed) (absurd · calls)

theorem Twin.arrival (twin : Twin o e iss n' n) (side : Side) (now : Instant) (k : Nat) :
    n.arrival side now k = n'.arrival side now k := by
  unfold Network.arrival
  rcases twin.same side.other with same | ⟨-, same⟩ <;> rw [same]

theorem Twin.step (twin : Twin o e iss n' n) {action : Action} (opens : n.Opens action) :
    ∃ actions, n'.Along (Rule Session.Orderly) actions ∧ Twin o e iss (n'.exec actions) (n.step action) := by
  cases action with
  | call side event =>
      have opening : event.opens = true := opens
      have here : n'.Opens (.call side event) := opens
      refine twin.follows here rfl ?_ fun unused => Event.orderly_of_opens opening unused
      rintro data rfl
      cases opening
  | deliver side now k =>
      have arrives : n.step (.deliver side now k) = (n'.arrival side now k).elim n (n.perform side) := by
        rw [← twin.arrival]
        rfl
      rw [arrives]
      cases found : n'.arrival side now k with
      | none => exact ⟨[], trivial, twin⟩
      | some event =>
          have taken : n'.step (.deliver side now k) = n'.perform side event :=
            congrArg (Option.elim · n' (n'.perform side)) found
          have here : n'.Opens (.deliver side now k) := trivial
          have silent : ∀ data, event ≠ .writeData data := by
            rintro data rfl
            unfold Network.arrival at found
            obtain ⟨raw, -, parsed⟩ := Option.bind_eq_some_iff.mp found
            split at parsed <;> cases parsed
          exact twin.follows here taken silent fun _ => trivial

/-- Every opening comes to the same as one in which each side that calls does so first. -/
theorem opens_orderly {actions : List Action} (opens : Along Opens (start o iss e) actions) :
    ∃ actions', Along (Rule Session.Orderly) (start o iss e) actions' ∧
      Twin o e iss (exec (start o iss e) actions') (exec (start o iss e) actions) := by
  have keep : ∀ (n : Network) (action : Action),
      (∃ actions', Along (Rule Session.Orderly) (start o iss e) actions' ∧
        Twin o e iss (exec (start o iss e) actions') n) → n.Opens action →
      ∃ actions', Along (Rule Session.Orderly) (start o iss e) actions' ∧
        Twin o e iss (exec (start o iss e) actions') (n.step action) := by
    rintro n action ⟨before, orderly, twin⟩ opens
    obtain ⟨more, orderly', twin'⟩ := twin.step opens
    refine ⟨before ++ more, Runs.along_append.mpr ⟨orderly, orderly'⟩, ?_⟩
    rw [exec, Runs.exec_append]
    exact twin'
  exact Runs.exec_inv keep ⟨[], trivial, start_twin o iss e⟩ opens

theorem Twin.eq (twin : Twin o e iss n' n) (called : ∀ x, (n.party x).conn.tcb.state ≠ .closed) : n = n' := by
  have same : n.party = n'.party := by
    funext x
    rcases twin.same x with same | ⟨fresh, same⟩
    · exact same
    · have state := called x
      rw [same, fresh] at state
      exact absurd rfl state
  cases n
  cases n'
  rw [Network.mk.injEq]
  exact same

end Network

end MagnumTcp.Tcp
