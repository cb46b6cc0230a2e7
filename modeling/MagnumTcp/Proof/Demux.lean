import MagnumTcp.Proof.Dispatch

namespace MagnumTcp.Tcp

theorem Stack.start_eq (ports : List U16) : Stack.start ports = ⟨ports, fun _ => none⟩ := by
  induction ports with
  | nil => rfl
  | cons port rest ih =>
      change (Stack.start rest).listen port = _
      rw [ih]
      rfl

namespace DispatchRun

/-- A segment for a connection with a task finds the task running and room in its inbox, and the tasks
do nothing but take segments. -/
def SendsSucceed (r : DispatchRun) : DispatchEvent → Prop
  | .dispatch a =>
      ∀ id ∈ r.dispatch.channels a.key, ∀ s ∈ r.dispatch.tasks[id]?,
        s.task.running = true ∧ s.inbox.length < inboxCapacity
  | .receive _ _ => True
  | .own _ _ => False

instance (r : DispatchRun) : (event : DispatchEvent) → Decidable (r.SendsSucceed event)
  | .dispatch a =>
      inferInstanceAs (Decidable (∀ id ∈ r.dispatch.channels a.key, ∀ s ∈ r.dispatch.tasks[id]?,
        s.task.running = true ∧ s.inbox.length < inboxCapacity))
  | .receive _ _ => isTrue trivial
  | .own _ _ => isFalse id

structure Behind (d : DispatchRun) (r : StackRun) : Prop where
  listeners : r.stack.listeners = d.dispatch.listeners
  absent : ∀ key, d.dispatch.channels key = none →
    r.stack.connections key = none ∧ r.log.segments key = [] ∧ d.log.segments key = []
  present : ∀ key id, d.dispatch.channels key = some id → (r.stack.connections key).isSome ∧
    ∃ s syn, d.dispatch.tasks[id]? = some s ∧ s.key = key ∧
      r.log.segments key = syn :: (d.log.segments key ++ s.inbox)
  owned : ∀ id s, d.dispatch.tasks[id]? = some s → d.dispatch.channels s.key = some id

variable {d : DispatchRun} {r : StackRun}

theorem start_behind (ports : List U16) : Behind (start ports) (.start ports) where
  listeners := by simp only [start, StackRun.start, AsyncDispatch.start_eq, Stack.start_eq]
  absent := by
    intro key _
    exact ⟨by simp only [StackRun.start, Stack.start_eq], rfl, rfl⟩
  present := by
    intro key id channel
    simp only [start, AsyncDispatch.start_eq] at channel
    cases channel
  owned := by
    intro id s spawned
    simp only [start, AsyncDispatch.start_eq] at spawned
    exact absurd spawned (by simp)

theorem target_of_channel (inv : Behind d r) {a : Arrival} {id : Nat}
    (channel : d.dispatch.channels a.key = some id) : (r.stack.target a).isSome := by
  obtain ⟨conn, found⟩ := Option.isSome_iff_exists.mp (inv.present _ _ channel).1
  simp [Stack.target, found]

theorem target_of_none (inv : Behind d r) {a : Arrival}
    (fresh : d.dispatch.channels a.key = none) :
    r.stack.target a = if a.opens d.dispatch.listeners then some a.connection else none := by
  simp only [Stack.target, (inv.absent _ fresh).1, inv.listeners]

theorem step_target {a : Arrival} (found : (r.stack.target a).isSome) :
    ((r.step a).stack.connections a.key).isSome ∧
      (∀ key ≠ a.key, (r.step a).stack.connections key = r.stack.connections key) ∧
      (r.step a).stack.listeners = r.stack.listeners ∧
      (r.step a).log.segments =
        Function.update r.log.segments a.key (r.log.segments a.key ++ [a.seg]) := by
  obtain ⟨conn, target⟩ := Option.isSome_iff_exists.mp found
  refine ⟨?_, ?_, ?_, ?_⟩
  · simp [StackRun.step, Stack.process, target]
  · intro key other
    simp [StackRun.step, Stack.process, target, other]
  · simp [StackRun.step, Stack.process, target]
  · simp [StackRun.step, target, Log.record]

theorem step_no_target {a : Arrival} (missing : r.stack.target a = none) : r.step a = r := by
  simp [StackRun.step, Stack.process, missing]

theorem opened_behind (inv : Behind d r) {a : Arrival}
    (fresh : d.dispatch.channels a.key = none) (opens : a.opens d.dispatch.listeners = true) :
    Behind ⟨d.dispatch.opened a, d.log⟩ (r.step a) := by
  have target : (r.stack.target a).isSome := by rw [target_of_none inv fresh, if_pos opens]; rfl
  obtain ⟨connected, others, listeners, segments⟩ := step_target target
  obtain ⟨-, unseen, silent⟩ := inv.absent _ fresh
  refine ⟨listeners.trans inv.listeners, ?_, ?_, ?_⟩
  · intro key channel
    dsimp only at channel
    have other : key ≠ a.key := by
      rintro rfl
      rw [AsyncDispatch.opened_channels_self] at channel
      cases channel
    rw [AsyncDispatch.opened_channels_of_ne other] at channel
    rw [others key other, segments, Function.update_of_ne other]
    exact inv.absent key channel
  · intro key id channel
    dsimp only at channel ⊢
    by_cases same : key = a.key
    · subst same
      rw [AsyncDispatch.opened_channels_self] at channel
      cases channel
      refine ⟨connected, _, a.seg, AsyncDispatch.opened_new _ a, rfl, ?_⟩
      rw [segments, Function.update_self, unseen, silent]
      rfl
    · rw [AsyncDispatch.opened_channels_of_ne same] at channel
      rw [others key same, segments, Function.update_of_ne same]
      obtain ⟨some, s, syn, spawned, key, seen⟩ := inv.present key id channel
      exact ⟨some, s, syn, AsyncDispatch.opened_old spawned a, key, seen⟩
  · intro id s spawned
    exact AsyncDispatch.opened_connected fresh spawned (inv.owned id s)

theorem set_behind (inv : Behind d r) {key : FourTuple} {id : Nat} {s s' : Spawned}
    (channel : d.dispatch.channels key = some id) (spawned : d.dispatch.tasks[id]? = some s)
    (same : s'.key = key) {r' : StackRun} {log' : Log}
    (listeners : r'.stack.listeners = r.stack.listeners)
    (connected : (r'.stack.connections key).isSome)
    (others : ∀ other ≠ key, r'.stack.connections other = r.stack.connections other ∧
      r'.log.segments other = r.log.segments other ∧ log'.segments other = d.log.segments other)
    (seen : ∀ syn, r.log.segments key = syn :: (d.log.segments key ++ s.inbox) →
      r'.log.segments key = syn :: (log'.segments key ++ s'.inbox)) :
    Behind ⟨{ d.dispatch with tasks := d.dispatch.tasks.set id s' }, log'⟩ r' := by
  have inside := (List.getElem?_eq_some_iff.mp spawned).1
  obtain ⟨-, t, syn, found, home, before⟩ := inv.present _ _ channel
  cases spawned.symm.trans found
  refine ⟨listeners.trans inv.listeners, ?_, ?_, ?_⟩
  · intro other missing
    dsimp only at missing ⊢
    have apart : other ≠ key := by
      rintro rfl
      rw [channel] at missing
      cases missing
    obtain ⟨conns, segs, logs⟩ := others other apart
    rw [conns, segs, logs]
    exact inv.absent other missing
  · intro other j there
    dsimp only at there ⊢
    by_cases here : other = key
    · subst here
      cases channel.symm.trans there
      refine ⟨connected, s', syn, ?_, same, seen syn before⟩
      rw [List.getElem?_set_self inside]
    · obtain ⟨conns, segs, logs⟩ := others other here
      obtain ⟨some, t, syn, found, owner, before⟩ := inv.present other j there
      have apart : id ≠ j := by
        rintro rfl
        cases spawned.symm.trans found
        exact here (owner.symm.trans home)
      rw [conns, segs, logs]
      refine ⟨some, t, syn, ?_, owner, before⟩
      rw [List.getElem?_set_ne apart]
      exact found
  · intro j t found
    dsimp only at found ⊢
    rw [List.getElem?_set] at found
    split_ifs at found with here
    · subst here
      cases found
      rw [same]
      exact channel
    · exact inv.owned j t found

theorem sends_cases (inv : Behind d r) (a : Arrival) (sends : d.SendsSucceed (.dispatch a)) :
    d.dispatch.channels a.key = none ∧ a.opens d.dispatch.listeners = true ∧
      (d.dispatch.dispatch a).1 = d.dispatch.opened a ∨
    d.dispatch.channels a.key = none ∧ a.opens d.dispatch.listeners = false ∧
      (d.dispatch.dispatch a).1 = d.dispatch ∨
    ∃ id s, d.dispatch.channels a.key = some id ∧ d.dispatch.tasks[id]? = some s ∧
      s.key = a.key ∧ (d.dispatch.dispatch a).1 =
        { d.dispatch with
          tasks := d.dispatch.tasks.set id { s with inbox := s.inbox ++ [a.seg] } } := by
  rcases d.dispatch.dispatch_cases a with opened | closed | ⟨id, s, channel, live, -, after⟩ |
    ⟨id, channel, full, -⟩
  · exact .inl opened
  · exact .inr (.inl closed)
  · obtain ⟨-, t, -, found, home, -⟩ := inv.present _ _ channel
    cases live.spawned.symm.trans found
    exact .inr (.inr ⟨id, s, channel, live.spawned, home, after⟩)
  · obtain ⟨-, s, -, found, -⟩ := inv.present _ _ channel
    obtain ⟨running, room⟩ := sends id channel s found
    exact absurd room (Nat.not_lt.mpr (full s ⟨found, running⟩))

theorem dispatch_behind (inv : Behind d r) (a : Arrival) (sends : d.SendsSucceed (.dispatch a)) :
    Behind (d.step (.dispatch a)) (r.step a) := by
  unfold step AsyncDispatch.step
  dsimp only
  rcases sends_cases inv a sends with ⟨fresh, opens, after⟩ | ⟨fresh, closed, after⟩ |
    ⟨id, s, channel, spawned, home, after⟩
  · rw [after]
    exact opened_behind inv fresh opens
  · rw [after, step_no_target (by rw [target_of_none inv fresh, closed]; rfl)]
    exact inv
  · rw [after]
    obtain ⟨connected, others, listeners, segments⟩ := step_target (target_of_channel inv channel)
    have sent : ({ s with inbox := s.inbox ++ [a.seg] } : Spawned).key = a.key := home
    refine set_behind inv channel spawned sent listeners connected ?_ ?_
    · intro other apart
      exact ⟨others other apart, by rw [segments, Function.update_of_ne apart], rfl⟩
    · intro syn seen
      rw [segments, Function.update_self, seen]
      simp [logged]

theorem receive_behind (inv : Behind d r) (id : Nat) (clock : Clock) :
    Behind (d.step (.receive id clock)) r := by
  unfold step AsyncDispatch.step logged
  dsimp only
  cases spawned : d.dispatch.tasks[id]? with
  | none =>
      dsimp only
      rw [List.modify_eq_self (List.getElem?_eq_none_iff.mp spawned)]
      exact inv
  | some s =>
      have channel := inv.owned id s spawned
      have set : d.dispatch.tasks.modify id
            (fun s => s.receive (d.dispatch.channels s.key == some id) clock) =
          d.dispatch.tasks.set id (s.receive true clock) := by
        rw [List.modify_eq_set_getElem?, spawned]
        simp [channel]
      have connected := (inv.present _ _ channel).1
      have home := (AsyncDispatch.receive_kept s true clock).1
      rw [set]
      dsimp only
      cases running : s.task.running with
      | false =>
          refine set_behind inv channel spawned home rfl connected (fun _ _ => ⟨rfl, rfl, rfl⟩) ?_
          simp [Spawned.receive, running]
      | true =>
          cases inbox : s.inbox with
          | nil =>
              refine set_behind inv channel spawned home rfl connected (fun _ _ => ⟨rfl, rfl, rfl⟩)
                ?_
              simp [Spawned.receive, running, inbox]
          | cons seg rest =>
              refine set_behind inv channel spawned home rfl connected ?_ ?_
              · intro other apart
                exact ⟨rfl, rfl, Function.update_of_ne apart _ _⟩
              · intro syn seen
                rw [seen]
                simp [Spawned.receive, running, inbox, Log.record]

/-! ## Whole runs -/

def follow (r : StackRun) (event : DispatchEvent) : StackRun :=
  match event.arrival with
  | some a => r.step a
  | none => r

theorem follow_arrivals (r : StackRun) (events : List DispatchEvent) :
    Runs.exec follow r events =
      Runs.exec StackRun.step r (events.filterMap DispatchEvent.arrival) := by
  induction events generalizing r with
  | nil => rfl
  | cons event rest ih =>
      rw [Runs.exec_cons, ih, List.filterMap_cons]
      cases event <;> rfl

theorem exec_behind (inv : Behind d r) {events : List DispatchEvent}
    (sends : Runs.Along step SendsSucceed d events) :
    Behind (Runs.exec step d events) (Runs.exec follow r events) := by
  induction events generalizing d r with
  | nil => exact inv
  | cons event rest ih =>
      obtain ⟨now, later⟩ := sends
      refine ih ?_ later
      cases event with
      | dispatch a => exact dispatch_behind inv a now
      | receive id clock => exact receive_behind inv id clock
      | own id event => exact now.elim

structure Extends (d d' : AsyncDispatch) : Prop where
  listeners : d'.listeners = d.listeners
  channels : ∀ key, d.channels key ≠ none → d'.channels key ≠ none

theorem dispatch_extends (inv : Behind d r) (a : Arrival) (sends : d.SendsSucceed (.dispatch a)) :
    Extends d.dispatch (d.dispatch.dispatch a).1 ∧
      (a.opens d.dispatch.listeners = true → (d.dispatch.dispatch a).1.channels a.key ≠ none) := by
  rcases sends_cases inv a sends with ⟨fresh, -, after⟩ | ⟨fresh, closed, after⟩ |
    ⟨id, s, channel, -, -, after⟩
  · rw [after]
    refine ⟨⟨rfl, ?_⟩, fun _ => by rw [AsyncDispatch.opened_channels_self]; simp⟩
    intro key there
    have other : key ≠ a.key := by
      rintro rfl
      exact there fresh
    rw [AsyncDispatch.opened_channels_of_ne other]
    exact there
  · rw [after]
    refine ⟨⟨rfl, fun _ there => there⟩, fun opens => ?_⟩
    rw [closed] at opens
    cases opens
  · rw [after]
    exact ⟨⟨rfl, fun _ there => there⟩, fun _ => by simp [channel]⟩

theorem exec_extends (inv : Behind d r) {events : List DispatchEvent}
    (sends : Runs.Along step SendsSucceed d events) :
    Extends d.dispatch (Runs.exec step d events).dispatch ∧
      ∀ a ∈ events.filterMap DispatchEvent.arrival, a.opens d.dispatch.listeners = true →
        (Runs.exec step d events).dispatch.channels a.key ≠ none := by
  induction events generalizing d r with
  | nil => exact ⟨⟨rfl, fun _ there => there⟩, fun _ member => absurd member List.not_mem_nil⟩
  | cons event rest ih =>
      obtain ⟨now, later⟩ := sends
      cases event with
      | dispatch a =>
          obtain ⟨first, opened⟩ := dispatch_extends inv a now
          obtain ⟨more, others⟩ := ih (dispatch_behind inv a now) later
          refine ⟨⟨more.listeners.trans first.listeners,
            fun key there => more.channels key (first.channels key there)⟩, ?_⟩
          intro b member opens
          rcases List.mem_cons.mp member with rfl | member
          · exact more.channels _ (opened opens)
          · exact others b member (first.listeners ▸ opens)
      | receive id clock =>
          obtain ⟨more, others⟩ := ih (receive_behind inv id clock) later
          exact ⟨⟨more.listeners, more.channels⟩, others⟩
      | own id event => exact now.elim

theorem exec_unopened {ports : List U16} {events : List DispatchEvent}
    (closed : ∀ a ∈ events.filterMap DispatchEvent.arrival, a.opens ports = false) :
    Runs.exec step (start ports) events = start ports ∧
      Runs.exec StackRun.step (.start ports) (events.filterMap DispatchEvent.arrival) =
        .start ports := by
  induction events with
  | nil => exact ⟨rfl, rfl⟩
  | cons event rest ih =>
      rw [Runs.exec_cons]
      cases event with
      | dispatch a =>
          obtain ⟨now, later⟩ := List.forall_mem_cons.mp closed
          have async : (start ports).step (.dispatch a) = start ports := by
            simp [step, AsyncDispatch.step, AsyncDispatch.dispatch, start, AsyncDispatch.start_eq,
              logged, now]
          have sync : (StackRun.start ports).step a = .start ports :=
            step_no_target (by simp [StackRun.start, Stack.start_eq, Stack.target, now])
          rw [async]
          simp only [List.filterMap_cons, DispatchEvent.arrival, Runs.exec_cons, sync]
          exact ih later
      | receive id clock =>
          have async : (start ports).step (.receive id clock) = start ports := by
            simp [step, AsyncDispatch.step, start, AsyncDispatch.start_eq, logged]
          rw [async]
          exact ih closed
      | own id event =>
          have async : (start ports).step (.own id event) = start ports := by
            simp [step, AsyncDispatch.step, start, AsyncDispatch.start_eq, logged]
          rw [async]
          exact ih closed

theorem logs_agree_iff (ports : List U16) (events : List DispatchEvent)
    (sends : Runs.Along step SendsSucceed (start ports) events)
    (drained : ∀ s ∈ (Runs.exec step (start ports) events).dispatch.tasks, s.inbox = []) :
    (∀ key,
      (Runs.exec step (start ports) events).log.segments key =
        (Runs.exec StackRun.step (.start ports)
          (events.filterMap DispatchEvent.arrival)).log.segments key ∧
      (Runs.exec step (start ports) events).log.replies key =
        (Runs.exec StackRun.step (.start ports)
          (events.filterMap DispatchEvent.arrival)).log.replies key) ↔
    ∀ a ∈ events.filterMap DispatchEvent.arrival, a.opens ports = false := by
  constructor
  · intro agree a member
    by_contra opens
    rw [Bool.not_eq_false] at opens
    have behind := exec_behind (start_behind ports) sends
    rw [follow_arrivals] at behind
    have listeners : (start ports).dispatch.listeners = ports := by
      simp only [start, AsyncDispatch.start_eq]
    have opened := (exec_extends (start_behind ports) sends).2 a member (by rw [listeners]; exact opens)
    obtain ⟨id, channel⟩ := Option.ne_none_iff_exists'.mp opened
    obtain ⟨-, s, syn, found, -, seen⟩ := behind.present _ _ channel
    rw [drained s (List.mem_of_getElem? found), List.append_nil, ← (agree a.key).1] at seen
    exact absurd (congrArg List.length seen) (by simp)
  · intro closed
    obtain ⟨async, sync⟩ := exec_unopened closed
    rw [async, sync]
    exact fun key => ⟨rfl, rfl⟩

def repeatedSyn : List DispatchEvent :=
  [.dispatch (AsyncDispatch.fromClient AsyncDispatch.clientSyn),
    .dispatch (AsyncDispatch.fromClient AsyncDispatch.clientSyn), .receive 0 ⟨0, fun _ => 0, 0⟩]

theorem logs_agree_iff_repeatedSyn :
    (Runs.Along step SendsSucceed (start [80#16]) repeatedSyn ∧
      ∀ s ∈ (Runs.exec step (start [80#16]) repeatedSyn).dispatch.tasks, s.inbox = []) ∧
    ((∀ key,
      (Runs.exec step (start [80#16]) repeatedSyn).log.segments key =
        (Runs.exec StackRun.step (.start [80#16])
          (repeatedSyn.filterMap DispatchEvent.arrival)).log.segments key ∧
      (Runs.exec step (start [80#16]) repeatedSyn).log.replies key =
        (Runs.exec StackRun.step (.start [80#16])
          (repeatedSyn.filterMap DispatchEvent.arrival)).log.replies key) ↔
    ∀ a ∈ repeatedSyn.filterMap DispatchEvent.arrival, a.opens [80#16] = false) := by
  have sends : Runs.Along step SendsSucceed (start [80#16]) repeatedSyn := by decide +kernel
  have drained : ∀ s ∈ (Runs.exec step (start [80#16]) repeatedSyn).dispatch.tasks,
      s.inbox = [] := by decide +kernel
  exact ⟨⟨sends, drained⟩, logs_agree_iff _ _ sends drained⟩

def firstSyn : List DispatchEvent := [.dispatch (AsyncDispatch.fromClient AsyncDispatch.clientSyn)]

theorem firstSyn_not_processed :
    (Runs.Along step SendsSucceed (start [80#16]) firstSyn ∧
      ∀ s ∈ (Runs.exec step (start [80#16]) firstSyn).dispatch.tasks, s.inbox = []) ∧
    ¬ ∀ key,
      (Runs.exec step (start [80#16]) firstSyn).log.segments key =
        (Runs.exec StackRun.step (.start [80#16])
          (firstSyn.filterMap DispatchEvent.arrival)).log.segments key ∧
      (Runs.exec step (start [80#16]) firstSyn).log.replies key =
        (Runs.exec StackRun.step (.start [80#16])
          (firstSyn.filterMap DispatchEvent.arrival)).log.replies key := by
  refine ⟨⟨by decide +kernel, by decide +kernel⟩, fun agree => ?_⟩
  have unanswered := (agree (AsyncDispatch.fromClient AsyncDispatch.clientSyn).key).2
  exact absurd (congrArg List.length unanswered) (by decide +kernel)

end DispatchRun

end MagnumTcp.Tcp
