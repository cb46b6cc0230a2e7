import MagnumTcp.Proof.Sync
import MagnumTcp.Tcp.Stack

namespace MagnumTcp.Tcp

namespace AsyncDispatch

theorem start_eq (ports : List U16) : start ports = ⟨ports, fun _ => none, []⟩ := by
  induction ports with
  | nil => rfl
  | cons port rest ih =>
      change (start rest).listen port = _
      rw [ih]
      rfl

structure Live (d : AsyncDispatch) (id : Nat) (s : Spawned) : Prop where
  spawned : d.tasks[id]? = some s
  running : s.task.running = true

/-- No four-tuple has two tasks that run, and the channel of each that runs is in the map. -/
structure OneTaskEach (d : AsyncDispatch) : Prop where
  unique : ∀ i j s t, d.Live i s → d.Live j t → s.key = t.key → i = j
  connected : ∀ id s, d.Live id s → d.channels s.key = some id

def InboxHasRoom (d : AsyncDispatch) : DispatchEvent → Prop
  | .dispatch a =>
      ∀ id s, d.channels a.key = some id → d.Live id s → s.inbox.length < inboxCapacity
  | .receive _ _ | .own _ _ => True

structure Wired (d : AsyncDispatch) : Prop where
  connected : ∀ id s, d.Live id s → d.channels s.key = some id
  leads : ∀ key id, d.channels key = some id → ∃ s, d.tasks[id]? = some s ∧ s.key = key

theorem Wired.oneTaskEach {d : AsyncDispatch} (wired : d.Wired) : d.OneTaskEach where
  unique := by
    intro i j s t liveI liveJ same
    have first := wired.connected i s liveI
    rw [same, wired.connected j t liveJ] at first
    exact Option.some.inj first.symm
  connected := wired.connected

theorem start_wired (ports : List U16) : (start ports).Wired := by
  rw [start_eq]
  constructor
  · rintro id s ⟨spawned, -⟩
    exact absurd spawned (by simp)
  · intro key id channel
    cases channel

variable {d : AsyncDispatch}

theorem step_running {t : Task} {event : TaskEvent} (after : (t.step event).running = true) :
    t.running = true := by
  unfold Task.step at after
  split_ifs at after with running
  · exact running
  · exact after

theorem receive_kept (s : Spawned) (connected : Bool) (clock : Clock) :
    (s.receive connected clock).key = s.key ∧
      ((s.receive connected clock).task.running = true → s.task.running = true) := by
  unfold Spawned.receive
  split
  · rename_i running
    split
    · exact ⟨rfl, fun _ => running⟩
    · split <;> exact ⟨rfl, fun _ => running⟩
  · exact ⟨rfl, id⟩

theorem own_kept (s : Spawned) (event : TaskEvent) :
    (s.own event).key = s.key ∧ ((s.own event).task.running = true → s.task.running = true) := by
  cases event with
  | inbound clock seg => exact ⟨rfl, id⟩
  | inboundClosed => exact ⟨rfl, id⟩
  | _ => exact ⟨rfl, step_running⟩

theorem modify_some {id j : Nat} {f : Spawned → Spawned} {s : Spawned}
    (found : (d.tasks.modify id f)[j]? = some s) :
    ∃ before, d.tasks[j]? = some before ∧ s = if id = j then f before else before := by
  rw [List.getElem?_modify] at found
  obtain ⟨before, spawned, rfl⟩ := Option.map_eq_some_iff.mp found
  exact ⟨before, spawned, rfl⟩

theorem Wired.modify (wired : d.Wired) (id : Nat) {f : Spawned → Spawned}
    (kept : ∀ s, d.tasks[id]? = some s →
      (f s).key = s.key ∧ ((f s).task.running = true → s.task.running = true)) :
    ({ d with tasks := d.tasks.modify id f } : AsyncDispatch).Wired := by
  constructor
  · rintro j s ⟨spawned, running⟩
    obtain ⟨before, there, rfl⟩ := modify_some spawned
    split_ifs at running ⊢ with here
    · subst here
      rw [(kept before there).1]
      exact wired.connected id before ⟨there, (kept before there).2 running⟩
    · exact wired.connected j before ⟨there, running⟩
  · intro key j channel
    obtain ⟨s, spawned, rfl⟩ := wired.leads key j channel
    refine ⟨if id = j then f s else s, ?_, ?_⟩
    · simp only [List.getElem?_modify, spawned, Option.map_eq_map, Option.map_some]
    · split_ifs with here
      · subst here
        exact (kept s spawned).1
      · rfl

/-! ## Dispatching -/

def opened (d : AsyncDispatch) (a : Arrival) : AsyncDispatch where
  listeners := d.listeners
  channels := Function.update d.channels a.key (some d.tasks.length)
  tasks := d.tasks ++ [⟨a.key, [], .start a.connection⟩]

theorem opened_channels_self (d : AsyncDispatch) (a : Arrival) :
    (d.opened a).channels a.key = some d.tasks.length := Function.update_self _ _ _

theorem opened_channels_of_ne {a : Arrival} {key : FourTuple} (other : key ≠ a.key) :
    (d.opened a).channels key = d.channels key := Function.update_of_ne other _ _

theorem opened_new (d : AsyncDispatch) (a : Arrival) :
    (d.opened a).tasks[d.tasks.length]? = some ⟨a.key, [], .start a.connection⟩ := by
  simp [opened]

theorem opened_old {id : Nat} {s : Spawned} (spawned : d.tasks[id]? = some s) (a : Arrival) :
    (d.opened a).tasks[id]? = some s := by
  have inside := (List.getElem?_eq_some_iff.mp spawned).1
  rw [← spawned]
  exact List.getElem?_append_left inside

theorem opened_connected {a : Arrival} (fresh : d.channels a.key = none) {id : Nat} {s : Spawned}
    (spawned : (d.opened a).tasks[id]? = some s)
    (before : d.tasks[id]? = some s → d.channels s.key = some id) :
    (d.opened a).channels s.key = some id := by
  dsimp only [opened] at spawned
  rw [List.getElem?_append] at spawned
  split_ifs at spawned with old
  · have channel := before spawned
    have other : s.key ≠ a.key := by
      intro same
      rw [same, fresh] at channel
      cases channel
    rw [opened_channels_of_ne other]
    exact channel
  · obtain ⟨inside, rfl⟩ := List.getElem?_eq_some_iff.mp spawned
    have last : id = d.tasks.length := by
      rw [List.length_singleton] at inside
      omega
    simp [opened, last]

theorem Wired.open (wired : d.Wired) {a : Arrival} (fresh : d.channels a.key = none) :
    (d.opened a).Wired := by
  constructor
  · rintro id s ⟨spawned, running⟩
    exact opened_connected fresh spawned fun old => wired.connected id s ⟨old, running⟩
  · intro key id channel
    by_cases same : key = a.key
    · subst same
      rw [opened_channels_self] at channel
      cases channel
      exact ⟨_, opened_new d a, rfl⟩
    · rw [opened_channels_of_ne same] at channel
      obtain ⟨s, spawned, rfl⟩ := wired.leads key id channel
      exact ⟨s, opened_old spawned a, rfl⟩

theorem Wired.sent (wired : d.Wired) {id : Nat} {s : Spawned} (spawned : d.tasks[id]? = some s)
    (inbox : List TcpSegment) :
    ({ d with tasks := d.tasks.set id { s with inbox := inbox } } : AsyncDispatch).Wired := by
  rw [List.set_eq_modify]
  refine wired.modify id ?_
  intro t there
  rw [spawned] at there
  cases there
  exact ⟨rfl, fun running => running⟩

theorem Wired.evict (wired : d.Wired) {key : FourTuple} {id : Nat}
    (channel : d.channels key = some id) (ended : ∀ s, ¬ d.Live id s) :
    ({ d with channels := Function.update d.channels key none } : AsyncDispatch).Wired := by
  constructor
  · rintro j s ⟨spawned, running⟩
    have there := wired.connected j s ⟨spawned, running⟩
    have other : s.key ≠ key := by
      rintro rfl
      rw [channel] at there
      cases there
      exact ended s ⟨spawned, running⟩
    exact (Function.update_of_ne other _ _).trans there
  · intro key' j there
    dsimp only at there
    by_cases same : key' = key
    · rw [same, Function.update_self] at there
      cases there
    · rw [Function.update_of_ne same] at there
      exact wired.leads key' j there

theorem trySend_eq_some {s sent : Spawned} {seg : TcpSegment} :
    s.trySend seg = some sent ↔
      (s.task.running = true ∧ s.inbox.length < inboxCapacity) ∧
        { s with inbox := s.inbox ++ [seg] } = sent := by
  unfold Spawned.trySend
  simp

theorem dispatch_cases (d : AsyncDispatch) (a : Arrival) :
    d.channels a.key = none ∧ a.opens d.listeners = true ∧ (d.dispatch a).1 = d.opened a ∨
    d.channels a.key = none ∧ a.opens d.listeners = false ∧ (d.dispatch a).1 = d ∨
    (∃ id s, d.channels a.key = some id ∧ d.Live id s ∧ s.inbox.length < inboxCapacity ∧
      (d.dispatch a).1 =
        { d with tasks := d.tasks.set id { s with inbox := s.inbox ++ [a.seg] } }) ∨
    ∃ id, d.channels a.key = some id ∧ (∀ s, d.Live id s → inboxCapacity ≤ s.inbox.length) ∧
      (d.dispatch a).1 = { d with channels := Function.update d.channels a.key none } := by
  unfold dispatch
  cases channel : d.channels a.key with
  | none =>
      cases opens : a.opens d.listeners with
      | true => exact .inl ⟨rfl, rfl, rfl⟩
      | false => exact .inr (.inl ⟨rfl, rfl, rfl⟩)
  | some id =>
      dsimp only
      cases sending : d.tasks[id]?.bind fun s => s.trySend a.seg with
      | some sent =>
          obtain ⟨s, spawned, sends⟩ := Option.bind_eq_some_iff.mp sending
          obtain ⟨⟨running, room⟩, rfl⟩ := trySend_eq_some.mp sends
          exact .inr (.inr (.inl ⟨id, s, rfl, ⟨spawned, running⟩, room, rfl⟩))
      | none =>
          refine .inr (.inr (.inr ⟨id, rfl, ?_, rfl⟩))
          intro s live
          by_contra room
          have sends : s.trySend a.seg = some { s with inbox := s.inbox ++ [a.seg] } :=
            trySend_eq_some.mpr ⟨⟨live.running, Nat.lt_of_not_le room⟩, rfl⟩
          rw [live.spawned, Option.bind_some, sends] at sending
          cases sending

theorem step_wired (wired : d.Wired) (event : DispatchEvent) (room : d.InboxHasRoom event) :
    (d.step event).Wired := by
  cases event with
  | dispatch a =>
      change (d.dispatch a).1.Wired
      rcases d.dispatch_cases a with ⟨fresh, -, after⟩ | ⟨-, -, after⟩ |
        ⟨id, s, -, live, -, after⟩ | ⟨id, channel, full, after⟩
      · rw [after]
        exact wired.open fresh
      · rw [after]
        exact wired
      · rw [after]
        exact wired.sent live.spawned _
      · rw [after]
        refine wired.evict channel ?_
        intro s live
        exact absurd (room id s channel live) (Nat.not_lt.mpr (full s live))
  | receive id clock => exact wired.modify id fun s _ => receive_kept s _ clock
  | own id event => exact wired.modify id fun s _ => own_kept s event

theorem inboxHasRoom_of_step (wired : d.Wired) (event : DispatchEvent)
    (after : (d.step event).OneTaskEach) : d.InboxHasRoom event := by
  cases event with
  | dispatch a =>
      intro id s channel live
      rcases d.dispatch_cases a with ⟨fresh, -⟩ | ⟨fresh, -⟩ |
        ⟨j, t, channel', live', room, -⟩ | ⟨j, channel', -, evicted⟩
      · exact absurd (fresh.symm.trans channel) (by simp)
      · exact absurd (fresh.symm.trans channel) (by simp)
      · cases channel'.symm.trans channel
        cases live'.spawned.symm.trans live.spawned
        exact room
      · obtain ⟨t, spawned, key⟩ := wired.leads _ _ channel
        cases live.spawned.symm.trans spawned
        have connected := after.connected
        rw [show d.step (.dispatch a) = _ from evicted] at connected
        have gone := connected id s ⟨live.spawned, live.running⟩
        dsimp only at gone
        rw [key, Function.update_self] at gone
        cases gone
  | receive id clock => trivial
  | own id event => trivial

theorem always_oneTaskEach_iff (ports : List U16) (events : List DispatchEvent) :
    Always OneTaskEach (start ports) events ↔ Along InboxHasRoom (start ports) events :=
  Runs.always_iff_along (U := fun _ _ => True)
    (fun _ event wired _ room => step_wired wired event room) (fun _ wired => wired.oneTaskEach)
    (fun _ event wired _ after => inboxHasRoom_of_step wired event after) (start_wired ports)
    (Runs.along_true _ _)

def fromClient (seg : TcpSegment) : Arrival where
  now := 0
  isn := serverIsn
  remoteIp := serverEnd.remoteIp
  localIp := serverEnd.localIp
  seg := seg

def clientSyn : TcpSegment := clientSegment clientIsn 0#32 { syn := true } 65535#16 []

def flood : List DispatchEvent :=
  .dispatch (fromClient clientSyn) ::
    List.replicate 65 (.dispatch (fromClient (ackSegment (serverIsn + 1#32) 65535#16)))

theorem flood_evicts_running_task : ¬ Always OneTaskEach (start [80#16]) flood := by
  intro always
  have last : OneTaskEach (exec (start [80#16]) flood) := Runs.always_exec always
  have found : ((exec (start [80#16]) flood).tasks[0]?.map fun s => (s.key, s.task.running)) =
      some ((fromClient clientSyn).key, true) := by decide +kernel
  have evicted : (exec (start [80#16]) flood).channels (fromClient clientSyn).key = none := by
    decide +kernel
  generalize exec (start [80#16]) flood = d at last found evicted
  obtain ⟨s, spawned, view⟩ := Option.map_eq_some_iff.mp found
  obtain ⟨key, running⟩ := Prod.mk.inj view
  have connected := last.connected 0 s ⟨spawned, running⟩
  rw [key, evicted] at connected
  cases connected

end AsyncDispatch

end MagnumTcp.Tcp
