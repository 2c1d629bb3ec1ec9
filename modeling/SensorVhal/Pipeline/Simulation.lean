import SensorVhal.Pipeline.Refinement
import SensorVhal.Sensors.Reports

namespace SensorVhal

theorem SensorsModule.step_of_hal {Tid : Type} [DecidableEq Tid] {hdr : SensorsHeader}
    {m : SensorsModule Tid} {event : HalEvent Tid} {hal : Hal Tid}
    (hcount : ∀ thread count, event = .poll thread count → 0 < count)
    (hstep : m.hal.step hdr event = some hal) : m.step hdr event = some {
      hal := hal
      stored := m.stored ++ m.hal.stores hdr event
      returns := m.returns ++ (m.answered hdr event).toList } := by
  have hrefused : m.refused event = none := by
    cases event with
    | poll thread count =>
        simp only [refused]
        split
        · rw [sensor_poll_events, if_neg (Int.not_le.mpr (hcount thread count rfl))]
          rfl
        · rfl
    | _ => rfl
  rw [SensorsModule.step, hrefused]
  simp only [hstep, Option.map_some]

-- The queue makes room in the same way, whatever its entries are.
theorem make_room_map {α β : Type} (f : α → β) (queue pool : List α) (other : List β) :
    (make_room (queue.map f) other).1 = (make_room queue pool).1.map f := by
  induction queue generalizing pool other with
  | nil => rfl
  | cons front queue ih =>
      simp only [List.map_cons, make_room, List.length_cons, List.length_map]
      split
      · exact ih _ _
      · rfl

namespace Pipeline

variable (x : Pipeline)

-- The message that the poll thread holds, which is the last that it took.
def in_hand : List AicSensorsEvent :=
  match x.poll with
  | .taken _ _ => (x.history.taken.getLast?.map message_of).toList
  | _ => []

-- Where the poll stands, without its buffer.
def poll_pc : PollPc :=
  match x.poll with
  | .idle | .undefined => .idle
  | .asleep count _ => .no_client count
  | .ready count _ | .waiting count _ _ => .waiting count
  | .taken count _ =>
    match x.history.taken.getLast? with
    | some bytes => .taken count (message_of bytes)
    | none => .idle

-- What an event of the threads is to the HAL.
def shown (event : PipelineEvent) : List (HalEvent Unit) :=
  match event with
  | .flush handle => [.flush handle]
  | .connection connected => [.connection connected]
  | .push =>
    match x.listener with
    | .pushing buffer => [.arrive (message_of (x.contents buffer))]
    | _ => []
  | .poll count => [.poll () count]
  | .wake => [.wake ()]
  | .lock | .wait => if x.m_sensor_msg_queue = [] then [] else [.take ()]
  | .process host_timestamp => [.process () host_timestamp]
  | .header .. | .test | .create _ | .pop | .payload _ => []

-- Nothing is said about the HAL once the poll has used an empty queue.
def hal_events (x : Pipeline) (event : PipelineEvent) : List (HalEvent Unit) :=
  match x.poll with
  | .undefined => []
  | _ => x.shown event

-- The module as it is without buffers: its queue holds messages, and what the poll took
-- it has stored, up to the message in its hand.
structure Abstracts (x : Pipeline) (m : SensorsModule Unit) : Prop where
  device : m.hal.device = x.device
  queue : m.hal.m_sensor_msg_queue = x.fifo.queue.map message_of
  client : m.hal.client_connected = x.client_connected
  poll : m.hal.polls () = x.poll_pc
  stored : x.history.taken.map message_of = m.stored ++ x.in_hand

variable {x} {hdr : SensorsHeader} {next : Pipeline} {m : SensorsModule Unit}

theorem abstracts_init (memory : Handle → SensorsEvent) (log_trace_count : Int) :
    (init memory log_trace_count).Abstracts (.init memory log_trace_count) :=
  ⟨rfl, rfl, rfl, rfl, rfl⟩

-- Steps of the listener on its own buffers are nothing to the HAL.
theorem Abstracts.stutter (h : x.Abstracts m) (hdevice : next.device = x.device)
    (hfifo : next.fifo = x.fifo) (hclient : next.client_connected = x.client_connected)
    (hpoll : next.poll = x.poll) : next.Abstracts m := by
  have htaken : next.history.taken = x.history.taken := congrArg Fifo.State.taken hfifo
  refine ⟨h.device.trans hdevice.symm, ?_, h.client.trans hclient.symm, ?_, ?_⟩
  · rw [hfifo]
    exact h.queue
  · rw [h.poll, poll_pc, poll_pc, hpoll, htaken]
  · rw [htaken, h.stored, in_hand, in_hand, hpoll, htaken]

-- One event of the threads is one event of the HAL.
theorem run_one {event : HalEvent Unit} {hal : Hal Unit}
    (hcount : ∀ thread count, event = .poll thread count → 0 < count)
    (hstep : m.hal.step hdr event = some hal)
    (habstracts : next.Abstracts {
      hal := hal
      stored := m.stored ++ m.hal.stores hdr event
      returns := m.returns ++ (m.answered hdr event).toList }) :
    ∃ m', Machine.run (SensorsModule.step hdr) m [event] = some m' ∧ next.Abstracts m' := by
  refine ⟨_, ?_, habstracts⟩
  rw [Machine.run_singleton]
  exact SensorsModule.step_of_hal hcount hstep

theorem Abstracts.flush (h : x.Abstracts m) (handle : Handle) :
    ∃ m', Machine.run (SensorsModule.step hdr) m [.flush handle] = some m' ∧
      ({ x with device := sensor_device_flush_locked hdr x.device handle } :
        Pipeline).Abstracts m' := by
  have hflush : m.hal.step hdr (.flush handle) = some { m.hal with
      device := sensor_device_flush_locked hdr m.hal.device handle
      history := { m.hal.history with flushed := m.hal.history.flushed ++ [handle] } } := by
    simp only [Hal.step, sensor_device_flush_handle, Option.map_some]
  refine run_one (fun _ _ hpoll => by cases hpoll) hflush ⟨?_, h.queue, h.client, h.poll, ?_⟩
  · rw [h.device]
  · show x.history.taken.map message_of = m.stored ++ [] ++ x.in_hand
    rw [List.append_nil]
    exact h.stored

theorem Abstracts.connection (h : x.Abstracts m) (connected : Bool) :
    ∃ m', Machine.run (SensorsModule.step hdr) m [.connection connected] = some m' ∧
      ({ x with client_connected := connected } : Pipeline).Abstracts m' := by
  have hstep : m.hal.step hdr (.connection connected) =
      some { m.hal with client_connected := connected } := rfl
  refine run_one (fun _ _ hpoll => by cases hpoll) hstep ⟨h.device, h.queue, rfl, h.poll, ?_⟩
  show x.history.taken.map message_of = m.stored ++ [] ++ x.in_hand
  rw [List.append_nil]
  exact h.stored

theorem poll_pc_push (buffer : Buffer) : (x.push buffer).poll_pc = x.poll_pc ∧
    (x.push buffer).in_hand = x.in_hand := by
  have hpoll : (x.push buffer).poll = x.poll.notify := rfl
  have htaken : (x.push buffer).history.taken = x.history.taken := rfl
  rw [poll_pc, poll_pc, in_hand, in_hand, hpoll, htaken]
  cases x.poll <;> exact ⟨rfl, rfl⟩

-- What the callback puts into the queue arrives as a message.
theorem Abstracts.push (h : x.Abstracts m) (buffer : Buffer) :
    ∃ m', Machine.run (SensorsModule.step hdr) m
        [.arrive (message_of (x.contents buffer))] = some m' ∧ (x.push buffer).Abstracts m' := by
  have hstep : m.hal.step hdr (.arrive (message_of (x.contents buffer))) = some { m.hal with
      m_sensor_msg_queue := enqueue m.hal.m_sensor_msg_queue
        (message_of (x.contents buffer)) } := rfl
  obtain ⟨hpc, hhand⟩ := poll_pc_push (x := x) buffer
  refine run_one (fun _ _ hpoll => by cases hpoll) hstep ⟨h.device, ?_, h.client, ?_, ?_⟩
  · have hroom := make_room_map (fun buf_ptr => message_of (x.bytes buf_ptr))
      x.m_sensor_msg_queue x.m_msg_mem_pool []
    dsimp only
    rw [h.queue, enqueue, fifo, List.map_map, Function.comp_def, hroom, fifo, Pipeline.push,
      List.map_map, List.map_append]
    rfl
  · rw [hpc]
    exact h.poll
  · show x.history.taken.map message_of = m.stored ++ [] ++ (x.push buffer).in_hand
    rw [hhand, List.append_nil]
    exact h.stored

-- The head of the loop that waits for a message.
theorem Abstracts.poll_head (h : x.Abstracts m) {event : HalEvent Unit} {count : Int}
    (buf_ptr : Option Buffer) (hcount : ∀ thread count, event = .poll thread count → 0 < count)
    (hstep : m.hal.step hdr event = some (m.hal.poll_head () count))
    (hstores : m.hal.stores hdr event = []) (hhand : x.in_hand = []) :
    ∃ m', Machine.run (SensorsModule.step hdr) m [event] = some m' ∧
      (x.poll_head count buf_ptr).Abstracts m' := by
  refine run_one hcount hstep ⟨h.device, h.queue, h.client, ?_, ?_⟩
  · simp only [Hal.poll_head, Function.update_self, poll_pc, Pipeline.poll_head, h.client]
    cases x.client_connected <;> rfl
  · have hstored := h.stored
    rw [hhand, List.append_nil] at hstored
    have hnone : (x.poll_head count buf_ptr).in_hand = [] := by
      rw [in_hand, Pipeline.poll_head]
      cases x.client_connected <;> rfl
    rw [hstores, List.append_nil, hnone, List.append_nil]
    exact hstored

-- A poll that returns picks the same events.
theorem Abstracts.poll_return (h : x.Abstracts m) (start : Hal Unit) {event : HalEvent Unit}
    {count : Int} {device : SensorDevice}
    (hqueue : start.m_sensor_msg_queue = m.hal.m_sensor_msg_queue)
    (hclient : start.client_connected = m.hal.client_connected)
    (hcount : ∀ thread count, event = .poll thread count → 0 < count)
    (hstep : m.hal.step hdr event = some (start.poll_return hdr () count device))
    (hstores : m.hal.stores hdr event = x.in_hand) (pool : List (Option Buffer)) :
    ∃ m', Machine.run (SensorsModule.step hdr) m [event] = some m' ∧
      (({ x with m_msg_mem_pool := pool } : Pipeline).poll_return hdr count device).Abstracts
        m' := by
  refine run_one hcount hstep ⟨rfl, ?_, ?_, ?_, ?_⟩
  · exact hqueue.trans h.queue
  · exact hclient.trans h.client
  · show Function.update start.polls () .idle () = .idle
    exact Function.update_self () .idle start.polls
  · rw [hstores, ← h.stored]
    exact (List.append_nil _).symm

-- The poll takes the oldest message, wherever it stands in front of the queue.
theorem Abstracts.take (h : x.Abstracts m) {count : Int} (buf_ptr : Option Buffer)
    {front : Option Buffer} {queue : List (Option Buffer)}
    (hqueue : x.m_sensor_msg_queue = front :: queue) (hpc : x.poll_pc = .waiting count)
    (hhand : x.in_hand = []) :
    ∃ m', Machine.run (SensorsModule.step hdr) m [.take ()] = some m' ∧
      (x.take count buf_ptr).Abstracts m' := by
  have hfifo : m.hal.m_sensor_msg_queue =
      message_of (x.bytes front) :: (queue.map x.bytes).map message_of := by
    rw [h.queue, fifo, hqueue]
    rfl
  have hstep : m.hal.step hdr (.take ()) = some { m.hal with
      m_sensor_msg_queue := (queue.map x.bytes).map message_of
      polls := Function.update m.hal.polls () (.taken count (message_of (x.bytes front)))
      history := { m.hal.history with
        taken := m.hal.history.taken ++ [message_of (x.bytes front)]
        hand := m.hal.history.hand ++ [((), message_of (x.bytes front))] } } := by
    simp only [Hal.step, h.poll, hpc, hfifo]
  have hlast : (x.history.taken ++ [x.bytes front]).getLast? = some (x.bytes front) :=
    List.getLast?_concat
  rw [take_cons hqueue]
  refine run_one (fun _ _ hpoll => by cases hpoll) hstep ⟨h.device, rfl, h.client, ?_, ?_⟩
  · simp only [Function.update_self, poll_pc, free, hlast]
  · have hstored := h.stored
    rw [hhand, List.append_nil] at hstored
    simp only [in_hand, free, hlast, Option.map_some, Option.toList_some, List.map_append, hstored,
      Hal.stores, List.append_nil]
    rfl

-- A call that asks for events, as sensor_poll_events makes sure.
def Asks (_ : Pipeline) (event : PipelineEvent) : Prop :=
  ∀ count, event = .poll count → 0 < count

-- The events of the listener that the HAL does not see.
theorem Custody.fifo_listener (h : x.Custody hdr) {event : PipelineEvent}
    (hmoves : x.Moves hdr event next) (hshown : x.shown event = []) (hpush : event ≠ .push)
    (hlock : event ≠ .lock) (hwait : event ≠ .wait) :
    next.device = x.device ∧ next.fifo = x.fifo ∧
      next.client_connected = x.client_connected ∧ next.poll = x.poll := by
  cases hmoves with
  | header_dropped len bytes => exact ⟨rfl, rfl, rfl, rfl⟩
  | header_received len bytes hpc hlength hsupported => exact ⟨rfl, rfl, rfl, rfl⟩
  | test_empty header hpc hpool => exact ⟨rfl, rfl, rfl, rfl⟩
  | test_some header hpc hpool => exact ⟨rfl, rfl, rfl, rfl⟩
  | create header buffer hpc hfresh =>
      refine ⟨rfl, fifo_congr rfl rfl fun other hother => ?_, rfl, rfl⟩
      have hne : other ≠ buffer := fun he => hfresh (he ▸ h.mem_live (.inr (.inl hother)))
      exact Function.update_of_ne hne _ _
  | pop header hpc =>
      have hsame : (x.pop hdr header).device = x.device ∧
          (x.pop hdr header).client_connected = x.client_connected ∧
          (x.pop hdr header).poll = x.poll := by
        unfold Pipeline.pop
        split <;> exact ⟨rfl, rfl, rfl⟩
      exact ⟨hsame.1, h.fifo_pop header, hsame.2⟩
  | payload_failed buffer payload_len bytes hpc hbytes =>
      exact ⟨rfl, h.fifo_write HEADER_SIZE bytes (.inr (held_filling hpc)), rfl, rfl⟩
  | payload_received buffer payload_len bytes hpc hbytes =>
      exact ⟨rfl, h.fifo_write HEADER_SIZE bytes (.inr (held_filling hpc)), rfl, rfl⟩
  | push buffer hpc => exact absurd rfl hpush
  | lock_wait count buf_ptr hpc hqueue => exact absurd rfl hlock
  | lock_take count buf_ptr hpc hqueue => exact absurd rfl hlock
  | wait_take count buf_ptr notified hpc => exact absurd rfl hwait
  | _ => cases hshown

-- A step of the threads is to the HAL what its events are.
theorem Abstracts.step {event : PipelineEvent} (h : x.Abstracts m) (hcustody : x.Custody hdr)
    (hasks : x.Asks event) (hstep : x.step hdr event = some next)
    (hnext : next.poll ≠ .undefined) :
    ∃ m', Machine.run (SensorsModule.step hdr) m (x.shown event) = some m' ∧
      next.Abstracts m' := by
  have hmoves := moves_of_step hstep
  have hlistener (hshown : x.shown event = []) (hpush : event ≠ .push) (hlock : event ≠ .lock)
      (hwait : event ≠ .wait) : ∃ m', Machine.run (SensorsModule.step hdr) m (x.shown event) =
        some m' ∧ next.Abstracts m' := by
    obtain ⟨hdevice, hfifo, hclient, hpoll⟩ :=
      hcustody.fifo_listener hmoves hshown hpush hlock hwait
    rw [hshown]
    exact ⟨m, rfl, h.stutter hdevice hfifo hclient hpoll⟩
  have hpoll := h.poll
  have hdevice := h.device
  cases hmoves with
  | flush handle => exact h.flush handle
  | connection connected => exact h.connection connected
  | push buffer hpc =>
      rw [shown, hpc]
      exact h.push buffer
  | block count hpc hnone =>
      rw [poll_pc, hpc] at hpoll
      refine h.poll_head none (fun _ _ hevent => ?_) ?_ rfl (by rw [in_hand, hpc])
      · cases hevent
        exact hasks count rfl
      · simp only [Hal.step, hpoll, hdevice, if_pos hnone]
  | report count hpc hsome =>
      rw [poll_pc, hpc] at hpoll
      refine h.poll_return m.hal rfl rfl (fun _ _ hevent => ?_) ?_ ?_ x.m_msg_mem_pool
      · cases hevent
        exact hasks count rfl
      · simp only [Hal.step, hpoll, hdevice, if_neg hsome]
      · rw [in_hand, hpc]
        rfl
  | wake count buf_ptr hpc =>
      rw [poll_pc, hpc] at hpoll
      refine h.poll_head buf_ptr (fun _ _ hevent => by cases hevent) ?_ rfl (by rw [in_hand, hpc])
      simp only [Hal.step, hpoll]
  | lock_wait count buf_ptr hpc hqueue =>
      rw [shown, if_pos hqueue]
      refine ⟨m, rfl, h.device, h.queue, h.client, ?_, ?_⟩
      · rw [hpoll, poll_pc, hpc]
        rfl
      · rw [h.stored, in_hand, hpc]
        rfl
  | lock_take count buf_ptr hpc hqueue =>
      obtain ⟨front, queue, hcons⟩ := List.exists_cons_of_ne_nil hqueue
      rw [shown, if_neg hqueue]
      exact h.take buf_ptr hcons (by rw [poll_pc, hpc]) (by rw [in_hand, hpc])
  | wait_take count buf_ptr notified hpc =>
      cases hqueue : x.m_sensor_msg_queue with
      | nil =>
          rw [take_nil hqueue] at hnext
          exact absurd rfl hnext
      | cons front queue =>
          have hsome : x.m_sensor_msg_queue ≠ [] := by
            rw [hqueue]
            exact List.cons_ne_nil _ _
          rw [shown, if_neg hsome]
          exact h.take buf_ptr hqueue (by rw [poll_pc, hpc]) (by rw [in_hand, hpc])
  | process count buf_ptr host next hpc hprocess =>
      obtain ⟨buffer, device, rfl, hstored, rfl⟩ := hcustody.process_eq hpc hprocess
      obtain ⟨_, hsome, _, hlast⟩ := hcustody.poll count _ hpc
      obtain rfl := Option.some.inj hsome
      have htaken : m.hal.polls () = .taken count (message_of (x.contents buffer)) := by
        rw [hpoll, poll_pc, hpc]
        simp only [hlast]
      rw [← hdevice] at hstored
      refine h.poll_return (m.hal.lay_down ()) rfl rfl (fun _ _ hevent => by cases hevent) ?_ ?_ _
      · simp only [Hal.step, htaken, hstored]
      · simp only [Hal.stores, htaken, hstored, in_hand, hpc, hlast, Option.map_some,
          Option.toList_some]
  | _ =>
      exact hlistener rfl (fun he => by cases he) (fun he => by cases he) (fun he => by cases he)

-- A poll that has used an empty queue is not heard of again.
theorem undefined_step {event : PipelineEvent} (h : x.poll = .undefined)
    (hstep : x.step hdr event = some next) : next.poll = .undefined := by
  cases moves_of_step hstep with
  | pop header hpc =>
      unfold Pipeline.pop
      split <;> exact h
  | push buffer hpc =>
      show x.poll.notify = .undefined
      rw [h]
      rfl
  | block count hpc hnone => cases h.symm.trans hpc
  | report count hpc hsome => cases h.symm.trans hpc
  | wake count buf_ptr hpc => cases h.symm.trans hpc
  | lock_wait count buf_ptr hpc hqueue => cases h.symm.trans hpc
  | lock_take count buf_ptr hpc hqueue => cases h.symm.trans hpc
  | wait_take count buf_ptr notified hpc => cases h.symm.trans hpc
  | process count buf_ptr host next hpc hprocess => cases h.symm.trans hpc
  | _ => exact h

-- The only way there is a wait that returns while the queue is empty.
theorem Custody.shown_of_undefined {event : PipelineEvent} (h : x.Custody hdr)
    (hdefined : x.poll ≠ .undefined) (hstep : x.step hdr event = some next)
    (hnext : next.poll = .undefined) : x.shown event = [] := by
  cases moves_of_step hstep with
  | pop header hpc =>
      unfold Pipeline.pop at hnext
      split at hnext <;> exact absurd hnext hdefined
  | push buffer hpc =>
      have hnotify : x.poll.notify = .undefined := hnext
      cases hpoll : x.poll with
      | undefined => exact absurd hpoll hdefined
      | _ =>
          rw [hpoll] at hnotify
          cases hnotify
  | block count hpc hnone =>
      unfold Pipeline.poll_head at hnext
      dsimp only at hnext
      split at hnext <;> cases hnext
  | report count hpc hsome => cases hnext
  | wake count buf_ptr hpc =>
      unfold Pipeline.poll_head at hnext
      dsimp only at hnext
      split at hnext <;> cases hnext
  | lock_wait count buf_ptr hpc hqueue => cases hnext
  | lock_take count buf_ptr hpc hqueue =>
      obtain ⟨front, queue, hcons⟩ := List.exists_cons_of_ne_nil hqueue
      rw [take_cons hcons] at hnext
      cases hnext
  | wait_take count buf_ptr notified hpc =>
      cases hqueue : x.m_sensor_msg_queue with
      | nil => exact if_pos hqueue
      | cons front queue =>
          rw [take_cons hqueue] at hnext
          cases hnext
  | process count buf_ptr host next hpc hprocess =>
      obtain ⟨buffer, device, rfl, hstored, rfl⟩ := h.process_eq hpc hprocess
      cases hnext
  | _ => exact absurd hnext hdefined

theorem abstracts_run {memory : Handle → SensorsEvent} {log_trace_count : Int}
    {events : List PipelineEvent} (hpolls : ∀ count, .poll count ∈ events → 0 < count)
    (hrun : Machine.run (step hdr) (init memory log_trace_count) events = some x) :
    ∃ m, Machine.run (SensorsModule.step hdr) (.init memory log_trace_count)
        (Machine.translation (step hdr) hal_events (init memory log_trace_count) events) = some m ∧
      x.Custody hdr ∧ m.Sound hdr ∧ (x.poll = .undefined ∨ x.Abstracts m) := by
  have hasks : Machine.Along (step hdr) Asks (init memory log_trace_count) events := by
    apply Machine.along_of_forall_mem
    intro event hmem _ count hevent
    subst event
    exact hpolls count hmem
  refine Machine.run_translation
    (R := fun x m => x.Custody hdr ∧ m.Sound hdr ∧ (x.poll = .undefined ∨ x.Abstracts m)) ?_
    ⟨custody_init memory log_trace_count, SensorsModule.sound_init hdr memory log_trace_count,
      .inr (abstracts_init memory log_trace_count)⟩ hasks hrun
  rintro x event next m ⟨hcustody, hsound, hrelated⟩ hasks hstep
  have hcustody' := custody_step hcustody hstep
  have hkeep : ∀ {m' : SensorsModule Unit} {hal_events : List (HalEvent Unit)},
      Machine.run (SensorsModule.step hdr) m hal_events = some m' → m'.Sound hdr :=
    fun hrun => Machine.invariant_always (fun _ _ _ hs h => hs.step h) hsound hrun
  by_cases hdefined : x.poll = .undefined
  · refine ⟨m, ?_, hcustody', hsound, .inl (undefined_step hdefined hstep)⟩
    rw [hal_events, hdefined]
    rfl
  · have habstracts := hrelated.resolve_left hdefined
    have hevents : x.hal_events event = x.shown event := by
      unfold hal_events
      split
      · exact absurd ‹_› hdefined
      · rfl
    rw [hevents]
    by_cases hnext : next.poll = .undefined
    · refine ⟨m, ?_, hcustody', hsound, .inl hnext⟩
      rw [hcustody.shown_of_undefined hdefined hstep hnext]
      rfl
    · obtain ⟨m', hrun', hsame⟩ := habstracts.step hcustody hasks hstep hnext
      exact ⟨m', hrun', hcustody', hkeep hrun', .inr hsame⟩

theorem taken_sublist {memory : Handle → SensorsEvent} {log_trace_count : Int}
    {events : List PipelineEvent}
    (hrun : Machine.run (step hdr) (init memory log_trace_count) events = some x) :
    x.history.taken.Sublist x.history.enqueued := by
  obtain ⟨ops, hops⟩ := Machine.simulation (Fifo.step MAX_MSG_QUEUE_SIZE)
    (fun _ _ _ hi hstep => ⟨custody_step hi hstep, hi.fifo_step hstep⟩)
    (custody_init memory log_trace_count) hrun
  have hsound : Fifo.Sound MAX_MSG_QUEUE_SIZE x.fifo := Fifo.sound_run (by decide) hops
  exact (List.sublist_append_left _ _).trans hsound.order

-- The listener and the poll thread with the buffers that go round between them do what
-- the module of messages does, as long as no poll uses an empty queue. So their polls
-- answer faithfully, from messages that the callback has put into the queue.
theorem pipeline_refines (hdr : SensorsHeader) (memory : Handle → SensorsEvent)
    (log_trace_count : Int) (events : List PipelineEvent) (x : Pipeline)
    (hpolls : ∀ count, .poll count ∈ events → 0 < count)
    (hrun : Machine.run (step hdr) (init memory log_trace_count) events = some x)
    (hdefined : x.poll ≠ .undefined) :
    ∃ m, Machine.run (SensorsModule.step hdr) (.init memory log_trace_count)
        (Machine.translation (step hdr) hal_events (init memory log_trace_count) events) = some m ∧
      x.Abstracts m ∧ (∀ answer ∈ m.returns, answer.Faithful hdr) ∧
      m.stored.Sublist (x.history.enqueued.map message_of) := by
  obtain ⟨m, hm, _, hsound, hrelated⟩ := abstracts_run hpolls hrun
  have habstracts := hrelated.resolve_left hdefined
  refine ⟨m, hm, habstracts, hsound.returns, ?_⟩
  have htaken := (taken_sublist hrun).map message_of
  rw [habstracts.stored] at htaken
  exact (List.sublist_append_left _ _).trans htaken

-- The light message comes in while the poll waits, and is stored and returned.
def light_polled : List PipelineEvent := light_events ++ [.process 2000]

theorem pipeline_refines_light :
    ∃ x, Machine.run (step android_header) (init (fun _ => default) 50) light_polled = some x ∧
      ∃ m, Machine.run (SensorsModule.step android_header) (.init (fun _ => default) 50)
          (Machine.translation (step android_header) hal_events (init (fun _ => default) 50)
            light_polled) = some m ∧ x.Abstracts m ∧
        (∀ answer ∈ m.returns, answer.Faithful android_header) ∧
        m.stored.Sublist (x.history.enqueued.map message_of) := by
  obtain ⟨x, hrun, hheard⟩ : ∃ x, Machine.run (step android_header) (init (fun _ => default) 50)
      light_polled = some x ∧ (x.hal_events .wake).length = 1 :=
    Option.map_eq_some_iff.mp (by decide +kernel)
  have hdefined : x.poll ≠ .undefined := by
    intro hundefined
    rw [hal_events, hundefined] at hheard
    cases hheard
  have hpolls : ∀ count, .poll count ∈ light_polled → 0 < count := by
    intro count hmem
    simp only [light_polled, light_events, List.cons_append, List.nil_append, List.mem_cons,
      PipelineEvent.poll.injEq, reduceCtorEq, false_or, or_false, List.not_mem_nil] at hmem
    omega
  exact ⟨x, hrun, pipeline_refines android_header _ 50 light_polled x hpolls hrun hdefined⟩

end Pipeline

end SensorVhal
