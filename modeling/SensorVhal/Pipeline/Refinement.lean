import SensorVhal.Pipeline.Buffers

namespace SensorVhal

namespace Pipeline

variable {hdr : SensorsHeader} {x : Pipeline}

-- The queue as the messages that lie in its buffers, with their history.
def fifo (x : Pipeline) : Fifo.State (List UInt8) where
  queue := x.m_sensor_msg_queue.map x.bytes
  offered := x.history.enqueued
  taken := x.history.taken
  dropped := x.history.dropped

theorem bytes_congr {y : Pipeline} {buf_ptr : Option Buffer}
    (h : ∀ buffer, buf_ptr = some buffer → y.contents buffer = x.contents buffer) :
    y.bytes buf_ptr = x.bytes buf_ptr := by
  cases buf_ptr with
  | none => rfl
  | some buffer => exact h buffer rfl

-- Writes to other buffers leave the messages in the queue.
theorem fifo_congr {y : Pipeline} (hqueue : y.m_sensor_msg_queue = x.m_sensor_msg_queue)
    (hhistory : y.history = x.history)
    (hcontents : ∀ buffer, some buffer ∈ x.m_sensor_msg_queue →
      y.contents buffer = x.contents buffer) : y.fifo = x.fifo := by
  have hmessages : x.m_sensor_msg_queue.map y.bytes = x.m_sensor_msg_queue.map x.bytes := by
    apply List.map_congr_left
    intro buf_ptr hmem
    exact bytes_congr fun buffer hbuffer => hcontents buffer (hbuffer ▸ hmem)
  rw [fifo, fifo, hqueue, hhistory, hmessages]

theorem Custody.fifo_write (h : x.Custody hdr) {buffer : Buffer} (offset : Nat)
    (chunk : List UInt8)
    (hbuffer : some buffer ∈ x.m_msg_mem_pool ∨ buffer ∈ x.listener.held) :
    (x.write buffer offset chunk).fifo = x.fifo := by
  refine fifo_congr rfl rfl fun other hother => ?_
  exact write_contents_of_ne (h.apart hbuffer (.inl hother))

theorem Custody.fifo_pop (h : x.Custody hdr) (header : List UInt8) :
    (x.pop hdr header).fifo = x.fifo := by
  unfold Pipeline.pop
  split
  · rename_i buffer pool hpool
    exact h.fifo_write 0 header (.inl (hpool ▸ List.mem_cons_self))
  · rfl

theorem Custody.fifo_push (h : x.Custody hdr) (buffer : Buffer) :
    Fifo.step MAX_MSG_QUEUE_SIZE x.fifo (.offer (x.contents buffer)) =
      some (x.push buffer).fifo := by
  have hlength : x.fifo.queue.length = x.m_sensor_msg_queue.length := List.length_map _
  have hbytes : (x.push buffer).bytes = x.bytes := rfl
  rcases h.push_cases buffer with ⟨hlt, hqueue, -, hdropped⟩ | ⟨front, queue, hold, hfull, hqueue,
    -, hdropped⟩
  · rw [Fifo.step, if_pos (hlength ▸ hlt), fifo, fifo, hqueue, hdropped, hbytes, List.map_append]
    rfl
  · have hroom : ¬ x.fifo.queue.length < MAX_MSG_QUEUE_SIZE := by omega
    rw [Fifo.step, if_neg hroom, fifo, fifo, hqueue, hdropped, hbytes, hold, List.map_append]
    rfl

theorem fifo_take {front : Option Buffer} {queue : List (Option Buffer)}
    (hqueue : x.m_sensor_msg_queue = front :: queue) (count : Int) (buf_ptr : Option Buffer) :
    Fifo.step MAX_MSG_QUEUE_SIZE x.fifo .take = some (x.take count buf_ptr).fifo := by
  rw [take_cons hqueue, fifo, hqueue]
  rfl

-- A step of the threads is a step of the bounded queue or nothing to it.
theorem Custody.fifo_step (h : x.Custody hdr) {next : Pipeline} {event : PipelineEvent}
    (hstep : x.step hdr event = some next) :
    next.fifo = x.fifo ∨ ∃ op, Fifo.step MAX_MSG_QUEUE_SIZE x.fifo op = some next.fifo := by
  cases moves_of_step hstep with
  | flush handle => exact .inl rfl
  | connection connected => exact .inl rfl
  | header_dropped len bytes => exact .inl rfl
  | header_received len bytes hpc hlength hsupported => exact .inl rfl
  | test_empty header hpc hpool => exact .inl rfl
  | test_some header hpc hpool => exact .inl rfl
  | create header buffer hpc hfresh =>
      left
      refine fifo_congr rfl rfl fun other hother => ?_
      have hne : other ≠ buffer := fun he => hfresh (he ▸ h.mem_live (.inr (.inl hother)))
      exact Function.update_of_ne hne _ _
  | pop header hpc => exact .inl (h.fifo_pop header)
  | payload_failed buffer payload_len bytes hpc hbytes =>
      left
      apply h.fifo_write HEADER_SIZE bytes
      rw [hpc]
      exact .inr (List.mem_singleton_self buffer)
  | payload_received buffer payload_len bytes hpc hbytes =>
      left
      apply h.fifo_write HEADER_SIZE bytes
      rw [hpc]
      exact .inr (List.mem_singleton_self buffer)
  | push buffer hpc => exact .inr ⟨_, h.fifo_push buffer⟩
  | block count hpc hnone => exact .inl rfl
  | report count hpc hsome => exact .inl rfl
  | wake count buf_ptr hpc => exact .inl rfl
  | lock_wait count buf_ptr hpc hqueue => exact .inl rfl
  | lock_take count buf_ptr hpc hqueue =>
      obtain ⟨front, queue, hcons⟩ := List.exists_cons_of_ne_nil hqueue
      exact .inr ⟨.take, fifo_take hcons count buf_ptr⟩
  | wait_take count buf_ptr notified hpc =>
      cases hqueue : x.m_sensor_msg_queue with
      | nil =>
          left
          rw [take_nil hqueue]
          rfl
      | cons front queue => exact .inr ⟨.take, fifo_take hqueue count buf_ptr⟩
  | process count buf_ptr host next hpc hprocess =>
      obtain ⟨buffer, device, rfl, _, rfl⟩ := h.process_eq hpc hprocess
      exact .inl rfl

-- What the two threads do to the queue of buffers is a run of a bounded queue
-- of messages that drops the oldest, and no buffer is in two places.
theorem queue_bounded_fifo (hdr : SensorsHeader) (memory : Handle → SensorsEvent)
    (log_trace_count : Int) (events : List PipelineEvent) (x : Pipeline)
    (hrun : Machine.run (step hdr) (init memory log_trace_count) events = some x) :
    (∃ ops, Machine.run (Fifo.step MAX_MSG_QUEUE_SIZE) Fifo.init ops = some x.fifo) ∧
      x.m_sensor_msg_queue.length ≤ MAX_MSG_QUEUE_SIZE ∧
      x.history.taken.Sublist x.history.enqueued ∧
      (∀ queue ∈ x.history.dropped, queue.length = MAX_MSG_QUEUE_SIZE) ∧
      (x.history.enqueued : Multiset (List UInt8)) = ↑x.history.taken +
        ↑(x.m_sensor_msg_queue.map x.bytes) + ↑(x.history.dropped.filterMap List.head?) ∧
      (∀ count buf_ptr, x.poll = .taken count buf_ptr →
        x.history.taken.getLast? = some (x.bytes buf_ptr)) ∧
      x.owners.Nodup := by
  have h := custody_run hrun
  obtain ⟨ops, hops⟩ := Machine.simulation (Fifo.step MAX_MSG_QUEUE_SIZE)
    (fun _ _ _ hi hstep => ⟨custody_step hi hstep, hi.fifo_step hstep⟩)
    (custody_init memory log_trace_count) hrun
  have hsound : Fifo.Sound MAX_MSG_QUEUE_SIZE x.fifo := Fifo.sound_run (by decide) hops
  refine ⟨⟨ops, hops⟩, h.room, ?_, hsound.full, hsound.accounted, ?_, h.owners_nodup⟩
  · exact (List.sublist_append_left _ _).trans hsound.order
  · intro count buf_ptr hpc
    obtain ⟨buffer, rfl, _, hlast⟩ := h.poll count buf_ptr hpc
    exact hlast

-- The light message that came in is the one that the poll took.
theorem queue_bounded_fifo_light :
    ∃ x, Machine.run (step android_header) (init (fun _ => default) 50) light_events = some x ∧
      x.history.taken.map (·.take 20) = [light_header ++ [0, 0, 128, 63]] ∧
      x.history.taken.Sublist x.history.enqueued ∧ x.owners.Nodup := by
  obtain ⟨x, hrun, hres⟩ : ∃ x, Machine.run (step android_header) (init (fun _ => default) 50)
      light_events = some x ∧
        x.history.taken.map (·.take 20) = [light_header ++ [0, 0, 128, 63]] :=
    Option.map_eq_some_iff.mp (by decide +kernel)
  obtain ⟨-, -, htaken, -, -, -, howners⟩ :=
    queue_bounded_fifo android_header _ 50 light_events x hrun
  exact ⟨x, hrun, hres, htaken, howners⟩

end Pipeline

end SensorVhal
