import SensorVhal.Pipeline.Refinement

namespace SensorVhal

-- The poll caller sleeps for want of a client, or waits and nobody has notified it.
def PollStage.parked : PollStage → Bool
  | asleep .. => true
  | waiting _ _ notified => !notified
  | _ => false

namespace Pipeline

variable {hdr : SensorsHeader} {x : Pipeline}

section Frame

theorem pop_queue (hdr : SensorsHeader) (x : Pipeline) (header : List UInt8) :
    (x.pop hdr header).m_sensor_msg_queue = x.m_sensor_msg_queue ∧
      (x.pop hdr header).poll = x.poll ∧ (x.pop hdr header).device = x.device := by
  unfold pop
  split <;> exact ⟨rfl, rfl, rfl⟩

theorem push_queue_ne_nil (x : Pipeline) (buffer : Buffer) :
    (x.push buffer).m_sensor_msg_queue ≠ [] :=
  List.append_ne_nil_of_right_ne_nil _ (List.cons_ne_nil _ _)

theorem poll_head_cases (x : Pipeline) (count : Int) (buf_ptr : Option Buffer) :
    (x.client_connected = true ∧ (x.poll_head count buf_ptr).poll = .ready count buf_ptr) ∨
      (x.client_connected = false ∧ (x.poll_head count buf_ptr).poll = .asleep count buf_ptr) := by
  cases hconnected : x.client_connected with
  | true => exact .inl ⟨rfl, by simp only [poll_head, hconnected, if_true]⟩
  | false =>
      refine .inr ⟨rfl, ?_⟩
      simp only [poll_head, hconnected]
      rfl

theorem take_poll_cases (x : Pipeline) (count : Int) (buf_ptr : Option Buffer) :
    (x.take count buf_ptr).poll = .undefined ∨
      ∃ front, (x.take count buf_ptr).poll = .taken count front := by
  cases hqueue : x.m_sensor_msg_queue with
  | nil =>
      left
      rw [take_nil hqueue]
      rfl
  | cons front queue =>
      right
      rw [take_cons hqueue]
      exact ⟨front, rfl⟩

end Frame

section Spurious

-- A poll that waits has been notified exactly when there is a message: the
-- callback notifies in the section in which it puts a message into the queue.
def Notified (x : Pipeline) : Prop :=
  ∀ count buf_ptr notified, x.poll = .waiting count buf_ptr notified →
    (notified = true ↔ x.m_sensor_msg_queue ≠ [])

theorem Notified.keep {y : Pipeline} (h : x.Notified) (hpoll : y.poll = x.poll)
    (hqueue : y.m_sensor_msg_queue = x.m_sensor_msg_queue) : y.Notified := by
  intro count buf_ptr notified hpc
  rw [hqueue]
  exact h count buf_ptr notified (hpoll ▸ hpc)

theorem notified_of_not_waiting
    (h : ∀ count buf_ptr notified, x.poll ≠ .waiting count buf_ptr notified) : x.Notified :=
  fun count buf_ptr notified hpc => absurd hpc (h count buf_ptr notified)

theorem notified_poll_head (count : Int) (buf_ptr : Option Buffer) :
    (x.poll_head count buf_ptr).Notified := by
  apply notified_of_not_waiting
  intro other owned notified hpc
  rcases x.poll_head_cases count buf_ptr with ⟨_, hready⟩ | ⟨_, hasleep⟩
  · cases hready.symm.trans hpc
  · cases hasleep.symm.trans hpc

theorem notified_take (count : Int) (buf_ptr : Option Buffer) :
    (x.take count buf_ptr).Notified := by
  apply notified_of_not_waiting
  intro other owned notified hpc
  rcases x.take_poll_cases count buf_ptr with hundefined | ⟨front, htaken⟩
  · cases hundefined.symm.trans hpc
  · cases htaken.symm.trans hpc

theorem notified_push (x : Pipeline) (buffer : Buffer) : (x.push buffer).Notified := by
  intro count buf_ptr notified hpc
  have hnotify : x.poll.notify = .waiting count buf_ptr notified := hpc
  have htrue : notified = true := by
    cases hpoll : x.poll with
    | waiting _ _ _ =>
        rw [hpoll] at hnotify
        cases hnotify
        rfl
    | _ =>
        rw [hpoll] at hnotify
        cases hnotify
  exact ⟨fun _ => push_queue_ne_nil x buffer, fun _ => htrue⟩

theorem notified_step {next : Pipeline} {event : PipelineEvent} (hcustody : x.Custody hdr)
    (h : x.Notified) (hstep : x.step hdr event = some next) : next.Notified := by
  cases moves_of_step hstep with
  | flush handle => exact h.keep rfl rfl
  | connection connected => exact h.keep rfl rfl
  | header_dropped len bytes => exact h
  | header_received len bytes hpc hlength hsupported => exact h.keep rfl rfl
  | test_empty header hpc hpool => exact h.keep rfl rfl
  | test_some header hpc hpool => exact h.keep rfl rfl
  | create header buffer hpc hfresh => exact h.keep rfl rfl
  | pop header hpc =>
      obtain ⟨hqueue, hpoll, _⟩ := pop_queue hdr x header
      exact h.keep hpoll hqueue
  | payload_failed buffer payload_len bytes hpc hbytes => exact h.keep rfl rfl
  | payload_received buffer payload_len bytes hpc hbytes => exact h.keep rfl rfl
  | push buffer hpc => exact notified_push x buffer
  | block count hpc hnone => exact notified_poll_head count none
  | report count hpc hsome => exact notified_of_not_waiting fun _ _ _ => PollStage.noConfusion
  | wake count buf_ptr hpc => exact notified_poll_head count buf_ptr
  | lock_wait count buf_ptr hpc hqueue =>
      intro other owned notified hwaiting
      cases hwaiting
      exact ⟨fun hfalse => Bool.noConfusion hfalse, fun hne => absurd hqueue hne⟩
  | lock_take count buf_ptr hpc hqueue => exact notified_take count buf_ptr
  | wait_take count buf_ptr notified hpc => exact notified_take count buf_ptr
  | process count buf_ptr host next hpc hprocess =>
      obtain ⟨buffer, device, rfl, _, rfl⟩ := hcustody.process_eq hpc hprocess
      exact notified_of_not_waiting fun _ _ _ => PollStage.noConfusion

-- The events with which the poll thread executes front() and pop().
def executes_front (x : Pipeline) : PipelineEvent → Bool
  | .lock => x.m_sensor_msg_queue ≠ []
  | .wait => true
  | _ => false

-- front() and pop() find a message, and the buffer can be read.
def FrontSafe (hdr : SensorsHeader) (x : Pipeline) (event : PipelineEvent) : Prop :=
  ∀ next, x.step hdr event = some next →
    (x.executes_front event → x.m_sensor_msg_queue ≠ []) ∧
    ∀ count buf_ptr, next.poll = .taken count buf_ptr →
      ∃ buffer, buf_ptr = some buffer ∧ HEADER_SIZE ≤ (next.contents buffer).length

-- The wait does not return before a notification.
def NotSpurious (x : Pipeline) (event : PipelineEvent) : Prop :=
  event = .wait → ∀ count buf_ptr notified, x.poll = .waiting count buf_ptr notified →
    notified = true

theorem front_safe_iff (hcustody : x.Custody hdr) (h : x.Notified) (event : PipelineEvent) :
    x.FrontSafe hdr event ↔ x.NotSpurious event := by
  constructor
  · rintro hsafe rfl count buf_ptr notified hpc
    have hstep : x.step hdr .wait = some (x.take count buf_ptr) := by
      simp only [step, hpc]
    exact (h count buf_ptr notified hpc).mpr ((hsafe _ hstep).1 rfl)
  · intro hnotified next hstep
    constructor
    · intro hfront
      cases event with
      | lock => exact of_decide_eq_true hfront
      | wait =>
          simp only [step] at hstep
          split at hstep
          · rename_i count buf_ptr notified hpc
            exact (h count buf_ptr notified hpc).mp (hnotified rfl count buf_ptr notified hpc)
          · cases hstep
      | _ => cases hfront
    · intro count buf_ptr hpc
      have hnext := custody_step hcustody hstep
      obtain ⟨buffer, rfl, _⟩ := hnext.poll count buf_ptr hpc
      refine ⟨buffer, rfl, ?_⟩
      rw [hnext.size buffer (hnext.mem_live (.inr (.inr (.inr (held_taken hpc)))))]
      decide

-- The poll takes from the queue only when there is a message exactly as long
-- as its wait never returns without a notification.
theorem front_safe_along_iff (hdr : SensorsHeader) (memory : Handle → SensorsEvent)
    (log_trace_count : Int) (events : List PipelineEvent) :
    Machine.Along (step hdr) (FrontSafe hdr) (init memory log_trace_count) events ↔
      Machine.Along (step hdr) NotSpurious (init memory log_trace_count) events := by
  have hstep : ∀ (cond : Pipeline → PipelineEvent → Prop) (y : Pipeline) (event : PipelineEvent)
      (next : Pipeline), y.Custody hdr ∧ y.Notified → cond y event →
      y.step hdr event = some next → next.Custody hdr ∧ next.Notified :=
    fun _ y event next hi _ h => ⟨custody_step hi.1 h, notified_step hi.1 hi.2 h⟩
  have hinit : (init memory log_trace_count).Custody hdr ∧
      (init memory log_trace_count).Notified :=
    ⟨custody_init memory log_trace_count,
      notified_of_not_waiting fun _ _ _ => PollStage.noConfusion⟩
  constructor
  · intro h
    exact h.of_invariant (hstep _)
      (fun y event hi hsafe => (front_safe_iff hi.1 hi.2 event).mp hsafe) hinit
  · intro h
    exact h.of_invariant (hstep _)
      (fun y event hi hcond => (front_safe_iff hi.1 hi.2 event).mpr hcond) hinit

-- The wait of a poll returns although nothing has come in.
theorem takes_from_empty_queue :
    ¬ Machine.Along (step android_header) (FrontSafe android_header) (init (fun _ => default) 50)
      [.connection true, .poll 1, .lock, .wait] := by
  intro h
  have hwait := (((h.2 _ rfl).2 _ rfl).2 _ rfl).1 _ rfl
  exact hwait.1 rfl rfl

end Spurious

section Parked

def parked (x : Pipeline) : Bool := x.poll.parked

-- There is nothing that the poll could report.
def NothingToReport (x : Pipeline) : Prop :=
  x.device.m_pending_sensors = 0 ∧ x.m_sensor_msg_queue = []

def ParkedIdle (x : Pipeline) : Prop := x.parked → x.NothingToReport

-- No flush comes to a parked poll and no message to one that sleeps; no poll
-- goes to sleep over messages, or to its wait after a flush.
def InTime (x : Pipeline) : PipelineEvent → Prop
  | .flush _ => x.parked = false
  | .push => ∀ count buf_ptr, x.poll ≠ .asleep count buf_ptr
  | .poll _ => x.device.m_pending_sensors = 0 → x.client_connected = false →
      x.m_sensor_msg_queue = []
  | .lock => x.m_sensor_msg_queue = [] → x.device.m_pending_sensors = 0
  | _ => True

-- A flush leaves something pending.
theorem flush_pending (device : SensorDevice) (handle : Handle) :
    (sensor_device_flush_locked hdr device handle).m_pending_sensors ≠ 0 := by
  obtain ⟨more, hslot, _⟩ := slot_flush_owed hdr device handle
  intro hnone
  have howed : slot (sensor_device_flush_locked hdr device handle) handle = .owed more := by
    rw [hslot, Function.update_self]
  have hbit := (slot_eq_owed.mp howed).1
  rw [hnone] at hbit
  exact Bool.false_ne_true (BitVec.getLsbD_zero.symm.trans hbit)

theorem ParkedIdle.keep {y : Pipeline} (h : x.ParkedIdle) (hpoll : y.poll = x.poll)
    (hqueue : y.m_sensor_msg_queue = x.m_sensor_msg_queue) (hdevice : y.device = x.device) :
    y.ParkedIdle := by
  intro hparked
  have hsame : y.parked = x.parked := congrArg PollStage.parked hpoll
  obtain ⟨hpending, hnone⟩ := h (hsame ▸ hparked)
  exact ⟨hdevice ▸ hpending, hqueue ▸ hnone⟩

theorem parkedIdle_of_not_parked (h : x.parked = false) : x.ParkedIdle :=
  fun hparked => absurd hparked (Bool.eq_false_iff.mp h)

theorem parked_of_poll {stage : PollStage} (h : x.poll = stage) : x.parked = stage.parked :=
  congrArg PollStage.parked h

theorem parked_poll_head (count : Int) (buf_ptr : Option Buffer) :
    (x.poll_head count buf_ptr).parked = !x.client_connected := by
  rcases x.poll_head_cases count buf_ptr with ⟨hclient, hready⟩ | ⟨hclient, hasleep⟩
  · rw [parked_of_poll hready, hclient]
    rfl
  · rw [parked_of_poll hasleep, hclient]
    rfl

theorem parked_take (count : Int) (buf_ptr : Option Buffer) :
    (x.take count buf_ptr).parked = false := by
  rcases x.take_poll_cases count buf_ptr with hundefined | ⟨front, htaken⟩
  · exact parked_of_poll hundefined
  · exact parked_of_poll htaken

-- A message wakes a poll that waits, but none that sleeps.
theorem parked_push (x : Pipeline) (buffer : Buffer) :
    (x.push buffer).parked = true ↔ ∃ count buf_ptr, x.poll = .asleep count buf_ptr := by
  have hpoll : (x.push buffer).poll = x.poll.notify := rfl
  rw [parked_of_poll hpoll]
  cases x.poll <;> simp [PollStage.notify, PollStage.parked]

theorem parkedIdle_push_iff (x : Pipeline) (buffer : Buffer) :
    (x.push buffer).ParkedIdle ↔ x.InTime .push := by
  constructor
  · intro hidle count buf_ptr hasleep
    have hparked := (parked_push x buffer).mpr ⟨count, buf_ptr, hasleep⟩
    exact push_queue_ne_nil x buffer (hidle hparked).2
  · intro htime hparked
    obtain ⟨count, buf_ptr, hasleep⟩ := (parked_push x buffer).mp hparked
    exact absurd hasleep (htime count buf_ptr)

theorem parkedIdle_flush_iff (handle : Handle) :
    ({ x with device := sensor_device_flush_locked hdr x.device handle } : Pipeline).ParkedIdle ↔
      x.InTime (.flush handle) := by
  constructor
  · intro hidle
    rw [InTime, Bool.eq_false_iff]
    exact fun hparked => flush_pending x.device handle (hidle hparked).1
  · exact fun htime => parkedIdle_of_not_parked htime

theorem parkedIdle_block_iff (count : Int) (hnone : x.device.m_pending_sensors = 0) :
    (x.poll_head count none).ParkedIdle ↔ x.InTime (.poll count) := by
  constructor
  · intro hidle _ hclient
    apply (hidle _).2
    rw [parked_poll_head, hclient]
    rfl
  · intro htime hparked
    rw [parked_poll_head, Bool.not_eq_true'] at hparked
    exact ⟨hnone, htime hnone hparked⟩

theorem parkedIdle_wait_iff (count : Int) (buf_ptr : Option Buffer)
    (hqueue : x.m_sensor_msg_queue = []) :
    ({ x with poll := .waiting count buf_ptr false } : Pipeline).ParkedIdle ↔ x.InTime .lock := by
  constructor
  · exact fun hidle _ => (hidle rfl).1
  · exact fun htime _ => ⟨htime hqueue, hqueue⟩

-- A step parks a poll with nothing to report, or finds it so, exactly when it is in time.
theorem parkedIdle_step_iff {next : Pipeline} {event : PipelineEvent} (hcustody : x.Custody hdr)
    (h : x.ParkedIdle) (hstep : x.step hdr event = some next) :
    next.ParkedIdle ↔ x.InTime event := by
  cases moves_of_step hstep with
  | flush handle => exact parkedIdle_flush_iff handle
  | connection connected => exact iff_of_true (h.keep rfl rfl rfl) trivial
  | header_dropped len bytes => exact iff_of_true h trivial
  | header_received len bytes hpc hlength hsupported =>
      exact iff_of_true (h.keep rfl rfl rfl) trivial
  | test_empty header hpc hpool => exact iff_of_true (h.keep rfl rfl rfl) trivial
  | test_some header hpc hpool => exact iff_of_true (h.keep rfl rfl rfl) trivial
  | create header buffer hpc hfresh => exact iff_of_true (h.keep rfl rfl rfl) trivial
  | pop header hpc =>
      obtain ⟨hqueue, hpoll, hdevice⟩ := pop_queue hdr x header
      exact iff_of_true (h.keep hpoll hqueue hdevice) trivial
  | payload_failed buffer payload_len bytes hpc hbytes =>
      exact iff_of_true (h.keep rfl rfl rfl) trivial
  | payload_received buffer payload_len bytes hpc hbytes =>
      exact iff_of_true (h.keep rfl rfl rfl) trivial
  | push buffer hpc => exact parkedIdle_push_iff x buffer
  | block count hpc hnone => exact parkedIdle_block_iff count hnone
  | report count hpc hsome =>
      exact iff_of_true (parkedIdle_of_not_parked rfl) fun hnone => absurd hnone hsome
  | wake count buf_ptr hpc =>
      -- the poll was asleep with nothing to report, and sleeps again or leaves
      have hidle := h (parked_of_poll hpc)
      exact iff_of_true (fun _ => hidle) trivial
  | lock_wait count buf_ptr hpc hqueue => exact parkedIdle_wait_iff count buf_ptr hqueue
  | lock_take count buf_ptr hpc hqueue =>
      exact iff_of_true (parkedIdle_of_not_parked (parked_take count buf_ptr))
        fun hnil => absurd hnil hqueue
  | wait_take count buf_ptr notified hpc =>
      exact iff_of_true (parkedIdle_of_not_parked (parked_take count buf_ptr)) trivial
  | process count buf_ptr host next hpc hprocess =>
      obtain ⟨buffer, device, rfl, _, rfl⟩ := hcustody.process_eq hpc hprocess
      exact iff_of_true (parkedIdle_of_not_parked rfl) trivial

-- In every run the poll is parked only with nothing to report exactly when
-- every step of the run is in time.
theorem parked_idle_iff (hdr : SensorsHeader) (memory : Handle → SensorsEvent)
    (log_trace_count : Int) (events : List PipelineEvent) (x : Pipeline)
    (hrun : Machine.run (step hdr) (init memory log_trace_count) events = some x) :
    Machine.Along (step hdr) (fun y event => ∀ next, y.step hdr event = some next →
        next.parked → next.device.m_pending_sensors = 0 ∧ next.m_sensor_msg_queue = [])
      (init memory log_trace_count) events ↔
      Machine.Along (step hdr) InTime (init memory log_trace_count) events := by
  refine Machine.along_good_iff (I := fun y => y.Custody hdr ∧ y.ParkedIdle) ?_ ?_
    ⟨custody_init memory log_trace_count, parkedIdle_of_not_parked rfl⟩ hrun
  · intro y event next hi htime hstep
    have hidle := (parkedIdle_step_iff hi.1 hi.2 hstep).mpr htime
    exact ⟨⟨custody_step hi.1 hstep, hidle⟩, hidle⟩
  · intro y event next hi hlate hstep hidle
    exact hlate ((parkedIdle_step_iff hi.1 hi.2 hstep).mp hidle)

-- A poll of a connected client waits with nothing to report.
theorem parked_idle_waiting :
    Machine.Along (step android_header) (fun y event => ∀ next,
        y.step android_header event = some next →
        next.parked → next.device.m_pending_sensors = 0 ∧ next.m_sensor_msg_queue = [])
      (init (fun _ => default) 50) [.connection true, .poll 1, .lock] := by
  refine (parked_idle_iff android_header _ 50 _ _ rfl).mpr ⟨trivial, fun y hy => ?_⟩
  cases hy
  refine ⟨fun _ hclient => Bool.noConfusion hclient, fun y hy => ?_⟩
  cases hy
  exact ⟨fun _ => rfl, fun _ _ => trivial⟩

-- A flush comes while the poll waits for a message. It stays parked.
theorem flush_leaves_parked :
    ∃ x, Machine.run (step android_header) (init (fun _ => default) 50)
        [.connection true, .poll 1, .lock, .flush 0] = some x ∧
      x.parked = true ∧ x.device.m_pending_sensors ≠ 0 := by
  obtain ⟨x, hrun, hres⟩ : ∃ x, Machine.run (step android_header) (init (fun _ => default) 50)
      [.connection true, .poll 1, .lock, .flush 0] = some x ∧
        (x.parked, x.device.m_pending_sensors) = (true, 1#32) :=
    Option.map_eq_some_iff.mp (by decide +kernel)
  simp only [Prod.mk.injEq] at hres
  refine ⟨x, hrun, hres.1, ?_⟩
  rw [hres.2]
  decide

end Parked

end Pipeline

end SensorVhal
