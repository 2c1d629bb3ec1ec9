import SensorVhal.Sensors.Interleaving
import SensorVhal.Sensors.Placement

namespace SensorVhal

-- A message that a poll has stored: its handle, its timestamp as it came and
-- moved by m_time_offset, and the host clock at that time.
structure StoredMessage where
  handle : Handle
  remote : Int
  aligned : Int
  host : Int

-- "we don't believe in events from the future anyway"
def StoredMessage.timestamp (message : StoredMessage) : Int :=
  if message.aligned > message.host then message.host else message.aligned

-- The first message sets m_time_offset.
def aligned_timestamp (device : SensorDevice) (message : AicSensorsEvent) (host : Int) : Int :=
  message.timestamp +
    if device.m_time_start = 0 then host - message.timestamp else device.m_time_offset

def stored_message (device : SensorDevice) (sensor : Sensor) (message : AicSensorsEvent)
    (host : Int) : StoredMessage where
  handle := sensor.ID
  remote := message.timestamp
  aligned := aligned_timestamp device message host
  host := host

-- The timestamps of the data events of a handle among what polls returned.
def data_timestamps (handle : Handle) (returned : List SensorsEvent) : List Int :=
  (returned.filter fun event =>
    event.type ≠ SENSOR_TYPE_META_DATA ∧ event.sensor = (handle.val : Int)).map (·.timestamp)

theorem StoredMessage.timestamp_le {earlier message : StoredMessage}
    (hhost : earlier.host ≤ message.host)
    (haligned : earlier.aligned ≤ message.aligned ∨ earlier.host ≤ message.aligned) :
    earlier.timestamp ≤ message.timestamp := by
  simp only [timestamp]
  split <;> split <;> omega

section Returned

variable {handle : Handle} (returned : List SensorsEvent) {event : SensorsEvent}

theorem data_timestamps_append_meta (h : event.type = SENSOR_TYPE_META_DATA) :
    data_timestamps handle (returned ++ [event]) = data_timestamps handle returned := by
  simp [data_timestamps, List.filter_append, h]

theorem data_timestamps_append_data (htype : event.type ≠ SENSOR_TYPE_META_DATA)
    (hsensor : event.sensor = handle.val) :
    data_timestamps handle (returned ++ [event]) =
      data_timestamps handle returned ++ [event.timestamp] := by
  simp [data_timestamps, List.filter_append, htype, hsensor]

theorem data_timestamps_append_other {other : Handle} (hsensor : event.sensor = other.val)
    (hne : handle ≠ other) :
    data_timestamps handle (returned ++ [event]) = data_timestamps handle returned := by
  have hval : ¬ (other.val : Int) = handle.val := by
    intro he
    exact hne (Fin.ext (by omega))
  simp [data_timestamps, List.filter_append, hsensor, hval]

end Returned

-- The data events so far are in order, and the ones that lie in the slots are
-- not before them. All of their timestamps come from messages.
structure Chronological (stored : List StoredMessage) (device : SensorDevice)
    (returned : List SensorsEvent) : Prop where
  sorted : ∀ handle, (data_timestamps handle returned).Pairwise (· ≤ ·)
  source : ∀ handle, ∀ timestamp ∈ data_timestamps handle returned,
    ∃ message ∈ stored, message.handle = handle ∧ timestamp = message.timestamp
  pending : ∀ handle type, slot device handle = .reading type →
    (∀ timestamp ∈ data_timestamps handle returned,
      timestamp ≤ (device.m_sensors handle).timestamp) ∧
    ∃ message ∈ stored, message.handle = handle ∧
      (device.m_sensors handle).timestamp = message.timestamp

variable {hdr : SensorsHeader}

section Slots

variable {device next : SensorDevice} {handle i : Handle} {event : SensorsEvent} {type : Int}

-- What a pick leaves in the slots was there before.
theorem pick_reading
    (hpick : sensor_device_pick_pending_event_locked hdr device = .ok (i, event, next))
    (hslot : slot next handle = .reading type) :
    handle ≠ i ∧ slot device handle = .reading type ∧
      next.m_sensors handle = device.m_sensors handle := by
  have hne : handle ≠ i := by
    rintro rfl
    rw [slot_pick hpick, Function.update_self] at hslot
    exact Mailbox.Slot.rest_ne_reading _ _ hslot
  rw [slot_pick hpick, Function.update_of_ne hne] at hslot
  refine ⟨hne, hslot, ?_⟩
  obtain ⟨_, ⟨more, _, -, rfl⟩ | ⟨_, -, rfl⟩ | ⟨_, _, -, rfl⟩⟩ := pick_cases hpick
  · rfl
  · exact Function.update_of_ne hne _ _
  · rfl

-- A picked event is a completion, or the data event of its slot.
theorem pick_event
    (hpick : sensor_device_pick_pending_event_locked hdr device = .ok (i, event, next)) :
    event.type = SENSOR_TYPE_META_DATA ∨
      ∃ type, slot device i = .reading type ∧ event.type ≠ SENSOR_TYPE_META_DATA ∧
        event.sensor = i.val ∧ event.timestamp = (device.m_sensors i).timestamp := by
  obtain ⟨_, ⟨more, hslot, rfl, -⟩ | ⟨hslot, rfl, -⟩ | ⟨type, hslot, rfl, -⟩⟩ := pick_cases hpick
  · exact .inl (slot_eq_owed.mp hslot).2.1
  · exact .inl (slot_eq_owed.mp hslot).2.1
  · obtain ⟨_, htype, hne⟩ := slot_eq_reading.mp hslot
    exact .inr ⟨type, hslot, htype ▸ hne, rfl, rfl⟩

theorem flush_reading (handle : Handle) {other : Handle}
    (hslot : slot (sensor_device_flush_locked hdr device handle) other = .reading type) :
    slot device other = .reading type ∧
      (sensor_device_flush_locked hdr device handle).m_sensors other = device.m_sensors other := by
  obtain ⟨more, howed, _⟩ := slot_flush_owed hdr device handle
  have hne : other ≠ handle := by
    rintro rfl
    rw [howed, Function.update_self] at hslot
    cases hslot
  rw [howed, Function.update_of_ne hne] at hslot
  refine ⟨hslot, ?_⟩
  unfold sensor_device_flush_locked
  split
  · rfl
  · exact Function.update_of_ne hne _ _

-- The timestamps in the slots after a message was stored.
theorem process_timestamp {message : AicSensorsEvent} {sensor : Sensor} {host : Int}
    (hsensor : sensor_of_type hdr message.type = some sensor)
    (h : sensor_device_process_event hdr device message host = .stored next) :
    (next.m_sensors sensor.ID).timestamp =
      (stored_message device sensor message host).timestamp := by
  simp only [sensor_device_process_event, hsensor] at h
  split at h
  · cases h
  · cases h
    simp only [stamp_sensors_bit, Function.update_self, StoredMessage.timestamp,
      stored_message, aligned_timestamp]
    by_cases hstart : device.m_time_start = 0
    · simp only [if_pos hstart]
    · simp only [if_neg hstart]

-- The first stored message fixes the offset.
theorem process_offset {message : AicSensorsEvent} {host : Int}
    (h : sensor_device_process_event hdr device message host = .stored next) :
    next.m_time_start = (if device.m_time_start = 0 then host else device.m_time_start) ∧
      message.timestamp + next.m_time_offset = aligned_timestamp device message host ∧
      (device.m_time_start ≠ 0 → next.m_time_offset = device.m_time_offset) := by
  unfold sensor_device_process_event at h
  split at h
  · cases h
  · dsimp only at h
    split at h
    · cases h
    · obtain rfl := (Processed.stored.inj h).symm
      refine ⟨rfl, ?_, fun hstart => if_neg hstart⟩
      by_cases hstart : device.m_time_start = 0
      · simp only [aligned_timestamp, if_pos hstart]
      · simp only [aligned_timestamp, if_neg hstart]

theorem process_other_timestamp {message : AicSensorsEvent} {sensor : Sensor} {host : Int}
    (hsensor : sensor_of_type hdr message.type = some sensor)
    (h : sensor_device_process_event hdr device message host = .stored next)
    (hne : handle ≠ sensor.ID) :
    (next.m_sensors handle).timestamp = (device.m_sensors handle).timestamp := by
  rw [process_other_slot hsensor h hne]
  split <;> rfl

end Slots

section Chronological

variable {stored : List StoredMessage} {device next : SensorDevice}
  {returned events : List SensorsEvent}

theorem chronological_init (memory : Handle → SensorsEvent) (log_trace_count : Int) :
    Chronological [] (.init memory log_trace_count) [] where
  sorted := fun _ => .nil
  source := fun _ _ h => absurd h List.not_mem_nil
  pending := by
    intro handle type hslot
    have hbit := (slot_eq_reading.mp hslot).1
    exact Bool.noConfusion (hbit.symm.trans BitVec.getLsbD_zero)

-- Slots that only lose events stay in order.
theorem Chronological.lose (h : Chronological stored device returned)
    (hslots : ∀ handle type, slot next handle = .reading type →
      slot device handle = .reading type ∧ next.m_sensors handle = device.m_sensors handle) :
    Chronological stored next returned := by
  refine ⟨h.sorted, h.source, fun handle type hslot => ?_⟩
  obtain ⟨hbefore, hsame⟩ := hslots handle type hslot
  rw [hsame]
  exact h.pending handle type hbefore

theorem Chronological.flush (h : Chronological stored device returned) (handle : Handle) :
    Chronological stored (sensor_device_flush_locked hdr device handle) returned :=
  h.lose fun _ _ hslot => flush_reading handle hslot

theorem Chronological.pick (h : Chronological stored device returned) {i : Handle}
    {event : SensorsEvent}
    (hpick : sensor_device_pick_pending_event_locked hdr device = .ok (i, event, next)) :
    Chronological stored next (returned ++ [event]) := by
  rcases pick_event hpick with hmeta | ⟨type, hslot, htype, hsensor, htimestamp⟩
  · have hsame : ∀ handle, data_timestamps handle (returned ++ [event]) =
        data_timestamps handle returned := fun handle => data_timestamps_append_meta returned hmeta
    refine ⟨fun handle => ?_, fun handle => ?_, fun handle type hleft => ?_⟩
    · rw [hsame]
      exact h.sorted handle
    · rw [hsame]
      exact h.source handle
    · obtain ⟨_, hbefore, hsensors⟩ := pick_reading hpick hleft
      rw [hsame, hsensors]
      exact h.pending handle type hbefore
  · obtain ⟨hlast, hsource⟩ := h.pending i type hslot
    have hown := data_timestamps_append_data returned htype hsensor
    have hother : ∀ handle, handle ≠ i → data_timestamps handle (returned ++ [event]) =
        data_timestamps handle returned :=
      fun handle hne => data_timestamps_append_other returned hsensor hne
    refine ⟨fun handle => ?_, fun handle => ?_, fun handle type hleft => ?_⟩
    · by_cases hi : handle = i
      · rw [hi, hown, htimestamp]
        refine List.pairwise_append.mpr ⟨h.sorted i, List.pairwise_singleton _ _, ?_⟩
        intro earlier hearlier timestamp hmem
        rw [List.mem_singleton.mp hmem]
        exact hlast earlier hearlier
      · rw [hother handle hi]
        exact h.sorted handle
    · by_cases hi : handle = i
      · rw [hi, hown, htimestamp]
        intro timestamp hmem
        rcases List.mem_append.mp hmem with hold | hnew
        · exact h.source i timestamp hold
        · rw [List.mem_singleton.mp hnew]
          exact hsource
      · rw [hother handle hi]
        exact h.source handle
    · obtain ⟨hne, hbefore, hsensors⟩ := pick_reading hpick hleft
      rw [hother handle hne, hsensors]
      exact h.pending handle type hbefore

theorem Chronological.poll_pick (h : Chronological stored device returned) {count : Nat}
    {result ret : Int}
    (hpick : sensor_device_poll_pick hdr count device result = (events, ret, next)) :
    Chronological stored next (returned ++ events) := by
  induction count generalizing device result events ret next returned with
  | zero =>
      obtain ⟨rfl, -, rfl⟩ := hpick
      rw [List.append_nil]
      exact h
  | succ count ih =>
      unfold sensor_device_poll_pick at hpick
      split at hpick
      · obtain ⟨rfl, -, rfl⟩ := hpick
        rw [List.append_nil]
        exact h
      · split at hpick
        · obtain ⟨rfl, -, rfl⟩ := hpick
          rw [List.append_nil]
          exact h
        · rename_i i event middle hone
          obtain ⟨rfl, -, rfl⟩ := hpick
          rw [← List.singleton_append, ← List.append_assoc]
          exact ih (h.pick hone) rfl

-- A message that is stored over its slot comes after what was returned for it.
theorem Chronological.store (h : Chronological stored device returned)
    {message : AicSensorsEvent} {sensor : Sensor} {host : Int}
    (hsensor : sensor_of_type hdr message.type = some sensor)
    (hprocess : sensor_device_process_event hdr device message host = .stored next)
    (hlater : ∀ earlier ∈ stored, earlier.handle = sensor.ID → earlier.timestamp ≤
      (stored_message device sensor message host).timestamp) :
    Chronological (stored ++ [stored_message device sensor message host]) next
      returned := by
  refine ⟨h.sorted, fun handle timestamp hmem => ?_, fun handle type hslot => ?_⟩
  · obtain ⟨earlier, hearlier, hsource⟩ := h.source handle timestamp hmem
    exact ⟨earlier, List.mem_append_left _ hearlier, hsource⟩
  · by_cases hs : handle = sensor.ID
    · subst handle
      have hown := process_timestamp hsensor hprocess
      refine ⟨fun timestamp hmem => ?_, _, List.mem_append_right _ (List.mem_singleton_self _),
        rfl, hown⟩
      obtain ⟨earlier, hearlier, hhandle, rfl⟩ := h.source _ timestamp hmem
      rw [hown]
      exact hlater earlier hearlier hhandle
    · obtain ⟨found, hfound, hput⟩ := slot_process hprocess
      obtain rfl := Option.some.inj (hsensor.symm.trans hfound)
      rw [hput, Mailbox.put, Function.update_of_ne hs] at hslot
      obtain ⟨hlast, earlier, hearlier, hsource⟩ := h.pending handle type hslot
      rw [process_other_timestamp hsensor hprocess hs]
      exact ⟨hlast, earlier, List.mem_append_left _ hearlier, hsource⟩

end Chronological

variable {Tid : Type} [DecidableEq Tid]

-- The HAL with the last reading of the host clock and the messages that polls
-- have stored. The program reads neither.
structure Clocked (Tid : Type) where
  hal : Hal Tid
  host_timestamp : Int
  stored : List StoredMessage

def Clocked.init (memory : Handle → SensorsEvent) (log_trace_count boot : Int) : Clocked Tid where
  hal := .init memory log_trace_count
  host_timestamp := boot
  stored := []

section Events

variable (hdr)

-- The message that a poll is about to store, as it will be noted.
def Hal.storing (hal : Hal Tid) : HalEvent Tid → Option StoredMessage
  | .process thread host =>
    match hal.polls thread with
    | .taken _ message => (sensor_of_type hdr message.type).map fun sensor =>
        stored_message hal.device sensor message host
    | _ => none
  | _ => none

def Clocked.now (c : Clocked Tid) : HalEvent Tid → Int
  | .process _ host => host
  | _ => c.host_timestamp

def Clocked.step (c : Clocked Tid) (event : HalEvent Tid) : Option (Clocked Tid) :=
  (c.hal.step hdr event).map fun hal =>
    ⟨hal, c.now event, c.stored ++ (c.hal.storing hdr event).toList⟩

def Clocked.HostForward (c : Clocked Tid) (event : HalEvent Tid) : Prop :=
  c.host_timestamp ≤ c.now event

-- The message that fixed m_time_offset. A host clock of 0 leaves it to the next one.
def Clocked.first (c : Clocked Tid) : Option StoredMessage :=
  c.stored.find? fun message => message.host ≠ 0

-- A message is not behind an earlier one of its sensor: its own timestamp is not smaller,
-- as it is within a connection, or it is ahead of the first message's by what the host
-- clock was when the earlier one was stored.
def Clocked.NotBehind (c : Clocked Tid) (event : HalEvent Tid) : Prop :=
  ∀ message, c.hal.storing hdr event = some message → ∀ first, c.first = some first →
    ∀ earlier ∈ c.stored, earlier.handle = message.handle →
      (earlier.host ≠ 0 ∧ earlier.remote ≤ message.remote) ∨
        earlier.host - first.host ≤ message.remote - first.remote

end Events

instance (c : Clocked Tid) (event : HalEvent Tid) : Decidable (c.HostForward event) :=
  inferInstanceAs (Decidable (c.host_timestamp ≤ c.now event))

instance (hdr : SensorsHeader) (c : Clocked Tid) (event : HalEvent Tid) :
    Decidable (c.NotBehind hdr event) :=
  decidable_of_iff (∀ message ∈ c.hal.storing hdr event, ∀ first ∈ c.first,
      ∀ earlier ∈ c.stored, earlier.handle = message.handle →
        (earlier.host ≠ 0 ∧ earlier.remote ≤ message.remote) ∨
          earlier.host - first.host ≤ message.remote - first.remote) Iff.rfl

section Aligned

-- The first message fixes the offset for all that come behind it.
structure Clocked.Aligned (c : Clocked Tid) : Prop where
  start : c.first = none → c.hal.device.m_time_start = 0
  offset : ∀ first, c.first = some first → c.hal.device.m_time_start ≠ 0 ∧
    c.hal.device.m_time_offset = first.host - first.remote
  aligned : ∀ message ∈ c.stored, message.host ≠ 0 →
    message.aligned = message.remote + c.hal.device.m_time_offset

omit [DecidableEq Tid]

theorem Clocked.aligned_init (memory : Handle → SensorsEvent) (log_trace_count boot : Int) :
    (Clocked.init memory log_trace_count boot : Clocked Tid).Aligned := by
  refine ⟨fun _ => rfl, fun first hfirst => ?_, fun message hmem => ?_⟩
  · cases hfirst
  · cases hmem

theorem Clocked.Aligned.keep {c next : Clocked Tid} (h : c.Aligned)
    (hdevice : ∃ pending flush_count sensors, next.hal.device =
      { c.hal.device with
        m_pending_sensors := pending, m_flush_count := flush_count, m_sensors := sensors })
    (hstored : next.stored = c.stored) : next.Aligned := by
  obtain ⟨_, _, _, hframe⟩ := hdevice
  have hfirst : next.first = c.first := by rw [first, first, hstored]
  constructor
  · rw [hframe, hfirst]
    exact h.start
  · rw [hframe, hfirst]
    exact h.offset
  · rw [hframe, hstored]
    exact h.aligned

theorem Clocked.Aligned.store {c : Clocked Tid} (h : c.Aligned) (sensor : Sensor)
    {message : AicSensorsEvent} {host : Int} {device : SensorDevice}
    (hprocess : sensor_device_process_event hdr c.hal.device message host = .stored device) :
    Clocked.Aligned ⟨{ c.hal with device := device }, host,
      c.stored ++ [stored_message c.hal.device sensor message host]⟩ := by
  obtain ⟨hstart, hoffset, hkept⟩ := process_offset hprocess
  have happend : ∀ hal : Hal Tid, Clocked.first ⟨hal, host,
      c.stored ++ [stored_message c.hal.device sensor message host]⟩ =
      c.first.or (if host ≠ 0 then some (stored_message c.hal.device sensor message host)
        else none) := by
    intro hal
    rw [Clocked.first, List.find?_append, List.find?_singleton]
    by_cases hhost : host = 0 <;> simp [stored_message, hhost, Clocked.first]
  by_cases hunset : c.hal.device.m_time_start = 0
  · -- nothing before it has fixed the offset
    have hnone : c.first = none := by
      by_contra hsome
      obtain ⟨first, hfirst⟩ := Option.ne_none_iff_exists'.mp hsome
      exact (h.offset first hfirst).1 hunset
    rw [if_pos hunset] at hstart
    rw [aligned_timestamp, if_pos hunset] at hoffset
    refine ⟨fun hlater => ?_, fun first hfirst => ?_, fun entry hmem hne => ?_⟩
    · rw [happend, hnone, Option.none_or] at hlater
      split at hlater
      · cases hlater
      · rename_i hzero
        exact hstart.trans (not_not.mp hzero)
    · rw [happend, hnone, Option.none_or] at hfirst
      split at hfirst
      · rename_i hne
        obtain rfl := Option.some.inj hfirst
        refine ⟨fun hzero => hne (hstart.symm.trans hzero), ?_⟩
        show device.m_time_offset = host - message.timestamp
        omega
      · cases hfirst
    · rcases List.mem_append.mp hmem with hold | hnew
      · have hzero := List.find?_eq_none.mp hnone entry hold
        simp only [ne_eq, decide_not, Bool.not_eq_eq_eq_not, Bool.not_true,
          decide_eq_false_iff_not, not_not] at hzero
        exact absurd hzero hne
      · rw [List.mem_singleton.mp hnew]
        show aligned_timestamp c.hal.device message host = message.timestamp + device.m_time_offset
        rw [aligned_timestamp, if_pos hunset, hoffset]
  · -- the offset stays
    obtain ⟨first, hfirst⟩ : ∃ first, c.first = some first := by
      rw [← Option.ne_none_iff_exists']
      exact fun hnone => hunset (h.start hnone)
    rw [if_neg hunset] at hstart
    refine ⟨fun hlater => ?_, fun other hother => ?_, fun entry hmem hne => ?_⟩
    · rw [happend, hfirst, Option.some_or] at hlater
      cases hlater
    · rw [happend, hfirst, Option.some_or] at hother
      obtain rfl := Option.some.inj hother
      exact ⟨fun hzero => hunset (hstart.symm.trans hzero),
        (hkept hunset).trans (h.offset first hfirst).2⟩
    · rcases List.mem_append.mp hmem with hold | hnew
      · exact (h.aligned entry hold hne).trans (by rw [hkept hunset])
      · rw [List.mem_singleton.mp hnew]
        exact hoffset.symm

-- What the condition says of the timestamps as they are aligned.
theorem Clocked.Aligned.not_behind {c : Clocked Tid} (h : c.Aligned) {event : HalEvent Tid}
    {sensor : Sensor} {message : AicSensorsEvent} {host : Int} {earlier : StoredMessage}
    (hbehind : c.NotBehind hdr event)
    (hstoring : c.hal.storing hdr event = some (stored_message c.hal.device sensor message host))
    (hearlier : earlier ∈ c.stored) (hhandle : earlier.handle = sensor.ID)
    (hhost : earlier.host ≤ host) :
    earlier.aligned ≤ aligned_timestamp c.hal.device message host ∨
      earlier.host ≤ aligned_timestamp c.hal.device message host := by
  cases hfirst : c.first with
  | none =>
      rw [aligned_timestamp, if_pos (h.start hfirst)]
      omega
  | some first =>
      obtain ⟨hset, hoffset⟩ := h.offset first hfirst
      rw [aligned_timestamp, if_neg hset, hoffset]
      rcases hbehind _ hstoring first hfirst earlier hearlier hhandle with ⟨hne, hremote⟩ | hahead
      · left
        have hremote' : earlier.remote ≤ message.timestamp := hremote
        rw [h.aligned earlier hearlier hne, hoffset]
        omega
      · right
        have hahead' : earlier.host - first.host ≤ message.timestamp - first.remote := hahead
        omega

end Aligned

structure Clocked.InOrder (c : Clocked Tid) : Prop extends c.Aligned where
  events : Chronological c.stored c.hal.device c.hal.history.returned
  clock : ∀ message ∈ c.stored, message.host ≤ c.host_timestamp

theorem Chronological.poll_return {stored : List StoredMessage} {device : SensorDevice}
    (hal : Hal Tid) (h : Chronological stored device hal.history.returned)
    (thread : Tid) (count : Int) :
    Chronological stored (hal.poll_return hdr thread count device).device
      (hal.poll_return hdr thread count device).history.returned := by
  obtain ⟨events, ret, hpick, _, _, _, _, hreturned⟩ :=
    Hal.poll_return_spec hdr hal thread count device
  rw [hreturned]
  exact h.poll_pick hpick

theorem Clocked.events_step {c : Clocked Tid} {hal : Hal Tid} {event : HalEvent Tid}
    (h : c.InOrder) (hclock : c.HostForward event) (hbehind : c.NotBehind hdr event)
    (hstep : c.hal.step hdr event = some hal) :
    Chronological (c.stored ++ (c.hal.storing hdr event).toList) hal.device
      hal.history.returned := by
  have hevents := h.events
  rw [← List.append_nil c.stored] at hevents
  cases Hal.moves_of_step hstep with
  | flush handle => exact hevents.flush handle
  | arrive message => exact hevents
  | connection connected => exact hevents
  | block thread count hpc hnone => exact hevents
  | report thread count hpc hsome => exact hevents.poll_return c.hal thread count
  | wake thread count hpc => exact hevents
  | take thread count message queue hpc hqueue => exact hevents
  | again thread host count message hpc hprocess =>
      have hnone : c.hal.storing hdr (.process thread host) = none := by
        simp only [Hal.storing, hpc, process_again hprocess, Option.map_none]
      rw [hnone]
      exact hevents
  | store thread host count message device hpc hprocess =>
      obtain ⟨sensor, hsensor, _⟩ := slot_process hprocess
      have hsome : c.hal.storing hdr (.process thread host) =
          some (stored_message c.hal.device sensor message host) := by
        simp only [Hal.storing, hpc, hsensor, Option.map_some]
      have hlater : ∀ earlier ∈ c.stored, earlier.handle = sensor.ID → earlier.timestamp ≤
          (stored_message c.hal.device sensor message host).timestamp := by
        intro earlier hearlier hhandle
        have hhost : earlier.host ≤ host := Int.le_trans (h.clock earlier hearlier) hclock
        apply StoredMessage.timestamp_le
        · exact hhost
        · exact h.toAligned.not_behind hbehind hsome hearlier hhandle hhost
      rw [hsome]
      have hstored := h.events.store hsensor hprocess hlater
      exact hstored.poll_return (c.hal.lay_down thread) thread count

omit [DecidableEq Tid] in
theorem Hal.storing_eq_some {hal : Hal Tid} {event : HalEvent Tid} {message : StoredMessage}
    (h : hal.storing hdr event = some message) :
    ∃ thread host sensor stored, event = .process thread host ∧
      message = stored_message hal.device sensor stored host := by
  unfold Hal.storing at h
  split at h
  · split at h
    · obtain ⟨sensor, _, rfl⟩ := Option.map_eq_some_iff.mp h
      exact ⟨_, _, sensor, _, rfl, rfl⟩
    · cases h
  · cases h

theorem Clocked.aligned_step {c next : Clocked Tid} {event : HalEvent Tid} (h : c.Aligned)
    (hstep : c.step hdr event = some next) : next.Aligned := by
  obtain ⟨hal, hhal, rfl⟩ := Option.map_eq_some_iff.mp hstep
  have hsame : ∃ pending flush_count sensors, c.hal.device = { c.hal.device with
      m_pending_sensors := pending, m_flush_count := flush_count, m_sensors := sensors } :=
    ⟨_, _, _, rfl⟩
  have hnone : c.stored ++ [] = c.stored := List.append_nil _
  cases Hal.moves_of_step hhal with
  | flush handle => exact h.keep (flush_frame hdr c.hal.device handle) hnone
  | arrive message => exact h.keep hsame hnone
  | connection connected => exact h.keep hsame hnone
  | block thread count hpc hnone' => exact h.keep hsame hnone
  | report thread count hpc hsome =>
      exact h.keep (poll_pick_frame hdr count.toNat c.hal.device 0) hnone
  | wake thread count hpc => exact h.keep hsame hnone
  | take thread count message queue hpc hqueue => exact h.keep hsame hnone
  | again thread host count message hpc hprocess =>
      refine h.keep hsame ?_
      simp only [Hal.storing, hpc, process_again hprocess, Option.map_none]
      exact hnone
  | store thread host count message device hpc hprocess =>
      obtain ⟨sensor, hsensor, _⟩ := slot_process hprocess
      have hsome : c.hal.storing hdr (.process thread host) =
          some (stored_message c.hal.device sensor message host) := by
        simp only [Hal.storing, hpc, hsensor, Option.map_some]
      have hstored := h.store sensor hprocess
      rw [hsome]
      exact hstored.keep (poll_pick_frame hdr count.toNat device 0) rfl

theorem Clocked.in_order_step {c next : Clocked Tid} {event : HalEvent Tid} (h : c.InOrder)
    (hclock : c.HostForward event) (hbehind : c.NotBehind hdr event)
    (hstep : c.step hdr event = some next) : next.InOrder := by
  have haligned := aligned_step h.toAligned hstep
  obtain ⟨hal, hhal, rfl⟩ := Option.map_eq_some_iff.mp hstep
  refine ⟨haligned, events_step h hclock hbehind hhal, fun message hmem => ?_⟩
  rcases List.mem_append.mp hmem with hold | hnew
  · exact Int.le_trans (h.clock message hold) hclock
  · obtain ⟨thread, host, sensor, stored, rfl, rfl⟩ :=
      Hal.storing_eq_some (Option.mem_toList.mp hnew)
    exact Int.le_refl host

-- The data events that polls return for a handle are in order in every run
-- in which no message is behind an earlier one of its sensor.
theorem data_events_ordered (hdr : SensorsHeader) (memory : Handle → SensorsEvent)
    (log_trace_count boot : Int) (events : List (HalEvent Tid)) (c : Clocked Tid)
    (hrun : Machine.run (Clocked.step hdr) (Clocked.init memory log_trace_count boot) events =
      some c)
    (hclock : Machine.Along (Clocked.step hdr) Clocked.HostForward
      (Clocked.init memory log_trace_count boot) events)
    (hbehind : Machine.Along (Clocked.step hdr) (Clocked.NotBehind hdr)
      (Clocked.init memory log_trace_count boot) events) (handle : Handle) :
    (data_timestamps handle c.hal.history.returned).Pairwise (· ≤ ·) := by
  have hinit : (Clocked.init memory log_trace_count boot : Clocked Tid).InOrder :=
    ⟨Clocked.aligned_init memory log_trace_count boot, chronological_init memory log_trace_count,
      fun _ h => absurd h List.not_mem_nil⟩
  have horder : c.InOrder := Machine.invariant
    (fun _ _ _ hi hcond hstep => Clocked.in_order_step hi hcond.1 hcond.2 hstep) hinit
    (hclock.and hbehind) hrun
  exact horder.events.sorted handle

-- Two clients of which the second stamps its message with less than the first did, but
-- with more than the host clock had come to.
def second_client_ahead : List (HalEvent Unit) :=
  [.connection true, .arrive ⟨1, 3, 1000000, fun _ => 0⟩, .poll () 1, .take (), .process () 5000,
    .arrive ⟨1, 3, 1009000, fun _ => 0⟩, .poll () 1, .take (), .process () 7000,
    .connection false, .connection true, .arrive ⟨1, 3, 1002500, fun _ => 0⟩, .poll () 1,
    .take (), .process () 8000]

theorem data_events_ordered_client :
    ∃ c, Machine.run (Clocked.step android_header)
        (Clocked.init (fun _ => default) 50 0 : Clocked Unit) second_client_ahead = some c ∧
      data_timestamps 0 c.hal.history.returned = [5000, 7000, 7500] ∧
      (data_timestamps 0 c.hal.history.returned).Pairwise (· ≤ ·) := by
  obtain ⟨c, hrun, hreturned⟩ : ∃ c, Machine.run (Clocked.step android_header)
        (Clocked.init (fun _ => default) 50 0 : Clocked Unit) second_client_ahead = some c ∧
      data_timestamps 0 c.hal.history.returned = [5000, 7000, 7500] :=
    Option.map_eq_some_iff.mp (by decide +kernel)
  refine ⟨c, hrun, hreturned, data_events_ordered android_header _ 50 0 _ c hrun ?_ ?_ 0⟩
  · decide +kernel
  · decide +kernel

-- The first client stamps a message with 1000000, and a client that connects
-- later has a clock that started anew.
theorem reconnection_goes_back :
    ∃ c, Machine.run (Clocked.step android_header)
        (Clocked.init (fun _ => default) 50 0 : Clocked Unit)
        [.connection true, .arrive ⟨1, 3, 1000000, fun _ => 0⟩, .poll () 1, .take (),
          .process () 5000, .connection false, .connection true,
          .arrive ⟨1, 3, 10, fun _ => 0⟩, .poll () 1, .take (), .process () 6000] = some c ∧
      ¬ (data_timestamps 0 c.hal.history.returned).Pairwise (· ≤ ·) := by
  obtain ⟨c, hrun, hres⟩ : ∃ c, Machine.run (Clocked.step android_header)
        (Clocked.init (fun _ => default) 50 0 : Clocked Unit)
        [.connection true, .arrive ⟨1, 3, 1000000, fun _ => 0⟩, .poll () 1, .take (),
          .process () 5000, .connection false, .connection true,
          .arrive ⟨1, 3, 10, fun _ => 0⟩, .poll () 1, .take (), .process () 6000] = some c ∧
      data_timestamps 0 c.hal.history.returned = [5000, -994990] :=
    Option.map_eq_some_iff.mp (by decide +kernel)
  refine ⟨c, hrun, ?_⟩
  rw [hres]
  decide

end SensorVhal
