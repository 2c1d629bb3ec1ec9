import SensorVhal.Config.Handles
import SensorVhal.Sensors.FlushAccounting
import SensorVhal.Sensors.Placement

namespace SensorVhal

-- sensor_poll_events up to its call of sensor_device_poll, which it makes where this
-- is none.
def sensor_poll_events (count : Int) : Option Int :=
  if count ≤ 0 then some (-EINVAL) else none

-- A call of sensor_poll_events that has returned, with the flushes made and the
-- messages stored by then.
structure PollReturn where
  count : Int
  ret : Int
  events : List SensorsEvent
  flushed : List Handle
  stored : List AicSensorsEvent

-- The HAL behind the entry points of the module, all messages that polls have stored
-- in m_sensors, and what the polls have returned.
structure SensorsModule (Tid : Type) where
  hal : Hal Tid
  stored : List AicSensorsEvent
  returns : List PollReturn

-- The count that a running poll was called with.
def PollPc.count : PollPc → Option Int
  | idle => none
  | no_client count | waiting count | taken count _ => some count

variable (hdr : SensorsHeader)

-- The last message whose payload was written to the slot of a handle.
def latest (stored : List AicSensorsEvent) (handle : Handle) : Option AicSensorsEvent :=
  (stored.filter fun message =>
    (sensor_of_type hdr message.type).map Sensor.dataID = some handle).getLast?

section Machine

variable {Tid : Type}

def Hal.stores (hal : Hal Tid) : HalEvent Tid → List AicSensorsEvent
  | .process thread host_timestamp =>
    match hal.polls thread with
    | .taken _ message =>
      match sensor_device_process_event hdr hal.device message host_timestamp with
      | .stored _ => [message]
      | _ => []
    | _ => []
  | _ => []

namespace SensorsModule

def init (memory : Handle → SensorsEvent) (log_trace_count : Int) : SensorsModule Tid :=
  ⟨.init memory log_trace_count, [], []⟩

variable (x : SensorsModule Tid)

-- A poll that sensor_poll_events refuses.
def refused : HalEvent Tid → Option PollReturn
  | .poll thread count =>
    match x.hal.polls thread with
    | .idle =>
      (sensor_poll_events count).map fun ret => ⟨count, ret, [], x.hal.history.flushed, x.stored⟩
    | _ => none
  | _ => none

-- A poll that returns with events.
def answered (event : HalEvent Tid) : Option PollReturn :=
  (x.hal.picking hdr event).map fun (count, device) =>
    let (events, ret, _) := sensor_device_poll_pick hdr count.toNat device 0
    ⟨count, ret, events, x.hal.history.flushed, x.stored ++ x.hal.stores hdr event⟩

def step [DecidableEq Tid] (x : SensorsModule Tid) (event : HalEvent Tid) :
    Option (SensorsModule Tid) :=
  match x.refused event with
  | some refused => some { x with returns := x.returns ++ [refused] }
  | none =>
    (x.hal.step hdr event).map fun hal =>
      { hal := hal
        stored := x.stored ++ x.hal.stores hdr event
        returns := x.returns ++ (x.answered hdr event).toList }

end SensorsModule

end Machine

-- A META_DATA event of a handle that was flushed, in its slot or as a poll returned it.
structure MetaData (flushed : List Handle) (handle : Handle) (event : SensorsEvent) : Prop where
  flushed : handle ∈ flushed
  type : event.type = SENSOR_TYPE_META_DATA
  version : event.version = hdr.META_DATA_VERSION
  sensor : event.sensor = 0
  timestamp : event.timestamp = 0

-- The completion of a flush.
structure Acknowledges (flushed : List Handle) (handle : Handle) (event : SensorsEvent) : Prop
    extends MetaData hdr flushed handle event where
  data : genuine hdr handle event

-- What is left of a completion of the calibrated magnetic field behind a message of the
-- uncalibrated one, whose words lie over those of the completion.
structure Overwritten (flushed : List Handle) (stored : List AicSensorsEvent) (handle : Handle)
    (event : SensorsEvent) : Prop extends MetaData hdr flushed handle event where
  magnetic : handle = Sensor.ID .MAGNETIC_FIELD
  data : ∃ message, latest hdr stored handle = some message ∧
    message.type = hdr.SENSOR_TYPE .MAGNETIC_FIELD_UNCALIBRATED ∧ Holds message 6 event

-- A reading of a sensor. It holds the values that came last.
structure Reads (stored : List AicSensorsEvent) (sensor : Sensor) (event : SensorsEvent) :
    Prop where
  type : event.type = hdr.SENSOR_TYPE sensor
  came : ∃ message ∈ stored, message.type = hdr.SENSOR_TYPE sensor
  data : sensor ≠ .MAGNETIC_FIELD_UNCALIBRATED → ∃ message,
    latest hdr stored sensor.ID = some message ∧ Holds message sensor.words event

-- What lies in a pending slot.
def Fills (flushed : List Handle) (stored : List AicSensorsEvent) (handle : Handle)
    (event : SensorsEvent) : Prop :=
  Acknowledges hdr flushed handle event ∨ Overwritten hdr flushed stored handle event ∨
    ∃ sensor : Sensor, sensor.ID = handle ∧ Reads hdr stored sensor event

-- All that is pending is of this kind.
def Pending (P : Handle → SensorsEvent → Prop) (device : SensorDevice) : Prop :=
  ∀ handle : Handle, device.m_pending_sensors.getLsbD handle = true →
    P handle (device.m_sensors handle)

-- What sensor_poll_events returned.
structure PollReturn.Faithful (answer : PollReturn) : Prop where
  refused : answer.count ≤ 0 → answer.ret = -EINVAL ∧ answer.events = []
  answered : 0 < answer.count →
    0 < answer.ret ∧ answer.ret ≤ answer.count ∧ answer.ret = answer.events.length
  events : ∀ event ∈ answer.events,
    (∃ handle, Acknowledges hdr answer.flushed handle event) ∨
      (∃ handle, Overwritten hdr answer.flushed answer.stored handle event) ∨
      ∃ sensor : Sensor, event.sensor = sensor.ID.val ∧
        event.version = hdr.sizeof_sensors_event_t ∧ Reads hdr answer.stored sensor event

variable {hdr}

section Latest

theorem latest_append (stored : List AicSensorsEvent) {message : AicSensorsEvent} {sensor : Sensor}
    (hsensor : sensor_of_type hdr message.type = some sensor) (handle : Handle) :
    latest hdr (stored ++ [message]) handle =
      if sensor.dataID = handle then some message else latest hdr stored handle := by
  rw [latest, List.filter_append, List.filter_singleton, hsensor]
  by_cases hs : sensor.dataID = handle
  · simp [hs]
  · simp [hs, latest]

theorem Holds.of_le {message : AicSensorsEvent} {words words' : Nat} {event : SensorsEvent}
    (h : Holds message words event) (hle : words' ≤ words) : Holds message words' event :=
  fun i hi => h i (by omega)

end Latest

section Slots

variable {flushed : List Handle} {stored : List AicSensorsEvent} {device next : SensorDevice}

theorem MetaData.flush {handle : Handle} {event : SensorsEvent}
    (h : MetaData hdr flushed handle event) (other : Handle) :
    MetaData hdr (flushed ++ [other]) handle event :=
  { h with flushed := List.mem_append_left _ h.flushed }

theorem Fills.flush {handle : Handle} {event : SensorsEvent}
    (h : Fills hdr flushed stored handle event) (other : Handle) :
    Fills hdr (flushed ++ [other]) stored handle event := by
  rcases h with hflush | hover | hread
  · exact .inl ⟨hflush.toMetaData.flush other, hflush.data⟩
  · exact .inr (.inl ⟨hover.toMetaData.flush other, hover.magnetic, hover.data⟩)
  · exact .inr (.inr hread)

-- A flush fills the slot of its handle with a completion, if it has none.
theorem pending_flush (h : Pending (Fills hdr flushed stored) device) (handle : Handle) :
    Pending (Fills hdr (flushed ++ [handle]) stored)
      (sensor_device_flush_locked hdr device handle) := by
  by_cases howed : ∃ more, slot device handle = .owed more
  · obtain ⟨more, hslot⟩ := howed
    rw [flush_of_owed hslot]
    exact fun other hbit => (h other hbit).flush handle
  · rw [flush_of_not_owed (not_exists.mp howed)]
    intro other hbit
    by_cases hs : other = handle
    · subst other
      left
      refine ⟨⟨by simp, ?_, ?_, ?_, ?_⟩, ?_⟩ <;>
        simp [flush_complete, genuine, SensorsEvent.metaWhat, SensorsEvent.metaSensor]
    · have hold : device.m_pending_sensors.getLsbD other = true := by
        simpa [getLsbD_set, hs] using hbit
      simp only [Function.update_of_ne hs]
      exact (h other hold).flush handle

-- What a message leaves in the slot of another handle.
theorem Fills.other {message : AicSensorsEvent} {sensor : Sensor} {host : Int}
    (hsensor : sensor_of_type hdr message.type = some sensor)
    (hprocess : sensor_device_process_event hdr device message host = .stored next)
    {handle : Handle} (hne : handle ≠ sensor.ID)
    (h : Fills hdr flushed stored handle (device.m_sensors handle)) :
    Fills hdr flushed (stored ++ [message]) handle (next.m_sensors handle) := by
  have hslot := process_other_slot hsensor hprocess hne
  have hlatest := latest_append stored hsensor handle
  by_cases hdata : handle = sensor.dataID
  · -- only the uncalibrated magnetic field writes to a slot that is not its own
    have hown : sensor = .MAGNETIC_FIELD_UNCALIBRATED := by
      by_contra hcalibrated
      exact hne (hdata.trans (Sensor.dataID_eq_ID.mpr hcalibrated))
    subst sensor
    rw [if_pos hdata] at hslot
    rw [if_pos hdata.symm] at hlatest
    have hholds : Holds message 6 (next.m_sensors handle) := by
      have hcopied : (next.m_sensors handle).data =
          copy_words 6 message.fdata (device.m_sensors handle).data := by
        rw [hslot]
        rfl
      exact copy_words_holds hcopied
    have hover (hmeta : MetaData hdr flushed handle (device.m_sensors handle)) :
        Overwritten hdr flushed (stored ++ [message]) handle (next.m_sensors handle) := by
      refine ⟨?_, hdata, message, hlatest, sensor_of_type_eq_some.mp hsensor, hholds⟩
      rw [hslot]
      exact ⟨hmeta.flushed, hmeta.type, hmeta.version, hmeta.sensor, hmeta.timestamp⟩
    rcases h with hflush | hflush | ⟨other, hother, hread⟩
    · exact .inr (.inl (hover hflush.toMetaData))
    · exact .inr (.inl (hover hflush.toMetaData))
    · right; right
      refine ⟨other, hother, ?_, ?_, fun _ => ⟨message, hother ▸ hlatest, ?_⟩⟩
      · rw [hslot]
        exact hread.type
      · obtain ⟨came, hmem, htype⟩ := hread.came
        exact ⟨came, List.mem_append_left _ hmem, htype⟩
      · apply hholds.of_le
        cases other <;> decide
  · rw [if_neg hdata] at hslot
    rw [if_neg (Ne.symm hdata)] at hlatest
    rw [hslot]
    rcases h with hflush | hover | ⟨other, rfl, hread⟩
    · exact .inl hflush
    · right; left
      refine { hover with data := ?_ }
      rw [hlatest]
      exact hover.data
    · right; right
      obtain ⟨came, hmem, htype⟩ := hread.came
      refine ⟨other, rfl, hread.type, ⟨came, List.mem_append_left _ hmem, htype⟩, ?_⟩
      rw [hlatest]
      exact hread.data

theorem pending_process {message : AicSensorsEvent} {sensor : Sensor} {host : Int}
    (hsensor : sensor_of_type hdr message.type = some sensor)
    (hprocess : sensor_device_process_event hdr device message host = .stored next)
    (h : Pending (Fills hdr flushed stored) device) :
    Pending (Fills hdr flushed (stored ++ [message])) next := by
  intro handle hbit
  by_cases hs : handle = sensor.ID
  · subst handle
    right; right
    obtain ⟨htype, hdata⟩ := process_own_slot hsensor hprocess
    have hname := sensor_of_type_eq_some.mp hsensor
    refine ⟨sensor, rfl, htype.trans hname, ⟨message, by simp, hname⟩, fun hcalibrated => ?_⟩
    have hown := Sensor.dataID_eq_ID.mpr hcalibrated
    refine ⟨message, ?_, ?_⟩
    · rw [latest_append stored hsensor, if_pos hown]
    · rw [if_pos hown.symm] at hdata
      exact copy_words_holds hdata
  · refine Fills.other hsensor hprocess hs (h handle ?_)
    rw [process_pending hsensor hprocess, getLsbD_set] at hbit
    simpa [hs] using hbit

-- What a pick leaves pending it leaves as it is.
theorem pending_pick {P : Handle → SensorsEvent → Prop} (h : Pending P device) {i : Handle}
    {event : SensorsEvent}
    (hpick : sensor_device_pick_pending_event_locked hdr device = .ok (i, event, next)) :
    Pending P next := by
  intro handle hbit
  have hne : slot next handle ≠ .empty := by
    rw [ne_eq, slot_eq_empty, hbit]
    decide
  have hnext := slot_pick hpick
  obtain ⟨_, ⟨more, hslot, -, rfl⟩ | ⟨hslot, -, rfl⟩ | ⟨type, hslot, -, rfl⟩⟩ := pick_cases hpick
  · refine h handle ?_
    rw [getLsbD_set, getLsbD_clear] at hbit
    by_cases hs : handle = i
    · subst handle
      exact (slot_eq_owed.mp hslot).1
    · simpa [hs] using hbit
  all_goals
    have hs : handle ≠ i := by
      rintro rfl
      rw [hnext, Function.update_self, hslot] at hne
      exact hne rfl
    have hold : device.m_pending_sensors.getLsbD handle = true := by
      rw [getLsbD_clear] at hbit
      simpa [hs] using hbit
  · simp only [Function.update_of_ne hs]
    exact h handle hold
  · exact h handle hold

theorem pending_poll {P : Handle → SensorsEvent → Prop} {count : Nat} {result ret : Int}
    {events : List SensorsEvent} (h : Pending P device)
    (hpick : sensor_device_poll_pick hdr count device result = (events, ret, next)) :
    Pending P next := by
  induction count generalizing device result events ret next with
  | zero =>
      obtain ⟨-, -, rfl⟩ := hpick
      exact h
  | succ count ih =>
      unfold sensor_device_poll_pick at hpick
      split at hpick
      · obtain ⟨-, -, rfl⟩ := hpick
        exact h
      · split at hpick
        · obtain ⟨-, -, rfl⟩ := hpick
          exact h
        · rename_i hone
          obtain ⟨-, -, rfl⟩ := hpick
          exact ih (pending_pick h hone) rfl

-- A poll returns what was in the slots.
theorem poll_reported {P : Handle → SensorsEvent → Prop} {count : Nat} {result ret : Int}
    {events : List SensorsEvent} (hsupported : OnlySupported device) (h : Pending P device)
    (hpick : sensor_device_poll_pick hdr count device result = (events, ret, next)) :
    ∀ event ∈ events, ∃ handle, P handle (device.m_sensors handle) ∧
      event = reported_event hdr device handle := by
  intro event hevent
  rw [(poll_pick_entries hsupported hpick).1] at hevent
  obtain ⟨⟨handle, value⟩, hentry, rfl⟩ := List.mem_map.mp hevent
  obtain ⟨hslot, hvalue⟩ := Mailbox.mem_agenda (List.mem_of_mem_take hentry)
  refine ⟨handle, h handle ?_, hvalue⟩
  rw [ne_eq, slot_eq_empty] at hslot
  simpa using hslot

end Slots

section Effects

variable {Tid : Type} [DecidableEq Tid]

-- What an event of the HAL does to the device and to the history: nothing, a flush, or
-- a poll that returns, with a message that it has stored before or without one.
inductive Hal.Effect (hdr : SensorsHeader) (hal : Hal Tid) (event : HalEvent Tid) (next : Hal Tid) :
    Prop
  | still (hdevice : next.device = hal.device)
      (hflushed : next.history.flushed = hal.history.flushed)
      (hreturned : next.history.returned = hal.history.returned)
      (hstores : hal.stores hdr event = []) (hpicking : hal.picking hdr event = none)
  | flush (handle : Handle) (hevent : event = .flush handle)
      (hdevice : next.device = sensor_device_flush_locked hdr hal.device handle)
      (hflushed : next.history.flushed = hal.history.flushed ++ [handle])
      (hreturned : next.history.returned = hal.history.returned)
      (hstores : hal.stores hdr event = []) (hpicking : hal.picking hdr event = none)
  | answer (count : Int) (device : SensorDevice) (events : List SensorsEvent) (ret : Int)
      (hpicking : hal.picking hdr event = some (count, device))
      (hpick : sensor_device_poll_pick hdr count.toNat device 0 = (events, ret, next.device))
      (hflushed : next.history.flushed = hal.history.flushed)
      (hreturned : next.history.returned = hal.history.returned ++ events)
      (hstored : (device = hal.device ∧ hal.stores hdr event = []) ∨
        ∃ thread count' message host, hal.polls thread = .taken count' message ∧
          sensor_device_process_event hdr hal.device message host = .stored device ∧
          hal.stores hdr event = [message])

theorem Hal.effect_of_step {hal next : Hal Tid} {event : HalEvent Tid}
    (hstep : hal.step hdr event = some next) : hal.Effect hdr event next := by
  cases Hal.moves_of_step hstep with
  | flush handle => exact .flush handle rfl rfl rfl rfl rfl rfl
  | arrive message => exact .still rfl rfl rfl rfl rfl
  | connection connected => exact .still rfl rfl rfl rfl rfl
  | block thread count hpc hnone =>
      refine .still rfl rfl rfl rfl ?_
      simp only [picking, hpc, if_pos hnone]
  | report thread count hpc hsome =>
      obtain ⟨events, ret, hpick, _, hflushed, _, _, hreturned⟩ :=
        Hal.poll_return_spec hdr hal thread count hal.device
      refine .answer count hal.device events ret ?_ hpick hflushed hreturned (.inl ⟨rfl, rfl⟩)
      simp only [picking, hpc, if_neg hsome]
  | wake thread count hpc => exact .still rfl rfl rfl rfl rfl
  | take thread count message queue hpc hqueue => exact .still rfl rfl rfl rfl rfl
  | again thread host count message hpc hprocess =>
      refine .still rfl rfl rfl ?_ ?_
      · simp only [stores, hpc, hprocess]
      · simp only [picking, hpc, hprocess]
  | store thread host count message device hpc hprocess =>
      obtain ⟨events, ret, hpick, _, hflushed, _, _, hreturned⟩ :=
        Hal.poll_return_spec hdr (hal.lay_down thread) thread count device
      refine .answer count device events ret ?_ hpick hflushed hreturned
        (.inr ⟨thread, count, message, host, hpc, hprocess, ?_⟩)
      · simp only [picking, hpc, hprocess]
      · simp only [stores, hpc, hprocess]

end Effects

namespace SensorsModule

variable {Tid : Type} [DecidableEq Tid] {x next : SensorsModule Tid} {event : HalEvent Tid}

theorem step_cases (h : x.step hdr event = some next) :
    (∃ thread count, event = .poll thread count ∧ count ≤ 0 ∧ next = { x with
      returns := x.returns ++ [⟨count, -EINVAL, [], x.hal.history.flushed, x.stored⟩] }) ∨
    ((∀ thread count, event = .poll thread count → 0 < count) ∧ ∃ hal,
      x.hal.step hdr event = some hal ∧ next = {
        hal := hal
        stored := x.stored ++ x.hal.stores hdr event
        returns := x.returns ++ (x.answered hdr event).toList }) := by
  unfold step at h
  split at h
  · rename_i answer hrefused
    left
    obtain rfl := Option.some.inj h
    cases event with
    | poll thread count =>
        simp only [refused] at hrefused
        split at hrefused
        · unfold sensor_poll_events at hrefused
          split at hrefused
          · rename_i hcount
            cases hrefused
            exact ⟨thread, count, rfl, hcount, rfl⟩
          · cases hrefused
        · cases hrefused
    | _ => cases hrefused
  · rename_i hrefused
    right
    obtain ⟨hal, hhal, rfl⟩ := Option.map_eq_some_iff.mp h
    refine ⟨?_, hal, hhal, rfl⟩
    rintro thread count rfl
    by_contra hcount
    have hpc : x.hal.polls thread = .idle := by
      cases hpc : x.hal.polls thread with
      | idle => rfl
      | _ => simp [Hal.step, hpc] at hhal
    simp [refused, hpc, sensor_poll_events, Int.not_lt.mp hcount] at hrefused

-- Polls wait only for calls that asked for something.
def Asked (hal : Hal Tid) : Prop :=
  ∀ thread count, (hal.polls thread).count = some count → 0 < count

theorem asked_step {hal next : Hal Tid} (h : Asked hal)
    (hevent : ∀ thread count, event = .poll thread count → 0 < count)
    (hstep : hal.step hdr event = some next) : Asked next := by
  have hupdate : ∀ (polls : Tid → PollPc) thread pc,
      (∀ count, pc.count = some count → 0 < count) →
      (∀ other count, (polls other).count = some count → 0 < count) →
      ∀ other count, (Function.update polls thread pc other).count = some count → 0 < count := by
    intro polls thread pc hpc hpolls other count hcount
    by_cases hs : other = thread
    · subst other
      rw [Function.update_self] at hcount
      exact hpc count hcount
    · rw [Function.update_of_ne hs] at hcount
      exact hpolls other count hcount
  have hhead : ∀ (count : Int) (connected : Bool), 0 < count → ∀ count',
      (if connected then PollPc.waiting count else .no_client count).count = some count' →
        0 < count' := by
    intro count connected hpos count' hcount
    cases connected <;> cases hcount <;> exact hpos
  cases Hal.moves_of_step hstep with
  | flush handle => exact h
  | arrive message => exact h
  | connection connected => exact h
  | block thread count hpc hnone =>
      exact hupdate _ thread _ (hhead count _ (hevent thread count rfl)) h
  | report thread count hpc hsome => exact hupdate _ thread _ (fun _ hcount => by cases hcount) h
  | wake thread count hpc =>
      exact hupdate _ thread _ (hhead count _ (h thread count (by rw [hpc]; rfl))) h
  | take thread count message queue hpc hqueue =>
      refine hupdate _ thread _ (fun count' hcount => ?_) h
      cases hcount
      exact h thread count (by rw [hpc]; rfl)
  | again thread host count message hpc hprocess =>
      exact hupdate _ thread _ (hhead count _ (h thread count (by rw [hpc]; rfl))) h
  | store thread host count message device hpc hprocess =>
      exact hupdate _ thread _ (fun _ hcount => by cases hcount) h

-- The device as its polls leave it, whatever the calls and the clients do.
structure Sound (hdr : SensorsHeader) (x : SensorsModule Tid) : Prop where
  supported : OnlySupported x.hal.device
  asked : Asked x.hal
  pending : Pending (Fills hdr x.hal.history.flushed x.stored) x.hal.device
  returns : ∀ answer ∈ x.returns, answer.Faithful hdr
  returned : x.hal.history.returned = (x.returns.map PollReturn.events).flatten

omit [DecidableEq Tid] in
theorem sound_init (hdr : SensorsHeader) (memory : Handle → SensorsEvent) (log_trace_count : Int) :
    (init memory log_trace_count : SensorsModule Tid).Sound hdr where
  supported i hbit := absurd (BitVec.getLsbD_zero.symm.trans hbit) Bool.false_ne_true
  asked thread count hcount := by cases hcount
  pending handle hbit := absurd (BitVec.getLsbD_zero.symm.trans hbit) Bool.false_ne_true
  returns answer hmem := absurd hmem List.not_mem_nil
  returned := rfl

omit [DecidableEq Tid] in
theorem picking_count {hal : Hal Tid} (h : Asked hal)
    (hevent : ∀ thread count, event = .poll thread count → 0 < count) {count : Int}
    {device : SensorDevice} (hpicking : hal.picking hdr event = some (count, device)) :
    0 < count := by
  cases event with
  | poll thread count' =>
      simp only [Hal.picking] at hpicking
      split at hpicking
      · split at hpicking <;> cases hpicking
        exact hevent thread count rfl
      · cases hpicking
  | process thread host =>
      simp only [Hal.picking] at hpicking
      split at hpicking
      · rename_i hpc
        split at hpicking <;> cases hpicking
        exact h thread count (by rw [hpc]; rfl)
      · cases hpicking
  | _ => cases hpicking

-- A completion is returned as it lies in its slot, a reading with its handle.
theorem faithful_of_pick {flushed : List Handle} {stored : List AicSensorsEvent}
    {device left : SensorDevice} {count ret : Int} {events : List SensorsEvent}
    (hsupported : OnlySupported device) (hpending : Pending (Fills hdr flushed stored) device)
    (hsome : device.m_pending_sensors ≠ 0) (hcount : 0 < count)
    (hpick : sensor_device_poll_pick hdr count.toNat device 0 = (events, ret, left)) :
    PollReturn.Faithful hdr ⟨count, ret, events, flushed, stored⟩ := by
  obtain ⟨hevents, hret, _⟩ := poll_pick_entries hsupported hpick
  have htotal : pending_total device ≠ 0 := (pending_eq_zero hsupported).not.mp hsome
  have hlength : events.length = min count.toNat (pending_total device) := by
    rw [hevents, List.length_map, List.length_take, length_pending_entries]
  refine ⟨fun hneg => absurd hcount (Int.not_lt.mpr hneg), fun _ => ?_, fun event hevent => ?_⟩
  · show 0 < ret ∧ ret ≤ count ∧ ret = events.length
    omega
  · obtain ⟨handle, hfills, rfl⟩ := poll_reported hsupported hpending hpick event hevent
    rcases hfills with hflush | hover | ⟨sensor, rfl, hread⟩
    · left
      refine ⟨handle, ?_⟩
      rw [reported_event, if_pos hflush.type]
      exact hflush
    · right; left
      refine ⟨handle, ?_⟩
      rw [reported_event, if_pos hover.type]
      exact hover
    · right; right
      have hmeta : (device.m_sensors sensor.ID).type ≠ SENSOR_TYPE_META_DATA := by
        rw [hread.type]
        exact sensor_type_ne_meta_data hdr sensor
      refine ⟨sensor, ?_, ?_, ?_⟩ <;> rw [reported_event, if_neg hmeta]
      exact ⟨hread.type, hread.came, hread.data⟩

-- The device of a poll that has come to its picking loop.
theorem Sound.picking (h : x.Sound hdr) {count : Int} {device : SensorDevice}
    (hpicking : x.hal.picking hdr event = some (count, device))
    (hstored : (device = x.hal.device ∧ x.hal.stores hdr event = []) ∨
      ∃ thread count' message host, x.hal.polls thread = .taken count' message ∧
        sensor_device_process_event hdr x.hal.device message host = .stored device ∧
        x.hal.stores hdr event = [message]) :
    OnlySupported device ∧ device.m_pending_sensors ≠ 0 ∧
      Pending (Fills hdr x.hal.history.flushed (x.stored ++ x.hal.stores hdr event)) device := by
  refine ⟨Hal.onlySupported_picking h.supported hpicking, (Hal.picking_cases hpicking).1, ?_⟩
  rcases hstored with ⟨rfl, hnone⟩ | ⟨thread, count', message, host, _, hprocess, hone⟩
  · rw [hnone, List.append_nil]
    exact h.pending
  · rw [hone]
    obtain ⟨sensor, _, hsensor, _⟩ := process_cases hprocess
    exact pending_process hsensor hprocess h.pending

theorem Sound.step (h : x.Sound hdr) (hstep : x.step hdr event = some next) : next.Sound hdr := by
  rcases step_cases hstep with ⟨thread, count, rfl, hcount, rfl⟩ | ⟨hevent, hal, hhal, rfl⟩
  · refine { h with returns := fun answer hmem => ?_, returned := ?_ }
    · rcases List.mem_append.mp hmem with hold | hnew
      · exact h.returns answer hold
      · rw [List.mem_singleton.mp hnew]
        refine ⟨fun _ => ⟨rfl, rfl⟩, fun hpos => absurd hpos (Int.not_lt.mpr hcount), ?_⟩
        exact fun event hnone => absurd hnone List.not_mem_nil
    · rw [h.returned]
      simp
  · have hsupported := Hal.onlySupported_step h.supported hhal
    have hasked := asked_step h.asked hevent hhal
    cases Hal.effect_of_step hhal with
    | still hdevice hflushed hreturned hstores hpicking =>
        have hanswered : x.answered hdr event = none := by rw [answered, hpicking]; rfl
        refine ⟨hsupported, hasked, ?_, ?_, ?_⟩
        · rw [hdevice, hflushed, hstores, List.append_nil]
          exact h.pending
        · rw [hanswered]
          simpa using h.returns
        · rw [hanswered, hreturned]
          simpa using h.returned
    | flush handle _ hdevice hflushed hreturned hstores hpicking =>
        have hanswered : x.answered hdr event = none := by rw [answered, hpicking]; rfl
        refine ⟨hsupported, hasked, ?_, ?_, ?_⟩
        · rw [hdevice, hflushed, hstores, List.append_nil]
          exact pending_flush h.pending handle
        · rw [hanswered]
          simpa using h.returns
        · rw [hanswered, hreturned]
          simpa using h.returned
    | answer count device events ret hpicking hpick hflushed hreturned hstored =>
        obtain ⟨hbits, hsome, hpending⟩ := h.picking hpicking hstored
        have hcount := picking_count h.asked hevent hpicking
        have hanswered : x.answered hdr event = some ⟨count, ret, events, x.hal.history.flushed,
            x.stored ++ x.hal.stores hdr event⟩ := by
          simp only [answered, hpicking, Option.map_some, hpick]
        refine ⟨hsupported, hasked, ?_, fun answer hmem => ?_, ?_⟩
        · rw [hflushed]
          exact pending_poll hpending hpick
        · rw [hanswered] at hmem
          rcases List.mem_append.mp hmem with hold | hnew
          · exact h.returns answer hold
          · rw [List.mem_singleton.mp hnew]
            exact faithful_of_pick hbits hpending hsome hcount hpick
        · rw [hanswered, hreturned, h.returned]
          simp

end SensorsModule

section Counts

-- A data event of a sensor, as polls return it.
def IsReading (sensor : Sensor) (event : SensorsEvent) : Prop :=
  event.type ≠ SENSOR_TYPE_META_DATA ∧ event.sensor = sensor.ID.val

instance (sensor : Sensor) : DecidablePred (IsReading sensor) := fun _ =>
  inferInstanceAs (Decidable (_ ∧ _))

theorem countP_readings {genuine : Handle → SensorsEvent → Prop} {events : List SensorsEvent}
    {seen : List (Mailbox.Event Handle Int)} (h : List.Forall₂ (Shows genuine) events seen)
    (sensor : Sensor) :
    events.countP (fun event => IsReading sensor event) =
      seen.countP (fun event => event.delivers sensor.ID) := by
  induction h with
  | nil => rfl
  | @cons event seen events rest hshows _ ih =>
      rw [List.countP_cons, List.countP_cons, ih]
      congr 1
      cases seen with
      | acknowledged handle => simp [IsReading, hshows.1, Mailbox.Event.delivers]
      | delivered handle type =>
          obtain ⟨rfl, hne, hsensor⟩ := hshows
          have hiff : (handle.val : Int) = sensor.ID.val ↔ handle = sensor.ID := by
            rw [Fin.ext_iff]
            omega
          simp [IsReading, hne, hsensor, hiff, Mailbox.Event.delivers]

theorem countP_completions {genuine : Handle → SensorsEvent → Prop} {events : List SensorsEvent}
    {seen : List (Mailbox.Event Handle Int)} (h : List.Forall₂ (Shows genuine) events seen) :
    events.countP (fun event => event.type = SENSOR_TYPE_META_DATA) =
      seen.countP Mailbox.Event.acknowledges := by
  induction h with
  | nil => rfl
  | @cons event seen events rest hshows _ ih =>
      rw [List.countP_cons, List.countP_cons, ih]
      congr 1
      cases seen with
      | acknowledged handle => simp [hshows.1, Mailbox.Event.acknowledges]
      | delivered handle type =>
          obtain ⟨rfl, hne, _⟩ := hshows
          simp [hne, Mailbox.Event.acknowledges]

variable {device next : SensorDevice}

-- A flush adds one completion at most. A counter that wraps loses some.
theorem slot_flush_le (hdr : SensorsHeader) (device : SensorDevice) (handle : Handle) :
    ∃ more, slot (sensor_device_flush_locked hdr device handle) =
        Function.update (slot device) handle (.owed more) ∧
      more ≤ (slot device handle).outstanding := by
  obtain ⟨more, hslot, hrequest⟩ := slot_flush_owed hdr device handle
  refine ⟨more, hslot, ?_⟩
  by_cases hwrap : slot device handle = .owed (2 ^ 32 - 1)
  · have hnew : slot (sensor_device_flush_locked hdr device handle) handle = .owed more := by
      rw [hslot, Function.update_self]
    have hlt := (sensor_device_flush_locked hdr device handle).m_flush_count handle |>.isLt
    have hcount := (slot_eq_owed.mp hnew).2.2
    rw [hwrap, Mailbox.Slot.outstanding]
    omega
  · have hsame := Mailbox.Slot.outstanding_request (slot device handle)
    rw [hrequest hwrap] at hsame
    exact Nat.le_of_eq (Nat.succ.inj hsame)

theorem debt_flush_le (hdr : SensorsHeader) (device : SensorDevice) (handle : Handle) :
    Mailbox.debt (slot (sensor_device_flush_locked hdr device handle)) ≤
      Mailbox.debt (slot device) + 1 := by
  obtain ⟨more, hslot, hmore⟩ := slot_flush_le hdr device handle
  have hdebt := Mailbox.debt_update (slot device) handle (.owed more)
  rw [hslot]
  have howed : (Mailbox.Slot.owed more : Mailbox.Slot Int).outstanding = more + 1 := rfl
  omega

theorem readings_flush_le (hdr : SensorsHeader) (device : SensorDevice) (handle other : Handle) :
    (slot (sensor_device_flush_locked hdr device handle) other).readings ≤
      (slot device other).readings := by
  obtain ⟨more, hslot, _⟩ := slot_flush_owed hdr device handle
  rw [hslot]
  by_cases hs : other = handle
  · subst other
    simp [Mailbox.Slot.readings]
  · rw [Function.update_of_ne hs]

-- A message gives its own slot a reading and takes what was there.
theorem counts_process {message : AicSensorsEvent} {host : Int}
    (h : sensor_device_process_event hdr device message host = .stored next) :
    Mailbox.debt (slot next) ≤ Mailbox.debt (slot device) ∧ ∀ sensor : Sensor,
      (slot next sensor.ID).readings ≤ (slot device sensor.ID).readings +
        if message.type = hdr.SENSOR_TYPE sensor then 1 else 0 := by
  obtain ⟨sensor, hsensor, hslot⟩ := slot_process h
  have hdebt := Mailbox.debt_update (slot device) sensor.ID (.reading message.type)
  have hname := sensor_of_type_eq_some.mp hsensor
  rw [hslot, Mailbox.put]
  refine ⟨by rw [Mailbox.Slot.outstanding_reading] at hdebt; omega, fun other => ?_⟩
  by_cases hs : other = sensor
  · subst other
    rw [Function.update_self, if_pos hname]
    exact Nat.le_add_left _ _
  · have hid : other.ID ≠ sensor.ID := by
      intro hid
      revert hs hid
      cases other <;> cases sensor <;> decide
    rw [Function.update_of_ne hid]
    exact Nat.le_add_right _ _

end Counts

namespace SensorsModule

variable {Tid : Type} [DecidableEq Tid] {x next : SensorsModule Tid} {event : HalEvent Tid}

-- No event is returned that nothing stands behind: the readings of a sensor are at most
-- its messages and the completions at most the flushes, with those still pending.
structure Counted (hdr : SensorsHeader) (x : SensorsModule Tid) : Prop where
  readings : ∀ sensor : Sensor,
    x.hal.history.returned.countP (fun event => IsReading sensor event) +
        (slot x.hal.device sensor.ID).readings ≤
      x.stored.countP fun message => message.type = hdr.SENSOR_TYPE sensor
  completions : x.hal.history.returned.countP (fun event => event.type = SENSOR_TYPE_META_DATA) +
    Mailbox.debt (slot x.hal.device) ≤ x.hal.history.flushed.length

omit [DecidableEq Tid] in
theorem counted_init (hdr : SensorsHeader) (memory : Handle → SensorsEvent)
    (log_trace_count : Int) : (init memory log_trace_count : SensorsModule Tid).Counted hdr := by
  have hempty (handle : Handle) : slot (SensorDevice.init memory log_trace_count) handle = .empty :=
    slot_eq_empty.mpr (by simp [SensorDevice.init])
  constructor
  · intro sensor
    simp [init, Hal.init, hempty, Mailbox.Slot.readings]
  · simp [init, Hal.init, hempty, Mailbox.debt, Mailbox.Slot.outstanding]

-- A poll moves what it returns out of the slots.
theorem counts_poll {device left : SensorDevice} {count : Nat} {ret : Int}
    {events : List SensorsEvent}
    (hpick : sensor_device_poll_pick hdr count device 0 = (events, ret, left)) :
    (∀ sensor : Sensor, events.countP (fun event => IsReading sensor event) +
        (slot left sensor.ID).readings = (slot device sensor.ID).readings) ∧
      events.countP (fun event => event.type = SENSOR_TYPE_META_DATA) +
        Mailbox.debt (slot left) = Mailbox.debt (slot device) := by
  have hgenuine : Genuine (fun _ _ => True) device := fun _ _ _ => trivial
  obtain ⟨⟨seen, hpicks, hshows⟩, _⟩ := poll_pick_shows hpick hgenuine
  refine ⟨fun sensor => ?_, ?_⟩
  · rw [countP_readings hshows]
    exact hpicks.readings sensor.ID
  · rw [countP_completions hshows]
    exact hpicks.debt

theorem Counted.step (h : x.Counted hdr) (hstep : x.step hdr event = some next) :
    next.Counted hdr := by
  rcases step_cases hstep with ⟨thread, count, rfl, hcount, rfl⟩ | ⟨_, hal, hhal, rfl⟩
  · exact ⟨h.readings, h.completions⟩
  · cases Hal.effect_of_step hhal with
    | still hdevice hflushed hreturned hstores hpicking =>
        refine ⟨fun sensor => ?_, ?_⟩
        · rw [hdevice, hreturned, hstores, List.append_nil]
          exact h.readings sensor
        · rw [hdevice, hreturned, hflushed]
          exact h.completions
    | flush handle _ hdevice hflushed hreturned hstores hpicking =>
        refine ⟨fun sensor => ?_, ?_⟩
        · have hle := readings_flush_le hdr x.hal.device handle sensor.ID
          have hbefore := h.readings sensor
          dsimp only
          rw [hdevice, hreturned, hstores, List.append_nil]
          omega
        · have hle := debt_flush_le hdr x.hal.device handle
          have hbefore := h.completions
          dsimp only
          rw [hdevice, hreturned, hflushed, List.length_append, List.length_singleton]
          omega
    | answer count device events ret hpicking hpick hflushed hreturned hstored =>
        obtain ⟨hreadings, hcompletions⟩ := counts_poll hpick
        have hdevice : Mailbox.debt (slot device) ≤ Mailbox.debt (slot x.hal.device) ∧
            ∀ sensor : Sensor, (slot device sensor.ID).readings ≤
              (slot x.hal.device sensor.ID).readings + (x.hal.stores hdr event).countP
                fun message => message.type = hdr.SENSOR_TYPE sensor := by
          rcases hstored with ⟨rfl, hnone⟩ | ⟨thread, count', message, host, _, hprocess, hone⟩
          · exact ⟨Nat.le_refl _, fun sensor => Nat.le_add_right _ _⟩
          · obtain ⟨hdebt, hslots⟩ := counts_process hprocess
            refine ⟨hdebt, fun sensor => ?_⟩
            rw [hone, List.countP_singleton]
            simpa using hslots sensor
        refine ⟨fun sensor => ?_, ?_⟩
        · have hslot := hdevice.2 sensor
          have hpicked := hreadings sensor
          have hbefore := h.readings sensor
          dsimp only
          rw [hreturned, List.countP_append, List.countP_append]
          omega
        · have hdebt := hdevice.1
          have hbefore := h.completions
          dsimp only
          rw [hreturned, hflushed, List.countP_append]
          omega

-- What was stored was taken off the queue before.
structure Traced (x : SensorsModule Tid) : Prop where
  stored : ∀ message ∈ x.stored, message ∈ x.hal.history.taken
  hand : ∀ thread count message, x.hal.polls thread = .taken count message →
    message ∈ x.hal.history.taken
  returns : ∀ answer ∈ x.returns, ∀ message ∈ answer.stored, message ∈ x.hal.history.taken

omit [DecidableEq Tid] in
theorem traced_init (memory : Handle → SensorsEvent) (log_trace_count : Int) :
    (init memory log_trace_count : SensorsModule Tid).Traced where
  stored message hmem := absurd hmem List.not_mem_nil
  hand thread count message hpc := by cases hpc
  returns answer hmem := absurd hmem List.not_mem_nil

omit [DecidableEq Tid] in
theorem Traced.stores (h : x.Traced) {message : AicSensorsEvent}
    (hmem : message ∈ x.hal.stores hdr event) : message ∈ x.hal.history.taken := by
  cases event with
  | process thread host =>
      simp only [Hal.stores] at hmem
      split at hmem
      · rename_i hpc
        split at hmem
        · obtain rfl := List.mem_singleton.mp hmem
          exact h.hand thread _ message hpc
        · cases hmem
      · cases hmem
  | _ => cases hmem

-- The polls of the HAL hold what they took.
theorem traced_hal {hal next : Hal Tid} (hstep : hal.step hdr event = some next)
    (h : ∀ thread count message, hal.polls thread = .taken count message →
      message ∈ hal.history.taken) :
    (∀ message ∈ hal.history.taken, message ∈ next.history.taken) ∧
      ∀ thread count message, next.polls thread = .taken count message →
        message ∈ next.history.taken := by
  have hkeep : ∀ thread pc, (∀ count message, pc ≠ .taken count message) →
      ∀ other count message, Function.update hal.polls thread pc other = .taken count message →
        message ∈ hal.history.taken := by
    intro thread pc hpc other count message htaken
    by_cases hs : other = thread
    · subst other
      rw [Function.update_self] at htaken
      exact absurd htaken (hpc count message)
    · rw [Function.update_of_ne hs] at htaken
      exact h other count message htaken
  have hhead : ∀ (connected : Bool) (waits : Int) (count : Int) (message : AicSensorsEvent),
      (if connected then PollPc.waiting waits else .no_client waits) ≠ .taken count message := by
    intro connected waits count message
    cases connected <;> exact fun htaken => by cases htaken
  cases Hal.moves_of_step hstep with
  | flush handle => exact ⟨fun _ hmem => hmem, h⟩
  | arrive message => exact ⟨fun _ hmem => hmem, h⟩
  | connection connected => exact ⟨fun _ hmem => hmem, h⟩
  | block thread count hpc hnone => exact ⟨fun _ hmem => hmem, hkeep thread _ (hhead _ count)⟩
  | report thread count hpc hsome =>
      exact ⟨fun _ hmem => hmem, hkeep thread _ fun _ _ htaken => by cases htaken⟩
  | wake thread count hpc => exact ⟨fun _ hmem => hmem, hkeep thread _ (hhead _ count)⟩
  | take thread count message queue hpc hqueue =>
      refine ⟨fun _ hmem => List.mem_append_left _ hmem, fun other count' message' htaken => ?_⟩
      by_cases hs : other = thread
      · subst other
        simp only [Function.update_self] at htaken
        cases htaken
        exact List.mem_append_right _ List.mem_cons_self
      · simp only [Function.update_of_ne hs] at htaken
        exact List.mem_append_left _ (h other count' message' htaken)
  | again thread host count message hpc hprocess =>
      exact ⟨fun _ hmem => hmem, hkeep thread _ (hhead _ count)⟩
  | store thread host count message device hpc hprocess =>
      exact ⟨fun _ hmem => hmem, hkeep thread _ fun _ _ htaken => by cases htaken⟩

theorem Traced.step (h : x.Traced) (hstep : x.step hdr event = some next) : next.Traced := by
  rcases step_cases hstep with ⟨thread, count, rfl, hcount, rfl⟩ | ⟨_, hal, hhal, rfl⟩
  · refine { h with returns := fun answer hmem message hstored => ?_ }
    rcases List.mem_append.mp hmem with hold | hnew
    · exact h.returns answer hold message hstored
    · rw [List.mem_singleton.mp hnew] at hstored
      exact h.stored message hstored
  · obtain ⟨hkeep, hhand⟩ := traced_hal hhal h.hand
    have hstored : ∀ message ∈ x.stored ++ x.hal.stores hdr event,
        message ∈ x.hal.history.taken := by
      intro message hmem
      rcases List.mem_append.mp hmem with hold | hnew
      · exact h.stored message hold
      · exact h.stores hnew
    refine ⟨fun message hmem => hkeep _ (hstored message hmem), hhand,
      fun answer hmem message hin => hkeep _ ?_⟩
    rcases List.mem_append.mp hmem with hold | hnew
    · exact h.returns answer hold message hin
    · obtain ⟨⟨count, device⟩, _, rfl⟩ := Option.map_eq_some_iff.mp (Option.mem_toList.mp hnew)
      exact hstored message hin

-- In every run, whatever the counts, the clients and the order of the calls: a poll that
-- asks for events returns some, and at most as many as it asked for; what it returns is
-- the completion of a flush, one that was written over, or the last values of a sensor;
-- and there are no more readings than messages, nor completions, whole or not, than
-- flushes.
theorem reports_faithful (hdr : SensorsHeader) (memory : Handle → SensorsEvent)
    (log_trace_count : Int) (events : List (HalEvent Tid)) (x : SensorsModule Tid)
    (hrun : Machine.run (step hdr) (init memory log_trace_count) events = some x) :
    (∀ answer ∈ x.returns, answer.Faithful hdr) ∧
      x.hal.history.returned = (x.returns.map PollReturn.events).flatten ∧
      (∀ sensor : Sensor, x.hal.history.returned.countP (fun event => IsReading sensor event) ≤
        x.stored.countP fun message => message.type = hdr.SENSOR_TYPE sensor) ∧
      x.hal.history.returned.countP (fun event => event.type = SENSOR_TYPE_META_DATA) ≤
        x.hal.history.flushed.length := by
  have hsound : x.Sound hdr := Machine.invariant_always (fun _ _ _ hs hstep => hs.step hstep)
    (sound_init hdr memory log_trace_count) hrun
  have hcounted : x.Counted hdr := Machine.invariant_always (fun _ _ _ hc hstep => hc.step hstep)
    (counted_init hdr memory log_trace_count) hrun
  refine ⟨hsound.returns, hsound.returned, fun sensor => ?_, ?_⟩
  · exact Nat.le_trans (Nat.le_add_right _ _) (hcounted.readings sensor)
  · exact Nat.le_trans (Nat.le_add_right _ _) hcounted.completions

-- A light message comes while a poll waits. A poll that asks for nothing is refused, and
-- a flush behind the first poll is completed by the second one.
def light_and_flush : List (HalEvent Unit) :=
  [.connection true, .poll () 0, .poll () 4, .arrive ⟨5, 1, 1000, fun _ => 7⟩, .take (),
    .process () 2000, .flush (Sensor.ID .LIGHT), .poll () 4]

theorem reports_faithful_light : ∃ x : SensorsModule Unit,
    Machine.run (step android_header) (init (fun _ => default) 50) light_and_flush = some x ∧
      x.returns.map (fun answer => (answer.ret, answer.events.map (·.type))) =
        [(-EINVAL, []), (1, [5]), (1, [0])] ∧
      ∀ answer ∈ x.returns, answer.Faithful android_header := by
  obtain ⟨x, hrun, hreturns⟩ : ∃ x : SensorsModule Unit,
      Machine.run (step android_header) (init (fun _ => default) 50) light_and_flush = some x ∧
        x.returns.map (fun answer => (answer.ret, answer.events.map (·.type))) =
          [(-EINVAL, []), (1, [5]), (1, [0])] :=
    Option.map_eq_some_iff.mp (by decide +kernel)
  exact ⟨x, hrun, hreturns, (reports_faithful android_header _ 50 _ x hrun).1⟩

end SensorsModule

end SensorVhal
