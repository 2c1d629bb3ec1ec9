import SensorVhal.Lib.Mailbox
import SensorVhal.Sensors.Poll

namespace SensorVhal

-- The slot of a handle as the poll sees it: the pending bit, the type in
-- m_sensors and the flush counter together.
def slot (device : SensorDevice) (handle : Handle) : Mailbox.Slot Int :=
  if device.m_pending_sensors.getLsbD handle then
    if (device.m_sensors handle).type = SENSOR_TYPE_META_DATA then
      .owed (device.m_flush_count handle).toNat
    else .reading (device.m_sensors handle).type
  else .empty

theorem slot_eq_empty {device : SensorDevice} {handle : Handle} :
    slot device handle = .empty ↔ device.m_pending_sensors.getLsbD handle = false := by
  by_cases hbit : device.m_pending_sensors.getLsbD handle = true <;>
    by_cases htype : (device.m_sensors handle).type = SENSOR_TYPE_META_DATA <;>
    simp [slot, hbit, htype]

theorem slot_eq_owed {device : SensorDevice} {handle : Handle} {more : Nat} :
    slot device handle = .owed more ↔ device.m_pending_sensors.getLsbD handle = true ∧
      (device.m_sensors handle).type = SENSOR_TYPE_META_DATA ∧
      (device.m_flush_count handle).toNat = more := by
  by_cases hbit : device.m_pending_sensors.getLsbD handle = true <;>
    by_cases htype : (device.m_sensors handle).type = SENSOR_TYPE_META_DATA <;>
    simp [slot, hbit, htype]

theorem slot_eq_reading {device : SensorDevice} {handle : Handle} {type : Int} :
    slot device handle = .reading type ↔ device.m_pending_sensors.getLsbD handle = true ∧
      (device.m_sensors handle).type = type ∧ type ≠ SENSOR_TYPE_META_DATA := by
  unfold slot
  split_ifs with hbit htype
  · simp only [hbit, true_and, false_iff, not_and]
    rintro rfl hne
    exact hne htype
  · simp only [Mailbox.Slot.reading.injEq, hbit, true_and]
    constructor
    · rintro rfl
      exact ⟨rfl, htype⟩
    · exact fun h => h.1
  · simp [hbit]

-- Slots depend only on the pending bit, the counter and the type of their handle.
theorem slot_congr {device other : SensorDevice} {handle : Handle}
    (hbit : device.m_pending_sensors.getLsbD handle = other.m_pending_sensors.getLsbD handle)
    (hcount : device.m_flush_count handle = other.m_flush_count handle)
    (htype : (device.m_sensors handle).type = (other.m_sensors handle).type) :
    slot device handle = slot other handle := by
  simp only [slot, hbit, hcount, htype]

@[simp] theorem getLsbD_bit (handle other : Handle) :
    (bit handle).getLsbD other = decide (other = handle) := by
  rw [bit, Mask.getLsbD_bit (by omega)]
  simp [Fin.ext_iff]

theorem getLsbD_set (mask : BitVec 32) (handle other : Handle) :
    (mask ||| bit handle).getLsbD other = (mask.getLsbD other || decide (other = handle)) := by
  rw [bit, Mask.getLsbD_set mask handle.val (by omega)]
  simp [Fin.ext_iff]

theorem getLsbD_clear (mask : BitVec 32) (handle other : Handle) :
    (mask &&& ~~~(bit handle)).getLsbD other =
      (mask.getLsbD other && !decide (other = handle)) := by
  rw [bit, Mask.getLsbD_clear mask handle.val (by omega)]
  simp [Fin.ext_iff]

theorem and_bit_ne_zero {mask : BitVec 32} {handle : Handle} :
    mask &&& bit handle ≠ 0 ↔ mask.getLsbD handle = true :=
  Mask.and_bit_ne_zero mask (by omega)

theorem getLsbD_supported (handle : Handle) : SUPPORTED_SENSORS.getLsbD handle = true := by
  revert handle
  decide

theorem sensor_type_ne_meta_data (hdr : SensorsHeader) (sensor : Sensor) :
    hdr.SENSOR_TYPE sensor ≠ SENSOR_TYPE_META_DATA :=
  (hdr.type_pos sensor).ne'

variable {hdr : SensorsHeader}

section Flush

@[simp] theorem sensor_device_flush_handle (device : SensorDevice) (handle : Handle) :
    sensor_device_flush hdr device handle.val =
      some (sensor_device_flush_locked hdr device handle) := by
  have hrange : 0 ≤ (handle.val : Int) ∧ (handle.val : Int) < 9 := by omega
  rw [sensor_device_flush, dif_pos hrange]
  simp

theorem flush_of_owed {device : SensorDevice} {handle : Handle} {more : Nat}
    (h : slot device handle = .owed more) :
    sensor_device_flush_locked hdr device handle =
      { device with
        m_flush_count := Function.update device.m_flush_count handle
          (device.m_flush_count handle + 1) } := by
  obtain ⟨hbit, htype, _⟩ := slot_eq_owed.mp h
  exact if_pos ⟨and_bit_ne_zero.mpr hbit, htype⟩

theorem flush_of_not_owed {device : SensorDevice} {handle : Handle}
    (h : ∀ more, slot device handle ≠ .owed more) :
    sensor_device_flush_locked hdr device handle =
      { device with
        m_flush_count := Function.update device.m_flush_count handle 0
        m_sensors := Function.update device.m_sensors handle
          (flush_complete hdr handle (device.m_sensors handle))
        m_pending_sensors := device.m_pending_sensors ||| bit handle } := by
  refine if_neg fun hpending => h _ (slot_eq_owed.mpr ⟨?_, hpending.2, rfl⟩)
  exact and_bit_ne_zero.mp hpending.1

-- A flush leaves completions in the slot of its handle, whatever was there.
theorem slot_flush_owed (hdr : SensorsHeader) (device : SensorDevice) (handle : Handle) :
    ∃ more, slot (sensor_device_flush_locked hdr device handle) =
        Function.update (slot device) handle (.owed more) ∧
      (slot device handle ≠ .owed (2 ^ 32 - 1) →
        (slot device handle).request = .owed more) := by
  by_cases howed : ∃ more, slot device handle = .owed more
  · obtain ⟨more, hslot⟩ := howed
    rw [flush_of_owed hslot]
    obtain ⟨hbit, htype, hcount⟩ := slot_eq_owed.mp hslot
    refine ⟨(device.m_flush_count handle + 1).toNat, funext fun other => ?_, fun hwrap => ?_⟩
    · by_cases hs : other = handle
      · subst other
        rw [Function.update_self]
        exact slot_eq_owed.mpr ⟨hbit, htype, by simp⟩
      · rw [Function.update_of_ne hs]
        exact slot_congr rfl (Function.update_of_ne hs _ _) rfl
    · have hlt := (device.m_flush_count handle).isLt
      have hne : more ≠ 2 ^ 32 - 1 := fun he => hwrap (he ▸ hslot)
      have hnext : (device.m_flush_count handle + 1).toNat = more + 1 := by
        rw [BitVec.toNat_add, hcount]
        exact Nat.mod_eq_of_lt (show more + 1 < 2 ^ 32 by omega)
      rw [hslot, hnext]
      rfl
  · have hslot := not_exists.mp howed
    rw [flush_of_not_owed hslot]
    refine ⟨0, funext fun other => ?_, fun _ => ?_⟩
    · by_cases hs : other = handle
      · subst other
        rw [Function.update_self]
        exact slot_eq_owed.mpr ⟨by simp, by simp [flush_complete], by simp⟩
      · rw [Function.update_of_ne hs]
        exact slot_congr (by simp [hs]) (by simp [hs]) (by simp [hs])
    · cases hold : slot device handle with
      | owed more => exact absurd hold (hslot more)
      | _ => rfl

-- On the slots a flush is a request, as long as the counter does not wrap.
theorem slot_flush {device : SensorDevice} {handle : Handle}
    (hwrap : slot device handle ≠ .owed (2 ^ 32 - 1)) :
    slot (sensor_device_flush_locked hdr device handle) =
      Mailbox.request (slot device) handle := by
  obtain ⟨more, hslot, hrequest⟩ := slot_flush_owed hdr device handle
  rw [hslot, Mailbox.request, hrequest hwrap]

-- A flush leaves the rest of the device.
theorem flush_frame (hdr : SensorsHeader) (device : SensorDevice) (handle : Handle) :
    ∃ pending flush_count sensors, sensor_device_flush_locked hdr device handle =
      { device with
        m_pending_sensors := pending, m_flush_count := flush_count, m_sensors := sensors } := by
  unfold sensor_device_flush_locked
  split
  · exact ⟨_, _, _, rfl⟩
  · exact ⟨_, _, _, rfl⟩

end Flush

section Pick

theorem highest_slot {device : SensorDevice} {i : Handle}
    (hmask : SUPPORTED_SENSORS &&& device.m_pending_sensors ≠ 0)
    (hi : i.val = Mask.highest (SUPPORTED_SENSORS &&& device.m_pending_sensors)) :
    device.m_pending_sensors.getLsbD i = true ∧
      ∀ other, i < other → slot device other = .empty := by
  constructor
  · have hb := Mask.getLsbD_highest hmask
    rw [← hi, BitVec.getLsbD_and, Bool.and_eq_true] at hb
    exact hb.2
  · intro other hlt
    have hb : (SUPPORTED_SENSORS &&& device.m_pending_sensors).getLsbD other = false :=
      Mask.getLsbD_of_highest_lt (hi ▸ hlt)
    rw [BitVec.getLsbD_and, getLsbD_supported, Bool.true_and] at hb
    exact slot_eq_empty.mpr hb

-- The three things that a pick can do, all with the highest pending handle.
theorem pick_cases {device next : SensorDevice} {i : Handle} {event : SensorsEvent}
    (h : sensor_device_pick_pending_event_locked hdr device = .ok (i, event, next)) :
    (∀ other, i < other → slot device other = .empty) ∧
    ((∃ more, slot device i = .owed (more + 1) ∧ event = device.m_sensors i ∧
        next = { device with
          m_pending_sensors := (device.m_pending_sensors &&& ~~~(bit i)) ||| bit i
          m_flush_count := Function.update device.m_flush_count i
            (device.m_flush_count i - 1) }) ∨
      (slot device i = .owed 0 ∧ event = device.m_sensors i ∧
        next = { device with
          m_pending_sensors := device.m_pending_sensors &&& ~~~(bit i)
          m_sensors := Function.update device.m_sensors i
            { device.m_sensors i with type := SENSOR_TYPE_META_DATA + 1 } }) ∨
      (∃ type, slot device i = .reading type ∧
        event = { device.m_sensors i with
          sensor := i.val, version := hdr.sizeof_sensors_event_t } ∧
        next = { device with
          m_pending_sensors := device.m_pending_sensors &&& ~~~(bit i) })) := by
  unfold sensor_device_pick_pending_event_locked at h
  dsimp only at h
  split_ifs at h with hmask htype hcount <;>
    simp only [Except.ok.injEq, Prod.mk.injEq] at h <;> obtain ⟨rfl, rfl, rfl⟩ := h
  all_goals
    obtain ⟨hbit, htop⟩ := highest_slot (i := ⟨_, highest_supported_lt _⟩) hmask rfl
    refine ⟨htop, ?_⟩
  · left
    have hpos := BitVec.lt_def.mp hcount
    exact ⟨_, slot_eq_owed.mpr ⟨hbit, htype, (Nat.succ_pred_eq_of_pos hpos).symm⟩, rfl, rfl⟩
  · right; left
    have hzero := Nat.eq_zero_of_not_pos fun hpos => hcount (BitVec.lt_def.mpr hpos)
    exact ⟨slot_eq_owed.mpr ⟨hbit, htype, hzero⟩, rfl, rfl⟩
  · right; right
    exact ⟨_, slot_eq_reading.mpr ⟨hbit, rfl, htype⟩, rfl, rfl⟩

theorem pick_error {device : SensorDevice} {ret : Int}
    (h : sensor_device_pick_pending_event_locked hdr device = .error ret) (handle : Handle) :
    device.m_pending_sensors.getLsbD handle = false := by
  unfold sensor_device_pick_pending_event_locked at h
  dsimp only at h
  split_ifs at h with hmask
  have hb : (SUPPORTED_SENSORS &&& device.m_pending_sensors).getLsbD handle = false := by
    rw [not_not.mp hmask]
    exact BitVec.getLsbD_zero
  rwa [BitVec.getLsbD_and, getLsbD_supported, Bool.true_and] at hb

-- On the slots a pick takes the next event of the highest slot that has one.
theorem slot_pick {device next : SensorDevice} {i : Handle} {event : SensorsEvent}
    (h : sensor_device_pick_pending_event_locked hdr device = .ok (i, event, next)) :
    slot next = Function.update (slot device) i (slot device i).rest := by
  funext other
  obtain ⟨_, ⟨more, hslot, -, rfl⟩ | ⟨hslot, -, rfl⟩ | ⟨type, hslot, -, rfl⟩⟩ := pick_cases h
  · by_cases hs : other = i
    · subst other
      obtain ⟨_, htype, hcount⟩ := slot_eq_owed.mp hslot
      have hlt := (device.m_flush_count i).isLt
      have hnext : (device.m_flush_count i - 1).toNat = more := by
        rw [BitVec.toNat_sub_of_le (by simp [BitVec.le_def]; omega), hcount]
        rfl
      rw [Function.update_self, hslot]
      exact slot_eq_owed.mpr ⟨by simp, htype, by simpa using hnext⟩
    · rw [Function.update_of_ne hs]
      exact slot_congr (by rw [getLsbD_set, getLsbD_clear]; simp [hs]) (by simp [hs]) rfl
  all_goals
    by_cases hs : other = i
    · subst other
      rw [Function.update_self, hslot]
      exact slot_eq_empty.mpr (by simp)
    · rw [Function.update_of_ne hs]
      exact slot_congr (by rw [getLsbD_clear]; simp [hs]) rfl (by simp [hs])

-- An event that a poll returned shows the event of the slots that it stands
-- for. `genuine` is what is asked of a completion besides its type.
def Shows (genuine : Handle → SensorsEvent → Prop) (event : SensorsEvent) :
    Mailbox.Event Handle Int → Prop
  | .acknowledged handle => event.type = SENSOR_TYPE_META_DATA ∧ genuine handle event
  | .delivered handle type =>
    event.type = type ∧ type ≠ SENSOR_TYPE_META_DATA ∧ event.sensor = handle.val

-- Every pending completion in m_sensors is what `genuine` asks for.
def Genuine (genuine : Handle → SensorsEvent → Prop) (device : SensorDevice) : Prop :=
  ∀ handle more, slot device handle = .owed more → genuine handle (device.m_sensors handle)

theorem pick_shows {genuine : Handle → SensorsEvent → Prop} {device next : SensorDevice}
    {i : Handle} {event : SensorsEvent}
    (h : sensor_device_pick_pending_event_locked hdr device = .ok (i, event, next))
    (hg : Genuine genuine device) :
    (∃ seen, Mailbox.Pick (slot device) seen (slot next) ∧ Shows genuine event seen) ∧
      Genuine genuine next := by
  have hnext := slot_pick h
  have hkeep : ∀ handle more, slot next handle = .owed more →
      next.m_sensors handle = device.m_sensors handle ∧
        ∃ more, slot device handle = .owed more := by
    intro handle more howed
    obtain ⟨_, ⟨more, hslot, -, rfl⟩ | ⟨hslot, -, rfl⟩ | ⟨type, hslot, -, rfl⟩⟩ := pick_cases h <;>
      by_cases hs : handle = i <;> simp_all [Mailbox.Slot.rest]
  constructor
  · rw [hnext]
    obtain ⟨htop, ⟨more, hslot, rfl, -⟩ | ⟨hslot, rfl, -⟩ | ⟨type, hslot, rfl, -⟩⟩ := pick_cases h
    · exact ⟨_, .acknowledge i _ hslot htop, (slot_eq_owed.mp hslot).2.1, hg i _ hslot⟩
    · exact ⟨_, .acknowledge i _ hslot htop, (slot_eq_owed.mp hslot).2.1, hg i _ hslot⟩
    · obtain ⟨_, htype, hne⟩ := slot_eq_reading.mp hslot
      exact ⟨_, .deliver i type hslot htop, htype, hne, rfl⟩
  · intro handle more howed
    obtain ⟨hsame, more, hold⟩ := hkeep handle more howed
    exact hsame ▸ hg handle more hold

-- The picking loop of a poll takes events from the slots one after the other.
theorem poll_pick_shows {genuine : Handle → SensorsEvent → Prop} {count : Nat}
    {device next : SensorDevice} {result ret : Int} {events : List SensorsEvent}
    (h : sensor_device_poll_pick hdr count device result = (events, ret, next))
    (hg : Genuine genuine device) :
    (∃ seen, Mailbox.Picks (slot device) seen (slot next) ∧
      List.Forall₂ (Shows genuine) events seen) ∧ Genuine genuine next := by
  induction count generalizing device result events ret next with
  | zero =>
      obtain ⟨rfl, -, rfl⟩ := h
      exact ⟨⟨[], .nil _, .nil⟩, hg⟩
  | succ count ih =>
      unfold sensor_device_poll_pick at h
      split at h
      · obtain ⟨rfl, -, rfl⟩ := h
        exact ⟨⟨[], .nil _, .nil⟩, hg⟩
      · split at h
        · obtain ⟨rfl, -, rfl⟩ := h
          exact ⟨⟨[], .nil _, .nil⟩, hg⟩
        · rename_i i event middle hpick
          obtain ⟨rfl, -, rfl⟩ := h
          obtain ⟨⟨seen, hp, hs⟩, hm⟩ := pick_shows hpick hg
          obtain ⟨⟨rest, hps, hss⟩, hl⟩ := ih rfl hm
          exact ⟨⟨seen :: rest, .cons hp hps, .cons hs hss⟩, hl⟩

-- The loop stops early only when the slots have nothing more.
theorem poll_pick_length {count : Nat} {device next : SensorDevice} {result ret : Int}
    {events : List SensorsEvent}
    (h : sensor_device_poll_pick hdr count device result = (events, ret, next)) :
    events.length = count ∨ ∀ handle, slot next handle = .empty := by
  induction count generalizing device result events ret next with
  | zero =>
      obtain ⟨rfl, -, -⟩ := h
      exact .inl rfl
  | succ count ih =>
      unfold sensor_device_poll_pick at h
      split at h
      · rename_i hnone
        obtain ⟨-, -, rfl⟩ := h
        right
        intro handle
        rw [slot_eq_empty, hnone]
        exact BitVec.getLsbD_zero
      · split at h
        · rename_i ret' hpick
          obtain ⟨-, -, rfl⟩ := h
          right
          intro handle
          exact slot_eq_empty.mpr (pick_error hpick handle)
        · obtain ⟨rfl, -, rfl⟩ := h
          rcases ih rfl with hlength | hempty
          · exact .inl (congrArg Nat.succ hlength)
          · exact .inr hempty

-- So do the picks of a poll.
theorem poll_pick_frame (hdr : SensorsHeader) (count : Nat) (device : SensorDevice)
    (result : Int) :
    ∃ pending flush_count sensors, (sensor_device_poll_pick hdr count device result).2.2 =
      { device with
        m_pending_sensors := pending, m_flush_count := flush_count, m_sensors := sensors } := by
  induction count generalizing device result with
  | zero => exact ⟨_, _, _, rfl⟩
  | succ count ih =>
      unfold sensor_device_poll_pick
      split
      · exact ⟨_, _, _, rfl⟩
      · split
        · exact ⟨_, _, _, rfl⟩
        · rename_i i event next hpick
          obtain ⟨pending, flush_count, sensors, hrest⟩ := ih next (result + 1)
          refine ⟨pending, flush_count, sensors, hrest.trans ?_⟩
          obtain ⟨_, ⟨_, _, _, rfl⟩ | ⟨_, _, rfl⟩ | ⟨_, _, _, rfl⟩⟩ := pick_cases hpick
          · rfl
          · rfl
          · rfl

end Pick

section Store

theorem highest_bit (handle : Handle) : Mask.highest (bit handle) = handle := by
  revert handle
  decide

-- new_sensors has one bit, so one turn of its loop stamps one slot.
theorem stamp_sensors_bit (timestamp : Int) (handle : Handle) (events : Handle → SensorsEvent) :
    stamp_sensors timestamp 32 (bit handle) events =
      Function.update events handle { events handle with timestamp := timestamp } := by
  have hne : bit handle ≠ 0 := by
    revert handle
    decide
  have hrest : bit handle &&& ~~~(1#32 <<< handle.val) = 0 := by
    revert handle
    decide
  rw [stamp_sensors, if_neg hne]
  simp only [highest_bit, hrest]
  rw [dif_pos handle.isLt, stamp_sensors, if_pos rfl]

-- The slot that the payload of a sensor is written to. The uncalibrated
-- magnetic field sensor writes over the data of the calibrated one.
def Sensor.dataID : Sensor → Handle
  | MAGNETIC_FIELD_UNCALIBRATED => ID MAGNETIC_FIELD
  | sensor => sensor.ID

theorem store_sensor_event_eq {sensor : Sensor} {message : AicSensorsEvent}
    (h : sensor_of_type hdr message.type = some sensor) (events : Handle → SensorsEvent) :
    store_sensor_event hdr sensor message events =
      store_event sensor.dataID sensor.ID sensor.words (hdr.SENSOR_TYPE sensor) message events := by
  have hwords : get_payload_len hdr message.type / 4 = sensor.words := by
    rw [get_payload_len_of_sensor h, Nat.mul_div_cancel_left _ (by decide)]
  cases sensor <;> simp only [store_sensor_event, hwords] <;> rfl

theorem store_event_type (dataId id : Handle) (words : Nat) (sensor_type : Int)
    (message : AicSensorsEvent) (events : Handle → SensorsEvent) (handle : Handle) :
    (store_event dataId id words sensor_type message events handle).type =
      if handle = id then sensor_type else (events handle).type := by
  by_cases hid : handle = id
  · simp [store_event, hid]
  · by_cases hdata : handle = dataId
    · subst handle
      simp [store_event, hid]
    · simp [store_event, hid, hdata]

theorem store_event_data (dataId id : Handle) (words : Nat) (sensor_type : Int)
    (message : AicSensorsEvent) (events : Handle → SensorsEvent) (handle : Handle) :
    (store_event dataId id words sensor_type message events handle).data =
      if handle = dataId then copy_words words message.fdata (events handle).data
      else (events handle).data := by
  by_cases hid : handle = id
  · subst handle
    by_cases hdata : id = dataId
    · subst id
      simp [store_event]
    · simp [store_event, hdata]
  · by_cases hdata : handle = dataId
    · subst handle
      simp [store_event, hid]
    · simp [store_event, hid, hdata]

theorem process_cases {device next : SensorDevice} {message : AicSensorsEvent} {host : Int}
    (h : sensor_device_process_event hdr device message host = .stored next) :
    ∃ sensor timestamp, sensor_of_type hdr message.type = some sensor ∧
      next.m_flush_count = device.m_flush_count ∧
      next.m_pending_sensors = device.m_pending_sensors ||| bit sensor.ID ∧
      ∃ events, events = store_event sensor.dataID sensor.ID sensor.words
          (hdr.SENSOR_TYPE sensor) message device.m_sensors ∧
        next.m_sensors = Function.update events sensor.ID
          { events sensor.ID with timestamp := timestamp } := by
  unfold sensor_device_process_event at h
  split at h
  · cases h
  · rename_i sensor hsensor
    dsimp only at h
    split at h
    · cases h
    · obtain rfl := (Processed.stored.inj h).symm
      exact ⟨sensor, _, hsensor, rfl, rfl, _, rfl, by
        rw [stamp_sensors_bit, store_sensor_event_eq hsensor]⟩

-- A poll tries again after a message of another type.
theorem process_again {device : SensorDevice} {message : AicSensorsEvent} {host : Int}
    (h : sensor_device_process_event hdr device message host = .again) :
    sensor_of_type hdr message.type = none := by
  cases hsensor : sensor_of_type hdr message.type with
  | none => rfl
  | some sensor =>
      simp only [sensor_device_process_event, hsensor] at h
      split at h <;> cases h

-- On the slots a stored message is put over whatever its slot holds.
theorem slot_process {device next : SensorDevice} {message : AicSensorsEvent} {host : Int}
    (h : sensor_device_process_event hdr device message host = .stored next) :
    ∃ sensor, sensor_of_type hdr message.type = some sensor ∧
      slot next = Mailbox.put (slot device) sensor.ID message.type := by
  obtain ⟨sensor, timestamp, hsensor, hcount, hpending, events, rfl, hevents⟩ := process_cases h
  have htype := sensor_of_type_eq_some.mp hsensor
  refine ⟨sensor, hsensor, funext fun handle => ?_⟩
  by_cases hs : handle = sensor.ID
  · rw [hs, Mailbox.put, Function.update_self]
    refine slot_eq_reading.mpr ⟨?_, ?_, htype ▸ sensor_type_ne_meta_data hdr sensor⟩
    · rw [hpending, getLsbD_set]
      simp
    · rw [hevents, Function.update_self, store_event_type, if_pos rfl, htype]
  · rw [Mailbox.put, Function.update_of_ne hs]
    refine slot_congr ?_ (congrFun hcount handle) ?_
    · rw [hpending, getLsbD_set]
      simp [hs]
    · rw [hevents, Function.update_of_ne hs, store_event_type, if_neg hs]

end Store

end SensorVhal
