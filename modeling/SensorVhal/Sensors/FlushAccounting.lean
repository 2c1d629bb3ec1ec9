import SensorVhal.Sensors.Interleaving

namespace SensorVhal

variable (hdr : SensorsHeader)

-- A META_DATA_FLUSH_COMPLETE event with meta_data.sensor = handle.
def completes (handle : Handle) (event : SensorsEvent) : Prop :=
  event.type = SENSOR_TYPE_META_DATA ∧ event.metaWhat = hdr.META_DATA_FLUSH_COMPLETE ∧
    event.metaSensor = handle_word handle

instance (handle : Handle) : DecidablePred (completes hdr handle) := fun _ =>
  inferInstanceAs (Decidable (_ ∧ _ ∧ _))

def outstanding (device : SensorDevice) (handle : Handle) : Nat :=
  if device.m_pending_sensors.getLsbD handle ∧
      (device.m_sensors handle).type = SENSOR_TYPE_META_DATA then
    (device.m_flush_count handle).toNat + 1
  else 0

variable {Tid : Type}

-- Every flush so far has been completed or is outstanding.
def FlushesAccounted (hal : Hal Tid) : Prop :=
  ∀ handle, hal.history.returned.countP (fun event => completes hdr handle event) +
    outstanding hal.device handle = hal.history.flushed.count handle

-- A flush does not wrap the counter of its handle. A message is stored in a
-- slot with no completion outstanding, and one of the uncalibrated magnetic
-- field does not change the completion in the slot of the calibrated one.
def KeepsFlushes (hal : Hal Tid) : HalEvent Tid → Prop
  | .flush handle => outstanding hal.device handle ≠ 2 ^ 32
  | .process thread _ => ∀ count message sensor, hal.polls thread = .taken count message →
      sensor_of_type hdr message.type = some sensor →
      outstanding hal.device sensor.ID = 0 ∧
        (sensor = .MAGNETIC_FIELD_UNCALIBRATED →
          outstanding hal.device (Sensor.ID .MAGNETIC_FIELD) = 0 ∨
            message.fdata 0 = hdr.META_DATA_FLUSH_COMPLETE ∧
              message.fdata 1 = handle_word (Sensor.ID .MAGNETIC_FIELD))
  | _ => True

variable {hdr}

theorem outstanding_eq_slot (device : SensorDevice) (handle : Handle) :
    outstanding device handle = (slot device handle).outstanding := by
  by_cases hbit : device.m_pending_sensors.getLsbD handle = true <;>
    by_cases htype : (device.m_sensors handle).type = SENSOR_TYPE_META_DATA <;>
    simp [outstanding, slot, hbit, htype, Mailbox.Slot.outstanding]

def genuine (hdr : SensorsHeader) (handle : Handle) (event : SensorsEvent) : Prop :=
  event.metaWhat = hdr.META_DATA_FLUSH_COMPLETE ∧ event.metaSensor = handle_word handle

theorem handle_word_injective {handle other : Handle}
    (h : handle_word handle = handle_word other) : handle = other := by
  revert handle other
  decide

-- Among genuine events the completions of a handle are its acknowledgements.
theorem countP_completes {events : List SensorsEvent} {seen : List (Mailbox.Event Handle Int)}
    (h : List.Forall₂ (Shows (genuine hdr)) events seen) (handle : Handle) :
    events.countP (fun event => completes hdr handle event) =
      seen.count (.acknowledged handle) := by
  induction h with
  | nil => rfl
  | @cons event seen events rest hshows _ ih =>
      rw [List.countP_cons, List.count_cons, ih]
      congr 1
      cases seen with
      | acknowledged other =>
          obtain ⟨htype, hwhat, hsensor⟩ := hshows
          by_cases hs : other = handle
          · subst other
            simp [completes, htype, hwhat, hsensor]
          · have hne : handle_word other ≠ handle_word handle :=
              fun he => hs (handle_word_injective he)
            simp [completes, hsensor, hne, hs]
      | delivered other type =>
          obtain ⟨htype, hne, _⟩ := hshows
          simp [completes, htype, hne]

theorem genuine_flush {device : SensorDevice} (handle : Handle)
    (h : Genuine (genuine hdr) device) :
    Genuine (genuine hdr) (sensor_device_flush_locked hdr device handle) := by
  intro other more howed
  by_cases hold : ∃ more, slot device handle = .owed more
  · obtain ⟨more', hslot⟩ := hold
    rw [flush_of_owed hslot] at howed ⊢
    obtain ⟨hbit, htype, _⟩ := slot_eq_owed.mp howed
    exact h other _ (slot_eq_owed.mpr ⟨hbit, htype, rfl⟩)
  · rw [flush_of_not_owed (not_exists.mp hold)] at howed ⊢
    by_cases hs : other = handle
    · subst other
      simp [genuine, flush_complete, SensorsEvent.metaWhat, SensorsEvent.metaSensor]
    · have hsame : slot device other = .owed more := by
        rw [← howed]
        exact slot_congr (by rw [getLsbD_set]; simp [hs]) (by simp [hs]) (by simp [hs])
      simpa [hs] using h other more hsame

theorem genuine_process {device next : SensorDevice} {message : AicSensorsEvent} {host : Int}
    {sensor : Sensor} (hsensor : sensor_of_type hdr message.type = some sensor)
    (hprocess : sensor_device_process_event hdr device message host = .stored next)
    (hmagnetic : sensor = .MAGNETIC_FIELD_UNCALIBRATED →
      outstanding device (Sensor.ID .MAGNETIC_FIELD) = 0 ∨
        message.fdata 0 = hdr.META_DATA_FLUSH_COMPLETE ∧
          message.fdata 1 = handle_word (Sensor.ID .MAGNETIC_FIELD))
    (h : Genuine (genuine hdr) device) : Genuine (genuine hdr) next := by
  intro handle more howed
  obtain ⟨_, hsome, hslot⟩ := slot_process hprocess
  cases hsensor.symm.trans hsome
  obtain ⟨_, timestamp, hsome, _, _, events, hevents, hnext⟩ := process_cases hprocess
  cases hsensor.symm.trans hsome
  have hs : handle ≠ sensor.ID := by
    rintro rfl
    simp [hslot, Mailbox.put] at howed
  have hold : slot device handle = .owed more := by
    rw [← howed, hslot, Mailbox.put, Function.update_of_ne hs]
  have hgenuine := h handle more hold
  have hdata : (next.m_sensors handle).data =
      if handle = sensor.dataID then copy_words sensor.words message.fdata
        (device.m_sensors handle).data else (device.m_sensors handle).data := by
    rw [hnext, Function.update_of_ne hs, hevents, store_event_data]
  by_cases hdataID : handle = sensor.dataID
  · rw [if_pos hdataID] at hdata
    -- only the uncalibrated magnetic field writes outside its own slot
    have hcases : sensor = .MAGNETIC_FIELD_UNCALIBRATED := by
      cases sensor <;> first | rfl | exact absurd hdataID hs
    subst hcases
    obtain rfl : handle = Sensor.ID .MAGNETIC_FIELD := hdataID
    rcases hmagnetic rfl with hzero | ⟨hwhat, hword⟩
    · rw [outstanding_eq_slot, hold] at hzero
      cases hzero
    · simp [genuine, SensorsEvent.metaWhat, SensorsEvent.metaSensor, hdata, copy_words,
        Sensor.words, hwhat, hword]
  · rw [if_neg hdataID] at hdata
    simpa only [genuine, SensorsEvent.metaWhat, SensorsEvent.metaSensor, hdata] using hgenuine

section Accounting

variable [DecidableEq Tid]

def FlushInvariant (hdr : SensorsHeader) (hal : Hal Tid) : Prop :=
  FlushesAccounted hdr hal ∧ Genuine (genuine hdr) hal.device

-- The queue, the client and the waiting polls do not matter.
omit [DecidableEq Tid] in
theorem FlushInvariant.frame {hal next : Hal Tid} (h : FlushInvariant hdr hal)
    (hdevice : next.device = hal.device) (hflushed : next.history.flushed = hal.history.flushed)
    (hreturned : next.history.returned = hal.history.returned) : FlushInvariant hdr next := by
  obtain ⟨haccounted, hgenuine⟩ := h
  refine ⟨fun handle => ?_, by rwa [hdevice]⟩
  rw [hdevice, hflushed, hreturned]
  exact haccounted handle

theorem flushInvariant_poll_return (hal : Hal Tid) {thread : Tid} {count : Int}
    {device : SensorDevice}
    (haccounted : ∀ handle,
      hal.history.returned.countP (fun event => completes hdr handle event) +
        outstanding device handle = hal.history.flushed.count handle)
    (hgenuine : Genuine (genuine hdr) device) :
    FlushInvariant hdr (hal.poll_return hdr thread count device) := by
  obtain ⟨events, ret, hpick, _, hflushed, _, _, hreturned⟩ :=
    Hal.poll_return_spec hdr hal thread count device
  obtain ⟨⟨seen, hpicks, hshows⟩, hnext⟩ := poll_pick_shows hpick hgenuine
  refine ⟨fun handle => ?_, hnext⟩
  have hcount := countP_completes hshows handle
  have hout := hpicks.outstanding handle
  have hbefore := haccounted handle
  rw [outstanding_eq_slot] at hbefore
  rw [hflushed, hreturned, outstanding_eq_slot, List.countP_append, hcount]
  omega

theorem flushInvariant_step {hal next : Hal Tid} {event : HalEvent Tid}
    (h : FlushInvariant hdr hal) (hcond : KeepsFlushes hdr hal event)
    (hstep : hal.step hdr event = some next) : FlushInvariant hdr next := by
  have hold := h
  obtain ⟨haccounted, hgenuine⟩ := h
  cases Hal.moves_of_step hstep with
  | flush handle =>
      refine ⟨fun other => ?_, genuine_flush handle hgenuine⟩
      have hwrap : slot hal.device handle ≠ .owed (2 ^ 32 - 1) := by
        intro howed
        apply hcond
        rw [outstanding_eq_slot, howed, Mailbox.Slot.outstanding]
        omega
      have hbefore := haccounted other
      rw [outstanding_eq_slot] at hbefore
      rw [outstanding_eq_slot, slot_flush hwrap, Mailbox.outstanding_request, List.count_append,
        ← hbefore]
      by_cases hs : other = handle
      · subst other
        simp only [ite_true, List.count_singleton_self]
        omega
      · simp [hs, Ne.symm hs]
  | arrive message => exact hold.frame rfl rfl rfl
  | connection connected => exact hold.frame rfl rfl rfl
  | block thread count hpc hnone => exact hold.frame rfl rfl rfl
  | report thread count hpc hsome => exact flushInvariant_poll_return hal haccounted hgenuine
  | wake thread count hpc => exact hold.frame rfl rfl rfl
  | take thread count message queue hpc hqueue => exact hold.frame rfl rfl rfl
  | again thread host count message hpc hprocess => exact hold.frame rfl rfl rfl
  | store thread host count message device hpc hprocess =>
      obtain ⟨sensor, hsensor, hslot⟩ := slot_process hprocess
      obtain ⟨hfree, hmagnetic⟩ := hcond count message sensor hpc hsensor
      refine flushInvariant_poll_return (hal.lay_down thread) (fun handle => ?_)
        (genuine_process hsensor hprocess hmagnetic hgenuine)
      rw [outstanding_eq_slot] at hfree
      have hbefore := haccounted handle
      rw [outstanding_eq_slot] at hbefore
      rw [outstanding_eq_slot, hslot, Mailbox.outstanding_put _ _ _ _ hfree]
      exact hbefore

omit [DecidableEq Tid] in
theorem flushInvariant_init (memory : Handle → SensorsEvent) (log_trace_count : Int) :
    FlushInvariant hdr (Hal.init memory log_trace_count : Hal Tid) := by
  have hempty (handle : Handle) :
      slot (SensorDevice.init memory log_trace_count) handle = .empty :=
    slot_eq_empty.mpr (by simp [SensorDevice.init])
  constructor
  · intro handle
    rw [outstanding_eq_slot]
    simp [Hal.init, hempty, Mailbox.Slot.outstanding]
  · intro handle more howed
    simp [Hal.init, hempty] at howed

-- In every run whose steps keep the flushes, each flush of a handle has been
-- completed once or is still outstanding, whenever m_mutex is free.
theorem flush_accounting (memory : Handle → SensorsEvent) (log_trace_count : Int)
    (events : List (HalEvent Tid)) (hal : Hal Tid)
    (hcond : Machine.Along (Hal.step hdr) (KeepsFlushes hdr) (Hal.init memory log_trace_count) events)
    (hrun : Machine.run (Hal.step hdr) (Hal.init memory log_trace_count) events = some hal) :
    FlushesAccounted hdr hal :=
  (Machine.invariant (fun _ _ _ => flushInvariant_step)
    (flushInvariant_init memory log_trace_count) hcond hrun).1

end Accounting

theorem flush_accounting_two_flushes :
    ∃ hal : Hal Unit, Machine.run (Hal.step android_header) (Hal.init (fun _ => default) 50)
        [.flush 3, .flush 3, .poll () 1] = some hal ∧
      outstanding hal.device 3 = 1 ∧ FlushesAccounted android_header hal := by
  refine ⟨_, rfl, rfl,
    flush_accounting (fun _ => default) 50 [.flush 3, .flush 3, .poll () 1] _ ?_ rfl⟩
  refine ⟨show outstanding _ 3 ≠ 2 ^ 32 by decide +kernel, fun _ hfirst => ?_⟩
  cases hfirst
  refine ⟨show outstanding _ 3 ≠ 2 ^ 32 by decide +kernel, fun _ hsecond => ?_⟩
  cases hsecond
  exact ⟨trivial, fun _ _ => trivial⟩

-- The poll found nothing pending and waits. The flush of handle 0 comes first
-- and the message of its sensor then takes the slot.
theorem flush_lost_in_wait :
    ¬ ∀ (memory : Handle → SensorsEvent) (log_trace_count : Int) (events : List (HalEvent Unit))
        (hal : Hal Unit),
      Machine.run (Hal.step android_header) (Hal.init memory log_trace_count) events = some hal →
        FlushesAccounted android_header hal := by
  intro h
  have hlost : (Machine.run (Hal.step android_header) (Hal.init (fun _ => default) 50)
      [.connection true, .poll () 1, .flush 0, .arrive ⟨1, 3, 1000, fun _ => 0⟩, .take (),
        .process () 2000]).map (fun hal =>
      (hal.history.returned.countP (fun event => completes android_header 0 event),
        outstanding hal.device 0, hal.history.flushed.count 0)) = some (0, 0, 1) := rfl
  obtain ⟨hal, hrun, hcounts⟩ := Option.map_eq_some_iff.mp hlost
  have haccounted := h _ _ _ hal hrun 0
  simp only [Prod.mk.injEq] at hcounts
  omega

end SensorVhal
