import SensorVhal.Sensors.Interleaving

namespace SensorVhal

variable (hdr : SensorsHeader)

-- The handle and the type of a message of a supported type.
def message_key (message : AicSensorsEvent) : Option (Int × Int) :=
  if (sensor_of_type hdr message.type).isSome then
    some (get_handle_from_type hdr message.type, message.type)
  else none

-- The handle and the type of a data event that a poll returned.
def event_key (event : SensorsEvent) : Option (Int × Int) :=
  if event.type = SENSOR_TYPE_META_DATA then none else some (event.sensor, event.type)

def stored_key (entry : Handle × Int) : Int × Int := (entry.1.val, entry.2)

-- The slot of the handle holds a data event of this type.
def data_pending (device : SensorDevice) (handle : Handle) (type : Int) : Prop :=
  device.m_pending_sensors.getLsbD handle = true ∧
    (device.m_sensors handle).type = type ∧ type ≠ SENSOR_TYPE_META_DATA

-- The number of events that polls still have to return from the slots.
def pending_events (device : SensorDevice) : Nat := Mailbox.total (slot device)

variable {Tid : Type} [DecidableEq Tid]

-- Of the supported messages taken so far, the first ones have been returned,
-- one data event for each, the next one may lie in its slot, and the rest are
-- with the polls that took them.
structure DataAccounts (hal : Hal Tid) (stored : Option (Handle × Int)) : Prop where
  slots : ∀ handle type, data_pending hal.device handle type ↔ stored = some (handle, type)
  taken : hal.history.taken.filterMap (message_key hdr) =
    hal.history.returned.filterMap event_key ++ (stored.map stored_key).toList ++
      (hal.history.hand.map Prod.snd).filterMap (message_key hdr)
  hand : ∀ thread message, (thread, message) ∈ hal.history.hand ↔
    ∃ count, hal.polls thread = .taken count message
  once : (hal.history.hand.map Prod.fst).Nodup

-- What a poll took it can store, and a poll that asks for enough events
-- returns the data event that is stored.
structure DataProgress (hal : Hal Tid) (stored : Option (Handle × Int)) : Prop where
  store : ∀ thread count message host, hal.polls thread = .taken count message →
    (hal.step hdr (.process thread host)).isSome
  report : ∀ thread count, hal.polls thread = .idle → (pending_events hal.device : Int) ≤ count →
    ∃ next, hal.step hdr (.poll thread count) = some next ∧
      next.history.returned.filterMap event_key =
        hal.history.returned.filterMap event_key ++ (stored.map stored_key).toList

def DataDelivered (hal : Hal Tid) : Prop :=
  ∃ stored, DataAccounts hdr hal stored ∧ DataProgress hdr hal stored

-- No flush of a handle whose slot holds a data event. A poll stores its
-- message while no slot holds a data event, and messages are stored in the
-- order in which they were taken.
def KeepsData (hal : Hal Tid) : HalEvent Tid → Prop
  | .flush handle => ∀ type, ¬ data_pending hal.device handle type
  | .process thread _ => ∀ count message, hal.polls thread = .taken count message →
      (sensor_of_type hdr message.type).isSome →
      (∀ handle type, ¬ data_pending hal.device handle type) ∧
        hal.history.hand.find? (fun entry => (sensor_of_type hdr entry.2.type).isSome) =
          some (thread, message)
  | _ => True

variable {hdr}

theorem data_pending_iff_slot {device : SensorDevice} {handle : Handle} {type : Int} :
    data_pending device handle type ↔ slot device handle = .reading type :=
  slot_eq_reading.symm

omit [DecidableEq Tid] in
theorem DataAccounts.holds {hal : Hal Tid} {stored : Option (Handle × Int)}
    (h : DataAccounts hdr hal stored) : Mailbox.Holds (slot hal.device) stored := by
  intro handle type
  rw [← data_pending_iff_slot]
  exact h.slots handle type

theorem message_key_none {message : AicSensorsEvent}
    (h : ¬ (sensor_of_type hdr message.type).isSome) : message_key hdr message = none :=
  if_neg h

theorem message_key_of_sensor {message : AicSensorsEvent} {sensor : Sensor}
    (h : sensor_of_type hdr message.type = some sensor) :
    message_key hdr message = some (stored_key (sensor.ID, message.type)) := by
  have hsome : (sensor_of_type hdr message.type).isSome = true := by rw [h]; rfl
  rw [message_key, if_pos hsome, get_handle_from_type_of_sensor h]
  rfl

-- The data events among what a poll returned are the readings it was given.
theorem event_keys_eq_deliveries {genuine : Handle → SensorsEvent → Prop}
    {events : List SensorsEvent} {seen : List (Mailbox.Event Handle Int)}
    (h : List.Forall₂ (Shows genuine) events seen) :
    events.filterMap event_key = (Mailbox.deliveries seen).map stored_key := by
  induction h with
  | nil => rfl
  | @cons event seen events rest hshows _ ih =>
      cases seen with
      | acknowledged handle =>
          obtain ⟨htype, _⟩ := hshows
          have hkey : event_key event = none := if_pos htype
          rw [List.filterMap_cons_none hkey, ih]
          rfl
      | delivered handle type =>
          obtain ⟨rfl, hne, hsensor⟩ := hshows
          have hkey : event_key event = some (stored_key (handle, event.type)) := by
            rw [event_key, if_neg hne, hsensor]
            rfl
          rw [List.filterMap_cons_some hkey, ih]
          rfl

-- A poll returns readings out of the slots; the one it leaves is still stored.
theorem poll_return_keys (hdr : SensorsHeader) (hal : Hal Tid) (thread : Tid) (count : Int)
    {device : SensorDevice} {stored : Option (Handle × Int)}
    (h : Mailbox.Holds (slot device) stored) :
    ∃ left, Mailbox.Holds (slot (hal.poll_return hdr thread count device).device) left ∧
      (hal.poll_return hdr thread count device).history.returned.filterMap event_key ++
          (left.map stored_key).toList =
        hal.history.returned.filterMap event_key ++ (stored.map stored_key).toList ∧
      ((pending_events device : Int) ≤ count → left = none) := by
  obtain ⟨events, ret, hpick, _, _, _, _, hreturned⟩ :=
    Hal.poll_return_spec hdr hal thread count device
  have hgenuine : Genuine (fun _ _ => True) device := fun _ _ _ => trivial
  obtain ⟨⟨seen, hpicks, hshows⟩, _⟩ := poll_pick_shows hpick hgenuine
  obtain ⟨left, hleft, hkeys⟩ := h.picks hpicks
  refine ⟨left, hleft, ?_, fun hcount => ?_⟩
  · have hmap : (Mailbox.deliveries seen).map stored_key ++ (left.map stored_key).toList =
        (stored.map stored_key).toList := by
      rw [Option.toList_map, Option.toList_map, ← hkeys, List.map_append]
    rw [hreturned, List.filterMap_append, event_keys_eq_deliveries hshows, List.append_assoc, hmap]
  · have htotal := hpicks.total
    have hlength := hshows.length_eq
    have hempty : ∀ handle,
        slot (hal.poll_return hdr thread count device).device handle = .empty := by
      rcases poll_pick_length hpick with hevents | hempty
      · rw [pending_events] at hcount
        exact Mailbox.total_eq_zero.mp (by omega)
      · exact hempty
    rw [Option.eq_none_iff_forall_ne_some]
    rintro ⟨handle, type⟩ hsome
    have hread := (hleft handle type).mpr hsome
    rw [hempty handle] at hread
    cases hread

section Hand

omit [DecidableEq Tid]

theorem PollPc.not_taken_of_update {polls : Tid → PollPc} {pc : PollPc}
    (hpc : ∀ count message, pc ≠ .taken count message) [DecidableEq Tid] (thread other : Tid)
    (message : AicSensorsEvent) :
    (∃ count, Function.update polls thread pc other = .taken count message) ↔
      other ≠ thread ∧ ∃ count, polls other = .taken count message := by
  by_cases hs : other = thread
  · subst other
    simp [hpc]
  · simp [hs]

-- A poll that holds no message moves on.
theorem DataAccounts.hand_keep [DecidableEq Tid] {hal : Hal Tid} {stored : Option (Handle × Int)}
    (h : DataAccounts hdr hal stored) (thread : Tid) (pc : PollPc)
    (hold : ∀ count message, hal.polls thread ≠ .taken count message)
    (hpc : ∀ count message, pc ≠ .taken count message) (other : Tid) (message : AicSensorsEvent) :
    (other, message) ∈ hal.history.hand ↔
      ∃ count, Function.update hal.polls thread pc other = .taken count message := by
  rw [PollPc.not_taken_of_update hpc, h.hand]
  refine ⟨fun htaken => ⟨?_, htaken⟩, fun htaken => htaken.2⟩
  rintro rfl
  obtain ⟨count, htaken⟩ := htaken
  exact hold count message htaken

theorem mem_eraseP_of_nodup {α : Type} [DecidableEq Tid] {entries : List (Tid × α)}
    (h : (entries.map Prod.fst).Nodup) (key : Tid) (entry : Tid × α) :
    entry ∈ entries.eraseP (fun e => e.1 = key) ↔ entry.1 ≠ key ∧ entry ∈ entries := by
  induction entries with
  | nil => simp
  | cons first rest ih =>
      rw [List.map_cons, List.nodup_cons] at h
      by_cases hkey : first.1 = key
      · rw [List.eraseP_cons_of_pos (by simpa using hkey), List.mem_cons]
        constructor
        · intro hmem
          refine ⟨fun he => h.1 ?_, .inr hmem⟩
          rw [hkey, ← he]
          exact List.mem_map_of_mem hmem
        · rintro ⟨hne, rfl | hmem⟩
          · exact absurd hkey hne
          · exact hmem
      · rw [List.eraseP_cons_of_neg (by simpa using hkey), List.mem_cons, List.mem_cons, ih h.2]
        constructor
        · rintro (rfl | ⟨hne, hmem⟩)
          · exact ⟨hkey, .inl rfl⟩
          · exact ⟨hne, .inr hmem⟩
        · rintro ⟨hne, rfl | hmem⟩
          · exact .inl rfl
          · exact .inr ⟨hne, hmem⟩

-- A poll that held a message moves on without it.
theorem DataAccounts.hand_lay_down [DecidableEq Tid] {hal : Hal Tid}
    {stored : Option (Handle × Int)} (h : DataAccounts hdr hal stored) (thread : Tid) (pc : PollPc)
    (hpc : ∀ count message, pc ≠ .taken count message) (other : Tid) (message : AicSensorsEvent) :
    (other, message) ∈ (hal.lay_down thread).history.hand ↔
      ∃ count, Function.update hal.polls thread pc other = .taken count message := by
  rw [PollPc.not_taken_of_update hpc, ← h.hand]
  exact mem_eraseP_of_nodup h.once thread (other, message)

theorem DataAccounts.once_lay_down [DecidableEq Tid] {hal : Hal Tid}
    {stored : Option (Handle × Int)} (h : DataAccounts hdr hal stored) (thread : Tid) :
    ((hal.lay_down thread).history.hand.map Prod.fst).Nodup :=
  h.once.sublist (List.eraseP_sublist.map Prod.fst)

-- What the other polls hold, once the message of `thread` is out of the way.
theorem DataAccounts.keys_lay_down [DecidableEq Tid] {hal : Hal Tid}
    {stored : Option (Handle × Int)} (h : DataAccounts hdr hal stored) {thread : Tid}
    {before after : List (Tid × AicSensorsEvent)} {message : AicSensorsEvent}
    (hhand : hal.history.hand = before ++ (thread, message) :: after) :
    (hal.lay_down thread).history.hand = before ++ after := by
  have hbefore : ∀ entry ∈ before, ¬ decide (entry.1 = thread) = true := by
    intro entry hmem
    have honce := h.once
    rw [hhand, List.map_append, List.map_cons, List.nodup_append] at honce
    have hne := honce.2.2 entry.1 (List.mem_map_of_mem hmem) thread List.mem_cons_self
    simpa using hne
  have herase : (hal.lay_down thread).history.hand =
      (before ++ (thread, message) :: after).eraseP fun entry => entry.1 = thread :=
    congrArg (List.eraseP _) hhand
  rw [herase, List.eraseP_append_right _ hbefore, List.eraseP_cons_of_pos (by simp)]

end Hand

section Steps

theorem process_log_trace_count {device next : SensorDevice} {message : AicSensorsEvent}
    {host : Int} (h : sensor_device_process_event hdr device message host = .stored next) :
    next.m_log_trace_count = device.m_log_trace_count := by
  unfold sensor_device_process_event at h
  split at h
  · cases h
  · dsimp only at h
    split at h
    · cases h
    · obtain rfl := (Processed.stored.inj h).symm
      rfl

def DataInvariant (hdr : SensorsHeader) (hal : Hal Tid) : Prop :=
  (∃ stored, DataAccounts hdr hal stored) ∧ hal.device.m_log_trace_count ≠ 0

theorem dataInvariant_poll_return (hal : Hal Tid) {thread : Tid} {count : Int}
    {device : SensorDevice} {stored : Option (Handle × Int)}
    (hslots : Mailbox.Holds (slot device) stored)
    (htaken : hal.history.taken.filterMap (message_key hdr) =
      hal.history.returned.filterMap event_key ++ (stored.map stored_key).toList ++
        (hal.history.hand.map Prod.snd).filterMap (message_key hdr))
    (hhand : ∀ other message, (other, message) ∈ hal.history.hand ↔
      ∃ count, Function.update hal.polls thread .idle other = .taken count message)
    (honce : (hal.history.hand.map Prod.fst).Nodup) (hlog : device.m_log_trace_count ≠ 0) :
    DataInvariant hdr (hal.poll_return hdr thread count device) := by
  obtain ⟨left, hleft, hkeys, _⟩ := poll_return_keys hdr hal thread count hslots
  refine ⟨⟨left, fun handle type => ?_, ?_, hhand, honce⟩, ?_⟩
  · rw [data_pending_iff_slot]
    exact hleft handle type
  · rw [hkeys]
    exact htaken
  · obtain ⟨_, _, _, hframe⟩ := poll_pick_frame hdr count.toNat device 0
    have hsame := congrArg SensorDevice.m_log_trace_count hframe
    exact hsame.symm ▸ hlog

omit [DecidableEq Tid] in
theorem dataInvariant_flush {hal : Hal Tid} (h : DataInvariant hdr hal) {handle : Handle}
    (hcond : KeepsData hdr hal (.flush handle)) :
    DataInvariant hdr { hal with
      device := sensor_device_flush_locked hdr hal.device handle
      history := { hal.history with flushed := hal.history.flushed ++ [handle] } } := by
  obtain ⟨⟨stored, haccounts⟩, hlog⟩ := h
  obtain ⟨more, hslot, _⟩ := slot_flush_owed hdr hal.device handle
  have hno : ∀ type, slot hal.device handle ≠ .reading type :=
    fun type hread => hcond type (data_pending_iff_slot.mpr hread)
  have hholds := haccounts.holds.owe handle more hno
  refine ⟨⟨stored, fun other type => ?_, haccounts.taken, haccounts.hand, haccounts.once⟩, ?_⟩
  · rw [data_pending_iff_slot, hslot]
    exact hholds other type
  · obtain ⟨_, _, _, hframe⟩ := flush_frame hdr hal.device handle
    rwa [hframe]

theorem dataInvariant_poll_head {hal : Hal Tid} (h : DataInvariant hdr hal) {thread : Tid}
    (hpc : ∀ count message, hal.polls thread ≠ .taken count message) (count : Int) :
    DataInvariant hdr (hal.poll_head thread count) := by
  obtain ⟨⟨stored, haccounts⟩, hlog⟩ := h
  have hhand := haccounts.hand_keep thread
    (if hal.client_connected then .waiting count else .no_client count) hpc (by split_ifs <;> simp)
  exact ⟨⟨stored, haccounts.slots, haccounts.taken, hhand, haccounts.once⟩, hlog⟩

theorem dataInvariant_take {hal : Hal Tid} (h : DataInvariant hdr hal) {thread : Tid} {count : Int}
    (hpc : hal.polls thread = .waiting count) (message : AicSensorsEvent)
    (queue : List AicSensorsEvent) :
    DataInvariant hdr { hal with
      m_sensor_msg_queue := queue
      polls := Function.update hal.polls thread (.taken count message)
      history := { hal.history with
        taken := hal.history.taken ++ [message]
        hand := hal.history.hand ++ [(thread, message)] } } := by
  obtain ⟨⟨stored, haccounts⟩, hlog⟩ := h
  refine ⟨⟨stored, haccounts.slots, ?_, fun other message' => ?_, ?_⟩, hlog⟩
  · dsimp only
    rw [List.filterMap_append, List.map_append, List.filterMap_append, haccounts.taken,
      List.append_assoc]
    rfl
  · rw [List.mem_append, haccounts.hand, List.mem_singleton, Prod.mk.injEq]
    by_cases hs : other = thread
    · subst other
      simp [hpc, eq_comm]
    · simp [hs]
  · have hnew : thread ∉ hal.history.hand.map Prod.fst := by
      intro hmem
      obtain ⟨⟨other, message'⟩, hentry, rfl⟩ := List.mem_map.mp hmem
      obtain ⟨count', htaken⟩ := (haccounts.hand other message').mp hentry
      rw [hpc] at htaken
      cases htaken
    rw [List.map_append, List.nodup_append]
    refine ⟨haccounts.once, List.nodup_singleton _, fun other hmem entry hentry he => ?_⟩
    obtain rfl := List.mem_singleton.mp hentry
    exact hnew (he ▸ hmem)

-- A message of another type has no key, so it can go.
theorem dataInvariant_again {hal : Hal Tid} (h : DataInvariant hdr hal) {thread : Tid}
    {count host : Int} {message : AicSensorsEvent} (hpc : hal.polls thread = .taken count message)
    (hprocess : sensor_device_process_event hdr hal.device message host = .again) :
    DataInvariant hdr ((hal.lay_down thread).poll_head thread count) := by
  obtain ⟨⟨stored, haccounts⟩, hlog⟩ := h
  have hkey : message_key hdr message = none := by
    apply message_key_none
    rw [process_again hprocess]
    exact Bool.false_ne_true
  have hmem := (haccounts.hand thread message).mpr ⟨count, hpc⟩
  obtain ⟨before, after, hhand⟩ := List.append_of_mem hmem
  have htaken := haccounts.taken
  rw [hhand, List.map_append, List.map_cons, List.filterMap_append,
    List.filterMap_cons_none hkey, ← List.filterMap_append, ← List.map_append,
    ← haccounts.keys_lay_down hhand] at htaken
  have hlay := haccounts.hand_lay_down thread
    (if hal.client_connected then .waiting count else .no_client count) (by split_ifs <;> simp)
  exact ⟨⟨stored, haccounts.slots, htaken, hlay, haccounts.once_lay_down thread⟩, hlog⟩

-- Nothing is stored before it, and only unsupported messages are ahead in hand.
theorem dataInvariant_store {hal : Hal Tid} (h : DataInvariant hdr hal) {thread : Tid}
    {count host : Int} {message : AicSensorsEvent} {device : SensorDevice}
    (hcond : KeepsData hdr hal (.process thread host))
    (hpc : hal.polls thread = .taken count message)
    (hprocess : sensor_device_process_event hdr hal.device message host = .stored device) :
    DataInvariant hdr ((hal.lay_down thread).poll_return hdr thread count device) := by
  obtain ⟨⟨stored, haccounts⟩, hlog⟩ := h
  obtain ⟨sensor, hsensor, hslot⟩ := slot_process hprocess
  obtain ⟨hfree, holdest⟩ := hcond count message hpc (by rw [hsensor]; rfl)
  have hnone : stored = none := by
    rw [Option.eq_none_iff_forall_ne_some]
    rintro ⟨handle, type⟩ hsome
    exact hfree handle type ((haccounts.slots handle type).mpr hsome)
  subst stored
  obtain ⟨_, before, after, hhand, hahead⟩ := List.find?_eq_some_iff_append.mp holdest
  have hskip : (before.map Prod.snd).filterMap (message_key hdr) = [] := by
    rw [List.filterMap_eq_nil_iff]
    intro message' hmem
    obtain ⟨entry, hentry, rfl⟩ := List.mem_map.mp hmem
    exact message_key_none (by simpa using hahead entry hentry)
  have htaken := haccounts.taken
  rw [hhand, List.map_append, List.map_cons, List.filterMap_append, hskip,
    List.filterMap_cons_some (message_key_of_sensor hsensor)] at htaken
  have hholds : Mailbox.Holds (slot device) (some (sensor.ID, message.type)) := by
    rw [hslot]
    exact haccounts.holds.put sensor.ID message.type
  refine dataInvariant_poll_return (hal.lay_down thread) hholds ?_
    (haccounts.hand_lay_down thread .idle (by simp)) (haccounts.once_lay_down thread) ?_
  · rw [haccounts.keys_lay_down hhand, List.map_append, List.filterMap_append, hskip]
    simpa [Hal.lay_down] using htaken
  · rwa [process_log_trace_count hprocess]

theorem dataInvariant_step {hal next : Hal Tid} {event : HalEvent Tid}
    (h : DataInvariant hdr hal) (hcond : KeepsData hdr hal event)
    (hstep : hal.step hdr event = some next) : DataInvariant hdr next := by
  cases Hal.moves_of_step hstep with
  | flush handle => exact dataInvariant_flush h hcond
  | arrive message =>
      obtain ⟨⟨stored, haccounts⟩, hlog⟩ := h
      exact ⟨⟨stored, haccounts.slots, haccounts.taken, haccounts.hand, haccounts.once⟩, hlog⟩
  | connection connected =>
      obtain ⟨⟨stored, haccounts⟩, hlog⟩ := h
      exact ⟨⟨stored, haccounts.slots, haccounts.taken, haccounts.hand, haccounts.once⟩, hlog⟩
  | block thread count hpc hnone => exact dataInvariant_poll_head h (by simp [hpc]) count
  | report thread count hpc hsome =>
      obtain ⟨⟨stored, haccounts⟩, hlog⟩ := h
      exact dataInvariant_poll_return hal haccounts.holds haccounts.taken
        (haccounts.hand_keep thread .idle (by simp [hpc]) (by simp)) haccounts.once hlog
  | wake thread count hpc => exact dataInvariant_poll_head h (by simp [hpc]) count
  | take thread count message queue hpc hqueue => exact dataInvariant_take h hpc message queue
  | again thread host count message hpc hprocess => exact dataInvariant_again h hpc hprocess
  | store thread host count message device hpc hprocess =>
      exact dataInvariant_store h hcond hpc hprocess

theorem dataProgress {hal : Hal Tid} {stored : Option (Handle × Int)}
    (h : DataAccounts hdr hal stored) (hlog : hal.device.m_log_trace_count ≠ 0) :
    DataProgress hdr hal stored := by
  constructor
  · intro thread count message host hpc
    simp only [Hal.step, hpc, sensor_device_process_event]
    cases sensor_of_type hdr message.type with
    | none => rfl
    | some sensor => simp [hlog]
  · intro thread count hpc hcount
    by_cases hpending : hal.device.m_pending_sensors = 0
    · refine ⟨hal.poll_head thread count, by simp [Hal.step, hpc, hpending], ?_⟩
      have hnone : stored = none := by
        rw [Option.eq_none_iff_forall_ne_some]
        rintro ⟨handle, type⟩ hsome
        have hbit := ((h.slots handle type).mpr hsome).1
        rw [hpending] at hbit
        simp at hbit
      subst stored
      exact (List.append_nil _).symm
    · refine ⟨hal.poll_return hdr thread count hal.device, ?_, ?_⟩
      · simp only [Hal.step, hpc]
        exact if_neg hpending
      obtain ⟨left, _, hkeys, hall⟩ := poll_return_keys hdr hal thread count h.holds
      rw [hall hcount] at hkeys
      exact (List.append_nil _).symm.trans hkeys

omit [DecidableEq Tid] in
theorem dataInvariant_init (memory : Handle → SensorsEvent) {log_trace_count : Int}
    (hlog : log_trace_count ≠ 0) :
    DataInvariant hdr (Hal.init memory log_trace_count : Hal Tid) := by
  refine ⟨⟨none, fun handle type => ?_, rfl, fun thread message => ?_, List.nodup_nil⟩, hlog⟩
  · simp [data_pending, Hal.init, SensorDevice.init]
  · simp [Hal.init]

-- In every run that keeps the data, each supported message that a poll took is
-- returned as one data event, in the order of taking.
theorem data_delivery (memory : Handle → SensorsEvent) (log_trace_count : Int)
    (hlog : log_trace_count ≠ 0) (events : List (HalEvent Tid)) (hal : Hal Tid)
    (hcond : Machine.Along (Hal.step hdr) (KeepsData hdr) (Hal.init memory log_trace_count) events)
    (hrun : Machine.run (Hal.step hdr) (Hal.init memory log_trace_count) events = some hal) :
    DataDelivered hdr hal := by
  obtain ⟨⟨stored, haccounts⟩, hlog⟩ := Machine.invariant (fun _ _ _ => dataInvariant_step)
    (dataInvariant_init memory hlog) hcond hrun
  exact ⟨stored, haccounts, dataProgress haccounts hlog⟩

end Steps

section SinglePoll

-- The part of the condition that is left when one thread polls.
def FlushSparesData (hal : Hal Tid) : HalEvent Tid → Prop
  | .flush handle => ∀ type, ¬ data_pending hal.device handle type
  | _ => True

-- A poll that is under way found nothing pending, and only it could store.
def SinglePollInvariant (hdr : SensorsHeader) (hal : Hal Tid) : Prop :=
  DataInvariant hdr hal ∧
    ∀ thread, hal.polls thread ≠ .idle → ∀ handle type, ¬ data_pending hal.device handle type

variable [Subsingleton Tid]

omit [DecidableEq Tid] in
theorem keepsData_of_sparesData {hal : Hal Tid} {event : HalEvent Tid}
    (h : SinglePollInvariant hdr hal) (hcond : FlushSparesData hal event) :
    KeepsData hdr hal event := by
  cases event with
  | flush handle => exact hcond
  | process thread host =>
      intro count message hpc hsensor
      obtain ⟨⟨⟨stored, haccounts⟩, _⟩, hwait⟩ := h
      refine ⟨hwait thread (by simp [hpc]), ?_⟩
      have hmem := (haccounts.hand thread message).mpr ⟨count, hpc⟩
      have honce := haccounts.once
      match hhand : hal.history.hand with
      | [] =>
          rw [hhand] at hmem
          cases hmem
      | [entry] =>
          rw [hhand] at hmem
          obtain rfl := List.mem_singleton.mp hmem
          exact List.find?_cons_of_pos hsensor
      | first :: second :: rest =>
          rw [hhand] at honce
          have hne := (List.nodup_cons.mp honce).1
          rw [Subsingleton.elim first.1 second.1] at hne
          exact absurd List.mem_cons_self hne
  | _ => trivial

theorem singlePollInvariant_step {hal next : Hal Tid} {event : HalEvent Tid}
    (h : SinglePollInvariant hdr hal) (hcond : FlushSparesData hal event)
    (hstep : hal.step hdr event = some next) : SinglePollInvariant hdr next := by
  refine ⟨dataInvariant_step h.1 (keepsData_of_sparesData h hcond) hstep, ?_⟩
  obtain ⟨_, hwait⟩ := h
  cases Hal.moves_of_step hstep with
  | flush handle =>
      intro thread hpc other type hdata
      obtain ⟨more, hslot, _⟩ := slot_flush_owed hdr hal.device handle
      rw [data_pending_iff_slot, hslot] at hdata
      by_cases hs : other = handle
      · subst other
        simp at hdata
      · rw [Function.update_of_ne hs, ← data_pending_iff_slot] at hdata
        exact hwait thread hpc other type hdata
  | arrive message => exact hwait
  | connection connected => exact hwait
  | block thread count hpc hnone =>
      intro _ _ handle type hdata
      have hbit := hdata.1
      rw [show (hal.poll_head thread count).device.m_pending_sensors = 0 from hnone] at hbit
      simp at hbit
  | report thread count hpc hsome =>
      intro other hother
      rw [Subsingleton.elim other thread] at hother
      exact absurd (Function.update_self _ _ _) hother
  | wake thread count hpc => exact fun other _ => hwait thread (by simp [hpc])
  | take thread count message queue hpc hqueue =>
      exact fun other _ => hwait thread (by simp [hpc])
  | again thread host count message hpc hprocess =>
      exact fun other _ => hwait thread (by simp [hpc])
  | store thread host count message device hpc hprocess =>
      intro other hother
      rw [Subsingleton.elim other thread] at hother
      exact absurd (Function.update_self _ _ _) hother

-- With one thread that polls, only flushes can break the delivery.
theorem keepsData_of_single_poll (memory : Handle → SensorsEvent) {log_trace_count : Int}
    (hlog : log_trace_count ≠ 0) {events : List (HalEvent Tid)}
    (hcond : Machine.Along (Hal.step hdr) FlushSparesData (Hal.init memory log_trace_count) events) :
    Machine.Along (Hal.step hdr) (KeepsData hdr) (Hal.init memory log_trace_count) events :=
  Machine.Along.of_invariant (fun _ _ _ => singlePollInvariant_step)
    (fun _ _ => keepsData_of_sparesData)
    ⟨dataInvariant_init memory hlog, fun _ hpc => absurd rfl hpc⟩ hcond

end SinglePoll

theorem data_delivery_two_messages :
    ∃ hal : Hal Unit, Machine.run (Hal.step android_header) (Hal.init (fun _ => default) 50)
        [.connection true, .arrive ⟨1, 3, 1000, fun _ => 0⟩, .arrive ⟨5, 1, 1100, fun _ => 0⟩,
          .poll () 1, .take (), .process () 2000, .poll () 1, .take ()] = some hal ∧
      hal.history.returned.filterMap event_key = [(0, 1)] ∧ DataDelivered android_header hal := by
  obtain ⟨hal, hrun, hkeys⟩ : ∃ hal : Hal Unit, Machine.run (Hal.step android_header)
      (Hal.init (fun _ => default) 50)
        [.connection true, .arrive ⟨1, 3, 1000, fun _ => 0⟩, .arrive ⟨5, 1, 1100, fun _ => 0⟩,
          .poll () 1, .take (), .process () 2000, .poll () 1, .take ()] = some hal ∧
      hal.history.returned.filterMap event_key = [(0, 1)] := Option.map_eq_some_iff.mp rfl
  refine ⟨hal, hrun, hkeys, data_delivery (fun _ => default) 50 (by decide) _ hal ?_ hrun⟩
  refine keepsData_of_single_poll _ (by decide) (Machine.along_of_forall_mem ?_ _)
  simp [FlushSparesData]

-- The flush of handle 0 writes over the reading that a poll with a count of 1
-- has stored and not returned yet.
theorem data_lost_by_flush :
    ¬ ∀ (memory : Handle → SensorsEvent) (log_trace_count : Int) (events : List (HalEvent Unit))
        (hal : Hal Unit), log_trace_count ≠ 0 →
      (∀ thread count, .poll thread count ∈ events → 1 ≤ count) →
      Machine.run (Hal.step android_header) (Hal.init memory log_trace_count) events = some hal →
        DataDelivered android_header hal := by
  intro h
  have hlost : (Machine.run (Hal.step android_header) (Hal.init (fun _ => default) 50)
      [.connection true, .poll () 1, .flush 8, .arrive ⟨1, 3, 1000, fun _ => 0⟩, .take (),
        .process () 2000, .flush 0]).map (fun hal =>
      (hal.history.taken.filterMap (message_key android_header),
        hal.history.returned.filterMap event_key, hal.history.hand.map Prod.snd,
        hal.device.m_pending_sensors, (hal.device.m_sensors 0).type)) =
      some ([(0, 1)], [], [], bit 0, SENSOR_TYPE_META_DATA) := rfl
  obtain ⟨hal, hrun, hkeys⟩ := Option.map_eq_some_iff.mp hlost
  simp only [Prod.mk.injEq] at hkeys
  obtain ⟨htaken, hreturned, hhand, hpending, htype⟩ := hkeys
  obtain ⟨stored, haccounts, _⟩ := h _ _ _ hal (by decide) (by simp) hrun
  have hnone : stored = none := by
    rw [Option.eq_none_iff_forall_ne_some]
    rintro ⟨handle, type⟩ hsome
    obtain ⟨hbit, rfl, hne⟩ := (haccounts.slots handle type).mpr hsome
    rw [hpending, getLsbD_bit, decide_eq_true_eq] at hbit
    exact hne (hbit ▸ htype)
  have hkeys := haccounts.taken
  rw [htaken, hreturned, hhand, hnone] at hkeys
  cases hkeys

end SensorVhal
