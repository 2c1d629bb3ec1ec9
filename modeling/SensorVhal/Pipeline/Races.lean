import SensorVhal.Lib.Races
import SensorVhal.Pipeline.Locking

namespace SensorVhal

namespace Locking

open Locks (Access)

-- The fields of SensorDevice, SockServer and sock_server_t that change after the
-- constructors, the id of the sock_client_proxy_t objects, and the static variables of
-- sensor_device_poll_event_locked. The proxies and the slots are one variable each.
inductive Shared
  | m_flush_count
  | m_pending_sensors
  | m_time_start
  | m_time_offset
  | m_sensors
  | m_sensor_config_status
  | m_msg_mem_pool
  | m_sensor_msg_queue
  | last_sensor_time
  | sensor_data_count
  | m_clients
  | m_pclient_
  | m_ncount
  | client_slots
  | client_id
  | rfds
  deriving DecidableEq

-- get_sock_client, and sock_server_send with the id, the slot and the record.
def sensor_device_send_config_msg : List (Access Shared) :=
  [.read .m_pclient_, .read .client_id, .read .client_slots, .read .m_sensor_config_status]

-- What the statements at each point read and write.
def accesses : Point → List (Access Shared)
  | .activate .config | .batch .config | .set_delay .config => [.write .m_sensor_config_status]
  | .activate .send | .batch .send | .set_delay .send => sensor_device_send_config_msg
  | .flush .owe => [.read .m_pending_sensors, .read .m_sensors, .write .m_flush_count,
      .write .m_sensors, .write .m_pending_sensors]
  | .poll .test => [.read .m_pending_sensors]
  | .poll .pick => [.read .m_pending_sensors, .write .m_pending_sensors, .read .m_sensors,
      .write .m_sensors, .read .m_flush_count, .write .m_flush_count]
  | .poll_event .head => [.read .m_pclient_]
  | .poll_event .test_queue => [.read .m_sensor_msg_queue]
  | .poll_event .take => [.write .m_sensor_msg_queue]
  | .poll_event .switch => [.write .m_sensors]
  | .poll_event .count => [.read .sensor_data_count, .write .sensor_data_count,
      .read .last_sensor_time, .write .last_sensor_time]
  | .poll_event .stamp => [.read .m_pending_sensors, .write .m_pending_sensors,
      .read .m_time_start, .write .m_time_start, .read .m_time_offset, .write .m_time_offset,
      .write .m_sensors]
  | .poll_event .give_back => [.write .m_msg_mem_pool]
  -- sock_server_has_newconn and sock_server_create_client
  | .connection .enter => [.read .client_slots, .write .client_slots, .write .client_id]
  | .connection .choose_default => [.read .m_pclient_, .write .m_pclient_]
  | .connection .store => [.read .client_id, .write .m_clients, .read .m_ncount, .write .m_ncount]
  | .connected .send => sensor_device_send_config_msg
  | .message .enter => [.read .client_slots, .write .rfds]
  | .message .scan => [.read .m_clients, .read .client_id, .read .client_slots, .read .rfds]
  -- sock_server_close_client deletes the proxy, whose id is logged behind it
  | .message .close => [.read .m_clients, .read .client_id, .read .client_slots,
      .write .client_slots, .write .client_id, .read .m_pclient_, .write .m_pclient_]
  | .message .clear => [.read .m_clients, .read .client_id, .write .m_clients, .read .m_ncount,
      .write .m_ncount]
  | .message .choose_default => [.read .m_pclient_, .read .m_clients, .write .m_pclient_]
  -- sock_server_recv
  | .event .header | .event .payload => [.read .client_id, .read .client_slots]
  | .event .test_pool => [.read .m_msg_mem_pool]
  | .event .create => [.write .m_msg_mem_pool]
  | .event .take => [.read .m_msg_mem_pool, .write .m_msg_mem_pool]
  | .event .drop => [.read .m_sensor_msg_queue, .write .m_sensor_msg_queue,
      .write .m_msg_mem_pool]
  | .event .put => [.write .m_sensor_msg_queue]
  | _ => []

-- The mutex of a variable that all accesses take.
def guard : Shared → Option Mutex
  | .m_flush_count | .m_pending_sensors | .m_sensors | .m_sensor_config_status => some .m_mutex
  | .m_sensor_msg_queue => some .m_msg_queue_mtx
  | _ => none

inductive Role
  | caller
  | poller
  | listener
  deriving DecidableEq

def role : Point → Role
  | .caller | .activate _ | .batch _ | .set_delay _ | .flush _ => .caller
  | .poller | .poll _ | .poll_event _ => .poller
  | .listener | .connection _ | .connected _ | .message _ | .event _ | .quit => .listener

-- The part of the code that has a variable to itself.
def home : Shared → Option Role
  | .m_time_start | .m_time_offset | .last_sensor_time | .sensor_data_count => some .poller
  | .m_clients | .m_ncount | .rfds => some .listener
  | _ => none

theorem role_closed : Locks.Closed code role := by
  intro point
  cases point with
  | caller | poller | listener | quit => decide
  | activate point => cases point <;> decide
  | batch point => cases point <;> decide
  | set_delay point => cases point <;> decide
  | flush point => cases point <;> decide
  | poll point => cases point <;> decide
  | poll_event point => cases point <;> decide
  | connection point => cases point <;> decide
  | connected point => cases point <;> decide
  | message point => cases point <;> decide
  | event point => cases point <;> decide

-- Every access is made with the guard of its variable, and at its home.
theorem accesses_kept (point : Point) :
    ∀ access ∈ accesses point, (∀ mutex ∈ guard access.var, mutex ∈ held point) ∧
      ∀ r ∈ home access.var, role point = r := by
  cases point with
  | caller | poller | listener | quit => decide
  | activate point => cases point <;> decide
  | batch point => cases point <;> decide
  | set_delay point => cases point <;> decide
  | flush point => cases point <;> decide
  | poll point => cases point <;> decide
  | poll_event point => cases point <;> decide
  | connection point => cases point <;> decide
  | connected point => cases point <;> decide
  | message point => cases point <;> decide
  | event point => cases point <;> decide

section Kept

variable {Caller : Type} [DecidableEq Caller] {s : Locks.State (Thread Caller) Point Mutex}
  {events : List (Thread Caller × Point)}

theorem not_races_of_guard
    (hrun : Machine.run (Locks.step code) (Locks.init Thread.start) events = some s)
    {var : Shared} {mutex : Mutex} (hguard : guard var = some mutex) :
    ¬ s.Races accesses var := by
  have hstart : ∀ thread : Thread Caller, discipline.held thread.start = ∅ := by
    rintro (_ | _) <;> rfl
  have hkept : discipline.Kept s := Locks.Discipline.kept_run hstart hrun
  refine hkept.not_races (?_ : discipline.Guards accesses mutex var)
  intro point access haccess hvar
  apply (accesses_kept point access haccess).1
  rw [hvar, hguard]
  rfl

omit [DecidableEq Caller] in
-- There is one caller of poll and one listener.
theorem eq_of_role_start {thread other : Thread Caller}
    (h : role thread.start = role other.start) (hcaller : role thread.start ≠ .caller) :
    thread = other := by
  cases thread with
  | caller caller => exact absurd rfl hcaller
  | poll =>
      cases other with
      | poll => rfl
      | caller _ | listener => cases h
  | listener =>
      cases other with
      | listener => rfl
      | caller _ | poll => cases h

theorem not_races_of_home
    (hrun : Machine.run (Locks.step code) (Locks.init Thread.start) events = some s)
    {var : Shared} {r : Role} (hhome : home var = some r) : ¬ s.Races accesses var := by
  have hcaller : r ≠ .caller := by
    rintro rfl
    cases var <;> cases hhome
  apply Locks.not_races_of_role (r := r) role_closed hrun
  · intro thread other hthread hother
    apply eq_of_role_start (hthread.trans hother.symm)
    rw [hthread]
    exact hcaller
  · intro point access haccess hvar
    apply (accesses_kept point access haccess).2
    rw [hvar, hhome]
    rfl

end Kept

-- The first client is accepted and its first message comes into the queue.
def first_message : List (Thread Unit × Point) :=
  [.connection .enter, .connection .lock, .listener, .connection .unlock, .listener,
    .connection .call, .connected .head, .connected .returned, .connection .returned,
    .message .enter, .message .scan, .message .call, .event .header, .event .test_pool,
    .event .lock_take, .listener, .event .unlock_take, .listener, .event .lock_queue, .listener,
    .event .put, .event .unlock_queue, .listener, .message .scan].map fun point =>
      (.listener, point)

-- A poll that finds nothing pending and takes a message, up to the return of its buffer.
def poll_message : List (Thread Unit × Point) :=
  [.poll .lock, .poller, .poll .call, .poll_event .head, .poll_event .unlock, .poller, .poller,
    .poll_event .take, .poll_event .unlock_queue, .poller, .poller, .poll_event .switch,
    .poll_event .count, .poll_event .stamp, .poll_event .lock_pool, .poller].map fun point =>
      (.poll, point)

-- A run to two accesses of the same variable.
theorem raced_of_places {events : List (Thread Unit × Point)} (thread other : Thread Unit)
    (point point' : Point) {var : Shared} (hne : thread ≠ other)
    (hwrite : .write var ∈ accesses point) (haccess : ∃ access ∈ accesses point', access.var = var)
    (hplaces : (Machine.run (Locks.step code) (Locks.init Thread.start) events).map
      (fun s => (s.place thread, s.place other)) = some (.before point, .before point')) :
    ∃ s, Machine.run (Locks.step code) (Locks.init Thread.start) events = some s ∧
      s.Races accesses var := by
  obtain ⟨s, hrun, hplace⟩ := Option.map_eq_some_iff.mp hplaces
  obtain ⟨hthread, hother⟩ := Prod.mk.inj hplace
  exact ⟨s, hrun, thread, other, point, point', hne, hthread, hother, hwrite, haccess⟩

-- The variables that no mutex and no thread has for itself.
def raced : List Shared := [.m_msg_mem_pool, .m_pclient_, .client_slots, .client_id]

theorem mem_raced {var : Shared} : guard var = none → home var = none → var ∈ raced := by
  cases var <;> decide

-- A batch is about to send to the client that the listener is about to close.
def send_and_close : List (Thread Unit × Point) :=
  first_message ++ [(.caller (), .batch .enter), (.caller (), .batch .lock),
    (.caller (), .caller), (.caller (), .batch .send), (.listener, .message .lock_close),
    (.listener, .listener)]

-- The listener looks into the pool while the poll puts a buffer back, chooses the
-- default client while a poll asks for it, and takes the slot and the proxy of the client
-- that a configuration record is being sent to.
theorem exists_race {var : Shared} (h : var ∈ raced) :
    ∃ (events : List (Thread Unit × Point)) (s : Locks.State (Thread Unit) Point Mutex),
      Machine.run (Locks.step code) (Locks.init Thread.start) events = some s ∧
        s.Races accesses var := by
  simp only [raced, List.mem_cons, List.not_mem_nil, or_false] at h
  obtain rfl | rfl | rfl | rfl := h
  · refine ⟨first_message ++ poll_message ++ [.message .call, .event .header,
      .event .test_pool].map fun point => (.listener, point), ?_⟩
    exact raced_of_places .poll .listener (.poll_event .give_back) (.event .test_pool) (by decide)
      (by decide) (by decide) (by decide +kernel)
  · refine ⟨[(.poll, .poll .lock), (.poll, .poller), (.poll, .poll .call),
      (.poll, .poll_event .head), (.listener, .connection .enter),
      (.listener, .connection .lock), (.listener, .listener)], ?_⟩
    exact raced_of_places .listener .poll (.connection .choose_default) (.poll_event .head)
      (by decide) (by decide) (by decide) (by decide +kernel)
  · refine ⟨send_and_close, ?_⟩
    exact raced_of_places .listener (.caller ()) (.message .close) (.batch .send)
      (by decide) (by decide) (by decide) (by decide +kernel)
  · refine ⟨send_and_close, ?_⟩
    exact raced_of_places .listener (.caller ()) (.message .close) (.batch .send)
      (by decide) (by decide) (by decide) (by decide +kernel)

-- Whatever the number of callers and the order of the steps, threads race for the
-- pool, for the default client, for the slots of the clients and for their proxies, and
-- for nothing else.
theorem races_iff (var : Shared) :
    (∃ (Caller : Type) (_ : DecidableEq Caller) (events : List (Thread Caller × Point))
      (s : Locks.State (Thread Caller) Point Mutex),
      Machine.run (Locks.step code) (Locks.init Thread.start) events = some s ∧
        s.Races accesses var) ↔
    var ∈ raced := by
  constructor
  · rintro ⟨Caller, _, events, s, hrun, hraces⟩
    cases hguard : guard var with
    | some mutex => exact absurd hraces (not_races_of_guard hrun hguard)
    | none =>
        cases hhome : home var with
        | some r => exact absurd hraces (not_races_of_home hrun hhome)
        | none => exact mem_raced hguard hhome
  · intro h
    obtain ⟨events, s, hrun, hraces⟩ := exists_race h
    exact ⟨Unit, inferInstance, events, s, hrun, hraces⟩

end Locking

end SensorVhal
