import SensorVhal.Lib.Locks

namespace SensorVhal

namespace Locking

open Locks (Instr)

inductive Mutex
  | m_mutex
  | m_msg_queue_mtx
  | m_msg_pool_mtx
  | m_pclient_mutex_
  deriving DecidableEq

-- The functions as graphs. Every branch on data, unknown handles and failed
-- calls included, is a free choice, and loops run any number of times.

inductive ActivatePoint
  | enter
  | lock
  | config
  | send
  | unlock_failed
  | unlock
  | returned
  deriving DecidableEq

def sensor_device_activate : ActivatePoint → Instr ActivatePoint Mutex
  | .enter => .choose [.returned, .lock]
  | .lock => .lock .m_mutex .config
  | .config => .choose [.send, .unlock]
  | .send => .choose [.unlock_failed, .unlock]
  | .unlock_failed => .unlock .m_mutex .returned
  | .unlock => .unlock .m_mutex .returned
  | .returned => .choose []

inductive ConfigPoint
  | enter
  | lock
  | config
  | send
  | unlock
  | test
  | returned
  deriving DecidableEq

def sensor_device_batch : ConfigPoint → Instr ConfigPoint Mutex
  | .enter => .choose [.returned, .lock]
  | .lock => .lock .m_mutex .config
  | .config => .choose [.send]
  | .send => .choose [.unlock]
  | .unlock => .unlock .m_mutex .test
  | .test => .choose [.returned]
  | .returned => .choose []

-- The same statements as in sensor_device_batch.
def sensor_device_set_delay : ConfigPoint → Instr ConfigPoint Mutex := sensor_device_batch

inductive FlushPoint
  | lock
  | owe
  | unlock
  | returned
  deriving DecidableEq

def sensor_device_flush : FlushPoint → Instr FlushPoint Mutex
  | .lock => .lock .m_mutex .owe
  | .owe => .choose [.unlock]
  | .unlock => .unlock .m_mutex .returned
  | .returned => .choose []

inductive PollEventPoint
  | head
  | unlock_sleep
  | sleep
  | lock_sleep
  | unlock
  | lock_queue
  | test_queue
  | wait
  | take
  | unlock_queue
  | lock
  | test_empty
  | switch
  | count
  | stamp
  | lock_pool
  | give_back
  | unlock_pool
  | returned
  deriving DecidableEq

-- The three ways back to the head: no client, an empty buffer, and a message of
-- another type.
def sensor_device_poll_event_locked : PollEventPoint → Instr PollEventPoint Mutex
  | .head => .choose [.unlock_sleep, .unlock]
  | .unlock_sleep => .unlock .m_mutex .sleep
  | .sleep => .choose [.lock_sleep]
  | .lock_sleep => .lock .m_mutex .head
  | .unlock => .unlock .m_mutex .lock_queue
  | .lock_queue => .lock .m_msg_queue_mtx .test_queue
  | .test_queue => .choose [.wait, .take]
  | .wait => .wait .m_msg_queue_mtx .take
  | .take => .choose [.unlock_queue]
  | .unlock_queue => .unlock .m_msg_queue_mtx .lock
  | .lock => .lock .m_mutex .test_empty
  | .test_empty => .choose [.head, .switch]
  | .switch => .choose [.head, .count]
  | .count => .choose [.stamp]
  | .stamp => .choose [.lock_pool]
  | .lock_pool => .lock .m_msg_pool_mtx .give_back
  | .give_back => .choose [.unlock_pool]
  | .unlock_pool => .unlock .m_msg_pool_mtx .returned
  | .returned => .choose []

inductive PollPoint
  | lock
  | test
  | call
  | test_ret
  | pick
  | out
  | returned
  deriving DecidableEq

-- The node `call` stands for sensor_device_poll_event_locked.
def sensor_device_poll : PollPoint → Instr PollPoint Mutex
  | .lock => .lock .m_mutex .test
  | .test => .choose [.call, .pick]
  | .call => .choose [.test_ret]
  | .test_ret => .choose [.out, .pick]
  | .pick => .choose [.pick, .out]
  | .out => .unlock .m_mutex .returned
  | .returned => .choose []

inductive ConnectedPoint
  | head
  | lock
  | send
  | unlock
  | returned
  deriving DecidableEq

def client_connected_callback : ConnectedPoint → Instr ConnectedPoint Mutex
  | .head => .choose [.lock, .returned]
  | .lock => .lock .m_mutex .send
  | .send => .choose [.unlock]
  | .unlock => .unlock .m_mutex .head
  | .returned => .choose []

inductive EventPoint
  | header
  | test_pool
  | lock_create
  | create
  | unlock_create
  | lock_take
  | take
  | unlock_take
  | payload
  | lock_queue
  | drop
  | put
  | unlock_queue
  | returned
  deriving DecidableEq

-- m_msg_mem_pool is looked at before m_msg_pool_mtx is taken, and what the queue
-- drops is put into it under the mutex of the queue.
def sensor_event_callback : EventPoint → Instr EventPoint Mutex
  | .header => .choose [.returned, .test_pool]
  | .test_pool => .choose [.lock_create, .lock_take]
  | .lock_create => .lock .m_msg_pool_mtx .create
  | .create => .choose [.unlock_create]
  | .unlock_create => .unlock .m_msg_pool_mtx .lock_take
  | .lock_take => .lock .m_msg_pool_mtx .take
  | .take => .choose [.unlock_take]
  | .unlock_take => .unlock .m_msg_pool_mtx .payload
  | .payload => .choose [.returned, .lock_queue]
  | .lock_queue => .lock .m_msg_queue_mtx .drop
  | .drop => .choose [.drop, .put]
  | .put => .choose [.unlock_queue]
  | .unlock_queue => .unlock .m_msg_queue_mtx .returned
  | .returned => .choose []

inductive NewConnectionPoint
  | enter
  | lock
  | choose_default
  | unlock
  | store
  | call
  | returned
  deriving DecidableEq

-- The node `call` stands for m_connected_callback.
def check_new_connection : NewConnectionPoint → Instr NewConnectionPoint Mutex
  | .enter => .choose [.returned, .lock]
  | .lock => .lock .m_pclient_mutex_ .choose_default
  | .choose_default => .choose [.unlock]
  | .unlock => .unlock .m_pclient_mutex_ .store
  | .store => .choose [.call, .returned]
  | .call => .choose [.returned]
  | .returned => .choose []

inductive NewMessagePoint
  | enter
  | scan
  | call
  | lock_close
  | close
  | unlock_close
  | clear
  | lock_default
  | choose_default
  | unlock_default
  | returned
  deriving DecidableEq

-- The node `call` stands for m_listener_callback. No disconnected callback is
-- registered.
def check_new_message : NewMessagePoint → Instr NewMessagePoint Mutex
  | .enter => .choose [.returned, .scan]
  | .scan => .choose [.scan, .call, .lock_close, .lock_default]
  | .call => .choose [.scan]
  | .lock_close => .lock .m_pclient_mutex_ .close
  | .close => .choose [.unlock_close]
  | .unlock_close => .unlock .m_pclient_mutex_ .clear
  | .clear => .choose [.scan, .returned]
  | .lock_default => .lock .m_pclient_mutex_ .choose_default
  | .choose_default => .choose [.unlock_default]
  | .unlock_default => .unlock .m_pclient_mutex_ .returned
  | .returned => .choose []

-- The points of all threads. `caller` and `poller` are outside the HAL, and
-- `listener` is the head of the loop of SockServer::listener.
inductive Point
  | caller
  | activate (point : ActivatePoint)
  | batch (point : ConfigPoint)
  | set_delay (point : ConfigPoint)
  | flush (point : FlushPoint)
  | poller
  | poll (point : PollPoint)
  | poll_event (point : PollEventPoint)
  | listener
  | connection (point : NewConnectionPoint)
  | connected (point : ConnectedPoint)
  | message (point : NewMessagePoint)
  | event (point : EventPoint)
  | quit
  deriving DecidableEq

-- The calls and the returns join the graphs.
def code : Point → Instr Point Mutex
  | .caller => .choose [.activate .enter, .batch .enter, .set_delay .enter, .flush .lock]
  | .activate .returned => .choose [.caller]
  | .activate point => (sensor_device_activate point).map .activate
  | .batch .returned => .choose [.caller]
  | .batch point => (sensor_device_batch point).map .batch
  | .set_delay .returned => .choose [.caller]
  | .set_delay point => (sensor_device_set_delay point).map .set_delay
  | .flush .returned => .choose [.caller]
  | .flush point => (sensor_device_flush point).map .flush
  | .poller => .choose [.poll .lock]
  | .poll .returned => .choose [.poller]
  | .poll .call => .choose [.poll_event .head]
  | .poll point => (sensor_device_poll point).map .poll
  | .poll_event .returned => .choose [.poll .test_ret]
  | .poll_event point => (sensor_device_poll_event_locked point).map .poll_event
  | .listener => .choose [.connection .enter, .quit]
  | .connection .returned => .choose [.message .enter]
  | .connection .call => .choose [.connected .head]
  | .connection point => (check_new_connection point).map .connection
  | .connected .returned => .choose [.connection .returned]
  | .connected point => (client_connected_callback point).map .connected
  | .message .returned => .choose [.listener]
  | .message .call => .choose [.event .header]
  | .message point => (check_new_message point).map .message
  | .event .returned => .choose [.message .scan]
  | .event point => (sensor_event_callback point).map .event
  | .quit => .choose []

-- The mutexes that a thread holds at each point.
def held : Point → Finset Mutex
  | .activate .config | .activate .send | .activate .unlock_failed | .activate .unlock =>
    {.m_mutex}
  | .batch .config | .batch .send | .batch .unlock => {.m_mutex}
  | .set_delay .config | .set_delay .send | .set_delay .unlock => {.m_mutex}
  | .flush .owe | .flush .unlock => {.m_mutex}
  | .poll .lock | .poll .returned => ∅
  | .poll _ => {.m_mutex}
  | .poll_event .sleep | .poll_event .lock_sleep | .poll_event .lock_queue | .poll_event .lock => ∅
  | .poll_event .test_queue | .poll_event .wait | .poll_event .take | .poll_event .unlock_queue =>
    {.m_msg_queue_mtx}
  | .poll_event .give_back | .poll_event .unlock_pool => {.m_mutex, .m_msg_pool_mtx}
  | .poll_event _ => {.m_mutex}
  | .connection .choose_default | .connection .unlock => {.m_pclient_mutex_}
  | .connected .send | .connected .unlock => {.m_mutex}
  | .message .close | .message .unlock_close | .message .choose_default
  | .message .unlock_default => {.m_pclient_mutex_}
  | .event .create | .event .unlock_create | .event .take | .event .unlock_take =>
    {.m_msg_pool_mtx}
  | .event .drop | .event .put | .event .unlock_queue => {.m_msg_queue_mtx}
  | _ => ∅

-- m_mutex comes before the others.
def rank : Mutex → Nat
  | .m_mutex => 0
  | _ => 1

def discipline : Locks.Discipline code where
  held := held
  rank := rank
  respects := by
    intro point
    cases point with
    | caller | poller | listener | quit => decide
    | activate point => cases point <;> decide
    | batch point => cases point <;> decide
    | set_delay point => cases point <;> decide
    | flush point => cases point <;> decide
    | poll point => cases point <;> decide
    | poll_event point => cases point <;> decide
    | connection point => cases point <;> decide
    | connected point => cases point <;> decide
    | message point => cases point <;> decide
    | event point => cases point <;> decide

-- Any number of HAL callers, one caller of poll, and the listener.
inductive Thread (Caller : Type)
  | caller (caller : Caller)
  | poll
  | listener
  deriving DecidableEq

def Thread.start {Caller : Type} : Thread Caller → Point
  | .caller _ => .caller
  | .poll => .poller
  | .listener => .listener

-- Where a HAL entry point returns.
def entry_returns : List Point :=
  [.activate .returned, .batch .returned, .set_delay .returned, .flush .returned, .poll .returned]

theorem held_entry_returns : ∀ point ∈ entry_returns, held point = ∅ := by
  decide

-- A wait of this code is the one for a message.
theorem wait_eq {point next : Point} {mutex : Mutex} (h : code point = .wait mutex next) :
    point = .poll_event .wait ∧ next = .poll_event .take ∧ mutex = .m_msg_queue_mtx := by
  cases point with
  | caller | poller | listener | quit => cases h
  | activate point => cases point <;> cases h
  | batch point => cases point <;> cases h
  | set_delay point => cases point <;> cases h
  | flush point => cases point <;> cases h
  | poll point => cases point <;> cases h
  | connection point => cases point <;> cases h
  | connected point => cases point <;> cases h
  | message point => cases point <;> cases h
  | event point => cases point <;> cases h
  | poll_event point =>
      cases point with
      | wait =>
          obtain ⟨rfl, rfl⟩ := Instr.wait.inj h
          exact ⟨rfl, rfl, rfl⟩
      | _ => cases h

section Kept

variable {Caller : Type} {s : Locks.State (Thread Caller) Point Mutex} {thread : Thread Caller}

theorem owner_before (h : discipline.Kept s) {point : Point}
    (hplace : s.place thread = .before point) (mutex : Mutex) :
    s.owner mutex = some thread ↔ mutex ∈ held point := by
  rw [h.owner, hplace]
  rfl

theorem owner_asleep (h : discipline.Kept s) {mutex other : Mutex} {next : Point}
    (hplace : s.place thread = .asleep mutex next) : s.owner other ≠ some thread := by
  obtain ⟨point, hwait⟩ := h.asleep _ _ _ hplace
  obtain ⟨rfl, rfl, rfl⟩ := wait_eq hwait
  rw [Ne, h.owner, hplace]
  cases other <;> decide

end Kept

-- The locks of the HAL in every run, whatever the order of the steps.
theorem lock_protocol {Caller : Type} [DecidableEq Caller] (events : List (Thread Caller × Point))
    (s : Locks.State (Thread Caller) Point Mutex)
    (hrun : Machine.run (Locks.step code) (Locks.init Thread.start) events = some s) :
    (∀ thread mutex, s.Wants code thread mutex → s.owner mutex ≠ some thread) ∧
    (∀ thread mutex, s.Drops code thread mutex → s.owner mutex = some thread) ∧
    (∀ point, s.place .poll = .before (.poll_event point) → point = .head ∨ point = .returned →
      s.owner .m_mutex = some .poll) ∧
    (s.place .poll = .before (.poll_event .sleep) ∨
        (∃ mutex next, s.place .poll = .asleep mutex next) →
      ∀ mutex, s.owner mutex ≠ some .poll) ∧
    (∀ thread, ∀ point ∈ entry_returns, s.place thread = .before point →
      ∀ mutex, s.owner mutex ≠ some thread) ∧
    ∀ thread, ¬ Relation.TransGen (s.WaitsFor code) thread thread := by
  have hstart : ∀ thread : Thread Caller, discipline.held thread.start = ∅ := by
    rintro (_ | _) <;> rfl
  have hkept : discipline.Kept s := Locks.Discipline.kept_run hstart hrun
  refine ⟨fun thread mutex hwants => (hkept.wants hwants).1,
    fun thread mutex hdrops => hkept.drops hdrops, ?_, ?_, ?_, hkept.no_cycle⟩
  · rintro point hplace (rfl | rfl)
    · exact (owner_before hkept hplace _).mpr (by decide)
    · exact (owner_before hkept hplace _).mpr (by decide)
  · rintro (hplace | ⟨mutex, next, hplace⟩) other
    · rw [Ne, owner_before hkept hplace]
      cases other <;> decide
    · exact owner_asleep hkept hplace
  · intro thread point hreturn hplace mutex
    rw [Ne, owner_before hkept hplace, held_entry_returns point hreturn]
    exact Finset.notMem_empty mutex

-- The poll sleeps for a message while a flush has m_mutex and the listener
-- chooses a default client.
theorem lock_protocol_waiting :
    ∃ s : Locks.State (Thread Unit) Point Mutex,
      Machine.run (Locks.step code) (Locks.init Thread.start)
        [(.poll, .poll .lock), (.poll, .poller), (.poll, .poll .call), (.poll, .poll_event .head),
          (.poll, .poll_event .unlock), (.poll, .poller), (.poll, .poller),
          (.poll, .poll_event .wait), (.poll, .poller), (.caller (), .flush .lock),
          (.caller (), .caller), (.listener, .connection .enter), (.listener, .connection .lock),
          (.listener, .listener)] = some s ∧
      (∀ thread mutex, s.Wants code thread mutex → s.owner mutex ≠ some thread) ∧
      (∀ thread mutex, s.Drops code thread mutex → s.owner mutex = some thread) ∧
      (∀ point, s.place .poll = .before (.poll_event point) → point = .head ∨ point = .returned →
        s.owner .m_mutex = some .poll) ∧
      (s.place .poll = .before (.poll_event .sleep) ∨
          (∃ mutex next, s.place .poll = .asleep mutex next) →
        ∀ mutex, s.owner mutex ≠ some .poll) ∧
      (∀ thread, ∀ point ∈ entry_returns, s.place thread = .before point →
        ∀ mutex, s.owner mutex ≠ some thread) ∧
      ∀ thread, ¬ Relation.TransGen (s.WaitsFor code) thread thread := by
  obtain ⟨s, hrun, _⟩ : ∃ s : Locks.State (Thread Unit) Point Mutex,
      Machine.run (Locks.step code) (Locks.init Thread.start)
        [(.poll, .poll .lock), (.poll, .poller), (.poll, .poll .call), (.poll, .poll_event .head),
          (.poll, .poll_event .unlock), (.poll, .poller), (.poll, .poller),
          (.poll, .poll_event .wait), (.poll, .poller), (.caller (), .flush .lock),
          (.caller (), .caller), (.listener, .connection .enter), (.listener, .connection .lock),
          (.listener, .listener)] = some s ∧
      (s.owner .m_mutex, s.owner .m_pclient_mutex_, s.owner .m_msg_queue_mtx) =
        (some (.caller ()), some .listener, none) :=
    Option.map_eq_some_iff.mp (by decide)
  exact ⟨s, hrun, lock_protocol _ s hrun⟩

end Locking

end SensorVhal
