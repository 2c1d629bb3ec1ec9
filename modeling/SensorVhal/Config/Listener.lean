import SensorVhal.Config.Calls
import SensorVhal.Sock.Admission

namespace SensorVhal

-- Where the listener thread stands: at the head of its loop, in
-- client_connected_callback with the entries left to send, before
-- check_new_message, or in its scan with the indices left to visit.
inductive ListenerPc
  | check_new_connection
  | client_connected_callback (rest : List Handle)
  | check_new_message
  | scan (rest : List ClientIndex)
  deriving DecidableEq

-- The entries that the replay has not come to.
def ListenerPc.unsent : ListenerPc → List Handle
  | client_connected_callback rest => rest
  | _ => []

-- The server and the configuration, with every message completed. `sent` has
-- the messages to a client since it connected, the last one first, each with
-- the handle of its entry, `calls` the calls of the HAL so far, and `sent_after`
-- how many of them there were when the entry of a handle was last sent.
structure ConfigServer where
  server : SockServer
  pc : ListenerPc
  m_sensor_config_status : ConfigStatus
  sent : Proxy → List (Handle × SensorConfigMsg)
  calls : List ConfigCall
  sent_after : Handle → Nat

-- The calls of the HAL come in between the steps of the listener. Each of them,
-- and each entry of a replay, is under m_mutex.
inductive ListenerEvent
  | call (call : ConfigCall)
  | check_new_connection (attempt : Attempt)
  | client_connected_callback
  | check_new_message (readable : Bool)
  | scan (status : ConnStatus)

namespace ConfigServer

def init : ConfigServer where
  server := SockServer.init
  pc := .check_new_connection
  m_sensor_config_status := fun _ => ⟨0, 0, 0⟩
  sent := fun _ => []
  calls := []
  sent_after := fun _ => 0

def sensor_device_send_config_msg (s : ConfigServer) (i : Handle) : ConfigServer :=
  match s.server.m_pclient_ with
  | none => s
  | some client =>
    { s with
      sent := Function.update s.sent client ((i, s.m_sensor_config_status i) :: s.sent client)
      sent_after := Function.update s.sent_after i s.calls.length }

def call (hdr : SensorsHeader) (s : ConfigServer) (call : ConfigCall) : ConfigServer :=
  let s := { s with calls := s.calls ++ [call] }
  match call.configure hdr s.m_sensor_config_status with
  | .returned _ => s
  | .stored handle status sends =>
    let s := { s with m_sensor_config_status := status }
    if sends then s.sensor_device_send_config_msg handle else s

def step (hdr : SensorsHeader) (s : ConfigServer) (event : ListenerEvent) : Option ConfigServer :=
  if s.server.history.overrun then none
  else
    match event, s.pc with
    | .call call, _ => some (s.call hdr call)
    | .check_new_connection attempt, .check_new_connection =>
      if s.server.possible attempt then
        match s.server.check_new_connection attempt with
        | (none, server) =>
          some { s with
            server
            pc := .check_new_message }
        | (some client, server) =>
          some { s with
            server
            pc := .client_connected_callback (List.finRange 9)
            sent := Function.update s.sent client [] }
      else none
    | .client_connected_callback, .client_connected_callback [] =>
      some { s with pc := .check_new_message }
    | .client_connected_callback, .client_connected_callback (i :: rest) =>
      some { s.sensor_device_send_config_msg i with pc := .client_connected_callback rest }
    | .check_new_message readable, .check_new_message =>
      some { s with pc := if readable then .scan (List.finRange 255) else .check_new_connection }
    | .scan status, .scan (i :: rest) =>
      match s.server.visit i status with
      | (some _, server) =>
        some { s with
          server
          pc := .check_new_connection }
      | (none, server) =>
        some { s with
          server
          pc := .scan rest }
    | .scan _, .scan [] =>
      some { s with
        server := s.server.choose_default
        pc := .check_new_connection }
    | _, _ => none

-- The steps, one by one.
inductive Moves (hdr : SensorsHeader) (s : ConfigServer) : ListenerEvent → ConfigServer → Prop
  | call (call : ConfigCall) : Moves hdr s (.call call) (s.call hdr call)
  | refuse (attempt : Attempt) (server : SockServer) (hpc : s.pc = .check_new_connection)
      (hserver : s.server.check_new_connection attempt = (none, server)) :
      Moves hdr s (.check_new_connection attempt)
        { s with
          server
          pc := .check_new_message }
  | connect (attempt : Attempt) (client : Proxy) (server : SockServer)
      (hpc : s.pc = .check_new_connection) (hpossible : s.server.possible attempt)
      (hserver : s.server.check_new_connection attempt = (some client, server)) :
      Moves hdr s (.check_new_connection attempt)
        { s with
          server
          pc := .client_connected_callback (List.finRange 9)
          sent := Function.update s.sent client [] }
  | replayed (hpc : s.pc = .client_connected_callback []) :
      Moves hdr s .client_connected_callback { s with pc := .check_new_message }
  | replay (i : Handle) (rest : List Handle) (hpc : s.pc = .client_connected_callback (i :: rest)) :
      Moves hdr s .client_connected_callback
        { s.sensor_device_send_config_msg i with pc := .client_connected_callback rest }
  | select (readable : Bool) (hpc : s.pc = .check_new_message) :
      Moves hdr s (.check_new_message readable)
        { s with pc := if readable then .scan (List.finRange 255) else .check_new_connection }
  | visit (i : ClientIndex) (rest : List ClientIndex) (status : ConnStatus) (ret : Option Int)
      (server : SockServer) (pc : ListenerPc) (hpc : s.pc = .scan (i :: rest))
      (hserver : s.server.visit i status = (ret, server)) (hunsent : pc.unsent = []) :
      Moves hdr s (.scan status)
        { s with
          server
          pc }
  | choose (status : ConnStatus) (hpc : s.pc = .scan []) :
      Moves hdr s (.scan status)
        { s with
          server := s.server.choose_default
          pc := .check_new_connection }

variable {hdr : SensorsHeader} {s t : ConfigServer} {event : ListenerEvent}

theorem moves_of_step (hstep : s.step hdr event = some t) :
    s.server.history.overrun = false ∧ Moves hdr s event t := by
  unfold step at hstep
  split at hstep
  · cases hstep
  · rename_i hoverrun
    refine ⟨Bool.eq_false_iff.mpr hoverrun, ?_⟩
    split at hstep
    · obtain rfl := Option.some.inj hstep
      exact .call _
    · rename_i hpc
      split at hstep
      · rename_i hpossible
        split at hstep
        · rename_i server hserver
          obtain rfl := Option.some.inj hstep
          exact .refuse _ server hpc hserver
        · rename_i client server hserver
          obtain rfl := Option.some.inj hstep
          exact .connect _ client server hpc hpossible hserver
      · cases hstep
    · rename_i hpc
      obtain rfl := Option.some.inj hstep
      exact .replayed hpc
    · rename_i i rest hpc
      obtain rfl := Option.some.inj hstep
      exact .replay i rest hpc
    · rename_i hpc
      obtain rfl := Option.some.inj hstep
      exact .select _ hpc
    · rename_i status i rest hpc
      split at hstep
      · rename_i ret server hserver
        obtain rfl := Option.some.inj hstep
        exact .visit i rest status (some ret) server .check_new_connection hpc hserver rfl
      · rename_i server hserver
        obtain rfl := Option.some.inj hstep
        exact .visit i rest status none server (.scan rest) hpc hserver rfl
    · rename_i status hpc
      obtain rfl := Option.some.inj hstep
      exact .choose status hpc
    · cases hstep

section Send

variable (s : ConfigServer) (i : Handle)

@[simp] theorem send_server : (s.sensor_device_send_config_msg i).server = s.server := by
  unfold sensor_device_send_config_msg
  split <;> rfl

@[simp] theorem send_pc : (s.sensor_device_send_config_msg i).pc = s.pc := by
  unfold sensor_device_send_config_msg
  split <;> rfl

@[simp] theorem send_status :
    (s.sensor_device_send_config_msg i).m_sensor_config_status = s.m_sensor_config_status := by
  unfold sensor_device_send_config_msg
  split <;> rfl

@[simp] theorem send_calls : (s.sensor_device_send_config_msg i).calls = s.calls := by
  unfold sensor_device_send_config_msg
  split <;> rfl

-- A message of one entry leaves the others as they were last sent.
theorem send_sent_after {j : Handle} (h : j ≠ i) :
    (s.sensor_device_send_config_msg i).sent_after j = s.sent_after j := by
  unfold sensor_device_send_config_msg
  split
  · rfl
  · exact Function.update_of_ne h _ _

theorem send_with_pc :
    { s.sensor_device_send_config_msg i with pc := s.pc } = s.sensor_device_send_config_msg i := by
  unfold sensor_device_send_config_msg
  split <;> rfl

variable {s} {client : Proxy}

theorem send_default (h : s.server.m_pclient_ = some client) :
    s.sensor_device_send_config_msg i =
      { s with
        sent := Function.update s.sent client ((i, s.m_sensor_config_status i) :: s.sent client)
        sent_after := Function.update s.sent_after i s.calls.length } := by
  unfold sensor_device_send_config_msg
  rw [h]

theorem send_none (h : s.server.m_pclient_ = none) : s.sensor_device_send_config_msg i = s := by
  unfold sensor_device_send_config_msg
  rw [h]

-- Only the default client gets the message.
theorem send_other (h : s.server.m_pclient_ ≠ some client) :
    (s.sensor_device_send_config_msg i).sent client = s.sent client := by
  cases hdefault : s.server.m_pclient_ with
  | none => rw [send_none i hdefault]
  | some other =>
      have hne : client ≠ other := by
        rintro rfl
        exact h hdefault
      rw [send_default i hdefault]
      exact Function.update_of_ne hne _ _

end Send

theorem refused_server {attempt : Attempt} {server : SockServer}
    (h : s.server.check_new_connection attempt = (none, server)) : server = s.server := by
  rcases SockServer.check_new_connection_cases s.server attempt with
    ⟨_, hsame⟩ | ⟨_, id, _, hconnect⟩
  · exact (congrArg Prod.snd (hsame.symm.trans h)).symm
  · cases hconnect.symm.trans h

-- A call stores the entry of a known handle, and sends it or not.
theorem call_cases (hdr : SensorsHeader) (s : ConfigServer) (call : ConfigCall) :
    ((∀ handle : Handle, call.handle ≠ handle.val) ∧
      s.call hdr call = { s with calls := s.calls ++ [call] }) ∨
    ∃ (handle : Handle) (stored : ConfigServer), call.handle = handle.val ∧
      stored = { s with
        m_sensor_config_status := Function.update s.m_sensor_config_status handle
          (call.entry (handle_type hdr handle) (s.m_sensor_config_status handle))
        calls := s.calls ++ [call] } ∧
      s.call hdr call =
        if call.sends then stored.sensor_device_send_config_msg handle else stored := by
  rcases call.configure_cases hdr s.m_sensor_config_status with
    ⟨hunknown, hconfigure⟩ | ⟨handle, hhandle, hconfigure⟩
  · refine .inl ⟨hunknown, ?_⟩
    simp only [ConfigServer.call, hconfigure]
  · refine .inr ⟨handle, _, hhandle, rfl, ?_⟩
    simp only [ConfigServer.call, hconfigure]

-- The loop of the listener, from the indices that are left, is the scan of
-- check_new_message, if no call comes in between.
theorem scan_run (hdr : SensorsHeader) (status : ClientIndex → ConnStatus)
    {rest : List ClientIndex} {s : ConfigServer} (hoverrun : s.server.history.overrun = false)
    (hpc : s.pc = .scan rest) :
    ∃ events, Machine.run (step hdr) s events = some { s with
      server := match SockServer.scan status rest s.server with
        | (some _, server) => server
        | (none, server) => server.choose_default
      pc := .check_new_connection } := by
  induction rest generalizing s with
  | nil =>
      refine ⟨[.scan .normal], ?_⟩
      rw [Machine.run_singleton]
      unfold step
      rw [if_neg (Bool.eq_false_iff.mp hoverrun)]
      simp only [hpc]
      rfl
  | cons i rest ih =>
      cases hvisit : s.server.visit i (status i) with
      | mk ret server =>
          have hstep : step hdr s (.scan (status i)) = some { s with
              server
              pc := if ret = none then .scan rest else .check_new_connection } := by
            unfold step
            rw [if_neg (Bool.eq_false_iff.mp hoverrun)]
            simp only [hpc, hvisit]
            cases ret <;> rfl
          have hserver : server.history.overrun = false := by
            rcases SockServer.visit_cases s.server i (status i) with hsame | ⟨client, _, _, hgone⟩
            · cases hsame.symm.trans hvisit
              exact hoverrun
            · cases hgone.symm.trans hvisit
              exact (SockServer.disconnected_history s.server i client).2.trans hoverrun
          cases ret with
          | some ret =>
              refine ⟨[.scan (status i)], ?_⟩
              rw [Machine.run_singleton, hstep, SockServer.scan, hvisit]
              rfl
          | none =>
              obtain ⟨events, hrun⟩ := ih (s := { s with
                server
                pc := .scan rest }) hserver rfl
              refine ⟨.scan (status i) :: events, Machine.run_cons_some.mpr ⟨_, hstep, ?_⟩⟩
              rw [SockServer.scan, hvisit]
              exact hrun

-- Without calls in between, the steps of the listener are those of the server.
theorem check_new_message_run (hdr : SensorsHeader) (status : Option (ClientIndex → ConnStatus))
    {s : ConfigServer} (hoverrun : s.server.history.overrun = false)
    (hpc : s.pc = .check_new_message) :
    ∃ events, Machine.run (step hdr) s events = some { s with
      server := (s.server.check_new_message status).2
      pc := .check_new_connection } := by
  have hstep : ∀ readable, step hdr s (.check_new_message readable) = some { s with
      pc := if readable then .scan (List.finRange 255) else .check_new_connection } := by
    intro readable
    unfold step
    rw [if_neg (Bool.eq_false_iff.mp hoverrun)]
    simp only [hpc]
  cases status with
  | none => exact ⟨[.check_new_message false], (Machine.run_singleton _ _).trans (hstep false)⟩
  | some status =>
      obtain ⟨events, hrun⟩ := scan_run hdr status (s := { s with
        pc := .scan (List.finRange 255) }) hoverrun rfl
      refine ⟨.check_new_message true :: events, Machine.run_cons_some.mpr ⟨_, hstep true, ?_⟩⟩
      refine hrun.trans ?_
      rw [SockServer.check_new_message]
      cases SockServer.scan status (List.finRange 255) s.server with
      | mk ret server => cases ret <;> rfl

end ConfigServer

end SensorVhal
