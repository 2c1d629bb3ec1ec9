import SensorVhal.Lib.Session
import SensorVhal.Sock.Clients

namespace SensorVhal

-- SOCK_conn_type_t
inductive SockConnType
  | INET_SOCK
  | UNIX_SOCK
  | ABS_SOCK
  deriving DecidableEq

-- sizeof(sun_path)
abbrev SUN_PATH_LEN : Nat := 108

abbrev SOCK_MAX_PATH_LEN : Nat := 128

-- sock_client_t
structure ClientSocket where
  socketfd : Int
  path : List UInt8
  deriving DecidableEq

-- What the system answers to the calls of sock_client_init.
structure InitCalls where
  socket : Int
  reuseaddr : Int
  nodelay : Int
  connect : Int
  allocated : Bool
  ioctl : Int

-- What it answers to those of sock_client_check_connect.
structure CheckCalls where
  nsel : Int
  isset : Bool
  nread : Int

-- sock_client_init returns, or ends the process.
inductive InitResult
  | exited
  | returned (client : Option ClientSocket)

section Calls

variable (type : SockConnType) (server_path : List UInt8) (calls : InitCalls)

-- The descriptor is closed on this way out of sock_client_init.
def InitCalls.give_up (result : InitResult) : InitResult × List (Session.Mark Int) :=
  (result, [.opened calls.socket, .closed calls.socket])

-- sock_client_init from the return of connect.
def sock_client_create : InitResult × List (Session.Mark Int) :=
  if calls.connect < 0 then calls.give_up (.returned none)
  else if ¬ calls.allocated then calls.give_up (.returned none)
  else if calls.ioctl < 0 then calls.give_up (.returned none)
  else if server_path.length > SOCK_MAX_PATH_LEN - 1 then calls.give_up (.returned none)
  else
    let client : ClientSocket := ⟨calls.socket, server_path.take (SOCK_MAX_PATH_LEN - 1)⟩
    (.returned (some client), [.opened calls.socket])

def sock_client_init : InitResult × List (Session.Mark Int) :=
  if calls.socket < 0 then (.returned none, [])
  else
    match type with
    | .INET_SOCK =>
      if calls.reuseaddr < 0 then calls.give_up .exited
      else if calls.nodelay < 0 then calls.give_up .exited
      else sock_client_create server_path calls
    | .UNIX_SOCK =>
      if server_path.length > SUN_PATH_LEN - 1 then calls.give_up (.returned none)
      else sock_client_create server_path calls
    | .ABS_SOCK => sock_client_create server_path calls

def sock_client_close (client : Option ClientSocket) : List (Session.Mark Int) :=
  match client with
  | none => []
  | some client => [.closed client.socketfd]

def sock_client_check_connect (client : Option ClientSocket) (calls : CheckCalls) : ConnStatus :=
  match client with
  | none => .normal
  | some _ =>
    if calls.nsel = -1 ∨ calls.nsel = 0 then .normal
    else if calls.isset then if calls.nread ≠ 0 then .readable else .disconnect
    else .normal

end Calls

-- Where the listener thread stands. `connect` is the head of the loop of
-- connect_to_server, `working` its test of m_be_working, `loop` the head of the
-- loop of listener.
inductive ClientPc
  | idle
  | connect
  | working
  | connected
  | loop
  | check
  | message
  | disconnected
  | close
  | quit
  | exited
  | destroyed
  deriving DecidableEq

-- Which callbacks are registered.
structure ClientCallbacks where
  m_connected_callback : Bool
  m_listener_callback : Bool
  m_disconnected_callback : Bool

-- A call of a callback, with m_client at that time: `opened` is the connected,
-- `used` the listener and `closed` the disconnected callback.
abbrev CallbackMark := Session.Mark (Option ClientSocket)

def ClientCallbacks.registered (callbacks : ClientCallbacks) : CallbackMark → Bool
  | .opened _ => callbacks.m_connected_callback
  | .used _ => callbacks.m_listener_callback
  | .closed _ => callbacks.m_disconnected_callback

-- The program reads none of the last three: where a callback would be called,
-- where one was called, and what happened to descriptors.
structure SockClient where
  m_client : Option ClientSocket
  m_be_working : Bool
  pc : ClientPc
  reached : List CallbackMark
  called : List CallbackMark
  descriptors : List (Session.Mark Int)

inductive ClientEvent
  | start
  | stop
  | init (calls : InitCalls)
  | check (calls : CheckCalls)
  | go
  | destroy

namespace SockClient

def init : SockClient := ⟨none, false, .idle, [], [], []⟩

variable (type : SockConnType) (server_path : List UInt8) (callbacks : ClientCallbacks)

def call (s : SockClient) (mark : CallbackMark) : SockClient :=
  { s with
    reached := s.reached ++ [mark]
    called := if callbacks.registered mark then s.called ++ [mark] else s.called }

-- m_client = sock_client_init(...)
def init_client (s : SockClient) (calls : InitCalls) : SockClient :=
  match sock_client_init type server_path calls with
  | (.exited, marks) => { s with pc := .exited, descriptors := s.descriptors ++ marks }
  | (.returned client, marks) =>
    { s with m_client := client, pc := .working, descriptors := s.descriptors ++ marks }

-- sock_client_close(m_client), m_client = NULL
def finish (s : SockClient) (pc : ClientPc) : SockClient :=
  { s with
    m_client := none
    pc := pc
    descriptors := s.descriptors ++ sock_client_close s.m_client }

-- A move of the listener thread that the system has no part in.
def go (s : SockClient) : Option SockClient :=
  match s.pc with
  | .connect => s.m_client.map fun _ => { s with pc := .connected }
  | .working => some { s with pc := if s.m_be_working then .connect else .loop }
  | .connected => some { s.call callbacks (.opened s.m_client) with pc := .loop }
  | .loop => some { s with pc := if s.m_be_working then .check else .quit }
  | .message => some { s.call callbacks (.used s.m_client) with pc := .loop }
  | .disconnected => some { s.call callbacks (.closed s.m_client) with pc := .close }
  | .close => some (s.finish .connect)
  | _ => none

def status_pc : ConnStatus → ClientPc
  | .normal => .loop
  | .readable => .message
  | .disconnect => .disconnected

-- stop() may come at any time from any thread. The destructor, whose call of
-- stop() is one of these, joins the thread before it closes m_client.
def step (s : SockClient) : ClientEvent → Option SockClient
  | .start => if s.pc = .idle then some { s with m_be_working := true, pc := .connect } else none
  | .stop => some { s with m_be_working := false }
  | .init calls =>
    if s.pc = .connect ∧ s.m_client = none then some (s.init_client type server_path calls)
    else none
  | .check calls =>
    if s.pc = .check then
      some { s with pc := status_pc (sock_client_check_connect s.m_client calls) }
    else none
  | .go => s.go callbacks
  | .destroy => if s.pc = .quit ∨ s.pc = .idle then some (s.finish .destroyed) else none

-- What sock_client_init leaves open is the descriptor of what it returns.
theorem sock_client_init_descriptors (calls : InitCalls) :
    (∃ marks, sock_client_init type server_path calls = (.exited, marks) ∧
      Machine.run Session.step none marks = some none) ∨
    ∃ client marks, sock_client_init type server_path calls = (.returned client, marks) ∧
      Machine.run Session.step none marks = some (client.map (·.socketfd)) := by
  have hclosed : Machine.run Session.step none
      [.opened calls.socket, .closed calls.socket] = some none := by
    simp [Session.step]
  have hcreate : ∃ client marks, sock_client_create server_path calls = (.returned client, marks) ∧
      Machine.run Session.step none marks = some (client.map (·.socketfd)) := by
    unfold sock_client_create
    split
    · exact ⟨none, _, rfl, hclosed⟩
    split
    · exact ⟨none, _, rfl, hclosed⟩
    split
    · exact ⟨none, _, rfl, hclosed⟩
    split
    · exact ⟨none, _, rfl, hclosed⟩
    · exact ⟨some _, _, rfl, rfl⟩
  unfold sock_client_init
  split
  · exact .inr ⟨none, [], rfl, rfl⟩
  cases type with
  | INET_SOCK =>
      simp only
      split
      · exact .inl ⟨_, rfl, hclosed⟩
      split
      · exact .inl ⟨_, rfl, hclosed⟩
      · exact .inr hcreate
  | UNIX_SOCK =>
      simp only
      split
      · exact .inr ⟨none, _, rfl, hclosed⟩
      · exact .inr hcreate
  | ABS_SOCK => exact .inr hcreate

-- Which session of callbacks is running. Between the return of a successful
-- sock_client_init and the connected callback there is none, and none follows
-- if stop() came in between.
def Running (s : SockClient) (session : Option (Option ClientSocket)) : Prop :=
  match s.pc with
  | .idle | .connect | .working => session = none
  | .connected | .close => session = none ∧ s.m_client ≠ none
  | .loop => session = none ∧ s.m_be_working = false ∨
      session = some s.m_client ∧ s.m_client ≠ none
  | .check | .message | .disconnected => session = some s.m_client ∧ s.m_client ≠ none
  | .quit | .exited | .destroyed => True

structure Orderly (s : SockClient) : Prop where
  called : s.called = s.reached.filter callbacks.registered
  callbacks : ∃ session, Machine.run Session.step none s.reached = some session ∧ s.Running session
  client : ∀ mark ∈ s.reached, mark.value ≠ none
  descriptors : Machine.run Session.step none s.descriptors = some (s.m_client.map (·.socketfd))
  destroyed : s.pc = .destroyed → s.m_client = none

section Steps

variable {type : SockConnType} {server_path : List UInt8} {callbacks : ClientCallbacks}
  {s next : SockClient}

theorem orderly_init : (init).Orderly callbacks where
  called := rfl
  callbacks := ⟨none, rfl, rfl⟩
  client := nofun
  descriptors := rfl
  destroyed := nofun

theorem Running.stop {session : Option (Option ClientSocket)} (h : s.Running session) :
    ({ s with m_be_working := false } : SockClient).Running session := by
  cases hpc : s.pc with
  | loop =>
      simp only [Running, hpc] at h ⊢
      exact h.imp_left fun hnone => ⟨hnone.1, trivial⟩
  | quit | exited | destroyed => simp only [Running]
  | _ => simpa only [Running, hpc] using h

-- A move that calls nothing and leaves the client.
theorem Orderly.move (h : s.Orderly callbacks) {working : Bool} {pc : ClientPc}
    (hpc : pc = .destroyed → s.m_client = none)
    (hrunning : ∀ session, s.Running session →
      ({ s with m_be_working := working, pc := pc } : SockClient).Running session) :
    ({ s with m_be_working := working, pc := pc } : SockClient).Orderly callbacks := by
  obtain ⟨session, hsession, hstands⟩ := h.callbacks
  exact ⟨h.called, ⟨session, hsession, hrunning session hstands⟩, h.client, h.descriptors, hpc⟩

theorem Orderly.call (h : s.Orderly callbacks) {mark : CallbackMark} {pc : ClientPc}
    (hpc : pc ≠ .destroyed)
    (hrunning : ∀ session, s.Running session → mark.value ≠ none ∧
      ∃ next, Session.step session mark = some next ∧
        ({ s.call callbacks mark with pc := pc } : SockClient).Running next) :
    ({ s.call callbacks mark with pc := pc } : SockClient).Orderly callbacks := by
  obtain ⟨session, hsession, hstands⟩ := h.callbacks
  obtain ⟨hmark, next, hstep, hnext⟩ := hrunning session hstands
  refine ⟨?_, ⟨next, ?_, hnext⟩, ?_, h.descriptors, fun hd => absurd hd hpc⟩
  · show (if callbacks.registered mark then s.called ++ [mark] else s.called) =
      (s.reached ++ [mark]).filter callbacks.registered
    rw [h.called, List.filter_append]
    by_cases hregistered : callbacks.registered mark
    · simp [hregistered]
    · simp [hregistered]
  · apply Machine.run_append_some.mpr
    exact ⟨session, hsession, (Machine.run_singleton ..).trans hstep⟩
  · intro seen hseen
    rcases List.mem_append.mp hseen with hold | hnew
    · exact h.client seen hold
    · rw [List.mem_singleton.mp hnew]
      exact hmark

theorem Orderly.init_client (h : s.Orderly callbacks) (hpc : s.pc = .connect)
    (hclient : s.m_client = none) (calls : InitCalls) :
    (s.init_client type server_path calls).Orderly callbacks := by
  obtain ⟨session, hsession, hstands⟩ := h.callbacks
  have hnone : session = none := by
    simpa [Running, hpc] using hstands
  have hopen := h.descriptors
  rw [hclient, Option.map_none] at hopen
  unfold SockClient.init_client
  rcases sock_client_init_descriptors type server_path calls with
    ⟨marks, hinit, hmarks⟩ | ⟨client, marks, hinit, hmarks⟩
  · rw [hinit]
    refine ⟨h.called, ⟨session, hsession, trivial⟩, h.client, ?_, nofun⟩
    simp only [hclient, Option.map_none]
    exact Machine.run_append_some.mpr ⟨none, hopen, hmarks⟩
  · rw [hinit]
    refine ⟨h.called, ⟨session, hsession, hnone⟩, h.client, ?_, nofun⟩
    exact Machine.run_append_some.mpr ⟨none, hopen, hmarks⟩

theorem Orderly.finish (h : s.Orderly callbacks) {pc : ClientPc}
    (hrunning : ∀ session, s.Running session → (s.finish pc).Running session) :
    (s.finish pc).Orderly callbacks := by
  obtain ⟨session, hsession, hstands⟩ := h.callbacks
  refine ⟨h.called, ⟨session, hsession, hrunning session hstands⟩, h.client, ?_, fun _ => rfl⟩
  refine Machine.run_append_some.mpr ⟨_, h.descriptors, ?_⟩
  cases s.m_client with
  | none => rfl
  | some client => simp [sock_client_close, Session.step, SockClient.finish]

theorem Orderly.go (h : s.Orderly callbacks) (hgo : s.go callbacks = some next) :
    next.Orderly callbacks := by
  unfold SockClient.go at hgo
  cases hpc : s.pc with
  | idle | check | quit | exited | destroyed =>
      rw [hpc] at hgo
      cases hgo
  | connect =>
      rw [hpc] at hgo
      obtain ⟨client, hclient, rfl⟩ := Option.map_eq_some_iff.mp hgo
      refine h.move nofun fun session hstands => ⟨?_, by simp [hclient]⟩
      simpa [Running, hpc] using hstands
  | working =>
      rw [hpc] at hgo
      obtain rfl := Option.some.inj hgo
      refine h.move (by split <;> nofun) fun session hstands => ?_
      have hnone : session = none := by simpa [Running, hpc] using hstands
      by_cases hworking : s.m_be_working
      · simpa [Running, hworking] using hnone
      · simp [Running, hworking, hnone]
  | connected =>
      rw [hpc] at hgo
      obtain rfl := Option.some.inj hgo
      refine h.call nofun fun session hstands => ?_
      simp only [Running, hpc] at hstands
      exact ⟨hstands.2, some s.m_client, if_pos hstands.1, .inr ⟨rfl, hstands.2⟩⟩
  | loop =>
      rw [hpc] at hgo
      obtain rfl := Option.some.inj hgo
      refine h.move (by split <;> nofun) fun session hstands => ?_
      simp only [Running, hpc] at hstands
      rcases hstands with ⟨-, hstopped⟩ | hsession
      · simp [Running, hstopped]
      · by_cases hworking : s.m_be_working
        · simpa [Running, hworking] using hsession
        · simp [Running, hworking]
  | message =>
      rw [hpc] at hgo
      obtain rfl := Option.some.inj hgo
      refine h.call nofun fun session hstands => ?_
      simp only [Running, hpc] at hstands
      have hstep : Session.step session (.used s.m_client) = some (some s.m_client) := by
        simp [Session.step, hstands.1]
      exact ⟨hstands.2, some s.m_client, hstep, .inr ⟨rfl, hstands.2⟩⟩
  | disconnected =>
      rw [hpc] at hgo
      obtain rfl := Option.some.inj hgo
      refine h.call nofun fun session hstands => ?_
      simp only [Running, hpc] at hstands
      exact ⟨hstands.2, none, if_pos hstands.1, rfl, hstands.2⟩
  | close =>
      rw [hpc] at hgo
      obtain rfl := Option.some.inj hgo
      refine h.finish fun session hstands => ?_
      simp only [Running, hpc] at hstands
      exact hstands.1

theorem orderly_step {event : ClientEvent} (h : s.Orderly callbacks)
    (hstep : s.step type server_path callbacks event = some next) : next.Orderly callbacks := by
  cases event with
  | start =>
      obtain ⟨hpc, hnext⟩ := Option.ite_none_right_eq_some.mp hstep
      obtain rfl := Option.some.inj hnext
      refine h.move nofun fun session hstands => ?_
      simpa [Running, hpc] using hstands
  | stop =>
      obtain rfl := Option.some.inj hstep
      exact h.move h.destroyed fun session hstands => hstands.stop
  | init calls =>
      obtain ⟨⟨hpc, hclient⟩, hnext⟩ := Option.ite_none_right_eq_some.mp hstep
      obtain rfl := Option.some.inj hnext
      exact h.init_client hpc hclient calls
  | check calls =>
      obtain ⟨hpc, hnext⟩ := Option.ite_none_right_eq_some.mp hstep
      obtain rfl := Option.some.inj hnext
      refine h.move ?_ fun session hstands => ?_
      · cases sock_client_check_connect s.m_client calls <;> nofun
      · simp only [Running, hpc] at hstands
        cases sock_client_check_connect s.m_client calls with
        | normal => exact .inr hstands
        | readable => exact hstands
        | disconnect => exact hstands
  | go => exact h.go hstep
  | destroy =>
      obtain ⟨hpc, hnext⟩ := Option.ite_none_right_eq_some.mp hstep
      obtain rfl := Option.some.inj hnext
      exact h.finish fun session hstands => trivial

end Steps

-- The law of every run of a SockClient. `reached` is where its callbacks are
-- called, if they are registered.
theorem session_protocol (type : SockConnType) (server_path : List UInt8)
    (callbacks : ClientCallbacks) (events : List ClientEvent) (s : SockClient)
    (hrun : Machine.run (step type server_path callbacks) init events = some s) :
    s.called = s.reached.filter callbacks.registered ∧
    Session.Alternating s.reached ∧ Session.Within s.reached ∧
    (∀ mark ∈ s.reached, mark.value ≠ none) ∧
    (∀ seen, seen <+: s.descriptors → (Session.held seen).length ≤ 1) ∧
    Session.held s.descriptors = (s.m_client.map (·.socketfd)).toList ∧
    (s.pc = .destroyed → Session.held s.descriptors = []) := by
  have horder : s.Orderly callbacks :=
    Machine.invariant_always (fun _ _ _ h hstep => orderly_step h hstep) orderly_init hrun
  obtain ⟨session, hsession, -⟩ := horder.callbacks
  have hheld := (Session.tells_of_run horder.descriptors).held
  refine ⟨horder.called, Session.alternating_of_run hsession, Session.within_of_run hsession,
    horder.client, fun seen hseen => Session.held_length_le horder.descriptors hseen, hheld, ?_⟩
  intro hdestroyed
  rw [hheld, horder.destroyed hdestroyed, Option.map_none, Option.toList_none]

-- A session with a message that the server ends, a connection that is refused,
-- and one that stop() cuts before the connected callback.
theorem session_protocol_reconnects :
    ∃ s, Machine.run (step .UNIX_SOCK [47, 105, 112, 99] ⟨true, true, true⟩) init
        [.start, .init ⟨3, 0, 0, 0, true, 0⟩, .go, .go, .go, .go, .check ⟨1, true, 5⟩, .go, .go,
          .check ⟨1, true, 0⟩, .go, .go, .init ⟨3, 0, 0, -1, true, 0⟩, .go,
          .init ⟨4, 0, 0, 0, true, 0⟩, .stop, .go, .go, .destroy] = some s ∧
      s.called = s.reached.filter (ClientCallbacks.registered ⟨true, true, true⟩) ∧
      Session.Alternating s.reached ∧ Session.Within s.reached ∧
      (∀ mark ∈ s.reached, mark.value ≠ none) ∧
      (∀ seen, seen <+: s.descriptors → (Session.held seen).length ≤ 1) ∧
      Session.held s.descriptors = (s.m_client.map (·.socketfd)).toList ∧
      (s.pc = .destroyed → Session.held s.descriptors = []) := by
  obtain ⟨s, hrun, _⟩ : ∃ s, Machine.run (step .UNIX_SOCK [47, 105, 112, 99] ⟨true, true, true⟩)
        init [.start, .init ⟨3, 0, 0, 0, true, 0⟩, .go, .go, .go, .go, .check ⟨1, true, 5⟩, .go,
          .go, .check ⟨1, true, 0⟩, .go, .go, .init ⟨3, 0, 0, -1, true, 0⟩, .go,
          .init ⟨4, 0, 0, 0, true, 0⟩, .stop, .go, .go, .destroy] = some s ∧ s.pc = .destroyed :=
    Option.map_eq_some_iff.mp (by decide)
  exact ⟨s, hrun, session_protocol _ _ _ _ s hrun⟩

end SockClient

end SensorVhal
