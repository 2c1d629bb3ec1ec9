import SensorVhal.Sock.Admission
import SensorVhal.Sock.SocketFile

namespace SensorVhal

-- Where the thread stands that has the SockServer: in front of start, behind it, in
-- the destructor behind stop and behind join, and behind the destructor.
-- sock_server_init may end the process.
inductive OwnerPc
  | unstarted
  | running
  | stopped
  | joined
  | destroyed
  | exited
  deriving DecidableEq

-- Where SockServer::listener stands, `absent` without its thread.
inductive ListenPc
  | absent
  | head
  | connections
  | messages
  | returned
  deriving DecidableEq

-- The steps that the listener takes at most once m_be_working is false.
def ListenPc.left : ListenPc → Nat
  | absent | returned => 0
  | head => 1
  | messages => 2
  | connections => 3

theorem ListenPc.left_le (listener : ListenPc) : listener.left ≤ 3 := by
  cases listener <;> decide

-- A server with its two threads. client_slots are those of the tables. The last two
-- fields have the listening sockets that are open and the steps of the listener since
-- stop.
structure ServerLife where
  m_server : Option PathServer
  m_be_working : Bool
  owner : OwnerPc
  listener : ListenPc
  tables : SockServer
  sockets : List Int
  late : Nat

-- The owner calls start and the parts of the destructor, and the listener goes round
-- its loop.
inductive ServerEvent
  | start (sock_type build_id : PropertyValue) (k8s_env : Option (List UInt8))
    (calls : ServerCalls)
  | stop
  | join
  | destroy
  | test
  | check_new_connection (attempt : Attempt)
  | check_new_message (status : Option (ClientIndex → ConnStatus))

-- mConnType of the constructor of SensorDevice.
def sock_conn_type (sock_type : PropertyValue) : SockConnType :=
  if 0 < sock_type.chars.length then
    if sock_type.chars = literal "INET" then .INET_SOCK else .UNIX_SOCK
  else .UNIX_SOCK

def FileMark.closes : FileMark → Option Int
  | closed fd => some fd
  | _ => none

-- The descriptors that are closed, in order.
def closed_descriptors (marks : List FileMark) : List Int := marks.filterMap FileMark.closes

namespace ServerLife

def init : ServerLife := ⟨none, false, .unstarted, .absent, .init, [], 0⟩

variable (x : ServerLife)

def close (fd : Int) : ServerLife :=
  if fd ∈ x.sockets then { x with sockets := x.sockets.erase fd }
  else { x with tables := x.tables.close fd }

def delete_client (i : ClientIndex) : ServerLife :=
  match x.tables.m_clients i with
  | none => x
  | some client =>
    let history := x.tables.history
    { x with tables := { x.tables with
      proxies := Function.update x.tables.proxies client none
      m_clients := Function.update x.tables.m_clients i none
      history := if x.tables.proxies client = none then
          { history with redeleted := history.redeleted + 1 }
        else history } }

-- The loop over m_clients in start and in the destructor.
def delete_clients : ServerLife := (List.finRange 255).foldl delete_client x

def start (sock_type build_id : PropertyValue) (k8s_env : Option (List UInt8))
    (calls : ServerCalls) : ServerLife :=
  let x := { x with
    m_be_working := true
    sockets := if 0 ≤ calls.socket then calls.socket :: x.sockets else x.sockets }
  let (result, marks) := sock_server_init (sock_conn_type sock_type) build_id k8s_env calls
  let x := (closed_descriptors marks).foldl close x
  match result with
  | .exited => { x with owner := .exited }
  | .returned none => { x with m_server := none, owner := .running }
  | .returned (some server) =>
    let x := { x with
      m_server := some server
      tables := { x.tables with client_slots := server.client_slots } }
    { x.delete_clients with owner := .running, listener := .head }

-- sock_server_close(m_server)
def close_server : ServerLife :=
  match x.m_server with
  | none => x
  | some server =>
    let marks := sock_server_close (some { server with client_slots := x.tables.client_slots })
    let x := (closed_descriptors marks).foldl close x
    { x with tables := { x.tables with client_slots := fun _ => -1 } }

-- The destructor behind its join.
def destroy : ServerLife :=
  let x := { x.close_server with m_server := none }
  let x := x.delete_clients
  { x with tables := { x.tables with m_pclient_ := none }, owner := .destroyed }

-- A step of the listener to `listener`.
def go (listener : ListenPc) (tables : SockServer) : ServerLife :=
  { x with
    listener := listener
    tables := tables
    late := if x.m_be_working then x.late else x.late + 1 }

-- Nothing is said about the program behind a store past m_clients. A descriptor from
-- accept is not the listening socket.
def step (x : ServerLife) (event : ServerEvent) : Option ServerLife :=
  if x.tables.history.overrun then none
  else
    match event with
    | .start sock_type build_id k8s_env calls =>
      if x.owner = .unstarted then some (x.start sock_type build_id k8s_env calls) else none
    | .stop =>
      if x.owner = .running then some { x with m_be_working := false, owner := .stopped }
      else none
    | .join =>
      if x.owner = .stopped ∧ (x.listener = .absent ∨ x.listener = .returned) then
        some { x with owner := .joined }
      else none
    | .destroy => if x.owner = .joined then some x.destroy else none
    | .test =>
      if x.listener = .head then
        some (x.go (if x.m_be_working ∧ x.m_server.isSome then .connections else .returned)
          x.tables)
      else none
    | .check_new_connection attempt =>
      if x.listener = .connections ∧ attempt.accept ∉ x.sockets then
        (x.tables.step (.check_new_connection attempt)).map (x.go .messages)
      else none
    | .check_new_message status =>
      if x.listener = .messages then
        (x.tables.step (.check_new_message status)).map (x.go .head)
      else none

end ServerLife

section Init

variable {calls : ServerCalls} {marks : List FileMark}

-- What sock_server_init does with its descriptor: a server has it open, and without a
-- server it has been closed once.
def ServerCalls.Accounts (calls : ServerCalls) (out : ServerInit × List FileMark) : Prop :=
  match out.1 with
  | .exited => closed_descriptors out.2 = [] ∨ closed_descriptors out.2 = [calls.socket]
  | .returned none => closed_descriptors out.2 = [calls.socket]
  | .returned (some server) => server.socketfd = calls.socket ∧
      (server.client_slots = fun _ => -1) ∧ closed_descriptors out.2 = []

theorem closed_descriptors_append (marks rest : List FileMark) :
    closed_descriptors (marks ++ rest) = closed_descriptors marks ++ closed_descriptors rest :=
  List.filterMap_append

theorem closed_give_up (hmarks : closed_descriptors marks = []) (result : ServerInit) :
    closed_descriptors (calls.give_up marks result).2 = [calls.socket] := by
  show closed_descriptors (marks ++ [.closed calls.socket]) = _
  rw [closed_descriptors_append, hmarks]
  rfl

theorem accounts_give_up (hmarks : closed_descriptors marks = []) :
    calls.Accounts (calls.give_up marks (.returned none)) :=
  closed_give_up hmarks (.returned none)

theorem accounts_exit : calls.Accounts (calls.give_up [] .exited) :=
  .inr (closed_give_up rfl .exited)

theorem accounts_create (type : SockConnType) (hmarks : closed_descriptors marks = []) :
    calls.Accounts (sock_server_create type calls marks) := by
  unfold sock_server_create
  split
  · exact accounts_give_up hmarks
  · dsimp only
    split
    · exact .inl hmarks
    · exact ⟨rfl, rfl, hmarks⟩

theorem accounts_bind (build_id : PropertyValue) (k8s_env : Option (List UInt8)) :
    calls.Accounts (sock_server_bind build_id k8s_env calls) := by
  have hremoved : ∀ path, closed_descriptors
      (if calls.access ≠ -1 then [FileMark.unlinked path] else []) = [] := by
    intro path
    split <;> rfl
  unfold sock_server_bind
  dsimp only
  split
  · exact .inl rfl
  · split
    · exact accounts_give_up rfl
    · split
      · exact accounts_give_up (hremoved _)
      · rename_i file _
        have hbound : closed_descriptors ((if calls.access ≠ -1 then
            [FileMark.unlinked (socket_path build_id k8s_env)] else []) ++ [.bound file]) = [] := by
          rw [closed_descriptors_append, hremoved]
          rfl
        split
        · exact accounts_give_up hbound
        · exact accounts_create .UNIX_SOCK hbound

theorem accounts_init (type : SockConnType) (build_id : PropertyValue)
    (k8s_env : Option (List UInt8)) (hsocket : 0 ≤ calls.socket) :
    calls.Accounts (sock_server_init type build_id k8s_env calls) := by
  unfold sock_server_init
  rw [if_neg (Int.not_lt.mpr hsocket)]
  cases type with
  | INET_SOCK =>
      dsimp only
      split
      · exact accounts_exit
      · split
        · exact accounts_exit
        · split
          · exact accounts_give_up rfl
          · split
            · exact accounts_give_up rfl
            · exact accounts_create .INET_SOCK rfl
  | UNIX_SOCK => exact accounts_bind build_id k8s_env
  | ABS_SOCK => exact accounts_create .ABS_SOCK rfl

theorem init_without_socket (type : SockConnType) (build_id : PropertyValue)
    (k8s_env : Option (List UInt8)) (hsocket : ¬ 0 ≤ calls.socket) :
    sock_server_init type build_id k8s_env calls = (.returned none, []) := by
  unfold sock_server_init
  exact if_pos (Int.not_le.mp hsocket)

end Init

namespace SockServer

variable {s t : SockServer}

theorem connect_counts (s : SockServer) (attempt : Attempt) (id : SlotId) :
    (s.connect attempt id).history.misclosed = s.history.misclosed ∧
      (s.connect attempt id).history.redeleted = s.history.redeleted := by
  unfold connect add_client
  simp only [Function.update_self]
  split <;> exact ⟨rfl, rfl⟩

-- As long as no store went past m_clients, a step leaves the tables settled.
theorem Settled.step_within {event : SockEvent} (h : s.Settled)
    (hstep : s.step event = some t) :
    t.history.misclosed = 0 ∧ t.history.redeleted = 0 ∧
      (t.history.overrun = false → t.Settled) := by
  rcases step_cases hstep with ⟨attempt, rfl, hpossible, rfl⟩ | ⟨status, rfl, rfl⟩
  · rcases check_new_connection_cases s attempt with ⟨_, hsame⟩ | ⟨hok, id, hid, hconnect⟩
    · rw [hsame]
      exact ⟨h.closes, h.deletes, fun _ => h⟩
    · rw [hconnect]
      obtain ⟨hmisclosed, hredeleted⟩ := connect_counts s attempt id
      refine ⟨hmisclosed.trans h.closes, hredeleted.trans h.deletes, fun hrange => ?_⟩
      by_cases hlt : id.val < 255
      · have hempty := of_decide_eq_true (Table.lowest_eq (i := id) hid)
        exact h.connect (i := ⟨id.val, hlt⟩) hok.2.1 hpossible ((h.clients _).mpr hempty)
      · have hpast := (connect_history_past s attempt (Nat.not_lt.mp hlt)).2
        exact absurd (hpast.symm.trans hrange) (by decide)
  · have hnext := h.check_new_message status
    exact ⟨hnext.closes, hnext.deletes, fun _ => hnext⟩

end SockServer

namespace ServerLife

variable {x next : ServerLife}

-- Descriptors of clients are closed one after the other.
theorem foldl_close {fds : List Int} (hnodup : fds.Nodup)
    (hfds : ∀ fd ∈ fds, fd ∉ x.sockets ∧ 0 ≤ fd ∧ fd ∈ x.tables.history.descriptors) :
    fds.foldl close x =
      { x with tables := { x.tables with history := { x.tables.history with
        descriptors := x.tables.history.descriptors.diff fds } } } := by
  induction fds generalizing x with
  | nil => simp
  | cons fd fds ih =>
      obtain ⟨hsocket, hpos, hopen⟩ := hfds fd List.mem_cons_self
      obtain ⟨hnew, hrest⟩ := List.nodup_cons.mp hnodup
      have hclose : x.close fd =
          { x with tables := { x.tables with history := { x.tables.history with
            descriptors := x.tables.history.descriptors.erase fd } } } := by
        rw [close, if_neg hsocket, SockServer.close, if_neg (Int.not_lt.mpr hpos), if_pos hopen]
      rw [List.foldl_cons, hclose, ih hrest]
      · simp only [List.diff_cons]
      · intro other hother
        obtain ⟨hsocket', hpos', hopen'⟩ := hfds other (List.mem_cons_of_mem fd hother)
        have hne : other ≠ fd := fun he => hnew (he ▸ hother)
        exact ⟨hsocket', hpos', (List.mem_erase_of_ne hne).mpr hopen'⟩

theorem close_last_socket {fd : Int} (h : x.sockets = [fd]) :
    x.close fd = { x with sockets := [] } := by
  rw [close, h, if_pos (List.mem_singleton_self _)]
  simp

-- The descriptors in the slots are those of the clients that are open, each once.
theorem closed_slots (s : SockServer) (hs : s.Settled) (server : PathServer) :
    ∃ fds, closed_descriptors (sock_server_close
        (some { server with client_slots := s.client_slots })) = server.socketfd :: fds ∧
      fds.Nodup ∧ (∀ fd ∈ fds, 0 ≤ fd ∧ fd ∈ s.history.descriptors) ∧
      ∀ fd ∈ s.history.descriptors, fd ∈ fds := by
  let slots := (List.finRange 512).filter fun id => s.client_slots id ≠ -1
  have hslot : ∀ id, id ∈ slots ↔ s.client_slots id ≠ -1 := by simp [slots]
  refine ⟨slots.map s.client_slots, ?_, ?_, ?_, ?_⟩
  · have hunlinked : closed_descriptors
        (if server.type = .UNIX_SOCK then [.unlinked (c_str server.path)] else []) = [] := by
      split <;> rfl
    rw [sock_server_close, closed_descriptors_append, hunlinked, List.append_nil]
    show server.socketfd :: closed_descriptors (slots.map fun id => .closed (s.client_slots id)) = _
    rw [closed_descriptors, List.filterMap_map]
    exact congrArg _ (List.filterMap_eq_map (f := s.client_slots) ▸ rfl)
  · refine List.Nodup.map_on ?_ ((List.nodup_finRange 512).filter _)
    intro id hid id' _ hsame
    exact hs.distinct id id' hsame ((hslot id).mp hid)
  · intro fd hfd
    obtain ⟨id, hid, rfl⟩ := List.mem_map.mp hfd
    have hpos : 0 ≤ s.client_slots id := by
      by_contra hneg
      exact (hslot id).mp hid (hs.negative id (Int.not_le.mp hneg))
    exact ⟨hpos, (hs.open_ _).mpr ⟨hpos, id, rfl⟩⟩
  · intro fd hfd
    obtain ⟨hpos, id, rfl⟩ := (hs.open_ fd).mp hfd
    exact List.mem_map_of_mem ((hslot id).mpr (by omega))

-- sock_server_close leaves nothing open.
theorem close_server_spec (hs : x.tables.Settled) {server : PathServer}
    (hserver : x.m_server = some server) (hsockets : x.sockets = [server.socketfd]) :
    x.close_server =
      { x with
        sockets := []
        tables := { x.tables with
          client_slots := fun _ => -1
          history := { x.tables.history with descriptors := [] } } } := by
  obtain ⟨fds, hclosed, hnodup, hopen, hall⟩ := closed_slots x.tables hs server
  have hsocket := close_last_socket hsockets
  have hleft : x.tables.history.descriptors.diff fds = [] := by
    apply List.eq_nil_iff_forall_not_mem.mpr
    intro fd hfd
    obtain ⟨hmem, hnot⟩ := hs.nodup.mem_sdiff_iff.mp hfd
    exact hnot (hall fd hmem)
  have hfold := foldl_close (x := { x with sockets := [] }) hnodup
    fun fd hfd => ⟨List.not_mem_nil, hopen fd hfd⟩
  unfold close_server
  split
  · rename_i hnone
    rw [hserver] at hnone
    cases hnone
  · rename_i other hother
    obtain rfl := Option.some.inj (hother.symm.trans hserver)
    dsimp only
    rw [hclosed, List.foldl_cons, hsocket, hfold]
    simp only [hleft]

-- The clients in m_clients are the live proxies.
structure Listed (s : SockServer) : Prop where
  ids : ∀ i client, s.m_clients i = some client → s.proxies client = some i.slot
  live : ∀ client id, s.proxies client = some id → ∃ i, s.m_clients i = some client

-- What is deleted so far is in neither table, and nothing else is touched.
structure Deleted (x y : ServerLife) : Prop where
  same : ∃ proxies m_clients, y =
    { x with tables := { x.tables with proxies := proxies, m_clients := m_clients } }
  listed : Listed y.tables
  cleared : ∀ i, x.tables.m_clients i = none → y.tables.m_clients i = none

theorem deleted_client (h : Listed x.tables) (i : ClientIndex) :
    Deleted x (x.delete_client i) ∧ (x.delete_client i).tables.m_clients i = none := by
  unfold delete_client
  split
  · rename_i hnone
    exact ⟨⟨⟨_, _, rfl⟩, h, fun _ hj => hj⟩, hnone⟩
  · rename_i client hi
    have hlive : x.tables.proxies client ≠ none := by
      rw [h.ids i client hi]
      exact Option.some_ne_none i.slot
    simp only [if_neg hlive]
    refine ⟨⟨⟨_, _, rfl⟩, ⟨?_, ?_⟩, ?_⟩, Function.update_self _ _ _⟩
    · intro j other hj
      by_cases hji : j = i
      · subst hji
        simp only [Function.update_self] at hj
        cases hj
      · simp only [Function.update_of_ne hji] at hj
        have hne : other ≠ client := by
          rintro rfl
          have hslots := (h.ids j other hj).symm.trans (h.ids i other hi)
          exact hji (SockServer.slot_injective (Option.some.inj hslots))
        simp only [Function.update_of_ne hne]
        exact h.ids j other hj
    · intro other id hid
      by_cases hother : other = client
      · subst hother
        simp only [Function.update_self] at hid
        cases hid
      · simp only [Function.update_of_ne hother] at hid
        obtain ⟨j, hj⟩ := h.live other id hid
        have hji : j ≠ i := by
          rintro rfl
          exact hother (Option.some.inj (hj.symm.trans hi))
        exact ⟨j, (Function.update_of_ne hji _ _).trans hj⟩
    · intro j hj
      by_cases hji : j = i
      · subst hji
        exact Function.update_self _ _ _
      · exact (Function.update_of_ne hji _ _).trans hj

theorem foldl_delete_client (h : Listed x.tables) (rest : List ClientIndex) :
    Deleted x (rest.foldl delete_client x) ∧
      ∀ i ∈ rest, (rest.foldl delete_client x).tables.m_clients i = none := by
  induction rest generalizing x with
  | nil => exact ⟨⟨⟨_, _, rfl⟩, h, fun _ hj => hj⟩, fun i hi => absurd hi List.not_mem_nil⟩
  | cons i rest ih =>
      obtain ⟨hone, hi⟩ := deleted_client h i
      obtain ⟨hall, hrest⟩ := ih hone.listed
      obtain ⟨_, _, hsame⟩ := hone.same
      obtain ⟨proxies, m_clients, hlast⟩ := hall.same
      refine ⟨⟨⟨proxies, m_clients, ?_⟩, hall.listed, fun j hj => ?_⟩, fun j hj => ?_⟩
      · rw [List.foldl_cons, hlast, hsame]
      · exact hall.cleared j (hone.cleared j hj)
      · rcases List.mem_cons.mp hj with rfl | hmem
        · exact hall.cleared j hi
        · exact hrest j hmem

-- The loop over m_clients deletes every proxy, each once.
theorem delete_clients_spec (h : Listed x.tables) :
    x.delete_clients = { x with tables := { x.tables with
      proxies := fun _ => none, m_clients := fun _ => none } } := by
  obtain ⟨hall, hnone⟩ := foldl_delete_client h (List.finRange 255)
  obtain ⟨proxies, m_clients, hlast⟩ := hall.same
  have hlisted := hall.listed
  have hclients : m_clients = fun _ => none := by
    funext i
    have hi := hnone i (List.mem_finRange i)
    rwa [hlast] at hi
  have hproxies : proxies = fun _ => none := by
    funext client
    rw [hlast] at hlisted
    by_contra hlive
    obtain ⟨id, hid⟩ := Option.ne_none_iff_exists'.mp hlive
    obtain ⟨i, hi⟩ := hlisted.live client id hid
    rw [hclients] at hi
    cases hi
  unfold delete_clients
  rw [hlast, hclients, hproxies]

-- What holds of a server at any time: the tables are in order unless a store went
-- past m_clients, and what is open is what the server has.
structure Sound (x : ServerLife) : Prop where
  closes : x.tables.history.misclosed = 0
  deletes : x.tables.history.redeleted = 0
  tables : x.tables.history.overrun = false → x.owner ≠ .destroyed → x.tables.Settled
  sockets : x.owner ≠ .exited → x.sockets = (x.m_server.map PathServer.socketfd).toList
  empty : x.m_server = none →
    x.tables.history.descriptors = [] ∧ ∀ client, x.tables.proxies client = none
  loop : x.listener.left ≠ 0 → x.m_server ≠ none ∧ (x.owner = .running ∨ x.owner = .stopped)
  started : x.owner = .unstarted → x = init
  gone : x.owner = .destroyed ∨ x.owner = .exited → x.m_server = none
  working : x.owner = .stopped ∨ x.owner = .joined → x.m_be_working = false
  late : x.late + x.listener.left ≤ 3 ∧ (x.m_be_working = true → x.late = 0)

theorem sound_init : init.Sound where
  closes := rfl
  deletes := rfl
  tables _ _ := SockServer.settled_init
  sockets _ := rfl
  empty _ := ⟨rfl, fun _ => rfl⟩
  loop h := absurd rfl h
  started _ := rfl
  gone _ := rfl
  working h := by rcases h with h | h <;> cases h
  late := ⟨Nat.zero_le 3, fun _ => rfl⟩

theorem listed_of_settled {s : SockServer} (h : s.Settled) : Listed s := ⟨h.ids, h.live⟩

-- start makes a server, with its socket open and nothing else, or leaves nothing open.
theorem start_cases (sock_type build_id : PropertyValue) (k8s_env : Option (List UInt8))
    (calls : ServerCalls) :
    (∃ server : PathServer, init.start sock_type build_id k8s_env calls =
      ⟨some server, true, .running, .head, .init, [server.socketfd], 0⟩) ∨
    init.start sock_type build_id k8s_env calls =
      ⟨none, true, .running, .absent, .init, [], 0⟩ ∨
    ∃ sockets, init.start sock_type build_id k8s_env calls =
      ⟨none, true, .exited, .absent, .init, sockets, 0⟩ := by
  unfold start
  by_cases hsocket : 0 ≤ calls.socket
  · have haccounts := accounts_init (sock_conn_type sock_type) build_id k8s_env hsocket
    generalize sock_server_init (sock_conn_type sock_type) build_id k8s_env calls = out
      at haccounts
    obtain ⟨result, marks⟩ := out
    have hclose := close_last_socket (x := { init with
      m_be_working := true, sockets := [calls.socket] }) rfl
    simp only [init, if_pos hsocket] at hclose ⊢
    cases result with
    | exited =>
        refine .inr (.inr ?_)
        rcases haccounts with hnone | hone
        · exact ⟨[calls.socket], by simp only [hnone, List.foldl_nil]⟩
        · exact ⟨[], by simp only [hone, List.foldl_cons, List.foldl_nil, hclose]⟩
    | returned server =>
        cases server with
        | none =>
            have hone : closed_descriptors marks = [calls.socket] := haccounts
            refine .inr (.inl ?_)
            simp only [hone, List.foldl_cons, List.foldl_nil, hclose]
        | some server =>
            obtain ⟨hfd, hslots, hnone⟩ := haccounts
            refine .inl ⟨server, ?_⟩
            have hdelete := delete_clients_spec (x := ⟨some server, true, .unstarted, .absent,
              .init, [calls.socket], 0⟩) (listed_of_settled SockServer.settled_init)
            have hslots' : SockServer.init.client_slots = fun _ => -1 := rfl
            simp only [hnone, List.foldl_nil, hslots, hfd, ← hslots']
            rw [hdelete]
            rfl
  · rw [init_without_socket _ build_id k8s_env hsocket, if_neg hsocket]
    exact .inr (.inl rfl)

-- A server that start leaves, with a listener or without.
theorem sound_started {m_server : Option PathServer} {owner : OwnerPc} {listener : ListenPc}
    {sockets : List Int} (howner : owner = .running ∨ owner = .exited ∧ m_server = none)
    (hsockets : owner ≠ .exited → sockets = (m_server.map PathServer.socketfd).toList)
    (hloop : listener.left ≠ 0 → m_server ≠ none ∧ owner = .running) :
    Sound ⟨m_server, true, owner, listener, .init, sockets, 0⟩ where
  closes := rfl
  deletes := rfl
  tables _ _ := SockServer.settled_init
  sockets := hsockets
  empty _ := ⟨rfl, fun _ => rfl⟩
  loop hin := ⟨(hloop hin).1, .inl (hloop hin).2⟩
  started hpc := by rcases howner with h | h <;> simp_all
  gone hpc := by rcases howner with h | h <;> simp_all
  working hpc := by rcases howner with h | h <;> simp_all
  late := ⟨(Nat.zero_add _).trans_le listener.left_le, fun _ => rfl⟩

-- The destructor leaves nothing open and no proxy.
theorem Sound.destroy_eq (h : x.Sound) (howner : x.owner = .joined)
    (hrange : x.tables.history.overrun = false) :
    ∃ client_slots, x.destroy =
      { x with
        m_server := none
        sockets := []
        owner := .destroyed
        tables := { x.tables with
          client_slots := client_slots
          m_clients := fun _ => none
          proxies := fun _ => none
          m_pclient_ := none
          history := { x.tables.history with descriptors := [] } } } := by
  have hsettled : x.tables.Settled := h.tables hrange (by rw [howner]; decide)
  have hsockets := h.sockets (by rw [howner]; decide)
  have hlisted := listed_of_settled hsettled
  have hclosed : ∃ client_slots, x.close_server =
      { x with
        sockets := []
        tables := { x.tables with
          client_slots := client_slots
          history := { x.tables.history with descriptors := [] } } } := by
    rcases Option.eq_none_or_eq_some x.m_server with hserver | ⟨server, hserver⟩
    · have hnone : x.close_server = x := by
        unfold close_server
        rw [hserver]
      have hopen : x.tables.history.descriptors = [] := (h.empty hserver).1
      have hclosed : x.sockets = [] := by
        rw [hsockets, hserver]
        rfl
      refine ⟨x.tables.client_slots, ?_⟩
      rw [hnone]
      obtain ⟨_, _, _, _, ⟨_, _, _, _, _, ⟨_, _, _, _, _, _⟩⟩, _, _⟩ := x
      dsimp only at hopen hclosed
      subst hopen hclosed
      rfl
    · rw [hserver] at hsockets
      exact ⟨_, close_server_spec hsettled hserver hsockets⟩
  obtain ⟨client_slots, hclosed⟩ := hclosed
  refine ⟨client_slots, ?_⟩
  have hdelete := delete_clients_spec (x := { x.close_server with m_server := none })
  rw [hclosed] at hdelete
  unfold destroy
  rw [hclosed]
  simp only [hdelete ⟨hlisted.ids, hlisted.live⟩]

theorem Sound.destroy (h : x.Sound) (howner : x.owner = .joined)
    (hrange : x.tables.history.overrun = false) : x.destroy.Sound := by
  obtain ⟨client_slots, heq⟩ := h.destroy_eq howner hrange
  have hleft : x.listener.left = 0 := by
    by_contra hin
    rcases (h.loop hin).2 with hpc | hpc <;> rw [howner] at hpc <;> cases hpc
  rw [heq]
  exact {
    closes := h.closes
    deletes := h.deletes
    tables := fun _ hne => absurd rfl hne
    sockets := fun _ => rfl
    empty := fun _ => ⟨rfl, fun _ => rfl⟩
    loop := fun hin => absurd hleft hin
    started := fun hpc => by cases hpc
    gone := fun _ => rfl
    working := fun hpc => by rcases hpc with hpc | hpc <;> cases hpc
    late := h.late }

-- The listener takes a step inside its loop.
theorem Sound.go (h : x.Sound) (hin : x.listener.left ≠ 0) {listener : ListenPc}
    {tables : SockServer} (hcloses : tables.history.misclosed = 0)
    (hdeletes : tables.history.redeleted = 0)
    (htables : tables.history.overrun = false → tables.Settled)
    (hleft : x.m_be_working = false → listener.left < x.listener.left) :
    (x.go listener tables).Sound := by
  obtain ⟨hserver, howner⟩ := h.loop hin
  have hbound := listener.left_le
  refine {
    closes := hcloses
    deletes := hdeletes
    tables := fun hrange _ => htables hrange
    sockets := h.sockets
    empty := fun hnone => absurd hnone hserver
    loop := fun _ => ⟨hserver, howner⟩
    started := fun hpc => ?_
    gone := fun hpc => ?_
    working := h.working
    late := ?_ }
  · have hpc : x.owner = .unstarted := hpc
    rw [hpc] at howner
    rcases howner with hpc | hpc <;> cases hpc
  · exact h.gone hpc
  · obtain ⟨hlate, hzero⟩ := h.late
    cases hworking : x.m_be_working with
    | true =>
        have hnone := hzero hworking
        simp only [ServerLife.go, hworking, if_true]
        exact ⟨by omega, fun _ => hnone⟩
    | false =>
        have hless := hleft hworking
        simp only [ServerLife.go, hworking]
        exact ⟨by simp only [Bool.false_eq_true, if_false]; omega, fun hwork => by cases hwork⟩

theorem Sound.step {event : ServerEvent} (h : x.Sound) (hstep : x.step event = some next) :
    next.Sound := by
  unfold ServerLife.step at hstep
  split at hstep
  · cases hstep
  · rename_i hover
    have hrange : x.tables.history.overrun = false := Bool.eq_false_iff.mpr hover
    have hsettled : x.owner ≠ .destroyed → x.tables.Settled := h.tables hrange
    have hin : x.listener.left ≠ 0 → x.tables.Settled := by
      intro hin
      apply hsettled
      rintro hpc
      rcases (h.loop hin).2 with hpc' | hpc' <;> rw [hpc] at hpc' <;> cases hpc'
    cases event with
    | start sock_type build_id k8s_env calls =>
        obtain ⟨howner, hnext⟩ := Option.ite_none_right_eq_some.mp hstep
        obtain rfl := Option.some.inj hnext
        rw [h.started howner]
        rcases start_cases sock_type build_id k8s_env calls with ⟨server, hnext⟩ | hnext |
          ⟨sockets, hnext⟩
        · rw [hnext]
          exact sound_started (.inl rfl) (fun _ => rfl)
            (fun _ => ⟨Option.some_ne_none server, rfl⟩)
        · rw [hnext]
          exact sound_started (.inl rfl) (fun _ => rfl) (fun hin => absurd rfl hin)
        · rw [hnext]
          exact sound_started (.inr ⟨rfl, rfl⟩) (fun hpc => absurd rfl hpc)
            (fun hin => absurd rfl hin)
    | stop =>
        obtain ⟨howner, hnext⟩ := Option.ite_none_right_eq_some.mp hstep
        obtain rfl := Option.some.inj hnext
        exact { h with
          tables := fun _ _ => hsettled (by rw [howner]; decide)
          sockets := fun _ => h.sockets (by rw [howner]; decide)
          loop := fun hpc => ⟨(h.loop hpc).1, .inr rfl⟩
          started := fun hpc => by cases hpc
          gone := fun hpc => by rcases hpc with hpc | hpc <;> cases hpc
          working := fun _ => rfl
          late := ⟨h.late.1, fun hpc => by cases hpc⟩ }
    | join =>
        obtain ⟨⟨howner, hreturned⟩, hnext⟩ := Option.ite_none_right_eq_some.mp hstep
        obtain rfl := Option.some.inj hnext
        have hout : x.listener.left = 0 := by
          rcases hreturned with hpc | hpc <;> rw [hpc] <;> rfl
        exact { h with
          tables := fun _ _ => hsettled (by rw [howner]; decide)
          sockets := fun _ => h.sockets (by rw [howner]; decide)
          loop := fun hpc => absurd hout hpc
          started := fun hpc => by cases hpc
          gone := fun hpc => by rcases hpc with hpc | hpc <;> cases hpc
          working := fun _ => h.working (.inl howner) }
    | destroy =>
        obtain ⟨howner, hnext⟩ := Option.ite_none_right_eq_some.mp hstep
        obtain rfl := Option.some.inj hnext
        exact h.destroy howner hrange
    | test =>
        obtain ⟨hpc, hnext⟩ := Option.ite_none_right_eq_some.mp hstep
        obtain rfl := Option.some.inj hnext
        have hleft : x.listener.left ≠ 0 := by
          rw [hpc]
          decide
        refine h.go hleft h.closes h.deletes (fun _ => hin hleft) fun hworking => ?_
        rw [hpc, hworking]
        simp [ListenPc.left]
    | check_new_connection attempt =>
        obtain ⟨⟨hpc, _⟩, hnext⟩ := Option.ite_none_right_eq_some.mp hstep
        obtain ⟨tables, htables, rfl⟩ := Option.map_eq_some_iff.mp hnext
        have hleft : x.listener.left ≠ 0 := by
          rw [hpc]
          decide
        obtain ⟨hcloses, hdeletes, hwithin⟩ := (hin hleft).step_within htables
        refine h.go hleft hcloses hdeletes hwithin fun _ => ?_
        rw [hpc]
        decide
    | check_new_message status =>
        obtain ⟨hpc, hnext⟩ := Option.ite_none_right_eq_some.mp hstep
        obtain ⟨tables, htables, rfl⟩ := Option.map_eq_some_iff.mp hnext
        have hleft : x.listener.left ≠ 0 := by
          rw [hpc]
          decide
        obtain ⟨hcloses, hdeletes, hwithin⟩ := (hin hleft).step_within htables
        refine h.go hleft hcloses hdeletes hwithin fun _ => ?_
        rw [hpc]
        decide

-- Whatever the system answers and however the two threads interleave, up to a store past
-- m_clients, which ends the run: no descriptor is closed and no proxy deleted twice, the
-- listener has a server in its loop and takes at most three steps after stop, and without
-- a server, behind the destructor above all, every descriptor and every proxy has been
-- given back.
theorem server_life (events : List ServerEvent) (x : ServerLife)
    (hrun : Machine.run step init events = some x) :
    x.tables.history.misclosed = 0 ∧ x.tables.history.redeleted = 0 ∧
    (x.listener.left ≠ 0 → x.m_server ≠ none ∧ (x.owner = .running ∨ x.owner = .stopped)) ∧
    x.late + x.listener.left ≤ 3 ∧
    (x.owner = .destroyed ∨ x.owner = .exited → x.m_server = none) ∧
    (x.m_server = none → x.owner ≠ .exited → x.sockets = []) ∧
    (x.m_server = none →
      x.tables.history.descriptors = [] ∧ ∀ client, x.tables.proxies client = none) ∧
    ∀ server, x.m_server = some server → x.sockets = [server.socketfd] := by
  have h : x.Sound := Machine.invariant_always (fun _ _ _ hs hstep => hs.step hstep) sound_init hrun
  refine ⟨h.closes, h.deletes, h.loop, h.late.1, h.gone, ?_, h.empty, ?_⟩
  · intro hnone hpc
    rw [h.sockets hpc, hnone]
    rfl
  · intro server hserver
    have hpc : x.owner ≠ .exited := by
      intro hexited
      rw [h.gone (.inr hexited)] at hserver
      cases hserver
    rw [h.sockets hpc, hserver]
    rfl

-- A client comes and goes, a second one stays until the device is closed, and stop comes
-- while the listener accepts it.
def two_clients : List ServerEvent :=
  [.start ⟨[], by decide, by decide⟩ ⟨[], by decide, by decide⟩ none ⟨3, 0, 0, 0, -1, 0, 0, 0, 0⟩,
    .test, .check_new_connection ⟨true, 7, 0, 1⟩, .check_new_message (some fun _ => .readable),
    .test, .check_new_connection ⟨false, 0, 0, 2⟩, .check_new_message (some fun _ => .disconnect),
    .test, .stop, .check_new_connection ⟨true, 7, 0, 2⟩, .check_new_message none, .test, .join,
    .destroy]

theorem server_life_two_clients : ∃ x, Machine.run step init two_clients = some x ∧
    (x.owner = .destroyed ∧ x.late = 3) ∧
    x.tables.history.misclosed = 0 ∧ x.tables.history.redeleted = 0 ∧
    (x.listener.left ≠ 0 → x.m_server ≠ none ∧ (x.owner = .running ∨ x.owner = .stopped)) ∧
    x.late + x.listener.left ≤ 3 ∧
    (x.owner = .destroyed ∨ x.owner = .exited → x.m_server = none) ∧
    (x.m_server = none → x.owner ≠ .exited → x.sockets = []) ∧
    (x.m_server = none →
      x.tables.history.descriptors = [] ∧ ∀ client, x.tables.proxies client = none) ∧
    ∀ server, x.m_server = some server → x.sockets = [server.socketfd] := by
  obtain ⟨x, hrun, hend⟩ : ∃ x, Machine.run step init two_clients = some x ∧
      (x.owner, x.late) = (.destroyed, 3) :=
    Option.map_eq_some_iff.mp (by decide +kernel)
  exact ⟨x, hrun, Prod.mk.inj hend, server_life two_clients x hrun⟩

end ServerLife

end SensorVhal
