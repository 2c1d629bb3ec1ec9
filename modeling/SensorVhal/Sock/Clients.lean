import SensorVhal.Lib.Run
import SensorVhal.Lib.Table

namespace SensorVhal

-- An index of client_slots, which has SOCK_MAX_CLIENTS entries.
abbrev SlotId := Fin 512

-- An index of m_clients, which has MAX_CLIENTS entries.
abbrev ClientIndex := Fin 255

-- The address of a sock_client_proxy_t.
abbrev Proxy := Nat

-- sock_conn_status_t
inductive ConnStatus
  | normal
  | readable
  | disconnect
  deriving DecidableEq

-- The accepted descriptors that are open, how often close was called on one
-- that is not, how often a deleted proxy was read and how often deleted again,
-- the ids given out so far, and whether a store went past m_clients.
structure SockHistory where
  descriptors : List Int
  misclosed : Nat
  dangling : Nat
  redeleted : Nat
  admitted : List SlotId
  overrun : Bool

-- client_slots of sock_server_t, the client tables of SockServer, and the live
-- proxies with their ids.
structure SockServer where
  client_slots : SlotId → Int
  m_clients : ClientIndex → Option Proxy
  proxies : Proxy → Option SlotId
  m_pclient_ : Option Proxy
  m_ncount : Int
  history : SockHistory

-- What the system answers at a call of check_new_connection: whether select
-- reports the listening socket, and the results of accept, ioctl and new.
structure Attempt where
  readable : Bool
  accept : Int
  ioctl : Int
  proxy : Proxy

namespace SockServer

def init : SockServer where
  client_slots := fun _ => -1
  m_clients := fun _ => none
  proxies := fun _ => none
  m_pclient_ := none
  m_ncount := 0
  history := ⟨[], 0, 0, 0, [], false⟩

section System

variable (s : SockServer)

def accepted (fd : Int) : SockServer :=
  if fd < 0 then s
  else { s with history := { s.history with descriptors := fd :: s.history.descriptors } }

def close (fd : Int) : SockServer :=
  if fd < 0 then s
  else if fd ∈ s.history.descriptors then
    { s with history := { s.history with descriptors := s.history.descriptors.erase fd } }
  else { s with history := { s.history with misclosed := s.history.misclosed + 1 } }

-- client->id. The read of a deleted proxy is noted.
def log_id (client : Proxy) : SockServer :=
  match s.proxies client with
  | some _ => s
  | none => { s with history := { s.history with dangling := s.history.dangling + 1 } }

end System

section Connection

variable (s : SockServer) (attempt : Attempt)

def sock_server_find_empty_slot : Nat := Table.lowest fun id => s.client_slots id = -1

def sock_server_has_newconn : Bool × SockServer :=
  if attempt.readable then
    if s.sock_server_find_empty_slot < 512 then (true, s)
    else (false, (s.accepted attempt.accept).close attempt.accept)
  else (false, s)

def sock_server_create_client : Option Proxy × SockServer :=
  if attempt.accept < 0 then (none, s)
  else
    let s := s.accepted attempt.accept
    if attempt.ioctl < 0 then (none, s.close attempt.accept)
    else
      match Table.index 512 s.sock_server_find_empty_slot with
      | none => (none, s.close attempt.accept)
      | some id =>
        (some attempt.proxy, { s with
          client_slots := Function.update s.client_slots id attempt.accept
          proxies := Function.update s.proxies attempt.proxy (some id)
          history := { s.history with admitted := s.history.admitted ++ [id] } })

-- The tables at the connection of a client, up to the connected callback.
def add_client (client : Proxy) : SockServer :=
  let s := { s with m_pclient_ := if s.m_pclient_ = none then some client else s.m_pclient_ }
  match s.proxies client with
  | none => s.log_id client
  | some id =>
    match Table.index 255 id.val with
    | none => { s with history := { s.history with overrun := true } }
    | some i =>
      { s with
        m_clients := Function.update s.m_clients i (some client)
        m_ncount := s.m_ncount + 1 }

-- The client is the one that the connected callback is called with.
def check_new_connection : Option Proxy × SockServer :=
  match s.sock_server_has_newconn attempt with
  | (false, s) => (none, s)
  | (true, s) =>
    match s.sock_server_create_client attempt with
    | (none, s) => (none, s)
    | (some client, s) => (some client, s.add_client client)

end Connection

section Message

variable (s : SockServer)

def sock_server_close_client (client : Proxy) : SockServer :=
  match s.proxies client with
  | none =>
    let s := s.log_id client
    { s with history := { s.history with redeleted := s.history.redeleted + 1 } }
  | some id =>
    let s := if s.client_slots id = -1 then s
      else
        let s := s.close (s.client_slots id)
        { s with client_slots := Function.update s.client_slots id (-1) }
    { s with proxies := Function.update s.proxies client none }

-- The case `disconnect` of the scan, up to the test of m_ncount.
def disconnected (i : ClientIndex) (client : Proxy) : SockServer :=
  let s := s.sock_server_close_client client
  let s := { s with m_pclient_ := if s.m_pclient_ = some client then none else s.m_pclient_ }
  -- ALOGI reads m_clients[i]->id, which has been deleted
  let s := s.log_id client
  { s with
    m_clients := Function.update s.m_clients i none
    m_ncount := s.m_ncount - 1 }

-- The body of the loop over m_clients, with the value that it returns, none
-- where the loop goes on. What the listener callback does is modelled
-- elsewhere; it does not change these tables.
def visit (i : ClientIndex) (status : ConnStatus) : Option Int × SockServer :=
  match s.m_clients i, status with
  | some client, .disconnect =>
    let s := s.disconnected i client
    (if s.m_ncount = 0 then some (i.val + 1) else none, s)
  | _, _ => (none, s)

-- The loop, from the indices that are left.
def scan (status : ClientIndex → ConnStatus) : List ClientIndex → SockServer →
    Option Int × SockServer
  | [], s => (none, s)
  | i :: rest, s =>
    match s.visit i (status i) with
    | (some ret, s) => (some ret, s)
    | (none, s) => scan status rest s

def choose_default : SockServer :=
  { s with
    m_pclient_ := match s.m_pclient_ with
      | some client => some client
      | none => Table.first s.m_clients }

-- `status` is none where sock_server_clients_readable is not SOCK_TRUE, and
-- otherwise what sock_server_check_connect gives for each client.
def check_new_message (status : Option (ClientIndex → ConnStatus)) : Int × SockServer :=
  match status with
  | none => (-1, s)
  | some status =>
    match scan status (List.finRange 255) s with
    | (some ret, s) => (ret, s)
    | (none, s) => (0, s.choose_default)

end Message

-- A descriptor from accept is not open yet, and new gives an unused address.
def possible (s : SockServer) (attempt : Attempt) : Bool :=
  attempt.accept ∉ s.history.descriptors ∧ s.proxies attempt.proxy = none

end SockServer

-- The listener calls check_new_connection and check_new_message in turn.
inductive SockEvent
  | check_new_connection (attempt : Attempt)
  | check_new_message (status : Option (ClientIndex → ConnStatus))

-- Nothing is said about the program behind a store past m_clients.
def SockServer.step (s : SockServer) (event : SockEvent) : Option SockServer :=
  if s.history.overrun then none
  else
    match event with
    | .check_new_connection attempt =>
      if s.possible attempt then some (s.check_new_connection attempt).2 else none
    | .check_new_message status => some (s.check_new_message status).2

end SensorVhal
