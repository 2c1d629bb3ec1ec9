import SensorVhal.Sock.Coherence
import SensorVhal.Sock.Transfer

namespace SensorVhal

-- A connection: the slot of its client, which of the clients of that slot it
-- is, and its descriptor.
structure Peer where
  id : SlotId
  generation : Nat
  descriptor : Int
  deriving DecidableEq

-- The connection that a proxy stands for, none if it has been deleted.
def SockServer.peer (s : SockServer) (client : Proxy) : Option Peer :=
  (s.proxies client).map fun id => ⟨id, s.history.admitted.count id, s.client_slots id⟩

-- A call of send_data, with the connection that get_sock_client returned.
structure Sending where
  client : Proxy
  peer : Option Peer
  transfer : Transfer

-- The server with the calls of the HAL threads. `delivered` has the connections
-- to which bytes were meant to go and went.
structure Senders (Tid : Type) where
  server : SockServer
  calls : Tid → Option Sending
  delivered : List (Option Peer × Peer)

-- The steps of the listener, the entry of a call of sensor_device_send_config_msg
-- and one sock_server_send of it. The calls of the connected callback are those
-- of one more thread.
inductive SenderEvent (Tid : Type)
  | listener (event : SockEvent)
  | call (thread : Tid) (len : Nat) (timeout_ms : Int)
  | attempt (thread : Tid) (io : IoResult)

namespace Senders

variable {Tid : Type} [DecidableEq Tid]

def init : Senders Tid := ⟨.init, fun _ => none, []⟩

def turn_to (x : Senders Tid) (thread : Tid) (sending : Sending) (turn : Turn) : Senders Tid :=
  { x with
    calls := Function.update x.calls thread
      (match turn with
      | .again transfer => some { sending with transfer := transfer }
      | .leave _ => none) }

-- get_sock_client, and the head of the loop of send_data.
def call (x : Senders Tid) (thread : Tid) (len : Nat) (timeout_ms : Int) : Senders Tid :=
  match x.server.m_pclient_ with
  | none => x
  | some client =>
    let transfer := Transfer.init len timeout_ms
    x.turn_to thread ⟨client, x.server.peer client, transfer⟩ transfer.head

-- The bytes go to the descriptor in the slot of the proxy. Nothing is said about
-- the rest of a call that reads the id of a deleted proxy.
def attempt (x : Senders Tid) (thread : Tid) (sending : Sending) (io : IoResult) : Senders Tid :=
  match x.server.peer sending.client with
  | none =>
    { x with
      server := x.server.log_id sending.client
      calls := Function.update x.calls thread none }
  | some peer =>
    let delivered := match io with
      | .moved _ => x.delivered ++ [(sending.peer, peer)]
      | .failed _ _ => x.delivered
    { x with delivered := delivered }.turn_to thread sending
      (SockServer.send_data_timeout sending.transfer io)

def step (x : Senders Tid) : SenderEvent Tid → Option (Senders Tid)
  | .listener event => (x.server.step event).map fun server => { x with server := server }
  | .call thread len timeout_ms =>
    match x.calls thread with
    | none => some (x.call thread len timeout_ms)
    | some _ => none
  | .attempt thread io =>
    match x.calls thread with
    | some sending =>
      if io.possible sending.transfer.left_size then some (x.attempt thread sending io) else none
    | none => none

-- No deleted proxy was read, none is left for the next scan to read, and all
-- bytes of each call went to the connection that it was meant for.
structure Sound (x : Senders Tid) : Prop where
  dangling : x.server.history.dangling = 0
  clients : ∀ i client, x.server.m_clients i = some client → x.server.proxies client ≠ none
  delivered : ∀ entry ∈ x.delivered, entry.1 = some entry.2

-- check_new_message finds none of the clients disconnected.
def AllConnected (x : Senders Tid) : SenderEvent Tid → Prop
  | .listener (.check_new_message (some status)) =>
    ∀ i client, x.server.m_clients i = some client → status i ≠ .disconnect
  | _ => True

-- The client of a call is live and still has the connection that it had.
def Kept (x : Senders Tid) (sending : Sending) : Prop :=
  sending.peer ≠ none ∧ x.server.peer sending.client = sending.peer

-- What holds as long as no client has disconnected.
structure Following (x : Senders Tid) : Prop extends x.Sound where
  slots : ∀ client id, x.server.proxies client = some id → x.server.client_slots id ≠ -1
  default : ∀ client, x.server.m_pclient_ = some client → x.server.proxies client ≠ none
  calls : ∀ thread sending, x.calls thread = some sending → x.Kept sending

end Senders

namespace SockServer

variable {s : SockServer}

theorem peer_eq_none {client : Proxy} : s.peer client = none ↔ s.proxies client = none := by
  rw [peer, Option.map_eq_none_iff]

-- What a new connection changes of the tables.
theorem connect_fields (s : SockServer) (attempt : Attempt) (id : SlotId) :
    (s.connect attempt id).client_slots = Function.update s.client_slots id attempt.accept ∧
    (s.connect attempt id).proxies = Function.update s.proxies attempt.proxy (some id) ∧
    (s.connect attempt id).history.admitted = s.history.admitted ++ [id] ∧
    (s.connect attempt id).history.dangling = s.history.dangling ∧
    ∀ j client, (s.connect attempt id).m_clients j = some client →
      client = attempt.proxy ∨ s.m_clients j = some client := by
  simp only [connect, add_client, Function.update_self]
  split
  · exact ⟨rfl, rfl, rfl, rfl, fun j client hj => .inr hj⟩
  · rename_i i _
    refine ⟨rfl, rfl, rfl, rfl, fun j client hj => ?_⟩
    by_cases hji : j = i
    · subst j
      simp only [Function.update_self] at hj
      exact .inl (Option.some.inj hj).symm
    · simp only [Function.update_of_ne hji] at hj
      exact .inr hj

theorem log_id_dangling (client : Proxy) :
    s.history.dangling ≤ (s.log_id client).history.dangling := by
  rw [log_id]
  split
  · exact Nat.le_refl _
  · exact Nat.le_succ _

theorem log_id_deleted {client : Proxy} (h : s.proxies client = none) :
    (s.log_id client).history.dangling = s.history.dangling + 1 := by
  rw [log_id, h]

theorem close_client_dangling (s : SockServer) (client : Proxy) :
    (s.sock_server_close_client client).proxies client = none ∧
      s.history.dangling ≤ (s.sock_server_close_client client).history.dangling := by
  rw [sock_server_close_client]
  split
  · rename_i hnone
    refine ⟨?_, log_id_dangling client⟩
    rw [log_id, hnone]
    exact hnone
  · dsimp only
    refine ⟨Function.update_self _ _ _, ?_⟩
    split
    · exact Nat.le_refl _
    · rw [close]
      split
      · exact Nat.le_refl _
      · split <;> exact Nat.le_refl _

-- Every disconnection reads the id of the proxy that it has just deleted.
theorem disconnected_dangling (s : SockServer) (i : ClientIndex) (client : Proxy) :
    s.history.dangling < (s.disconnected i client).history.dangling := by
  obtain ⟨hdeleted, hle⟩ := close_client_dangling s client
  show s.history.dangling < (log_id _ client).history.dangling
  rw [log_id_deleted]
  · exact Nat.lt_succ_of_le hle
  · exact hdeleted

theorem scan_dangling_le (status : ClientIndex → ConnStatus) (rest : List ClientIndex) :
    s.history.dangling ≤ (scan status rest s).2.history.dangling := by
  apply scan_invariant (P := fun t => s.history.dangling ≤ t.history.dangling)
  · intro t i client ht _ _
    exact Nat.le_of_lt (Nat.lt_of_le_of_lt ht (disconnected_dangling t i client))
  · exact Nat.le_refl _

-- A scan that meets a client that has disconnected.
theorem scan_dangling_lt {status : ClientIndex → ConnStatus} {i : ClientIndex} {client : Proxy}
    (hi : s.m_clients i = some client) (hstatus : status i = .disconnect)
    {rest : List ClientIndex} (hmem : i ∈ rest) :
    s.history.dangling < (scan status rest s).2.history.dangling := by
  induction rest with
  | nil => cases hmem
  | cons j rest ih =>
      rw [scan]
      rcases visit_cases s j (status j) with hsame | ⟨other, _, _, hvisit⟩
      · have hne : i ≠ j := by
          rintro rfl
          simp only [visit, hi, hstatus] at hsame
          have hlt := disconnected_dangling s i client
          rw [(Prod.mk.inj hsame).2] at hlt
          exact Nat.lt_irrefl _ hlt
        rw [hsame]
        exact ih (List.mem_of_ne_of_mem hne hmem)
      · rw [hvisit]
        have hlt := disconnected_dangling s j other
        split_ifs
        · exact hlt
        · exact Nat.lt_of_lt_of_le hlt (scan_dangling_le status rest)

theorem check_new_message_dangling {status : ClientIndex → ConnStatus} {i : ClientIndex}
    {client : Proxy} (hi : s.m_clients i = some client) (hstatus : status i = .disconnect) :
    s.history.dangling < (s.check_new_message (some status)).2.history.dangling := by
  have hlt := scan_dangling_lt hi hstatus (List.mem_finRange i)
  rw [check_new_message]
  cases hscan : scan status (List.finRange 255) s with
  | mk ret t =>
      rw [hscan] at hlt
      cases ret with
      | some ret => exact hlt
      | none => exact hlt

theorem scan_unchanged {status : ClientIndex → ConnStatus}
    (h : ∀ i client, s.m_clients i = some client → status i ≠ .disconnect)
    (rest : List ClientIndex) : scan status rest s = (none, s) := by
  induction rest with
  | nil => rfl
  | cons i rest ih =>
      rw [scan]
      rcases visit_cases s i (status i) with hsame | ⟨client, hi, hstatus, _⟩
      · rw [hsame]
        exact ih
      · exact absurd hstatus (h i client hi)

-- A connection is added at an empty slot, so those of the others stay.
theorem peer_connect {attempt : Attempt} {id : SlotId} (hpossible : s.possible attempt)
    (hslots : ∀ client id, s.proxies client = some id → s.client_slots id ≠ -1)
    (hid : s.client_slots id = -1) {client : Proxy} (hlive : s.proxies client ≠ none) :
    (s.connect attempt id).peer client = s.peer client := by
  obtain ⟨hclient_slots, hproxies, hadmitted, _, _⟩ := connect_fields s attempt id
  have hnew : s.proxies attempt.proxy = none := (of_decide_eq_true hpossible).2
  have hne : client ≠ attempt.proxy := by
    rintro rfl
    exact hlive hnew
  rw [peer, peer, hclient_slots, hproxies, hadmitted, Function.update_of_ne hne]
  cases hproxy : s.proxies client with
  | none => rfl
  | some other =>
      have hother : other ≠ id := by
        rintro rfl
        exact hslots client other hproxy hid
      have hcount : (s.history.admitted ++ [id]).count other = s.history.admitted.count other := by
        rw [List.count_append, List.count_singleton, if_neg (by simp [Ne.symm hother])]
        exact Nat.add_zero _
      rw [Option.map_some, Option.map_some, hcount, Function.update_of_ne hother]

theorem check_new_connection_peer {attempt : Attempt} (hpossible : s.possible attempt)
    (hslots : ∀ client id, s.proxies client = some id → s.client_slots id ≠ -1) {client : Proxy}
    (hlive : s.peer client ≠ none) :
    (s.check_new_connection attempt).2.peer client = s.peer client := by
  rcases check_new_connection_cases s attempt with ⟨_, hsame⟩ | ⟨_, id, hid, hconnect⟩
  · rw [hsame]
  · rw [hconnect]
    rw [Ne, peer_eq_none] at hlive
    exact peer_connect hpossible hslots (of_decide_eq_true (Table.lowest_eq hid)) hlive

theorem connect_live (s : SockServer) (attempt : Attempt) (id : SlotId) {client : Proxy}
    (h : client = attempt.proxy ∨ s.proxies client ≠ none) :
    (s.connect attempt id).proxies client ≠ none := by
  rw [(connect_fields s attempt id).2.1]
  by_cases hnew : client = attempt.proxy
  · rw [hnew, Function.update_self]
    exact Option.some_ne_none id
  · rw [Function.update_of_ne hnew]
    exact h.resolve_left hnew

theorem connect_slot_ne {attempt : Attempt} {id : SlotId} (haccept : 0 ≤ attempt.accept)
    (hslots : ∀ client id, s.proxies client = some id → s.client_slots id ≠ -1)
    (hid : s.client_slots id = -1) {client : Proxy} {other : SlotId}
    (hother : (s.connect attempt id).proxies client = some other) :
    (s.connect attempt id).client_slots other ≠ -1 := by
  obtain ⟨hclient_slots, hproxies, _⟩ := connect_fields s attempt id
  rw [hproxies] at hother
  rw [hclient_slots]
  by_cases hnew : client = attempt.proxy
  · rw [hnew, Function.update_self] at hother
    obtain rfl := Option.some.inj hother
    rw [Function.update_self]
    omega
  · rw [Function.update_of_ne hnew] at hother
    have hne : other ≠ id := by
      rintro rfl
      exact hslots client other hother hid
    rw [Function.update_of_ne hne]
    exact hslots client other hother

theorem Tables.slot_ne (h : s.Tables) {client : Proxy} {id : SlotId}
    (hid : s.proxies client = some id) : s.client_slots id ≠ -1 := by
  obtain ⟨i, hi⟩ := h.live client id hid
  obtain rfl := Option.some.inj ((h.ids i client hi).symm.trans hid)
  rw [Ne, ← h.clients i, hi]
  exact Option.some_ne_none client

theorem Tables.disconnected_peer (h : s.Tables) {i : ClientIndex} {client other : Proxy}
    (hi : s.m_clients i = some client) (hne : other ≠ client) :
    (s.disconnected i client).peer other = s.peer other := by
  rw [h.disconnected_eq hi, peer, peer]
  simp only [Function.update_of_ne hne]
  cases hproxy : s.proxies other with
  | none => rfl
  | some id =>
      have hslot : id ≠ i.slot := by
        rintro rfl
        obtain ⟨j, hj⟩ := h.live other _ hproxy
        have hij : j = i :=
          slot_injective (Option.some.inj ((h.ids j other hj).symm.trans hproxy))
        subst j
        exact hne (Option.some.inj (hj.symm.trans hi))
      simp only [Option.map_some, Function.update_of_ne hslot]

-- A call of check_new_message leaves the connections that are not lost.
theorem Settled.check_new_message_peer (h : s.Settled) {status : ClientIndex → ConnStatus}
    {client : Proxy} (hkept : ∀ i, s.m_clients i = some client → status i ≠ .disconnect) :
    (s.check_new_message (some status)).2.peer client = s.peer client := by
  have hscan : (scan status (List.finRange 255) s).2.peer client = s.peer client := by
    have hstart : Scanned s status s := ⟨h.toTables, fun _ _ hj => hj, .inl rfl, rfl, rfl⟩
    refine (scan_invariant (P := fun t => Scanned s status t ∧ t.peer client = s.peer client)
      (fun t i other ht hi hstatus => ?_) (List.finRange 255) ⟨hstart, rfl⟩).2
    have hne : client ≠ other := by
      rintro rfl
      exact hkept i (ht.1.clients i client hi) hstatus
    refine ⟨ht.1.disconnected hi hstatus, ?_⟩
    rw [ht.1.tables.disconnected_peer hi hne]
    exact ht.2
  rw [SockServer.check_new_message]
  cases hresult : scan status (List.finRange 255) s with
  | mk ret t =>
      rw [hresult] at hscan
      cases ret with
      | some ret => exact hscan
      | none => exact hscan

end SockServer

namespace Senders

variable {Tid : Type} {x next : Senders Tid} {thread : Tid}

theorem following_init : (init : Senders Tid).Following where
  dangling := rfl
  clients := nofun
  delivered := nofun
  slots := nofun
  default := nofun
  calls := nofun

theorem Following.check_new_connection (h : x.Following) {attempt : Attempt}
    (hpossible : x.server.possible attempt) :
    ({ x with server := (x.server.check_new_connection attempt).2 } : Senders Tid).Following := by
  have hcalls : ∀ thread sending, x.calls thread = some sending → sending.peer ≠ none ∧
      (x.server.check_new_connection attempt).2.peer sending.client = sending.peer := by
    intro thread sending hcall
    obtain ⟨hlive, hpeer⟩ := h.calls thread sending hcall
    refine ⟨hlive, Eq.trans ?_ hpeer⟩
    apply SockServer.check_new_connection_peer hpossible h.slots
    rw [hpeer]
    exact hlive
  rcases SockServer.check_new_connection_cases x.server attempt with
    ⟨_, hsame⟩ | ⟨hok, id, hid, hconnect⟩
  · rw [hsame]
    exact h
  · rw [hconnect] at hcalls ⊢
    have hempty : x.server.client_slots id = -1 := of_decide_eq_true (Table.lowest_eq hid)
    obtain ⟨_, _, _, hdangling, hclients⟩ := SockServer.connect_fields x.server attempt id
    refine ⟨⟨?_, ?_, h.delivered⟩, ?_, ?_, hcalls⟩
    · rw [hdangling]
      exact h.dangling
    · intro i client hi
      apply SockServer.connect_live
      exact (hclients i client hi).imp_right (h.clients i client)
    · intro client other hother
      exact SockServer.connect_slot_ne hok.2.1 h.slots hempty hother
    · intro client hdefault
      apply SockServer.connect_live
      simp only [SockServer.connect_default] at hdefault
      split at hdefault
      · exact .inl (Option.some.inj hdefault).symm
      · exact .inr (h.default client hdefault)

theorem Following.check_new_message (h : x.Following)
    {status : Option (ClientIndex → ConnStatus)}
    (hconnected : x.AllConnected (.listener (.check_new_message status))) :
    ({ x with server := (x.server.check_new_message status).2 } : Senders Tid).Following := by
  cases status with
  | none => exact h
  | some status =>
      rw [SockServer.check_new_message, SockServer.scan_unchanged hconnected]
      rcases SockServer.choose_default_cases x.server with ⟨_, hsame⟩ | ⟨_, hchoice⟩
      · dsimp only
        rw [hsame]
        exact h
      · dsimp only
        rw [hchoice]
        refine ⟨⟨h.dangling, h.clients, h.delivered⟩, h.slots, fun client hfirst => ?_, h.calls⟩
        obtain ⟨i, hi, _⟩ := Table.first_eq_some hfirst
        exact h.clients i client hi

variable [DecidableEq Tid]

-- The calls after a turn of one of them.
theorem kept_turn_to (h : ∀ thread sending, x.calls thread = some sending → x.Kept sending)
    {sending : Sending} (hkept : x.Kept sending) (turn : Turn) (other : Tid) {found : Sending}
    (hfound : (x.turn_to thread sending turn).calls other = some found) :
    (x.turn_to thread sending turn).Kept found := by
  by_cases ht : other = thread
  · subst ht
    simp only [turn_to, Function.update_self] at hfound
    cases turn with
    | again transfer =>
        obtain rfl := Option.some.inj hfound
        exact hkept
    | leave transfer => cases hfound
  · simp only [turn_to, Function.update_of_ne ht] at hfound
    exact h other found hfound

-- A call begins with the default client, if there is one.
theorem call_cases (thread : Tid) (len : Nat) (timeout_ms : Int)
    (hdefault : ∀ client, x.server.m_pclient_ = some client → x.server.proxies client ≠ none) :
    x.call thread len timeout_ms = x ∨
      ∃ sending turn, x.Kept sending ∧
        x.call thread len timeout_ms = x.turn_to thread sending turn := by
  unfold call
  cases hclient : x.server.m_pclient_ with
  | none => exact .inl rfl
  | some client =>
      refine .inr ⟨_, _, ⟨?_, rfl⟩, rfl⟩
      rw [Ne, SockServer.peer_eq_none]
      exact hdefault client hclient

-- A send of a call that is kept goes to its connection.
theorem attempt_cases {sending : Sending} (hkept : x.Kept sending) (thread : Tid) (io : IoResult) :
    ∃ delivered turn,
      x.attempt thread sending io = { x with delivered := delivered }.turn_to thread sending turn ∧
      ∀ entry ∈ delivered, entry ∈ x.delivered ∨ entry.1 = some entry.2 := by
  obtain ⟨hlive, hpeer⟩ := hkept
  unfold attempt
  cases hfound : x.server.peer sending.client with
  | none => exact absurd (hpeer.symm.trans hfound) hlive
  | some peer =>
      refine ⟨_, _, rfl, fun entry hentry => ?_⟩
      cases io with
      | failed ret errno => exact .inl hentry
      | moved ret =>
          rcases List.mem_append.mp hentry with hold | hnew
          · exact .inl hold
          · rw [List.mem_singleton.mp hnew]
            exact .inr (hpeer.symm.trans hfound)

theorem Following.turn_to (h : x.Following) (thread : Tid) {sending : Sending}
    (hkept : x.Kept sending) (turn : Turn) : (x.turn_to thread sending turn).Following :=
  ⟨⟨h.dangling, h.clients, h.delivered⟩, h.slots, h.default,
    fun other _ hfound => kept_turn_to h.calls hkept turn other hfound⟩

theorem Following.call (h : x.Following) (thread : Tid) (len : Nat) (timeout_ms : Int) :
    (x.call thread len timeout_ms).Following := by
  rcases call_cases thread len timeout_ms h.default with hsame | ⟨sending, turn, hkept, hcall⟩
  · rw [hsame]
    exact h
  · rw [hcall]
    exact h.turn_to thread hkept turn

theorem Following.attempt (h : x.Following) {sending : Sending}
    (hcall : x.calls thread = some sending) (io : IoResult) :
    (x.attempt thread sending io).Following := by
  have hkept := h.calls thread sending hcall
  obtain ⟨delivered, turn, hattempt, hright⟩ := attempt_cases hkept thread io
  have hdelivered : ∀ entry ∈ delivered, entry.1 = some entry.2 := by
    intro entry hentry
    rcases hright entry hentry with hold | hnew
    · exact h.delivered entry hold
    · exact hnew
  have hsent : ({ x with delivered := delivered } : Senders Tid).Following :=
    ⟨⟨h.dangling, h.clients, hdelivered⟩, h.slots, h.default, h.calls⟩
  rw [hattempt]
  exact hsent.turn_to thread hkept turn

-- The moves of the machine, one for each way in which an event is enabled.
inductive Moves (x : Senders Tid) : SenderEvent Tid → Senders Tid → Prop
  | connection (attempt : Attempt) (hpossible : x.server.possible attempt) :
    Moves x (.listener (.check_new_connection attempt))
      { x with server := (x.server.check_new_connection attempt).2 }
  | message (status : Option (ClientIndex → ConnStatus)) :
    Moves x (.listener (.check_new_message status))
      { x with server := (x.server.check_new_message status).2 }
  | call (thread : Tid) (len : Nat) (timeout_ms : Int) (hidle : x.calls thread = none) :
    Moves x (.call thread len timeout_ms) (x.call thread len timeout_ms)
  | attempt (thread : Tid) (io : IoResult) (sending : Sending)
      (hcall : x.calls thread = some sending) :
    Moves x (.attempt thread io) (x.attempt thread sending io)

theorem moves_of_step {event : SenderEvent Tid} (hstep : x.step event = some next) :
    x.Moves event next := by
  cases event with
  | listener event =>
      obtain ⟨server, hserver, rfl⟩ := Option.map_eq_some_iff.mp hstep
      rcases SockServer.step_cases hserver with
        ⟨attempt, rfl, hpossible, rfl⟩ | ⟨status, rfl, rfl⟩
      · exact .connection attempt hpossible
      · exact .message status
  | call thread len timeout_ms =>
      simp only [step] at hstep
      split at hstep
      · rename_i hidle
        obtain rfl := Option.some.inj hstep
        exact .call thread len timeout_ms hidle
      · cases hstep
  | attempt thread io =>
      simp only [step] at hstep
      split at hstep
      · rename_i sending hcall
        obtain ⟨_, hnext⟩ := Option.ite_none_right_eq_some.mp hstep
        obtain rfl := Option.some.inj hnext
        exact .attempt thread io sending hcall
      · cases hstep

theorem following_step {event : SenderEvent Tid} (h : x.Following)
    (hconnected : x.AllConnected event) (hstep : x.step event = some next) : next.Following := by
  cases moves_of_step hstep with
  | connection attempt hpossible => exact h.check_new_connection hpossible
  | message status => exact h.check_new_message hconnected
  | call thread len timeout_ms hidle => exact h.call thread len timeout_ms
  | attempt thread io sending hcall => exact h.attempt hcall io

-- A disconnection leaves its mark.
theorem disconnection_unsound {event : SenderEvent Tid} (hlost : ¬ x.AllConnected event)
    (hstep : x.step event = some next) : ¬ next.Sound := by
  intro hsound
  unfold AllConnected at hlost
  split at hlost
  · rename_i status
    simp only [not_forall, not_not] at hlost
    obtain ⟨i, client, hi, hstatus⟩ := hlost
    cases moves_of_step hstep with
    | message status =>
        have hlt := SockServer.check_new_message_dangling hi hstatus
        rw [hsound.dangling] at hlt
        exact Nat.not_lt_zero _ hlt
  · exact hlost trivial

-- In exactly the runs in which no client disconnects, no deleted proxy is ever
-- read and every call sends all of its bytes to its own client.
theorem live_along_iff (events : List (SenderEvent Tid)) (x : Senders Tid)
    (hrun : Machine.run step init events = some x) :
    Machine.Along step (fun y event => ∀ next, y.step event = some next → next.Sound) init events ↔
      Machine.Along step AllConnected (init : Senders Tid) events := by
  refine Machine.along_good_iff (I := Following) ?_ ?_ following_init hrun
  · intro y event next hfollowing hconnected hstep
    have hnext := following_step hfollowing hconnected hstep
    exact ⟨hnext, hnext.toSound⟩
  · intro y event next _ hlost hstep
    exact disconnection_unsound hlost hstep

-- A configuration message goes out in two parts.
theorem live_along_sends :
    Machine.Along step (fun y event => ∀ next, y.step event = some next → next.Sound)
      (init : Senders Unit)
      [.listener (.check_new_connection ⟨true, 7, 0, 1⟩), .call () 12 5,
        .attempt () (.moved 5), .listener (.check_new_message (some fun _ => .normal)),
        .attempt () (.moved 7)] := by
  obtain ⟨x, hrun, _⟩ : ∃ x : Senders Unit, Machine.run step init
      [.listener (.check_new_connection ⟨true, 7, 0, 1⟩), .call () 12 5,
        .attempt () (.moved 5), .listener (.check_new_message (some fun _ => .normal)),
        .attempt () (.moved 7)] = some x ∧
      x.delivered = [(some ⟨0, 1, 7⟩, ⟨0, 1, 7⟩), (some ⟨0, 1, 7⟩, ⟨0, 1, 7⟩)] :=
    Option.map_eq_some_iff.mp (by decide +kernel)
  refine (live_along_iff _ x hrun).mpr (Machine.along_of_forall_mem (fun event hmem y => ?_) init)
  simp only [List.mem_cons, List.not_mem_nil, or_false] at hmem
  rcases hmem with rfl | rfl | rfl | rfl | rfl
  · trivial
  · trivial
  · trivial
  · exact fun _ _ _ => nofun
  · trivial

-- The client disconnects during a call, and a new one gets its slot and the
-- address of its proxy: the log reads the deleted proxy, and the bytes of the
-- call go to the new client.
theorem sends_to_next_client :
    ∃ x : Senders Unit, Machine.run step init
        [.listener (.check_new_connection ⟨true, 7, 0, 1⟩), .call () 12 5,
          .listener (.check_new_message (some fun _ => .disconnect)),
          .listener (.check_new_connection ⟨true, 7, 0, 1⟩), .attempt () (.moved 12)] = some x ∧
      x.server.history.dangling = 1 ∧ x.delivered = [(some ⟨0, 1, 7⟩, ⟨0, 2, 7⟩)] ∧
      ¬ x.Sound := by
  obtain ⟨x, hrun, hres⟩ : ∃ x : Senders Unit, Machine.run step init
        [.listener (.check_new_connection ⟨true, 7, 0, 1⟩), .call () 12 5,
          .listener (.check_new_message (some fun _ => .disconnect)),
          .listener (.check_new_connection ⟨true, 7, 0, 1⟩), .attempt () (.moved 12)] = some x ∧
      (x.server.history.dangling, x.delivered) = (1, [(some ⟨0, 1, 7⟩, ⟨0, 2, 7⟩)]) :=
    Option.map_eq_some_iff.mp (by decide +kernel)
  obtain ⟨hdangling, hdelivered⟩ := Prod.mk.inj hres
  refine ⟨x, hrun, hdangling, hdelivered, fun hsound => ?_⟩
  rw [hsound.dangling] at hdangling
  cases hdangling

-- At most MAX_CLIENTS connections are open, and no client disconnects during a
-- call that has it.
def Spared (x : Senders Tid) : SenderEvent Tid → Prop
  | .listener event =>
    x.server.AtMostMaxClients event ∧ ∀ status, event = .check_new_message (some status) →
      ∀ thread sending, x.calls thread = some sending →
        ∀ i, x.server.m_clients i = some sending.client → status i ≠ .disconnect
  | _ => True

-- A send finds the connection that its call began with.
def Attends (x : Senders Tid) : SenderEvent Tid → Prop
  | .attempt thread _ => ∀ sending, x.calls thread = some sending → x.Kept sending
  | _ => True

structure Attended (x : Senders Tid) : Prop where
  settled : x.server.Settled
  calls : ∀ thread sending, x.calls thread = some sending → x.Kept sending

theorem Attended.turn_to (h : x.Attended) (thread : Tid) {sending : Sending}
    (hkept : x.Kept sending) (turn : Turn) : (x.turn_to thread sending turn).Attended :=
  ⟨h.settled, fun other _ hfound => kept_turn_to h.calls hkept turn other hfound⟩

theorem attended_step {event : SenderEvent Tid} (h : x.Attended) (hspared : x.Spared event)
    (hstep : x.step event = some next) : next.Attended := by
  cases moves_of_step hstep with
  | connection attempt hpossible =>
      obtain ⟨server, hserver, hnext⟩ := Option.map_eq_some_iff.mp hstep
      obtain rfl := congrArg Senders.server hnext
      refine ⟨h.settled.step hspared.1 hserver, fun thread sending hcall => ?_⟩
      obtain ⟨hlive, hpeer⟩ := h.calls thread sending hcall
      refine ⟨hlive, Eq.trans ?_ hpeer⟩
      apply SockServer.check_new_connection_peer hpossible fun _ _ => h.settled.slot_ne
      rw [hpeer]
      exact hlive
  | message status =>
      obtain ⟨server, hserver, hnext⟩ := Option.map_eq_some_iff.mp hstep
      obtain rfl := congrArg Senders.server hnext
      refine ⟨h.settled.step hspared.1 hserver, fun thread sending hcall => ?_⟩
      obtain ⟨hlive, hpeer⟩ := h.calls thread sending hcall
      refine ⟨hlive, Eq.trans ?_ hpeer⟩
      cases status with
      | none => rfl
      | some status =>
          apply h.settled.check_new_message_peer
          exact hspared.2 status rfl thread sending hcall
  | call thread len timeout_ms hidle =>
      have hdefault : ∀ client, x.server.m_pclient_ = some client →
          x.server.proxies client ≠ none := by
        intro client hclient
        obtain ⟨i, hi⟩ := h.settled.default client hclient
        rw [h.settled.ids i client hi]
        exact Option.some_ne_none i.slot
      rcases call_cases thread len timeout_ms hdefault with hsame | ⟨sending, turn, hkept, hcall⟩
      · rw [hsame]
        exact h
      · rw [hcall]
        exact h.turn_to thread hkept turn
  | attempt thread io sending hcall =>
      have hkept := h.calls thread sending hcall
      obtain ⟨delivered, turn, hattempt, _⟩ := attempt_cases hkept thread io
      have hsent : ({ x with delivered := delivered } : Senders Tid).Attended :=
        ⟨h.settled, h.calls⟩
      rw [hattempt]
      exact hsent.turn_to thread hkept turn

-- As long as disconnections hit no call, every send goes to the connection of
-- its call, whatever else connects and disconnects.
theorem attends_along (events : List (SenderEvent Tid))
    (hspared : Machine.Along step Spared (init : Senders Tid) events) :
    Machine.Along step Attends (init : Senders Tid) events := by
  refine Machine.Along.of_invariant (I := Attended) ?_ ?_ ?_ hspared
  · intro y event next h hspared hstep
    exact attended_step h hspared hstep
  · intro y event h _
    cases event with
    | listener event => trivial
    | call thread len timeout_ms => trivial
    | attempt thread io => exact fun sending hcall => h.calls thread sending hcall
  · exact ⟨SockServer.settled_init, nofun⟩

end Senders

end SensorVhal
