import SensorVhal.Sock.Lifecycle
import SensorVhal.Sock.Readiness

namespace SensorVhal

-- What the system holds for a connection: how many bytes can be read, and whether its
-- peer has closed it.
structure Inbox where
  unread : Nat
  ended : Bool
  deriving DecidableEq

-- Where the listener stands: in front of check_new_connection or of check_new_message,
-- in the loop over m_clients with the indices that are left, or in the listener callback
-- for the client of one of them.
inductive ScanPc
  | connections
  | messages
  | scan (rest : List ClientIndex)
  | callback (i : ClientIndex) (rest : List ClientIndex)
  deriving DecidableEq

-- The indices that the loop still comes to.
def ScanPc.rest : ScanPc → List ClientIndex
  | connections | messages => []
  | scan rest | callback _ rest => rest

-- Those that are left with the one that the callback runs for.
def ScanPc.turns : ScanPc → List ClientIndex
  | connections | messages => []
  | scan rest => rest
  | callback i rest => i :: rest

-- The listener with its connections. The program does not read the last two fields: the
-- calls of the listener callback and the clients whose connection it has closed, each with
-- what was to be read then. A connection that is refused was never a client.
structure Service where
  tables : SockServer
  rfds : FdSet
  listener : ScanPc
  inbox : Int → Inbox
  called : List (ClientIndex × Inbox)
  closed : List (ClientIndex × Inbox)

-- The peers send bytes and hang up, and the listener goes round its loop. A new
-- connection may have bytes already, and select may be interrupted by a signal.
inductive ServiceEvent
  | bytes (fd : Int) (count : Nat)
  | hangup (fd : Int)
  | check_new_connection (attempt : Attempt) (inbox : Inbox)
  | clients_readable (interrupted : Bool)
  | visit
  | recv (count : Nat)
  | leave

-- A call of select that no signal interrupts.
def ServiceEvent.selects : ServiceEvent → Bool
  | clients_readable interrupted => !interrupted
  | _ => false

namespace Service

def init : Service := ⟨.init, ∅, .connections, fun _ => ⟨0, false⟩, [], []⟩

variable (x : Service)

def fds : Descriptors where
  opened fd := fd ∈ x.tables.history.descriptors
  readable fd := (x.inbox fd).unread ≠ 0 || (x.inbox fd).ended
  writable _ := true
  nread fd := (x.inbox fd).unread

def server : SelectServer := ⟨x.tables.client_slots, x.rfds, ∅⟩

def set_inbox (fd : Int) (inbox : Inbox) : Service :=
  { x with inbox := Function.update x.inbox fd inbox }

-- server->client_slots[m_clients[i]->id]
def client_fd (i : ClientIndex) : Option Int :=
  ((x.tables.m_clients i).bind x.tables.proxies).map x.tables.client_slots

def clients_readable (interrupted : Bool) : Option Service :=
  (x.server.sock_server_clients_readable x.fds).map fun (answer, server) =>
    { x with
      rfds := server.rfds
      listener := if answer ∧ !interrupted then .scan (List.finRange 255) else .connections }

-- The body of the loop for a client with the status that sock_server_check_connect gives.
def visit_client (i : ClientIndex) (rest : List ClientIndex) (fd : Int) (status : ConnStatus) :
    Service :=
  let (ret, tables) := x.tables.visit i status
  match status with
  | .readable => { x with listener := .callback i rest, called := x.called ++ [(i, x.inbox fd)] }
  | .normal => { x with listener := .scan rest }
  | .disconnect =>
    { x with
      tables := tables
      listener := if ret.isSome then .connections else .scan rest
      closed := x.closed ++ [(i, x.inbox fd)] }

def visit (i : ClientIndex) (rest : List ClientIndex) : Option Service :=
  match x.tables.m_clients i with
  | none => some { x with listener := .scan rest }
  | some client =>
    -- a client without a proxy would have been deleted
    (x.tables.proxies client).bind fun id =>
      (x.server.sock_server_check_connect x.fds id).map
        (x.visit_client i rest (x.tables.client_slots id))

-- A recv of the callback reads from its own client only.
def recv (i : ClientIndex) (count : Nat) : Option Service :=
  (x.client_fd i).bind fun fd =>
    if count ≤ (x.inbox fd).unread then
      some (x.set_inbox fd ⟨(x.inbox fd).unread - count, (x.inbox fd).ended⟩)
    else none

-- Nothing is said about the program behind a store past m_clients.
def step (x : Service) (event : ServiceEvent) : Option Service :=
  if x.tables.history.overrun then none
  else
    match event, x.listener with
    | .bytes fd count, _ =>
      if fd ∈ x.tables.history.descriptors ∧ (x.inbox fd).ended = false then
        some (x.set_inbox fd ⟨(x.inbox fd).unread + count, false⟩)
      else none
    | .hangup fd, _ =>
      if fd ∈ x.tables.history.descriptors then
        some (x.set_inbox fd ⟨(x.inbox fd).unread, true⟩)
      else none
    | .check_new_connection attempt inbox, .connections =>
      (x.tables.step (.check_new_connection attempt)).map fun tables =>
        { x.set_inbox attempt.accept inbox with tables := tables, listener := .messages }
    | .clients_readable interrupted, .messages => x.clients_readable interrupted
    | .visit, .scan [] =>
      some { x with tables := x.tables.choose_default, listener := .connections }
    | .visit, .scan (i :: rest) => x.visit i rest
    | .recv count, .callback i _ => x.recv i count
    | .leave, .callback _ rest => some { x with listener := .scan rest }
    | _, _ => none

-- How often the listener callback was called for the client at an index.
def calls (i : ClientIndex) : Nat := x.called.countP fun entry => entry.1 = i

-- The moves of the listener and of its peers.
inductive Moves (x : Service) : ServiceEvent → Service → Prop
  | bytes (fd : Int) (count : Nat) (hopen : fd ∈ x.tables.history.descriptors)
      (hended : (x.inbox fd).ended = false) :
      Moves x (.bytes fd count) (x.set_inbox fd ⟨(x.inbox fd).unread + count, false⟩)
  | hangup (fd : Int) (hopen : fd ∈ x.tables.history.descriptors) :
      Moves x (.hangup fd) (x.set_inbox fd ⟨(x.inbox fd).unread, true⟩)
  | connection (attempt : Attempt) (inbox : Inbox) (tables : SockServer)
      (hpc : x.listener = .connections)
      (htables : x.tables.step (.check_new_connection attempt) = some tables) :
      Moves x (.check_new_connection attempt inbox)
        { x.set_inbox attempt.accept inbox with tables := tables, listener := .messages }
  | select (server : SelectServer) (hpc : x.listener = .messages)
      (hselect : x.server.sock_server_clients_readable x.fds = some (true, server)) :
      Moves x (.clients_readable false)
        { x with rfds := server.rfds, listener := .scan (List.finRange 255) }
  | pass (interrupted answer : Bool) (server : SelectServer) (hpc : x.listener = .messages)
      (hselect : x.server.sock_server_clients_readable x.fds = some (answer, server))
      (hpass : interrupted = false → answer = false) :
      Moves x (.clients_readable interrupted)
        { x with rfds := server.rfds, listener := .connections }
  | done (hpc : x.listener = .scan []) :
      Moves x .visit { x with tables := x.tables.choose_default, listener := .connections }
  | skip (i : ClientIndex) (rest : List ClientIndex) (hpc : x.listener = .scan (i :: rest))
      (hnone : x.tables.m_clients i = none) : Moves x .visit { x with listener := .scan rest }
  | check (i : ClientIndex) (rest : List ClientIndex) (client : Proxy) (id : SlotId)
      (status : ConnStatus) (hpc : x.listener = .scan (i :: rest))
      (hclient : x.tables.m_clients i = some client) (hid : x.tables.proxies client = some id)
      (hcheck : x.server.sock_server_check_connect x.fds id = some status) :
      Moves x .visit (x.visit_client i rest (x.tables.client_slots id) status)
  | recv (i : ClientIndex) (rest : List ClientIndex) (fd : Int) (count : Nat)
      (hpc : x.listener = .callback i rest) (hfd : x.client_fd i = some fd)
      (hcount : count ≤ (x.inbox fd).unread) :
      Moves x (.recv count) (x.set_inbox fd ⟨(x.inbox fd).unread - count, (x.inbox fd).ended⟩)
  | leave (i : ClientIndex) (rest : List ClientIndex) (hpc : x.listener = .callback i rest) :
      Moves x .leave { x with listener := .scan rest }

variable {x} {y : Service} {event : ServiceEvent}

theorem moves_of_step (h : x.step event = some y) :
    x.tables.history.overrun = false ∧ x.Moves event y := by
  unfold step at h
  split at h
  · cases h
  · rename_i hrun
    refine ⟨Bool.eq_false_iff.mpr hrun, ?_⟩
    split at h
    · split at h <;> cases h
      rename_i hopen
      exact .bytes _ _ hopen.1 hopen.2
    · split at h <;> cases h
      rename_i hopen
      exact .hangup _ hopen
    · rename_i hpc
      obtain ⟨tables, htables, rfl⟩ := Option.map_eq_some_iff.mp h
      exact .connection _ _ tables hpc htables
    · rename_i interrupted hpc
      obtain ⟨⟨answer, server⟩, hselect, rfl⟩ := Option.map_eq_some_iff.mp h
      by_cases hscan : answer = true ∧ (!interrupted) = true
      · obtain ⟨rfl, hnot⟩ := hscan
        obtain rfl : interrupted = false := by simpa using hnot
        exact .select server hpc hselect
      · simp only [if_neg hscan]
        refine .pass interrupted answer server hpc hselect ?_
        rintro rfl
        simpa using hscan
    · rename_i hpc
      cases h
      exact .done hpc
    · rename_i i rest hpc
      unfold visit at h
      split at h
      · rename_i hnone
        cases h
        exact .skip i rest hpc hnone
      · rename_i client hclient
        obtain ⟨id, hid, hrest⟩ := Option.bind_eq_some_iff.mp h
        obtain ⟨status, hcheck, rfl⟩ := Option.map_eq_some_iff.mp hrest
        exact .check i rest client id status hpc hclient hid hcheck
    · rename_i hpc
      obtain ⟨fd, hfd, hrest⟩ := Option.bind_eq_some_iff.mp h
      split at hrest <;> cases hrest
      exact .recv _ _ fd _ hpc hfd ‹_›
    · rename_i hpc
      cases h
      exact .leave _ _ hpc
    · cases h

section Tables

variable {i j : ClientIndex} {fd : Int}

theorem client_fd_eq (h : x.tables.Tables) : x.client_fd i = some fd ↔
    x.tables.m_clients i ≠ none ∧ x.tables.client_slots i.slot = fd := by
  unfold client_fd
  cases hclient : x.tables.m_clients i with
  | none => simp
  | some client => simp [h.ids i client hclient]

-- The descriptor of a client is open, and no other client has it.
theorem client_fd_open (h : x.tables.Tables) (hfd : x.client_fd i = some fd) :
    fd ≠ -1 ∧ 0 ≤ fd ∧ fd ∈ x.tables.history.descriptors := by
  obtain ⟨hclient, rfl⟩ := (client_fd_eq h).mp hfd
  have hne : x.tables.client_slots i.slot ≠ -1 := fun hslot => hclient ((h.clients i).mpr hslot)
  have hpos : 0 ≤ x.tables.client_slots i.slot := by
    by_contra hneg
    exact hne (h.negative _ (by omega))
  exact ⟨hne, hpos, (h.open_ _).mpr ⟨hpos, i.slot, rfl⟩⟩

theorem client_fd_injective (h : x.tables.Tables) (hi : x.client_fd i = some fd)
    (hj : x.client_fd j = some fd) : i = j := by
  have hne := (client_fd_open h hi).1
  obtain ⟨-, rfl⟩ := (client_fd_eq h).mp hi
  obtain ⟨-, hsame⟩ := (client_fd_eq h).mp hj
  exact SockServer.slot_injective (h.distinct _ _ hsame.symm hne)

theorem serves (h : x.tables.Tables) : x.server.Serves x.fds := by
  intro id hopen
  have hpos : 0 ≤ x.tables.client_slots id := by
    by_contra hneg
    exact hopen (h.negative id (by omega))
  exact decide_eq_true ((h.open_ _).mpr ⟨hpos, id, rfl⟩)

-- What sock_server_check_connect says of a client.
theorem check_status (h : x.tables.Tables) {id : SlotId} {status : ConnStatus}
    (hopen : x.tables.client_slots id ≠ -1)
    (hcheck : x.server.sock_server_check_connect x.fds id = some status) :
    (status = .readable ↔ x.tables.client_slots id ∈ x.rfds ∧
      (x.inbox (x.tables.client_slots id)).unread ≠ 0) ∧
    (status = .disconnect ↔ x.tables.client_slots id ∈ x.rfds ∧
      (x.inbox (x.tables.client_slots id)).unread = 0) := by
  have hrange : 0 ≤ x.tables.client_slots id ∧ x.tables.client_slots id < FD_SETSIZE := by
    by_contra hout
    have hisset : FD_ISSET (x.server.client_slots id) x.server.rfds = none := if_neg hout
    simp only [SelectServer.sock_server_check_connect, hisset] at hcheck
    cases hcheck
  obtain ⟨status', hstatus, hspec⟩ :=
    SelectServer.check_connect_spec (s := x.server) hopen hrange (serves h) Iff.rfl
  obtain rfl := Option.some.inj (hstatus.symm.trans hcheck)
  exact hspec

-- The descriptors that select leaves, and whether it leaves any.
theorem select_watched (h : x.tables.Tables) {answer : Bool} {server : SelectServer}
    (hselect : x.server.sock_server_clients_readable x.fds = some (answer, server)) :
    (∀ fd, fd ∈ server.rfds ↔
      (∃ id, x.tables.client_slots id ≠ -1 ∧ x.tables.client_slots id = fd) ∧
        ((x.inbox fd).unread ≠ 0 ∨ (x.inbox fd).ended = true)) ∧
    ∀ i fd, x.client_fd i = some fd → (x.inbox fd).unread ≠ 0 ∨ (x.inbox fd).ended = true →
      answer = true := by
  have hrange : ∀ id, x.tables.client_slots id ≠ -1 →
      0 ≤ x.tables.client_slots id ∧ x.tables.client_slots id < FD_SETSIZE := by
    intro id hopen
    refine ⟨?_, ?_⟩
    · by_contra hneg
      exact hopen (h.negative id (by omega))
    · by_contra hlarge
      rw [SelectServer.clients_readable_aborts (s := x.server) x.fds hopen hlarge] at hselect
      cases hselect
  obtain ⟨answer', server', hcall, hanswer, _, hrfds⟩ :=
    SelectServer.clients_readable_spec (s := x.server) hrange (serves h)
  obtain ⟨rfl, rfl⟩ := Prod.mk.inj (Option.some.inj (hcall.symm.trans hselect))
  have hready : ∀ fd, x.fds.readable fd = true ↔
      (x.inbox fd).unread ≠ 0 ∨ (x.inbox fd).ended = true := by simp [fds]
  refine ⟨fun fd => (hrfds fd).trans (and_congr_right fun _ => hready fd), ?_⟩
  intro i fd hfd hinput
  obtain ⟨hclient, rfl⟩ := (client_fd_eq h).mp hfd
  refine hanswer.mpr ⟨i.slot, ?_, (hready _).mpr hinput⟩
  exact fun hslot => hclient ((h.clients i).mpr hslot)

-- What a disconnection does to the descriptors of the clients.
theorem client_fd_disconnected (h : x.tables.Tables) {client : Proxy}
    (hi : x.tables.m_clients i = some client) (hy : y.tables = x.tables.disconnected i client) :
    y.client_fd j = some fd ↔ j ≠ i ∧ x.client_fd j = some fd := by
  have hnext := hy ▸ h.disconnected hi
  rw [client_fd_eq hnext, client_fd_eq h, hy, h.disconnected_eq hi]
  by_cases hj : j = i
  · subst j
    simp
  · have hne : j.slot ≠ i.slot := fun he => hj (SockServer.slot_injective he)
    simp [Function.update_of_ne hne, hj]

theorem visit_disconnect (s : SockServer) {client : Proxy} (hi : s.m_clients i = some client) :
    s.visit i .disconnect = (if (s.disconnected i client).m_ncount = 0 then some ((i.val : Int) + 1)
      else none, s.disconnected i client) := by
  simp only [SockServer.visit, hi]

-- Without a client left the loop returns, with one it goes on.
theorem returns_of_disconnect (h : x.tables.Tables) {client : Proxy}
    (hi : x.tables.m_clients i = some client) (hreturns : (x.tables.visit i .disconnect).1.isSome) :
    ∀ j fd, x.client_fd j = some fd → j = i := by
  rw [visit_disconnect x.tables hi] at hreturns
  have hnext := h.disconnected hi
  have hzero : (x.tables.disconnected i client).m_ncount = 0 := by
    by_contra hne
    rw [if_neg hne] at hreturns
    cases hreturns
  have hempty : (Table.occupied (x.tables.disconnected i client).m_clients).card = 0 := by
    have hcount := hnext.ncount
    omega
  intro j fd hfd
  by_contra hj
  have hgone := Table.card_eq_zero.mp hempty j
  rw [h.disconnected_eq hi] at hgone
  simp only [Function.update_of_ne hj] at hgone
  exact ((client_fd_eq h).mp hfd).1 hgone

end Tables

-- Between two steps: the callback was called for clients that had sent something, a
-- connection was closed when all of it was read, and whatever the loop still comes to
-- with its descriptor in rfds has something to read or has ended.
structure Sound (x : Service) : Prop where
  tables : x.tables.history.overrun = false → x.tables.Tables
  settled : x.tables.history.overrun = false →
    x.listener = .connections ∨ x.listener = .messages → x.tables.Settled
  turns : x.listener.turns.Nodup
  watched : x.tables.history.overrun = false → ∀ i ∈ x.listener.rest, ∀ fd,
    x.client_fd i = some fd → fd ∈ x.rfds → (x.inbox fd).unread ≠ 0 ∨ (x.inbox fd).ended = true
  called : ∀ entry ∈ x.called, entry.2.unread ≠ 0
  closed : ∀ entry ∈ x.closed, entry.2 = ⟨0, true⟩

theorem sound_init : init.Sound where
  tables _ := SockServer.tables_init
  settled _ _ := SockServer.settled_init
  turns := List.nodup_nil
  watched _ _ hi := absurd hi List.not_mem_nil
  called _ hmem := absurd hmem List.not_mem_nil
  closed _ hmem := absurd hmem List.not_mem_nil

theorem Sound.turns_of (h : x.Sound) {pc : ScanPc} (hpc : x.listener = pc) : pc.turns.Nodup :=
  hpc ▸ h.turns

-- Bytes that come or are read change one inbox.
theorem Sound.set_inbox (h : x.Sound) {fd : Int} {inbox : Inbox}
    (hkeep : ∀ i ∈ x.listener.rest, x.client_fd i = some fd →
      (x.inbox fd).unread ≠ 0 ∨ (x.inbox fd).ended = true →
        inbox.unread ≠ 0 ∨ inbox.ended = true) : (x.set_inbox fd inbox).Sound := by
  refine { h with watched := fun hrun i hi other hother hmem => ?_ }
  have hbefore := h.watched hrun i hi other hother hmem
  show (Function.update x.inbox fd inbox other).unread ≠ 0 ∨
    (Function.update x.inbox fd inbox other).ended = true
  by_cases hs : other = fd
  · subst other
    rw [Function.update_self]
    exact hkeep i hi hother hbefore
  · rw [Function.update_of_ne hs]
    exact hbefore

theorem Sound.visit_client (h : x.Sound) (hrun : x.tables.history.overrun = false)
    {i : ClientIndex} {rest : List ClientIndex} {client : Proxy} {id : SlotId}
    {status : ConnStatus} (hpc : x.listener = .scan (i :: rest))
    (hclient : x.tables.m_clients i = some client) (hid : x.tables.proxies client = some id)
    (hcheck : x.server.sock_server_check_connect x.fds id = some status) :
    (x.visit_client i rest (x.tables.client_slots id) status).Sound := by
  have htables := h.tables hrun
  obtain rfl : id = i.slot := Option.some.inj (hid.symm.trans (htables.ids i client hclient))
  have hfd : x.client_fd i = some (x.tables.client_slots i.slot) :=
    (client_fd_eq htables).mpr ⟨by rw [hclient]; exact Option.some_ne_none client, rfl⟩
  obtain ⟨hreadable, hdisconnect⟩ := check_status htables (client_fd_open htables hfd).1 hcheck
  have hturns : (i :: rest).Nodup := h.turns_of hpc
  have hwatched : ∀ j ∈ i :: rest, ∀ fd, x.client_fd j = some fd → fd ∈ x.rfds →
      (x.inbox fd).unread ≠ 0 ∨ (x.inbox fd).ended = true := by
    have hall := h.watched hrun
    rwa [hpc] at hall
  cases status with
  | normal =>
      exact { h with
        settled := fun _ hlistener => by rcases hlistener with hpc | hpc <;> cases hpc
        turns := (List.nodup_cons.mp hturns).2
        watched := fun _ j hj => hwatched j (List.mem_cons_of_mem i hj) }
  | readable =>
      refine { h with
        settled := fun _ hlistener => by rcases hlistener with hpc | hpc <;> cases hpc
        turns := hturns
        watched := fun _ j hj => hwatched j (List.mem_cons_of_mem i hj)
        called := fun entry hmem => ?_ }
      rcases List.mem_append.mp hmem with hold | hnew
      · exact h.called entry hold
      · rw [List.mem_singleton.mp hnew]
        exact (hreadable.mp rfl).2
  | disconnect =>
      have hvisit := visit_disconnect x.tables hclient
      obtain ⟨hmem, hnone⟩ := hdisconnect.mp rfl
      have hended : (x.inbox (x.tables.client_slots i.slot)).ended = true :=
        (hwatched i List.mem_cons_self _ hfd hmem).resolve_left (not_not.mpr hnone)
      have hnext := htables.disconnected hclient
      refine ⟨fun _ => ?_, fun _ hlistener => ?_, ?_, fun _ j hj fd hj' hfd' => ?_, h.called,
        fun entry hentry => ?_⟩
      · show (x.tables.visit i .disconnect).2.Tables
        rw [hvisit]
        exact hnext
      · show (x.tables.visit i .disconnect).2.Settled
        rw [hvisit]
        apply hnext.settled_of_ncount
        by_contra hne
        simp only [Service.visit_client, hvisit, if_neg hne, Option.isSome_none] at hlistener
        rcases hlistener with hpc | hpc <;> cases hpc
      · simp only [Service.visit_client]
        split
        · exact List.nodup_nil
        · exact (List.nodup_cons.mp hturns).2
      · have hrest : j ∈ rest := by
          simp only [Service.visit_client] at hj
          split at hj
          · cases hj
          · exact hj
        have hgone := (client_fd_disconnected htables hclient (congrArg Prod.snd hvisit)).mp hj'
        exact hwatched j (List.mem_cons_of_mem i hrest) fd hgone.2 hfd'
      · rcases List.mem_append.mp hentry with hold | hnew
        · exact h.closed entry hold
        · rw [List.mem_singleton.mp hnew]
          cases hinbox : x.inbox (x.tables.client_slots i.slot) with
          | mk unread ended =>
              rw [hinbox] at hnone hended
              cases hnone
              cases hended
              rfl

theorem Sound.step (h : x.Sound) (hstep : x.step event = some y) : y.Sound := by
  obtain ⟨hrun, hmoves⟩ := moves_of_step hstep
  cases hmoves with
  | bytes fd count hopen hended =>
      refine h.set_inbox fun i hi hfd hready => ?_
      rcases hready with hready | hready
      · exact .inl (by show _ + count ≠ 0; omega)
      · rw [hended] at hready
        cases hready
  | hangup fd hopen => exact h.set_inbox fun i hi hfd hready => .inr rfl
  | connection attempt inbox tables hpc htables =>
      have hnext := (h.settled hrun (.inl hpc)).step_within htables
      exact ⟨fun hrun => (hnext.2.2 hrun).toTables, fun hrun _ => hnext.2.2 hrun, List.nodup_nil,
        fun _ i hi => absurd hi List.not_mem_nil, h.called, h.closed⟩
  | select server hpc hselect =>
      obtain ⟨hrfds, _⟩ := select_watched (h.tables hrun) hselect
      have hall := List.nodup_finRange 255
      exact { h with
        settled := fun _ _ => h.settled hrun (.inr hpc)
        turns := by simpa only [ScanPc.turns] using hall
        watched := fun _ i _ fd _ hmem => ((hrfds fd).mp hmem).2 }
  | pass interrupted answer server hpc hselect hpass =>
      exact { h with
        settled := fun _ _ => h.settled hrun (.inr hpc)
        turns := List.nodup_nil
        watched := fun _ i hi => absurd hi List.not_mem_nil }
  | done hpc =>
      exact ⟨fun _ => (h.tables hrun).choose_default.toTables,
        fun _ _ => (h.tables hrun).choose_default, List.nodup_nil,
        fun _ i hi => absurd hi List.not_mem_nil, h.called, h.closed⟩
  | skip i rest hpc hnone =>
      have hturns : (i :: rest).Nodup := h.turns_of hpc
      have hwatched := h.watched hrun
      rw [hpc] at hwatched
      exact { h with
        settled := fun _ hlistener => by rcases hlistener with hpc | hpc <;> cases hpc
        turns := (List.nodup_cons.mp hturns).2
        watched := fun _ j hj => hwatched j (List.mem_cons_of_mem i hj) }
  | check i rest client id status hpc hclient hid hcheck =>
      exact h.visit_client hrun hpc hclient hid hcheck
  | recv i rest fd count hpc hfd hcount =>
      refine h.set_inbox fun j hj hother _ => ?_
      have hturns : (i :: rest).Nodup := h.turns_of hpc
      rw [hpc] at hj
      obtain rfl := client_fd_injective (h.tables hrun) hfd hother
      exact absurd hj (List.nodup_cons.mp hturns).1
  | leave i rest hpc =>
      have hturns : (i :: rest).Nodup := h.turns_of hpc
      have hwatched := h.watched hrun
      rw [hpc] at hwatched
      exact { h with
        settled := fun _ hlistener => by rcases hlistener with hpc | hpc <;> cases hpc
        turns := (List.nodup_cons.mp hturns).2
        watched := fun _ j hj => hwatched j hj }

section Listed

variable {P : Inbox → Prop} {i : ClientIndex} {fd : Int}

-- What bytes and the end of the stream do not change.
structure Stable (P : Inbox → Prop) : Prop where
  bytes : ∀ unread count, P ⟨unread, false⟩ → P ⟨unread + count, false⟩
  hangup : ∀ inbox, P inbox → P ⟨inbox.unread, true⟩

-- The loop will come to a client that select has reported.
structure Listed (P : Inbox → Prop) (i : ClientIndex) (fd : Int) (x : Service) : Prop where
  descriptor : x.client_fd i = some fd
  inbox : P (x.inbox fd)
  rest : i ∈ x.listener.rest
  watched : fd ∈ x.rfds

theorem listed_of_select (hfd : x.client_fd i = some fd) (hinbox : P (x.inbox fd)) {rfds : FdSet}
    (hmem : fd ∈ rfds) {all : List ClientIndex} (hall : ∀ j, j ∈ all) :
    Listed P i fd { x with rfds := rfds, listener := .scan all } :=
  ⟨hfd, hinbox, hall i, hmem⟩

-- Its inbox may change as it pleases its peer.
theorem Listed.set_inbox (h : Listed P i fd x) {other : Int} {inbox : Inbox}
    (hkeep : other = fd → P inbox) : Listed P i fd (x.set_inbox other inbox) := by
  refine ⟨h.descriptor, ?_, h.rest, h.watched⟩
  show P (Function.update x.inbox other inbox fd)
  by_cases hs : fd = other
  · subst other
    rw [Function.update_self]
    exact hkeep rfl
  · rw [Function.update_of_ne hs]
    exact h.inbox

theorem Listed.visit_other (h : Listed P i fd x) (htables : x.tables.Tables)
    {k : ClientIndex} {rest : List ClientIndex} {client : Proxy} (hne : i ≠ k)
    (hpc : x.listener = .scan (k :: rest)) (hclient : x.tables.m_clients k = some client)
    (other : Int) (status : ConnStatus) : Listed P i fd (x.visit_client k rest other status) := by
  have hrest : i ∈ rest := by
    have hmem := h.rest
    rw [hpc] at hmem
    exact (List.mem_cons.mp hmem).resolve_left hne
  cases status with
  | normal => exact ⟨h.descriptor, h.inbox, hrest, h.watched⟩
  | readable => exact ⟨h.descriptor, h.inbox, hrest, h.watched⟩
  | disconnect =>
      have hvisit := congrArg Prod.snd (visit_disconnect x.tables hclient)
      refine ⟨(client_fd_disconnected htables hclient hvisit).mpr ⟨hne, h.descriptor⟩, h.inbox, ?_,
        h.watched⟩
      have hgoes : ¬ (x.tables.visit k .disconnect).1.isSome :=
        fun hreturns => hne (returns_of_disconnect htables hclient hreturns i fd h.descriptor)
      simp only [Service.visit_client, if_neg hgoes]
      exact hrest

-- A client stays listed until the loop has come to it, and then its status tells whether
-- there is something to read.
theorem Listed.step (h : Listed P i fd x) (hsound : x.Sound) (hstable : Stable P)
    (hstep : x.step event = some y) :
    Listed P i fd y ∨ ∃ rest status, event = .visit ∧ x.listener = .scan (i :: rest) ∧
      (status = .readable ↔ (x.inbox fd).unread ≠ 0) ∧
      (status = .disconnect ↔ (x.inbox fd).unread = 0) ∧
      y = x.visit_client i rest fd status := by
  obtain ⟨hrun, hmoves⟩ := moves_of_step hstep
  have htables := hsound.tables hrun
  have hrest := h.rest
  cases hmoves with
  | bytes other count hopen hended =>
      refine .inl (h.set_inbox fun hs => ?_)
      subst other
      have hinbox : x.inbox fd = ⟨(x.inbox fd).unread, false⟩ := by rw [← hended]
      exact hstable.bytes _ count (hinbox ▸ h.inbox)
  | hangup other hopen =>
      refine .inl (h.set_inbox fun hs => ?_)
      subst other
      exact hstable.hangup _ h.inbox
  | connection attempt inbox tables hpc =>
      rw [hpc] at hrest
      cases hrest
  | select server hpc =>
      rw [hpc] at hrest
      cases hrest
  | pass interrupted answer server hpc =>
      rw [hpc] at hrest
      cases hrest
  | done hpc =>
      rw [hpc] at hrest
      cases hrest
  | skip k rest hpc hnone =>
      left
      refine ⟨h.descriptor, h.inbox, ?_, h.watched⟩
      rw [hpc] at hrest
      refine (List.mem_cons.mp hrest).resolve_left ?_
      rintro rfl
      exact ((client_fd_eq htables).mp h.descriptor).1 hnone
  | check k rest client id status hpc hclient hid hcheck =>
      obtain rfl : id = k.slot := Option.some.inj (hid.symm.trans (htables.ids k client hclient))
      by_cases hs : i = k
      · subst k
        right
        obtain rfl := ((client_fd_eq htables).mp h.descriptor).2
        have hspec := check_status htables (client_fd_open htables h.descriptor).1 hcheck
        simp only [h.watched, true_and] at hspec
        exact ⟨rest, status, rfl, hpc, hspec.1, hspec.2, rfl⟩
      · exact .inl (h.visit_other htables hs hpc hclient _ status)
  | recv k rest other count hpc hfd hcount =>
      left
      refine h.set_inbox fun hs => ?_
      subst other
      have hturns : (k :: rest).Nodup := hsound.turns_of hpc
      rw [hpc] at hrest
      obtain rfl := client_fd_injective htables hfd h.descriptor
      exact absurd hrest (List.nodup_cons.mp hturns).1
  | leave k rest hpc =>
      left
      refine ⟨h.descriptor, h.inbox, ?_, h.watched⟩
      rw [hpc] at hrest
      exact hrest

end Listed

section Turns

-- At every call of select the client at `i` has something to be read.
def Waits (i : ClientIndex) (x : Service) (event : ServiceEvent) : Prop :=
  ∀ interrupted, event = .clients_readable interrupted →
    ∃ fd, x.client_fd i = some fd ∧ (x.inbox fd).unread ≠ 0

instance (i : ClientIndex) (x : Service) (event : ServiceEvent) : Decidable (Waits i x event) :=
  match event with
  | .clients_readable interrupted =>
    decidable_of_iff (∃ fd ∈ x.client_fd i, (x.inbox fd).unread ≠ 0)
      ⟨fun h _ _ => h, fun h => h interrupted rfl⟩
  | .bytes .. | .hangup .. | .check_new_connection .. | .visit | .recv .. | .leave =>
    .isTrue fun _ h => by cases h

variable {i : ClientIndex} {before : ClientIndex → Nat} {selects : Nat}

-- After some calls of select, each of them with a turn for the client at `i`, and with
-- one at most for the others.
structure TakesTurns (i : ClientIndex) (before : ClientIndex → Nat) (selects : Nat)
    (x : Service) : Prop where
  listed : i ∈ x.listener.rest → ∃ fd, Listed (fun inbox => inbox.unread ≠ 0) i fd x
  own : x.calls i + (if i ∈ x.listener.rest then 1 else 0) = before i + selects
  others : ∀ j, x.calls j + (if j ∈ x.listener.rest then 1 else 0) ≤ before j + selects

theorem stable_unread : Stable fun inbox => inbox.unread ≠ 0 where
  bytes unread count h := by
    show unread + count ≠ 0
    have hunread : unread ≠ 0 := h
    omega
  hangup _ h := h

-- Where the loop goes on with the same indices and no callback is called.
theorem TakesTurns.same (h : TakesTurns i before selects x)
    (hlisted : i ∈ y.listener.rest → ∃ fd, Listed (fun inbox => inbox.unread ≠ 0) i fd y)
    (hown : i ∈ y.listener.rest ↔ i ∈ x.listener.rest)
    (hothers : ∀ j ∈ y.listener.rest, j ∈ x.listener.rest) (hcalled : y.called = x.called) :
    TakesTurns i before selects y := by
  have hcalls : ∀ j, y.calls j = x.calls j := fun j => by rw [calls, calls, hcalled]
  refine ⟨hlisted, ?_, fun j => ?_⟩
  · rw [hcalls]
    simp only [hown]
    exact h.own
  · have hbefore := h.others j
    rw [hcalls]
    by_cases hj : j ∈ y.listener.rest
    · rw [if_pos (hothers j hj)] at hbefore
      rwa [if_pos hj]
    · rw [if_neg hj]
      omega

theorem calls_visit (x : Service) (k j : ClientIndex) (rest : List ClientIndex) (fd : Int)
    (status : ConnStatus) : (x.visit_client k rest fd status).calls j =
      x.calls j + if status = .readable ∧ k = j then 1 else 0 := by
  cases status with
  | readable =>
      show (x.called ++ [(k, x.inbox fd)]).countP _ = _
      rw [List.countP_append, List.countP_singleton]
      simp [calls]
  | _ => simp [calls, Service.visit_client]

theorem rest_visit (x : Service) (k : ClientIndex) (rest : List ClientIndex) (fd : Int)
    (status : ConnStatus) : (x.visit_client k rest fd status).listener.rest = rest ∨
      (status = .disconnect ∧ (x.tables.visit k .disconnect).1.isSome ∧
        (x.visit_client k rest fd status).listener.rest = []) := by
  cases status with
  | disconnect =>
      by_cases hreturns : (x.tables.visit k .disconnect).1.isSome
      · right
        refine ⟨rfl, hreturns, ?_⟩
        simp only [Service.visit_client, if_pos hreturns]
        rfl
      · left
        simp only [Service.visit_client, if_neg hreturns]
        rfl
  | _ => exact .inl rfl

-- The loop comes to the client at `i`, and it is called.
theorem TakesTurns.visit_own (h : TakesTurns i before selects x) (hturns : x.listener.turns.Nodup)
    {rest : List ClientIndex} (hpc : x.listener = .scan (i :: rest)) (fd : Int) :
    TakesTurns i before selects (x.visit_client i rest fd .readable) := by
  have hnew : i ∉ rest := by
    rw [hpc] at hturns
    exact (List.nodup_cons.mp hturns).1
  have hown := h.own
  rw [hpc, if_pos (show i ∈ (ScanPc.scan (i :: rest)).rest from List.mem_cons_self)] at hown
  refine ⟨fun hmem => absurd hmem hnew, ?_, fun j => ?_⟩
  · rw [calls_visit, if_pos ⟨rfl, rfl⟩]
    show _ + (if i ∈ rest then 1 else 0) = _
    rw [if_neg hnew]
    omega
  · have hother := h.others j
    rw [hpc] at hother
    rw [calls_visit]
    show _ + (if j ∈ rest then 1 else 0) ≤ _
    by_cases hs : i = j
    · subst j
      rw [if_pos ⟨rfl, rfl⟩, if_neg hnew]
      omega
    · rw [if_neg (fun hcall => hs hcall.2), Nat.add_zero]
      have hmem : j ∈ (ScanPc.scan (i :: rest)).rest ↔ j ∈ rest := by
        simp [ScanPc.rest, Ne.symm hs]
      simpa only [hmem] using hother

-- It comes to another one.
theorem TakesTurns.visit_other (h : TakesTurns i before selects x) (htables : x.tables.Tables)
    (hturns : x.listener.turns.Nodup) {k : ClientIndex} {rest : List ClientIndex} {client : Proxy}
    (hne : i ≠ k) (hpc : x.listener = .scan (k :: rest))
    (hclient : x.tables.m_clients k = some client) (fd : Int) (status : ConnStatus) :
    TakesTurns i before selects (x.visit_client k rest fd status) := by
  have hnew : k ∉ rest := by
    rw [hpc] at hturns
    exact (List.nodup_cons.mp hturns).1
  have hlisted : i ∈ rest → ∃ fd', Listed (fun inbox => inbox.unread ≠ 0) i fd'
      (x.visit_client k rest fd status) := by
    intro hmem
    obtain ⟨fd', hbefore⟩ := h.listed (by rw [hpc]; exact List.mem_cons_of_mem k hmem)
    exact ⟨fd', hbefore.visit_other htables hne hpc hclient fd status⟩
  have hown := h.own
  have hmem : i ∈ (ScanPc.scan (k :: rest)).rest ↔ i ∈ rest := by simp [ScanPc.rest, hne]
  rw [hpc] at hown
  simp only [hmem] at hown
  have hrest : ∀ j, j ∈ (x.visit_client k rest fd status).listener.rest → j ∈ rest := by
    intro j hj
    rcases rest_visit x k rest fd status with hsame | ⟨_, _, hnone⟩
    · rwa [hsame] at hj
    · rw [hnone] at hj
      cases hj
  have hkept : i ∈ rest → i ∈ (x.visit_client k rest fd status).listener.rest := by
    intro hi
    obtain ⟨_, hafter⟩ := hlisted hi
    exact hafter.rest
  refine ⟨fun hi => hlisted (hrest i hi), ?_, fun j => ?_⟩
  · rw [calls_visit, if_neg (fun hcall => hne hcall.2.symm)]
    have hiff : i ∈ (x.visit_client k rest fd status).listener.rest ↔ i ∈ rest :=
      ⟨hrest i, hkept⟩
    simp only [hiff]
    omega
  · have hother := h.others j
    rw [hpc] at hother
    rw [calls_visit]
    by_cases hs : k = j
    · subst j
      rw [if_pos (show k ∈ (ScanPc.scan (k :: rest)).rest from List.mem_cons_self)] at hother
      rw [if_neg (fun hk => hnew (hrest k hk))]
      split <;> omega
    · rw [if_neg (fun hcall => hs hcall.2)]
      by_cases hj : j ∈ (x.visit_client k rest fd status).listener.rest
      · rw [if_pos (show j ∈ (ScanPc.scan (k :: rest)).rest from
          List.mem_cons_of_mem k (hrest j hj))] at hother
        rw [if_pos hj]
        exact hother
      · rw [if_neg hj]
        omega

-- The loop starts from a call of select.
theorem TakesTurns.select (h : TakesTurns i before selects x) (hrest : x.listener.rest = [])
    {fd : Int} (hfd : x.client_fd i = some fd) (hunread : (x.inbox fd).unread ≠ 0) {rfds : FdSet}
    (hrfds : fd ∈ rfds) {all : List ClientIndex} (hall : ∀ j, j ∈ all) :
    TakesTurns i before (selects + 1) { x with rfds := rfds, listener := .scan all } := by
  have hown := h.own
  rw [hrest, if_neg List.not_mem_nil] at hown
  refine ⟨fun _ => ⟨fd, listed_of_select hfd hunread hrfds hall⟩, ?_, fun j => ?_⟩
  · rw [if_pos (show i ∈ (ScanPc.scan all).rest from hall i)]
    show x.calls i + 1 = before i + (selects + 1)
    omega
  · have hother := h.others j
    rw [hrest, if_neg List.not_mem_nil] at hother
    rw [if_pos (show j ∈ (ScanPc.scan all).rest from hall j)]
    show x.calls j + 1 ≤ before j + (selects + 1)
    omega

theorem TakesTurns.step (h : TakesTurns i before selects x) (hsound : x.Sound)
    (hwaits : x.Waits i event) (hstep : x.step event = some y) :
    TakesTurns i before (selects + if event.selects then 1 else 0) y := by
  have hlisted : event ≠ .visit → y.listener.rest = x.listener.rest →
      i ∈ y.listener.rest → ∃ fd, Listed (fun inbox => inbox.unread ≠ 0) i fd y := by
    intro hevent hrest hi
    obtain ⟨fd, hbefore⟩ := h.listed (hrest ▸ hi)
    rcases hbefore.step hsound stable_unread hstep with hafter | ⟨_, _, hvisit, _⟩
    · exact ⟨fd, hafter⟩
    · exact absurd hvisit hevent
  obtain ⟨hrun, hmoves⟩ := moves_of_step hstep
  have htables := hsound.tables hrun
  cases hmoves with
  | bytes fd count hopen hended =>
      exact h.same (hlisted (fun he => by cases he) rfl) Iff.rfl (fun _ hj => hj) rfl
  | hangup fd hopen =>
      exact h.same (hlisted (fun he => by cases he) rfl) Iff.rfl (fun _ hj => hj) rfl
  | connection attempt inbox tables hpc hconnect =>
      have hrest : x.listener.rest = [] := by rw [hpc]; rfl
      refine h.same (fun hi => absurd hi List.not_mem_nil) ?_
        (fun _ hj => absurd hj List.not_mem_nil) rfl
      rw [hrest]
      exact Iff.rfl
  | select server hpc hselect =>
      have hrest : x.listener.rest = [] := by rw [hpc]; rfl
      obtain ⟨hrfds, _⟩ := select_watched htables hselect
      obtain ⟨fd, hfd, hunread⟩ := hwaits false rfl
      have hmem : fd ∈ server.rfds := by
        obtain ⟨hclient, rfl⟩ := (client_fd_eq htables).mp hfd
        refine (hrfds _).mpr ⟨⟨i.slot, ?_, rfl⟩, .inl hunread⟩
        exact fun hslot => hclient ((htables.clients i).mpr hslot)
      exact h.select hrest hfd hunread hmem List.mem_finRange
  | pass interrupted answer server hpc hselect hpass =>
      obtain ⟨fd, hfd, hunread⟩ := hwaits interrupted rfl
      have hyes := (select_watched htables hselect).2 i fd hfd (.inl hunread)
      have hsignal : interrupted = true := by
        cases interrupted with
        | true => rfl
        | false => exact (hpass rfl).symm.trans hyes
      subst hsignal
      have hrest : x.listener.rest = [] := by rw [hpc]; rfl
      refine h.same (fun hi => absurd hi List.not_mem_nil) ?_
        (fun _ hj => absurd hj List.not_mem_nil) rfl
      rw [hrest]
      exact Iff.rfl
  | done hpc =>
      have hrest : x.listener.rest = [] := by rw [hpc]; rfl
      refine h.same (fun hi => absurd hi List.not_mem_nil) ?_
        (fun _ hj => absurd hj List.not_mem_nil) rfl
      rw [hrest]
      exact Iff.rfl
  | skip k rest hpc hnone =>
      have hne : i ∈ x.listener.rest → i ≠ k := by
        rintro hi rfl
        obtain ⟨fd, hbefore⟩ := h.listed hi
        exact ((client_fd_eq htables).mp hbefore.descriptor).1 hnone
      have hrest : x.listener.rest = k :: rest := by rw [hpc]; rfl
      refine h.same (fun hi => ?_) ?_ (fun j hj => ?_) rfl
      · obtain ⟨fd, hbefore⟩ := h.listed (hrest ▸ List.mem_cons_of_mem k hi)
        exact ⟨fd, hbefore.descriptor, hbefore.inbox, hi, hbefore.watched⟩
      · rw [hrest] at hne ⊢
        refine ⟨List.mem_cons_of_mem k, fun hi => ?_⟩
        exact (List.mem_cons.mp hi).resolve_left (hne hi)
      · rw [hrest]
        exact List.mem_cons_of_mem k hj
  | check k rest client id status hpc hclient hid hcheck =>
      obtain rfl : id = k.slot := Option.some.inj (hid.symm.trans (htables.ids k client hclient))
      by_cases hs : i = k
      · subst k
        obtain ⟨fd, hbefore⟩ := h.listed (by rw [hpc]; exact List.mem_cons_self)
        obtain rfl := ((client_fd_eq htables).mp hbefore.descriptor).2
        have hspec := check_status htables (client_fd_open htables hbefore.descriptor).1 hcheck
        obtain rfl := hspec.1.mpr ⟨hbefore.watched, hbefore.inbox⟩
        exact h.visit_own hsound.turns hpc _
      · exact h.visit_other htables hsound.turns hs hpc hclient _ status
  | recv k rest fd count hpc hfd hcount =>
      exact h.same (hlisted (fun he => by cases he) rfl) Iff.rfl (fun _ hj => hj) rfl
  | leave k rest hpc =>
      have hrest : rest = x.listener.rest := by rw [hpc]; rfl
      refine h.same (hlisted (fun he => by cases he) hrest) ?_ (fun j hj => hrest ▸ hj) rfl
      exact hrest ▸ Iff.rfl

theorem TakesTurns.run (h : TakesTurns i before selects x) (hsound : x.Sound)
    {events : List ServiceEvent} (hwaits : Machine.Along Service.step (Waits i) x events)
    (hrun : Machine.run Service.step x events = some y) :
    TakesTurns i before (selects + events.countP ServiceEvent.selects) y := by
  induction events generalizing x selects with
  | nil =>
      cases hrun
      exact h
  | cons event events ih =>
      obtain ⟨m, hm, hrest⟩ := Machine.run_cons_some.mp hrun
      have hnext := ih (h.step hsound hwaits.1 hm) (hsound.step hm) (hwaits.2 m hm) hrest
      rw [List.countP_cons]
      convert hnext using 1
      omega

-- While a client has something to be read at every call of select, each of them gives it
-- one turn, and no other client gets more than one turn more.
theorem served_in_turn (events later : List ServiceEvent) (x y : Service) (i : ClientIndex)
    (hrun : Machine.run step init events = some x) (hx : x.listener = .connections)
    (hlater : Machine.run step x later = some y) (hwaits : Machine.Along step (Waits i) x later) :
    y.calls i ≤ x.calls i + later.countP ServiceEvent.selects ∧
    x.calls i + later.countP ServiceEvent.selects ≤ y.calls i + 1 ∧
    (y.listener = .connections →
      y.calls i = x.calls i + later.countP ServiceEvent.selects) ∧
    ∀ j, y.calls j + x.calls i ≤ x.calls j + y.calls i + 1 := by
  have hsound : x.Sound :=
    Machine.invariant_always (fun _ _ _ hs hstep => hs.step hstep) sound_init hrun
  have hrest : x.listener.rest = [] := by rw [hx]; rfl
  have hstart : TakesTurns i x.calls 0 x := by
    refine ⟨fun hi => ?_, ?_, fun j => ?_⟩
    · rw [hrest] at hi
      cases hi
    · rw [hrest, if_neg List.not_mem_nil]
    · rw [hrest, if_neg List.not_mem_nil]
  have hend := hstart.run hsound hwaits hlater
  rw [Nat.zero_add] at hend
  have hown := hend.own
  have hone : (if i ∈ y.listener.rest then 1 else 0) ≤ 1 := by split <;> omega
  refine ⟨by omega, by omega, fun hy => ?_, fun j => ?_⟩
  · rw [hy, if_neg (show i ∉ ScanPc.connections.rest from List.not_mem_nil)] at hown
    omega
  · have hother := hend.others j
    omega

-- Two clients of which the second has 12 bytes for the first round, and one for another.
def two_senders : List ServiceEvent :=
  [.check_new_connection ⟨true, 7, 0, 1⟩ ⟨0, false⟩, .clients_readable true,
    .check_new_connection ⟨true, 8, 0, 2⟩ ⟨12, false⟩, .clients_readable true]

def one_round : List ServiceEvent :=
  [.check_new_connection ⟨false, 9, 0, 3⟩ ⟨0, false⟩, .bytes 7 16, .clients_readable false, .visit,
    .recv 16, .leave, .visit, .recv 11, .leave]

theorem served_in_turn_two : ∃ x y, Machine.run step init two_senders = some x ∧
    Machine.run step x one_round = some y ∧ y.called.map (fun entry => entry.1.val) = [0, 1] ∧
    ∀ j, y.calls j + x.calls ⟨1, by decide⟩ ≤ x.calls j + y.calls ⟨1, by decide⟩ + 1 := by
  obtain ⟨x, hrun, hx⟩ : ∃ x, Machine.run step init two_senders = some x ∧
      (x.listener, decide (Machine.Along step (Waits ⟨1, by decide⟩) x one_round),
        (Machine.run step x one_round).map fun y => y.called.map fun entry => entry.1.val) =
          (.connections, true, some [0, 1]) :=
    Option.map_eq_some_iff.mp (by decide +kernel)
  obtain ⟨hlistener, hrest⟩ := Prod.mk.inj hx
  obtain ⟨hwaits, hround⟩ := Prod.mk.inj hrest
  obtain ⟨y, hy, hcalled⟩ := Option.map_eq_some_iff.mp hround
  exact ⟨x, y, hrun, hy, hcalled, (served_in_turn two_senders one_round x y _ hrun hlistener hy
    (of_decide_eq_true hwaits)).2.2.2⟩

end Turns

section Ends

variable {i : ClientIndex} {fd : Int} {before : List (ClientIndex × Inbox)} {selects : Nat}

theorem closed_step (hstep : x.step event = some y) : x.closed <+: y.closed := by
  cases (moves_of_step hstep).2 with
  | check i rest client id status hpc hclient hid hcheck =>
      cases status with
      | disconnect => exact List.prefix_append _ _
      | _ => exact List.prefix_rfl
  | _ => exact List.prefix_rfl

-- A client whose stream has ended and was read stays as it is until select reports it,
-- stays listed then, and is closed.
structure Ends (i : ClientIndex) (fd : Int) (before : List (ClientIndex × Inbox)) (selects : Nat)
    (x : Service) : Prop where
  kept : before <+: x.closed
  ends : (i, ⟨0, true⟩) ∈ x.closed.drop before.length ∨
    Listed (fun inbox => inbox = ⟨0, true⟩) i fd x ∨
    selects = 0 ∧ (x.listener = .connections ∨ x.listener = .messages) ∧
      (x.tables.history.overrun = false → x.client_fd i = some fd ∧ x.inbox fd = ⟨0, true⟩)

theorem stable_ended : Stable fun inbox => inbox = ⟨0, true⟩ where
  bytes unread count h := by cases h
  hangup inbox h := by rw [h]

-- A connection that is accepted does not touch the others.
theorem client_fd_connection (h : x.tables.Tables) {attempt : Attempt} {tables : SockServer}
    (hconnect : x.tables.step (.check_new_connection attempt) = some tables)
    (hrun : tables.history.overrun = false) (hy : y.tables = tables)
    (hfd : x.client_fd i = some fd) : y.client_fd i = some fd ∧ fd ≠ attempt.accept := by
  obtain ⟨hclient, hslot⟩ := (client_fd_eq h).mp hfd
  rcases SockServer.step_cases hconnect with ⟨_, heq, hpossible, rfl⟩ | ⟨_, heq, _⟩
  · cases heq
    have hnew : attempt.accept ∉ x.tables.history.descriptors := (of_decide_eq_true hpossible).1
    refine ⟨?_, fun he => hnew (he ▸ (client_fd_open h hfd).2.2)⟩
    rcases SockServer.check_new_connection_cases x.tables attempt with
      ⟨_, hsame⟩ | ⟨hok, id, hid, hadded⟩
    · rw [hsame] at hy
      unfold client_fd
      rw [hy]
      exact hfd
    · rw [hadded] at hrun hy
      have hlt : id.val < 255 := by
        by_contra hpast
        have hover := (SockServer.connect_history_past x.tables attempt (Nat.not_lt.mp hpast)).2
        exact absurd (hover.symm.trans hrun) (by decide)
      let k : ClientIndex := ⟨id.val, hlt⟩
      have hfree : x.tables.m_clients k = none :=
        (h.clients k).mpr (of_decide_eq_true (Table.lowest_eq (i := id) hid))
      have hnext : y.tables.Tables := hy ▸ h.connect (i := k) hok.2.1 hpossible hfree
      have hne : i ≠ k := by
        rintro rfl
        exact hclient hfree
      have hconnected : y.tables = x.tables.connect attempt k.slot := hy
      rw [client_fd_eq hnext, hconnected, SockServer.connect_slot]
      have hslots : i.slot ≠ k.slot := fun he => hne (SockServer.slot_injective he)
      simp only [Function.update_of_ne hne, Function.update_of_ne hslots]
      exact ⟨hclient, hslot⟩
  · cases heq

theorem Ends.step (h : Ends i fd before selects x) (hsound : x.Sound)
    (hstep : x.step event = some y) :
    Ends i fd before (selects + if event.selects then 1 else 0) y := by
  obtain ⟨more, hmore⟩ := closed_step hstep
  refine ⟨h.kept.trans ⟨more, hmore⟩, ?_⟩
  rcases h.ends with hgone | hlisted | ⟨hnone, hlistener, hwaits⟩
  · left
    rw [← hmore, List.drop_append_of_le_length h.kept.length_le]
    exact List.mem_append_left _ hgone
  · rcases hlisted.step hsound stable_ended hstep with
      hlisted' | ⟨rest, status, _, _, _, hdisconnect, rfl⟩
    · exact .inr (.inl hlisted')
    · left
      have hinbox := hlisted.inbox
      obtain rfl := hdisconnect.mpr (by rw [hinbox])
      show _ ∈ (x.closed ++ [(i, x.inbox fd)]).drop before.length
      rw [List.drop_append_of_le_length h.kept.length_le, hinbox]
      exact List.mem_append_right _ (List.mem_singleton_self _)
  · right
    obtain ⟨hrun, hmoves⟩ := moves_of_step hstep
    obtain ⟨hfd, hinbox⟩ := hwaits hrun
    have htables := hsound.tables hrun
    have hset : ∀ other inbox, (other = fd → inbox = ⟨0, true⟩) →
        (x.set_inbox other inbox).inbox fd = ⟨0, true⟩ := by
      intro other inbox hsame
      show Function.update x.inbox other inbox fd = _
      by_cases hs : fd = other
      · subst other
        rw [Function.update_self]
        exact hsame rfl
      · rw [Function.update_of_ne hs]
        exact hinbox
    cases hmoves with
    | bytes other count hopen hended =>
        right
        refine ⟨hnone, hlistener, fun _ => ⟨hfd, hset other _ ?_⟩⟩
        rintro rfl
        rw [hinbox] at hended
        cases hended
    | hangup other hopen =>
        right
        refine ⟨hnone, hlistener, fun _ => ⟨hfd, hset other _ ?_⟩⟩
        rintro rfl
        rw [hinbox]
    | connection attempt inbox tables hpc hconnect =>
        right
        refine ⟨hnone, .inr rfl, fun hrun' => ?_⟩
        let y : Service :=
          { x.set_inbox attempt.accept inbox with tables := tables, listener := .messages }
        have hy : y.tables = tables := rfl
        obtain ⟨hfd', hne⟩ := client_fd_connection htables hconnect hrun' hy hfd
        exact ⟨hfd', hset attempt.accept inbox fun he => absurd he.symm hne⟩
    | select server hpc hselect =>
        obtain ⟨hrfds, _⟩ := select_watched htables hselect
        obtain ⟨hclient, hslot⟩ := (client_fd_eq htables).mp hfd
        have hopen : x.tables.client_slots i.slot ≠ -1 :=
          fun he => hclient ((htables.clients i).mpr he)
        have hmem : fd ∈ server.rfds :=
          (hrfds fd).mpr ⟨⟨i.slot, hopen, hslot⟩, .inr (by rw [hinbox])⟩
        exact .inl (listed_of_select hfd hinbox hmem List.mem_finRange)
    | pass interrupted answer server hpc hselect hpass =>
        have hyes := (select_watched htables hselect).2 i fd hfd (.inr (by rw [hinbox]))
        have hsignal : interrupted = true := by
          cases interrupted with
          | true => rfl
          | false => exact (hpass rfl).symm.trans hyes
        subst hsignal
        exact .inr ⟨hnone, .inl rfl, fun _ => ⟨hfd, hinbox⟩⟩
    | done hpc => rcases hlistener with hlistener | hlistener <;> cases hpc.symm.trans hlistener
    | skip k rest hpc =>
        rcases hlistener with hlistener | hlistener <;> cases hpc.symm.trans hlistener
    | check k rest client id status hpc =>
        rcases hlistener with hlistener | hlistener <;> cases hpc.symm.trans hlistener
    | recv k rest other count hpc =>
        rcases hlistener with hlistener | hlistener <;> cases hpc.symm.trans hlistener
    | leave k rest hpc =>
        rcases hlistener with hlistener | hlistener <;> cases hpc.symm.trans hlistener

theorem Ends.run (h : Ends i fd before selects x) (hsound : x.Sound) {events : List ServiceEvent}
    (hrun : Machine.run Service.step x events = some y) :
    Ends i fd before (selects + events.countP ServiceEvent.selects) y := by
  induction events generalizing x selects with
  | nil =>
      cases hrun
      exact h
  | cons event events ih =>
      obtain ⟨m, hm, hrest⟩ := Machine.run_cons_some.mp hrun
      have hnext := ih (h.step hsound hm) (hsound.step hm) hrest
      rw [List.countP_cons]
      convert hnext using 1
      omega

-- The callback is called only for clients that have sent something to be read, and the
-- connection of a client is closed only when its peer has hung up and all that it sent was
-- read. A client of that kind is closed before the listener has gone round once.
theorem closes_ended (events : List ServiceEvent) (x : Service)
    (hrun : Machine.run step init events = some x) :
    (∀ entry ∈ x.called, entry.2.unread ≠ 0) ∧
    (∀ entry ∈ x.closed, entry.2 = ⟨0, true⟩) ∧
    ∀ i fd later y, x.listener = .connections → x.client_fd i = some fd →
      x.inbox fd = ⟨0, true⟩ → Machine.run step x later = some y → y.listener = .connections →
      0 < later.countP ServiceEvent.selects → (i, ⟨0, true⟩) ∈ y.closed.drop x.closed.length := by
  have hsound : x.Sound :=
    Machine.invariant_always (fun _ _ _ hs hstep => hs.step hstep) sound_init hrun
  refine ⟨hsound.called, hsound.closed, fun i fd later y hx hfd hinbox hlater hy hselects => ?_⟩
  have hstart : Ends i fd x.closed 0 x :=
    ⟨List.prefix_rfl, .inr (.inr ⟨rfl, .inl hx, fun _ => ⟨hfd, hinbox⟩⟩)⟩
  rcases (hstart.run hsound hlater).ends with hgone | hlisted | ⟨hnone, _⟩
  · exact hgone
  · have hrest := hlisted.rest
    rw [hy] at hrest
    cases hrest
  · omega

-- A client sends 12 bytes and hangs up when they are read, and then is closed.
def one_sender : List ServiceEvent :=
  [.check_new_connection ⟨true, 7, 0, 1⟩ ⟨12, false⟩, .clients_readable false, .visit, .recv 12,
    .leave] ++ List.replicate 255 .visit ++ [.hangup 7]

def next_round : List ServiceEvent :=
  [.check_new_connection ⟨false, 9, 0, 3⟩ ⟨0, false⟩, .clients_readable false, .visit]

theorem closes_ended_one : ∃ x y, Machine.run step init one_sender = some x ∧
    Machine.run step x next_round = some y ∧ (∀ entry ∈ x.called, entry.2.unread ≠ 0) ∧
    x.called.map Prod.snd = [⟨12, false⟩] ∧
    (⟨0, by decide⟩, ⟨0, true⟩) ∈ y.closed.drop x.closed.length := by
  obtain ⟨x, hrun, hx⟩ : ∃ x, Machine.run step init one_sender = some x ∧
      (x.called.map Prod.snd, x.listener, x.client_fd ⟨0, by decide⟩, x.inbox 7,
        (Machine.run step x next_round).map fun y => y.listener) =
          ([⟨12, false⟩], .connections, some 7, ⟨0, true⟩, some .connections) :=
    Option.map_eq_some_iff.mp (by decide +kernel)
  obtain ⟨hcalled, hx⟩ := Prod.mk.inj hx
  obtain ⟨hlistener, hx⟩ := Prod.mk.inj hx
  obtain ⟨hfd, hx⟩ := Prod.mk.inj hx
  obtain ⟨hinbox, hx⟩ := Prod.mk.inj hx
  obtain ⟨y, hy, hylistener⟩ := Option.map_eq_some_iff.mp hx
  obtain ⟨hunread, _, hcloses⟩ := closes_ended one_sender x hrun
  exact ⟨x, y, hrun, hy, hunread, hcalled,
    hcloses _ 7 next_round y hlistener hfd hinbox hy hylistener (by decide)⟩

end Ends

end Service

end SensorVhal
