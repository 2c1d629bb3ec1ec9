import SensorVhal.Sock.Clients

namespace SensorVhal

def ClientIndex.slot (i : ClientIndex) : SlotId := ⟨i.val, Nat.lt_trans i.isLt (by decide)⟩

-- The system calls of a connection all succeed.
def Attempt.succeeds (attempt : Attempt) : Prop :=
  attempt.readable = true ∧ 0 ≤ attempt.accept ∧ 0 ≤ attempt.ioctl

namespace SockServer

-- The slots, the client table, the proxies, the count and the open descriptors
-- tell the same story, and the default client is one of the clients.
structure Tables (s : SockServer) : Prop where
  clients : ∀ i : ClientIndex, s.m_clients i = none ↔ s.client_slots i.slot = -1
  ids : ∀ i client, s.m_clients i = some client → s.proxies client = some i.slot
  beyond : ∀ id : SlotId, 255 ≤ id.val → s.client_slots id = -1
  ncount : s.m_ncount = (Table.occupied s.m_clients).card
  size : s.history.descriptors.length = (Table.occupied s.m_clients).card
  nodup : s.history.descriptors.Nodup
  open_ : ∀ fd, fd ∈ s.history.descriptors ↔ 0 ≤ fd ∧ ∃ id, s.client_slots id = fd
  negative : ∀ id, s.client_slots id < 0 → s.client_slots id = -1
  distinct : ∀ id id', s.client_slots id = s.client_slots id' → s.client_slots id ≠ -1 → id = id'
  closes : s.history.misclosed = 0
  deletes : s.history.redeleted = 0
  live : ∀ client id, s.proxies client = some id → ∃ i, s.m_clients i = some client
  default : ∀ client, s.m_pclient_ = some client → ∃ i, s.m_clients i = some client

theorem tables_init : init.Tables := by
  have hoccupied : Table.occupied (fun _ : ClientIndex => (none : Option Proxy)) = ∅ := by
    ext i
    simp
  constructor
  · intro i
    exact iff_of_true rfl rfl
  · intro i client h
    cases h
  · intro id _
    rfl
  · exact (congrArg (fun set => ((Finset.card set : Nat) : Int)) hoccupied).symm
  · exact (congrArg Finset.card hoccupied).symm
  · exact List.nodup_nil
  · intro fd
    constructor
    · intro h
      cases h
    · rintro ⟨hpos, id, hfd⟩
      have hfd : -1 = fd := hfd
      omega
  · intro id _
    rfl
  · intro id id' _ h
    exact absurd rfl h
  · rfl
  · rfl
  · intro client id h
    cases h
  · intro client h
    cases h

variable {s : SockServer}

theorem slot_injective {i j : ClientIndex} (h : i.slot = j.slot) : i = j :=
  Fin.ext (congrArg (fun id : SlotId => id.val) h)

theorem Tables.client_injective (h : s.Tables) {i j : ClientIndex} {client : Proxy}
    (hi : s.m_clients i = some client) (hj : s.m_clients j = some client) : i = j := by
  have hslots := (h.ids i client hi).symm.trans (h.ids j client hj)
  exact slot_injective (Option.some.inj hslots)

-- With an entry of m_clients free, the slot found is the index of one.
theorem Tables.find_empty_slot_lt (h : s.Tables) (hfree : ∃ j, s.m_clients j = none) :
    ∃ i : ClientIndex, s.sock_server_find_empty_slot = i.val ∧ s.m_clients i = none := by
  obtain ⟨j, hj⟩ := hfree
  have hslot : decide (s.client_slots j.slot = -1) = true := decide_eq_true ((h.clients j).mp hj)
  have hle : Table.lowest (fun id => decide (s.client_slots id = -1)) ≤ j.slot.val :=
    Table.lowest_le hslot
  obtain ⟨i, hi⟩ : ∃ i : ClientIndex, s.sock_server_find_empty_slot = i.val :=
    Table.exists_index (Nat.lt_of_le_of_lt hle j.isLt)
  have hempty := Table.lowest_eq (i := i.slot) hi
  exact ⟨i, hi, (h.clients i).mpr (of_decide_eq_true hempty)⟩

theorem close_accepted (s : SockServer) (fd : Int) : (s.accepted fd).close fd = s := by
  by_cases hneg : fd < 0
  · rw [accepted, close, if_pos hneg, if_pos hneg]
  · rw [accepted, close, if_neg hneg, if_neg hneg, if_pos List.mem_cons_self]
    simp only [List.erase_cons_head]

-- The tables with a new client at `id`.
def connect (s : SockServer) (attempt : Attempt) (id : SlotId) : SockServer :=
  add_client
    { s with
      client_slots := Function.update s.client_slots id attempt.accept
      proxies := Function.update s.proxies attempt.proxy (some id)
      history := { s.history with
        descriptors := attempt.accept :: s.history.descriptors
        admitted := s.history.admitted ++ [id] } }
    attempt.proxy

-- A call admits a client at the lowest empty slot, or leaves all as it is.
theorem check_new_connection_cases (s : SockServer) (attempt : Attempt) :
    ((attempt.succeeds → 512 ≤ s.sock_server_find_empty_slot) ∧
      s.check_new_connection attempt = (none, s)) ∨
    (attempt.succeeds ∧ ∃ id : SlotId, s.sock_server_find_empty_slot = id.val ∧
      s.check_new_connection attempt = (some attempt.proxy, s.connect attempt id)) := by
  by_cases hreadable : attempt.readable = true
  · by_cases hfull : s.sock_server_find_empty_slot < 512
    · have hnew : s.sock_server_has_newconn attempt = (true, s) := by
        rw [sock_server_has_newconn, if_pos hreadable, if_pos hfull]
      by_cases haccept : attempt.accept < 0
      · refine .inl ⟨fun hok => absurd haccept (Int.not_lt.mpr hok.2.1), ?_⟩
        rw [check_new_connection, hnew]
        simp only [sock_server_create_client, if_pos haccept]
      · by_cases hioctl : attempt.ioctl < 0
        · refine .inl ⟨fun hok => absurd hioctl (Int.not_lt.mpr hok.2.2), ?_⟩
          rw [check_new_connection, hnew]
          simp only [sock_server_create_client, if_neg haccept, if_pos hioctl, close_accepted]
        · right
          have hsame : (s.accepted attempt.accept).sock_server_find_empty_slot =
              s.sock_server_find_empty_slot := by
            rw [accepted, if_neg haccept]
            rfl
          obtain ⟨id, hid⟩ := Table.exists_index hfull
          refine ⟨⟨hreadable, Int.not_lt.mp haccept, Int.not_lt.mp hioctl⟩, id, hid, ?_⟩
          rw [check_new_connection, hnew]
          simp only [sock_server_create_client, if_neg haccept, if_neg hioctl, hsame, hid,
            Table.index_val]
          rw [accepted, if_neg haccept]
          rfl
    · refine .inl ⟨fun _ => Nat.not_lt.mp hfull, ?_⟩
      have hnew : s.sock_server_has_newconn attempt = (false, s) := by
        rw [sock_server_has_newconn, if_pos hreadable, if_neg hfull, close_accepted]
      rw [check_new_connection, hnew]
  · refine .inl ⟨fun hok => absurd hok.1 hreadable, ?_⟩
    have hnew : s.sock_server_has_newconn attempt = (false, s) := by
      rw [sock_server_has_newconn, if_neg hreadable]
    rw [check_new_connection, hnew]

theorem connect_slot (s : SockServer) (attempt : Attempt) (i : ClientIndex) :
    s.connect attempt i.slot =
      { client_slots := Function.update s.client_slots i.slot attempt.accept
        m_clients := Function.update s.m_clients i (some attempt.proxy)
        proxies := Function.update s.proxies attempt.proxy (some i.slot)
        m_pclient_ := if s.m_pclient_ = none then some attempt.proxy else s.m_pclient_
        m_ncount := s.m_ncount + 1
        history := { s.history with
          descriptors := attempt.accept :: s.history.descriptors
          admitted := s.history.admitted ++ [i.slot] } } := by
  have hindex : Table.index 255 i.slot.val = some i := Table.index_val i
  simp only [connect, add_client, Function.update_self, hindex]

theorem Tables.connect (h : s.Tables) {attempt : Attempt} {i : ClientIndex}
    (haccept : 0 ≤ attempt.accept) (hpossible : s.possible attempt)
    (hfree : s.m_clients i = none) : (s.connect attempt i.slot).Tables := by
  have hslot := (h.clients i).mp hfree
  obtain ⟨hnew, haddress⟩ : attempt.accept ∉ s.history.descriptors ∧
      s.proxies attempt.proxy = none := of_decide_eq_true hpossible
  have hunused : ∀ id, s.client_slots id ≠ attempt.accept :=
    fun id hid => hnew ((h.open_ _).mpr ⟨haccept, id, hid⟩)
  have hother : ∀ j client, s.m_clients j = some client → client ≠ attempt.proxy := by
    rintro j client hj rfl
    rw [h.ids j _ hj] at haddress
    cases haddress
  have hkept : ∀ client, (∃ j, s.m_clients j = some client) →
      ∃ j, Function.update s.m_clients i (some attempt.proxy) j = some client := by
    rintro client ⟨j, hj⟩
    have hne : j ≠ i := by
      rintro rfl
      rw [hfree] at hj
      cases hj
    exact ⟨j, (Function.update_of_ne hne _ _).trans hj⟩
  rw [connect_slot]
  constructor
  · intro j
    by_cases hj : j = i
    · subst j
      simp only [Function.update_self]
      exact iff_of_false (by simp) (by omega)
    · have hne : j.slot ≠ i.slot := fun he => hj (slot_injective he)
      simp only [Function.update_of_ne hj, Function.update_of_ne hne]
      exact h.clients j
  · intro j client hclient
    by_cases hj : j = i
    · subst j
      simp only [Function.update_self, Option.some.injEq] at hclient
      subst client
      exact Function.update_self _ _ _
    · simp only [Function.update_of_ne hj] at hclient
      simp only [Function.update_of_ne (hother j client hclient)]
      exact h.ids j client hclient
  · intro id hid
    have hne : id ≠ i.slot := by
      rintro rfl
      exact absurd i.isLt (Nat.not_lt_of_le hid)
    simp only [Function.update_of_ne hne]
    exact h.beyond id hid
  · simp only [Table.card_put hfree]
    rw [h.ncount]
    rfl
  · simp only [Table.card_put hfree, List.length_cons]
    rw [h.size]
  · exact List.nodup_cons.mpr ⟨hnew, h.nodup⟩
  · have hclosed : ¬ 0 ≤ s.client_slots i.slot := by omega
    exact Table.mem_put h.open_ hclosed haccept
  · intro id hid
    by_cases hi : id = i.slot
    · subst id
      simp only [Function.update_self] at hid
      omega
    · simp only [Function.update_of_ne hi] at hid ⊢
      exact h.negative id hid
  · exact Table.distinct_update h.distinct i.slot (.inr hunused)
  · exact h.closes
  · exact h.deletes
  · intro client id hid
    by_cases hclient : client = attempt.proxy
    · subst client
      exact ⟨i, Function.update_self _ _ _⟩
    · simp only [Function.update_of_ne hclient] at hid
      exact hkept client (h.live client id hid)
  · intro client hclient
    dsimp only at hclient
    split at hclient
    · obtain rfl := Option.some.inj hclient
      exact ⟨i, Function.update_self _ _ _⟩
    · exact hkept client (h.default client hclient)

-- What a disconnection does to the tables.
theorem Tables.disconnected_eq (h : s.Tables) {i : ClientIndex} {client : Proxy}
    (hi : s.m_clients i = some client) :
    s.disconnected i client =
      { client_slots := Function.update s.client_slots i.slot (-1)
        m_clients := Function.update s.m_clients i none
        proxies := Function.update s.proxies client none
        m_pclient_ := if s.m_pclient_ = some client then none else s.m_pclient_
        m_ncount := s.m_ncount - 1
        history := { s.history with
          descriptors := s.history.descriptors.erase (s.client_slots i.slot)
          dangling := s.history.dangling + 1 } } := by
  have hopen : s.client_slots i.slot ≠ -1 := by
    intro hslot
    rw [(h.clients i).mpr hslot] at hi
    cases hi
  have hpos : ¬ s.client_slots i.slot < 0 := fun hneg => hopen (h.negative _ hneg)
  have hmem : s.client_slots i.slot ∈ s.history.descriptors :=
    (h.open_ _).mpr ⟨by omega, i.slot, rfl⟩
  have hid := h.ids i client hi
  simp only [disconnected, sock_server_close_client, hid, if_neg hopen, close, if_neg hpos,
    if_pos hmem, log_id, Function.update_self]

theorem Tables.disconnected (h : s.Tables) {i : ClientIndex} {client : Proxy}
    (hi : s.m_clients i = some client) : (s.disconnected i client).Tables := by
  have hheld : s.m_clients i ≠ none := by
    rw [hi]
    exact Option.some_ne_none client
  have hopen : s.client_slots i.slot ≠ -1 := fun hslot => hheld ((h.clients i).mpr hslot)
  have hmem : s.client_slots i.slot ∈ s.history.descriptors := by
    refine (h.open_ _).mpr ⟨?_, i.slot, rfl⟩
    by_contra hneg
    exact hopen (h.negative _ (by omega))
  have hcard := Table.card_clear hheld
  have hkept : ∀ other, other ≠ client → (∃ j, s.m_clients j = some other) →
      ∃ j, Function.update s.m_clients i none j = some other := by
    rintro other hne ⟨j, hj⟩
    have hji : j ≠ i := by
      rintro rfl
      exact hne (Option.some.inj (hj.symm.trans hi))
    exact ⟨j, (Function.update_of_ne hji _ _).trans hj⟩
  rw [h.disconnected_eq hi]
  constructor
  · intro j
    by_cases hj : j = i
    · subst j
      exact iff_of_true (Function.update_self _ _ _) (Function.update_self _ _ _)
    · have hne : j.slot ≠ i.slot := fun he => hj (slot_injective he)
      simp only [Function.update_of_ne hj, Function.update_of_ne hne]
      exact h.clients j
  · intro j other hother
    by_cases hj : j = i
    · subst j
      simp only [Function.update_self] at hother
      cases hother
    · simp only [Function.update_of_ne hj] at hother
      have hne : other ≠ client := by
        rintro rfl
        exact hj (h.client_injective hother hi)
      simp only [Function.update_of_ne hne]
      exact h.ids j other hother
  · intro id hid
    have hne : id ≠ i.slot := by
      rintro rfl
      exact absurd i.isLt (Nat.not_lt_of_le hid)
    simp only [Function.update_of_ne hne]
    exact h.beyond id hid
  · have hcount := h.ncount
    dsimp only
    omega
  · have hsize := h.size
    have hlength := List.length_erase_of_mem hmem
    dsimp only
    omega
  · exact h.nodup.erase _
  · have honly : ∀ id, s.client_slots id = s.client_slots i.slot → id = i.slot :=
      fun id hsame => h.distinct id i.slot hsame (hsame ▸ hopen)
    exact Table.mem_clear h.open_ h.nodup honly (by decide)
  · intro id hneg
    by_cases hid : id = i.slot
    · subst id
      exact Function.update_self _ _ _
    · simp only [Function.update_of_ne hid] at hneg ⊢
      exact h.negative id hneg
  · exact Table.distinct_update h.distinct i.slot (.inl rfl)
  · exact h.closes
  · exact h.deletes
  · intro other id hid
    by_cases hother : other = client
    · subst other
      simp only [Function.update_self] at hid
      cases hid
    · simp only [Function.update_of_ne hother] at hid
      exact hkept other hother (h.live other id hid)
  · intro other hdefault
    dsimp only at hdefault
    split at hdefault
    · cases hdefault
    · rename_i hne
      refine hkept other ?_ (h.default other hdefault)
      rintro rfl
      exact hne hdefault

-- A visit passes over a client that has not disconnected.
theorem visit_cases (s : SockServer) (i : ClientIndex) (status : ConnStatus) :
    s.visit i status = (none, s) ∨
    ∃ client, s.m_clients i = some client ∧ status = .disconnect ∧
      s.visit i status = (if (s.disconnected i client).m_ncount = 0 then some ((i.val : Int) + 1)
        else none, s.disconnected i client) := by
  unfold visit
  split
  · rename_i client hi
    exact .inr ⟨client, hi, rfl, rfl⟩
  · exact .inl rfl

variable {status : ClientIndex → ConnStatus}

-- The induction over the scan: what every disconnection preserves holds after
-- it, wherever it returns.
theorem scan_invariant {P : SockServer → Prop}
    (hstep : ∀ s i client, P s → s.m_clients i = some client → status i = .disconnect →
      P (s.disconnected i client)) (rest : List ClientIndex) (hs : P s) :
    P (scan status rest s).2 := by
  induction rest generalizing s with
  | nil => exact hs
  | cons i rest ih =>
      rw [scan]
      rcases visit_cases s i (status i) with hsame | ⟨client, hi, hstatus, hvisit⟩
      · rw [hsame]
        exact ih hs
      · rw [hvisit]
        have hnext := hstep s i client hs hi hstatus
        split_ifs
        · exact hnext
        · exact ih hnext

theorem scan_returns {rest : List ClientIndex} {ret : Int}
    (h : (scan status rest s).1 = some ret) : (scan status rest s).2.m_ncount = 0 := by
  induction rest generalizing s with
  | nil => cases h
  | cons i rest ih =>
      rw [scan] at h ⊢
      rcases visit_cases s i (status i) with hsame | ⟨client, hi, hstatus, hvisit⟩
      · rw [hsame] at h ⊢
        exact ih h
      · rw [hvisit] at h ⊢
        by_cases hzero : (s.disconnected i client).m_ncount = 0
        · rw [if_pos hzero]
          exact hzero
        · rw [if_neg hzero] at h ⊢
          exact ih h

-- What a scan that started in `s` has done so far.
structure Scanned (s : SockServer) (status : ClientIndex → ConnStatus) (t : SockServer) :
    Prop where
  tables : t.Tables
  clients : ∀ j client, t.m_clients j = some client → s.m_clients j = some client
  default : t.m_pclient_ = s.m_pclient_ ∨
    (t.m_pclient_ = none ∧ ∃ i client, s.m_pclient_ = some client ∧
      s.m_clients i = some client ∧ status i = .disconnect ∧ t.m_clients i = none)
  admitted : t.history.admitted = s.history.admitted
  overrun : t.history.overrun = s.history.overrun

theorem Scanned.disconnected {t : SockServer} (h : Scanned s status t) {i : ClientIndex}
    {client : Proxy} (hi : t.m_clients i = some client) (hstatus : status i = .disconnect) :
    Scanned s status (t.disconnected i client) := by
  have hclients : ∀ j other, (t.disconnected i client).m_clients j = some other →
      t.m_clients j = some other := by
    intro j other hj
    rw [h.tables.disconnected_eq hi] at hj
    by_cases hji : j = i
    · subst j
      simp only [Function.update_self] at hj
      cases hj
    · simpa only [Function.update_of_ne hji] using hj
  have hcleared : ∀ j, t.m_clients j = none → (t.disconnected i client).m_clients j = none := by
    intro j hj
    by_contra hne
    obtain ⟨other, hother⟩ := Option.ne_none_iff_exists'.mp hne
    rw [hclients j other hother] at hj
    cases hj
  have hself : (t.disconnected i client).m_clients i = none := by
    rw [h.tables.disconnected_eq hi]
    exact Function.update_self _ _ _
  have hpclient : (t.disconnected i client).m_pclient_ =
      if t.m_pclient_ = some client then none else t.m_pclient_ := by
    rw [h.tables.disconnected_eq hi]
  have hhistory : (t.disconnected i client).history.admitted = t.history.admitted ∧
      (t.disconnected i client).history.overrun = t.history.overrun := by
    rw [h.tables.disconnected_eq hi]
    exact ⟨rfl, rfl⟩
  refine ⟨h.tables.disconnected hi, fun j other hj => h.clients j other (hclients j other hj), ?_,
    hhistory.1.trans h.admitted, hhistory.2.trans h.overrun⟩
  rw [hpclient]
  rcases h.default with hsame | ⟨hnone, j, other, hdefault, hj, hgone, hnow⟩
  · split
    · rename_i hclient
      rw [hsame] at hclient
      exact .inr ⟨rfl, i, client, hclient, h.clients i client hi, hstatus, hself⟩
    · exact .inl hsame
  · right
    rw [hnone, if_neg (Option.some_ne_none client).symm]
    exact ⟨rfl, j, other, hdefault, hj, hgone, hcleared j hnow⟩

theorem Tables.scan (h : s.Tables) (status : ClientIndex → ConnStatus) (rest : List ClientIndex) :
    Scanned s status (SockServer.scan status rest s).2 := by
  have hstart : Scanned s status s := ⟨h, fun _ _ hj => hj, .inl rfl, rfl, rfl⟩
  exact scan_invariant (fun t i client ht hi hstatus => ht.disconnected hi hstatus) rest hstart

-- Between two calls there is a default client as long as there are clients.
structure Settled (s : SockServer) : Prop extends s.Tables where
  chosen : s.m_pclient_ = none → ∀ i, s.m_clients i = none

-- The default client is the one with the lowest index, or null without clients.
def DefaultLowest (s : SockServer) : Prop :=
  (s.m_pclient_ = none ∧ ∀ i, s.m_clients i = none) ∨
    ∃ client i, s.m_pclient_ = some client ∧ s.m_clients i = some client ∧
      ∀ j < i, s.m_clients j = none

theorem defaultLowest_of_first (h : s.m_pclient_ = Table.first s.m_clients) :
    s.DefaultLowest := by
  cases hresult : Table.first s.m_clients with
  | none => exact .inl ⟨h.trans hresult, Table.first_eq_none.mp hresult⟩
  | some client =>
      obtain ⟨i, hi, hlower⟩ := Table.first_eq_some hresult
      exact .inr ⟨client, i, h.trans hresult, hi, hlower⟩

-- An event changes the default client only if there was none or if it has
-- disconnected.
def DefaultChange (s : SockServer) (event : SockEvent) (t : SockServer) : Prop :=
  t.m_pclient_ = s.m_pclient_ ∨ s.m_pclient_ = none ∨
    ∃ status i client, event = .check_new_message (some status) ∧
      s.m_pclient_ = some client ∧ s.m_clients i = some client ∧ status i = .disconnect ∧
      t.m_clients i = none ∧ t.DefaultLowest

theorem choose_default_cases (s : SockServer) :
    (s.m_pclient_ ≠ none ∧ s.choose_default = s) ∨
    (s.m_pclient_ = none ∧
      s.choose_default = { s with m_pclient_ := Table.first s.m_clients }) := by
  cases s with
  | mk client_slots m_clients proxies m_pclient_ m_ncount history =>
      cases m_pclient_ with
      | none => exact .inr ⟨rfl, rfl⟩
      | some client => exact .inl ⟨Option.some_ne_none client, rfl⟩

theorem choose_default_same (h : s.m_pclient_ = none → ∀ i, s.m_clients i = none) :
    s.choose_default = s := by
  rcases choose_default_cases s with ⟨_, hsame⟩ | ⟨hnone, hchoice⟩
  · exact hsame
  · rw [hchoice, Table.first_eq_none.mpr (h hnone), ← hnone]

theorem Tables.choose_default (h : s.Tables) : s.choose_default.Settled := by
  rcases choose_default_cases s with ⟨hclient, hsame⟩ | ⟨hclient, hchoice⟩
  · rw [hsame]
    exact ⟨h, fun hnone => absurd hnone hclient⟩
  · rw [hchoice]
    refine ⟨⟨h.clients, h.ids, h.beyond, h.ncount, h.size, h.nodup, h.open_, h.negative,
      h.distinct, h.closes, h.deletes, h.live, ?_⟩, fun hnone => Table.first_eq_none.mp hnone⟩
    intro client hfirst
    obtain ⟨i, hi, _⟩ := Table.first_eq_some hfirst
    exact ⟨i, hi⟩

theorem Tables.settled_of_ncount (h : s.Tables) (hzero : s.m_ncount = 0) : s.Settled := by
  have hcount := h.ncount
  have hcard : (Table.occupied s.m_clients).card = 0 := by omega
  exact ⟨h, fun _ => Table.card_eq_zero.mp hcard⟩

theorem Settled.check_new_message_cases (h : s.Settled)
    (status : Option (ClientIndex → ConnStatus)) :
    (status = none ∧ (s.check_new_message status).2 = s) ∨
    ∃ checked t, status = some checked ∧ Scanned s checked t ∧
      ((t.m_ncount = 0 ∧ (s.check_new_message status).2 = t) ∨
        (s.check_new_message status).2 = t.choose_default) := by
  cases status with
  | none => exact .inl ⟨rfl, rfl⟩
  | some checked =>
      have hscanned := h.toTables.scan checked (List.finRange 255)
      rw [check_new_message]
      cases hscan : scan checked (List.finRange 255) s with
      | mk ret t =>
          rw [hscan] at hscanned
          refine .inr ⟨checked, t, rfl, hscanned, ?_⟩
          cases ret with
          | none => exact .inr rfl
          | some ret =>
              have hreturns := scan_returns (congrArg Prod.fst hscan)
              rw [hscan] at hreturns
              exact .inl ⟨hreturns, rfl⟩

theorem Settled.check_new_message (h : s.Settled)
    (status : Option (ClientIndex → ConnStatus)) : (s.check_new_message status).2.Settled := by
  rcases h.check_new_message_cases status with
    ⟨_, hsame⟩ | ⟨checked, t, _, hscanned, ⟨hzero, hresult⟩ | hresult⟩
  · rw [hsame]
    exact h
  · rw [hresult]
    exact hscanned.tables.settled_of_ncount hzero
  · rw [hresult]
    exact hscanned.tables.choose_default

theorem Settled.check_new_message_history (h : s.Settled)
    (status : Option (ClientIndex → ConnStatus)) :
    (s.check_new_message status).2.history.admitted = s.history.admitted ∧
      (s.check_new_message status).2.history.overrun = s.history.overrun := by
  rcases h.check_new_message_cases status with
    ⟨_, hsame⟩ | ⟨checked, t, _, hscanned, ⟨_, hresult⟩ | hresult⟩
  · rw [hsame]
    exact ⟨rfl, rfl⟩
  · rw [hresult]
    exact ⟨hscanned.admitted, hscanned.overrun⟩
  · rw [hresult]
    exact ⟨hscanned.admitted, hscanned.overrun⟩

theorem Settled.default_change (h : s.Settled) (status : Option (ClientIndex → ConnStatus)) :
    DefaultChange s (.check_new_message status) (s.check_new_message status).2 := by
  rcases h.check_new_message_cases status with ⟨_, hsame⟩ | ⟨checked, t, rfl, hscanned, hresult⟩
  · rw [hsame]
    exact .inl rfl
  · rcases hscanned.default with hkept | ⟨hnone, i, client, hdefault, hi, hgone, hnow⟩
    · rcases hresult with ⟨_, hresult⟩ | hresult
      · rw [hresult]
        exact .inl hkept
      · rcases choose_default_cases t with ⟨_, hsame⟩ | ⟨hclient, _⟩
        · rw [hresult, hsame]
          exact .inl hkept
        · exact .inr (.inl (hkept.symm.trans hclient))
    · refine .inr (.inr ⟨checked, i, client, rfl, hdefault, hi, hgone, ?_⟩)
      rcases hresult with ⟨hzero, hresult⟩ | hresult
      · rw [hresult]
        have hempty := (hscanned.tables.settled_of_ncount hzero).chosen hnone
        exact ⟨hnow, .inl ⟨hnone, hempty⟩⟩
      · rcases choose_default_cases t with ⟨hclient, _⟩ | ⟨_, hchoice⟩
        · exact absurd hnone hclient
        · rw [hresult, hchoice]
          exact ⟨hnow, defaultLowest_of_first rfl⟩

theorem connect_default (s : SockServer) (attempt : Attempt) (id : SlotId) :
    (s.connect attempt id).m_pclient_ =
      if s.m_pclient_ = none then some attempt.proxy else s.m_pclient_ := by
  simp only [connect, add_client, Function.update_self]
  split <;> rfl

theorem Settled.connect (h : s.Settled) {attempt : Attempt} {i : ClientIndex}
    (haccept : 0 ≤ attempt.accept) (hpossible : s.possible attempt)
    (hfree : s.m_clients i = none) : (s.connect attempt i.slot).Settled := by
  refine ⟨h.toTables.connect haccept hpossible hfree, fun hnone => ?_⟩
  rw [connect_default] at hnone
  split at hnone
  · cases hnone
  · exact absurd hnone ‹_›

theorem connect_descriptors (s : SockServer) (attempt : Attempt) (id : SlotId) :
    (s.connect attempt id).history.descriptors = attempt.accept :: s.history.descriptors := by
  simp only [connect, add_client, Function.update_self]
  split <;> rfl

theorem Settled.check_new_connection (h : s.Settled) {attempt : Attempt}
    (hpossible : s.possible attempt)
    (hbound : (s.check_new_connection attempt).2.history.descriptors.length ≤ 255) :
    (s.check_new_connection attempt).2.Settled := by
  rcases check_new_connection_cases s attempt with ⟨_, hsame⟩ | ⟨hok, id, hid, hconnect⟩
  · rw [hsame]
    exact h
  · rw [hconnect] at hbound ⊢
    rw [connect_descriptors, List.length_cons, h.size] at hbound
    have hcard : (Table.occupied s.m_clients).card < Fintype.card ClientIndex := by
      rwa [Fintype.card_fin]
    obtain ⟨i, hi, hfree⟩ := h.find_empty_slot_lt (Table.exists_free hcard)
    have hslot : id = i.slot := Fin.ext (hid.symm.trans hi)
    subst id
    exact h.connect hok.2.1 hpossible hfree

-- How many accepted connections are open after the step.
def AtMostMaxClients (s : SockServer) (event : SockEvent) : Prop :=
  ∀ t, s.step event = some t → t.history.descriptors.length ≤ 255

theorem step_cases {event : SockEvent} {t : SockServer} (hstep : s.step event = some t) :
    (∃ attempt, event = .check_new_connection attempt ∧ s.possible attempt ∧
      t = (s.check_new_connection attempt).2) ∨
    (∃ status, event = .check_new_message status ∧ t = (s.check_new_message status).2) := by
  unfold step at hstep
  split at hstep
  · cases hstep
  · cases event with
    | check_new_connection attempt =>
        dsimp only at hstep
        split at hstep
        · rename_i hpossible
          exact .inl ⟨attempt, rfl, hpossible, (Option.some.inj hstep).symm⟩
        · cases hstep
    | check_new_message status => exact .inr ⟨status, rfl, (Option.some.inj hstep).symm⟩

theorem Settled.step {event : SockEvent} {t : SockServer} (h : s.Settled)
    (hbound : AtMostMaxClients s event) (hstep : s.step event = some t) : t.Settled := by
  have hlength := hbound t hstep
  rcases step_cases hstep with ⟨attempt, rfl, hpossible, rfl⟩ | ⟨status, rfl, rfl⟩
  · exact h.check_new_connection hpossible hlength
  · exact h.check_new_message status

theorem Settled.step_default {event : SockEvent} {t : SockServer} (h : s.Settled)
    (hstep : s.step event = some t) : DefaultChange s event t := by
  rcases step_cases hstep with ⟨attempt, rfl, hpossible, rfl⟩ | ⟨status, rfl, rfl⟩
  · rcases check_new_connection_cases s attempt with ⟨_, hsame⟩ | ⟨_, id, _, hconnect⟩
    · rw [hsame]
      exact .inl rfl
    · rw [hconnect]
      by_cases hnone : s.m_pclient_ = none
      · exact .inr (.inl hnone)
      · left
        rw [connect_default, if_neg hnone]
  · exact h.default_change status

theorem settled_init : init.Settled := ⟨tables_init, fun _ _ => rfl⟩

-- The client tables as they are between two calls of the listener.
structure Coherent (s : SockServer) : Prop where
  slots : ∀ i : ClientIndex, s.m_clients i ≠ none ↔ s.client_slots i.slot ≠ -1
  ids : ∀ i client, s.m_clients i = some client → s.proxies client = some i.slot
  different : ∀ client client' id, s.proxies client = some id → s.proxies client' = some id →
    client = client'
  count : s.m_ncount = (Table.occupied s.m_clients).card
  accepted : s.history.descriptors.Nodup ∧
    ∀ fd, fd ∈ s.history.descriptors ↔ fd ≠ -1 ∧ ∃ id, s.client_slots id = fd
  separate : ∀ id id', s.client_slots id = s.client_slots id' → s.client_slots id ≠ -1 → id = id'
  closed_once : s.history.misclosed = 0
  default_null : s.m_pclient_ = none ↔ s.m_ncount = 0
  default_entry : ∀ client, s.m_pclient_ = some client → ∃ i, s.m_clients i = some client

theorem Settled.coherent (h : s.Settled) : s.Coherent := by
  constructor
  · intro i
    exact not_congr (h.clients i)
  · exact h.ids
  · intro client client' id hid hid'
    obtain ⟨i, hi⟩ := h.live client id hid
    obtain ⟨j, hj⟩ := h.live client' id hid'
    have hislot := (h.ids i client hi).symm.trans hid
    have hjslot := (h.ids j client' hj).symm.trans hid'
    have hij : i = j := slot_injective (Option.some.inj (hislot.trans hjslot.symm))
    subst j
    exact Option.some.inj (hi.symm.trans hj)
  · exact h.ncount
  · refine ⟨h.nodup, fun fd => (h.open_ fd).trans ⟨?_, ?_⟩⟩
    · rintro ⟨hpos, hid⟩
      exact ⟨by omega, hid⟩
    · rintro ⟨hne, id, rfl⟩
      refine ⟨?_, id, rfl⟩
      by_contra hneg
      exact hne (h.negative id (by omega))
  · exact h.distinct
  · exact h.closes
  · have hcount := h.ncount
    constructor
    · intro hnone
      have hcard := Table.card_eq_zero.mpr (h.chosen hnone)
      omega
    · intro hzero
      have hcard : (Table.occupied s.m_clients).card = 0 := by omega
      have hempty := Table.card_eq_zero.mp hcard
      by_contra hne
      obtain ⟨client, hclient⟩ := Option.ne_none_iff_exists'.mp hne
      obtain ⟨i, hi⟩ := h.default client hclient
      rw [hempty i] at hi
      cases hi
  · exact h.default

-- The client tables stay coherent as long as no more than MAX_CLIENTS
-- connections are open at once.
theorem client_tables {events : List SockEvent} {s : SockServer}
    (hbound : Machine.Along step AtMostMaxClients init events)
    (hrun : Machine.run step init events = some s) :
    s.Coherent ∧ ∀ event t, s.step event = some t → DefaultChange s event t := by
  have hsettled : s.Settled :=
    Machine.invariant (fun _ _ _ h hcond hstep => h.step hcond hstep) settled_init hbound hrun
  exact ⟨hsettled.coherent, fun _ _ hstep => hsettled.step_default hstep⟩

theorem log_id_history (s : SockServer) (client : Proxy) :
    (s.log_id client).history.descriptors = s.history.descriptors ∧
      (s.log_id client).history.overrun = s.history.overrun := by
  rw [log_id]
  split <;> exact ⟨rfl, rfl⟩

theorem close_history (s : SockServer) (fd : Int) :
    (s.close fd).history.descriptors.length ≤ s.history.descriptors.length ∧
      (s.close fd).history.overrun = s.history.overrun := by
  rw [close]
  split
  · exact ⟨le_refl _, rfl⟩
  · split
    · exact ⟨List.length_erase_le, rfl⟩
    · exact ⟨le_refl _, rfl⟩

-- A disconnection opens nothing.
theorem disconnected_history (s : SockServer) (i : ClientIndex) (client : Proxy) :
    (s.disconnected i client).history.descriptors.length ≤ s.history.descriptors.length ∧
      (s.disconnected i client).history.overrun = s.history.overrun := by
  simp only [disconnected, log_id_history]
  rw [sock_server_close_client]
  split
  · rw [(log_id_history s client).1, (log_id_history s client).2]
    exact ⟨le_refl _, rfl⟩
  · dsimp only
    split
    · exact ⟨le_refl _, rfl⟩
    · exact close_history s _

-- A step opens at most one connection.
theorem step_length {event : SockEvent} {t : SockServer} (hstep : s.step event = some t) :
    t.history.descriptors.length ≤ s.history.descriptors.length + 1 := by
  rcases step_cases hstep with ⟨attempt, rfl, _, rfl⟩ | ⟨status, rfl, rfl⟩
  · rcases check_new_connection_cases s attempt with ⟨_, hsame⟩ | ⟨_, id, _, hconnect⟩
    · rw [hsame]
      exact Nat.le_succ _
    · rw [hconnect, connect_descriptors, List.length_cons]
  · cases status with
    | none => exact Nat.le_succ _
    | some status =>
        have hscan : (scan status (List.finRange 255) s).2.history.descriptors.length ≤
            s.history.descriptors.length :=
          scan_invariant
            (P := fun t => t.history.descriptors.length ≤ s.history.descriptors.length)
            (fun t i client ht _ _ => le_trans (disconnected_history t i client).1 ht) _ (le_refl _)
        rw [SockServer.check_new_message]
        cases hresult : scan status (List.finRange 255) s with
        | mk ret t =>
            rw [hresult] at hscan
            cases ret with
            | none => exact Nat.le_succ_of_le hscan
            | some ret => exact Nat.le_succ_of_le hscan

theorem atMostMaxClients_of_length {events : List SockEvent} (s : SockServer)
    (h : s.history.descriptors.length + events.length ≤ 255) :
    Machine.Along step AtMostMaxClients s events := by
  induction events generalizing s with
  | nil => trivial
  | cons event events ih =>
      rw [List.length_cons] at h
      refine ⟨fun t hstep => ?_, fun t hstep => ih t ?_⟩
      · have hlength := step_length hstep
        omega
      · have hlength := step_length hstep
        omega

-- The default client disconnects, and the other one takes its place.
theorem client_tables_failover :
    let gone : ClientIndex → ConnStatus := fun i => if i = 0 then .disconnect else .normal
    ∃ s, Machine.run step init [.check_new_connection ⟨true, 7, 0, 1⟩,
        .check_new_connection ⟨true, 8, 0, 2⟩, .check_new_message (some gone)] = some s ∧
      s.m_pclient_ = some 2 ∧ s.Coherent ∧
      ∀ event t, s.step event = some t → DefaultChange s event t := by
  intro gone
  obtain ⟨s, hrun, hdefault⟩ : ∃ s, Machine.run step init
      [.check_new_connection ⟨true, 7, 0, 1⟩, .check_new_connection ⟨true, 8, 0, 2⟩,
        .check_new_message (some gone)] = some s ∧ s.m_pclient_ = some 2 :=
    Option.map_eq_some_iff.mp (by decide +kernel)
  exact ⟨s, hrun, hdefault, client_tables (atMostMaxClients_of_length init (by decide)) hrun⟩

end SockServer

end SensorVhal
