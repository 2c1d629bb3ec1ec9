import SensorVhal.Sock.Coherence

namespace SensorVhal

namespace SockServer

-- Every id handed out is an index of m_clients.
def InRange (s : SockServer) : Prop := ∀ id ∈ s.history.admitted, id.val < 255

-- The scan of check_new_message meets every client.
def Tracked (s : SockServer) : Prop :=
  ∀ client id, s.proxies client = some id → ∃ i, i.slot = id ∧ s.m_clients i = some client

-- With all of m_clients in use a new connection is closed again.
def Refused (s : SockServer) (event : SockEvent) : Prop :=
  ∀ attempt, event = .check_new_connection attempt → (∀ i, s.m_clients i ≠ none) →
    s.check_new_connection attempt = (none, s)

-- A client that connects finds an entry of m_clients that is not in use.
def Room (s : SockServer) (event : SockEvent) : Prop :=
  ∀ attempt, event = .check_new_connection attempt → attempt.succeeds → ∃ i, s.m_clients i = none

variable {s : SockServer} {attempt : Attempt}

theorem Settled.tracked (h : s.Settled) : s.Tracked := by
  intro client id hid
  obtain ⟨i, hi⟩ := h.live client id hid
  exact ⟨i, Option.some.inj ((h.ids i client hi).symm.trans hid), hi⟩

theorem Tables.find_empty_slot_le (h : s.Tables) : s.sock_server_find_empty_slot ≤ 255 := by
  have hempty := h.beyond ⟨255, by decide⟩ (le_refl 255)
  exact Table.lowest_le (i := ⟨255, by decide⟩) (decide_eq_true hempty)

theorem Tables.connects (h : s.Tables) (hok : attempt.succeeds) :
    ∃ id : SlotId, s.sock_server_find_empty_slot = id.val ∧
      s.check_new_connection attempt = (some attempt.proxy, s.connect attempt id) := by
  rcases check_new_connection_cases s attempt with ⟨hfull, _⟩ | ⟨_, hconnect⟩
  · have hslots := hfull hok
    have hlimit := h.find_empty_slot_le
    omega
  · exact hconnect

theorem connect_history_within (s : SockServer) (attempt : Attempt) (i : ClientIndex) :
    (s.connect attempt i.slot).history.admitted = s.history.admitted ++ [i.slot] ∧
      (s.connect attempt i.slot).history.overrun = s.history.overrun := by
  rw [connect_slot]
  exact ⟨rfl, rfl⟩

theorem connect_history_past (s : SockServer) (attempt : Attempt) {id : SlotId}
    (hpast : 255 ≤ id.val) :
    (s.connect attempt id).history.admitted = s.history.admitted ++ [id] ∧
      (s.connect attempt id).history.overrun = true := by
  have hindex : Table.index 255 id.val = none := dif_neg (Nat.not_lt.mpr hpast)
  simp only [connect, add_client, Function.update_self, hindex]
  trivial

-- The slots have room for the client that m_clients has no entry for.
theorem Tables.connects_past (h : s.Tables) (hok : attempt.succeeds)
    (hfull : ∀ i, s.m_clients i ≠ none) :
    ∃ id : SlotId, 255 ≤ id.val ∧
      s.check_new_connection attempt = (some attempt.proxy, s.connect attempt id) := by
  obtain ⟨id, hid, hconnect⟩ := h.connects hok
  refine ⟨id, ?_, hconnect⟩
  by_contra hlt
  have hempty := Table.lowest_eq (i := id) hid
  have hslot : id = ClientIndex.slot ⟨id.val, Nat.not_le.mp hlt⟩ := rfl
  rw [hslot] at hempty
  exact hfull _ ((h.clients _).mpr (of_decide_eq_true hempty))

theorem Tables.connects_within (h : s.Tables) (hok : attempt.succeeds)
    (hfree : ∃ i, s.m_clients i = none) :
    ∃ i : ClientIndex, s.m_clients i = none ∧
      s.check_new_connection attempt = (some attempt.proxy, s.connect attempt i.slot) := by
  obtain ⟨id, hid, hconnect⟩ := h.connects hok
  obtain ⟨i, hi, hnone⟩ := h.find_empty_slot_lt hfree
  have hslot : id = i.slot := Fin.ext (hid.symm.trans hi)
  subst id
  exact ⟨i, hnone, hconnect⟩

-- The tables together with the ids that were handed out.
structure InOrder (s : SockServer) : Prop extends s.Settled where
  inRange : s.InRange
  overrun : s.history.overrun = false

theorem inOrder_init : init.InOrder :=
  ⟨settled_init, fun _ hid => absurd hid List.not_mem_nil, rfl⟩

theorem InOrder.check_new_message (h : s.InOrder)
    (status : Option (ClientIndex → ConnStatus)) : (s.check_new_message status).2.InOrder := by
  obtain ⟨hadmitted, hoverrun⟩ := h.check_new_message_history status
  refine ⟨h.toSettled.check_new_message status, ?_, hoverrun.trans h.overrun⟩
  intro id hid
  rw [hadmitted] at hid
  exact h.inRange id hid

theorem InOrder.connect (h : s.InOrder) {i : ClientIndex} (hok : attempt.succeeds)
    (hpossible : s.possible attempt) (hfree : s.m_clients i = none) :
    (s.connect attempt i.slot).InOrder := by
  obtain ⟨hadmitted, hoverrun⟩ := connect_history_within s attempt i
  refine ⟨h.toSettled.connect hok.2.1 hpossible hfree, ?_, hoverrun.trans h.overrun⟩
  intro id hid
  rw [hadmitted] at hid
  rcases List.mem_append.mp hid with hold | hnew
  · exact h.inRange id hold
  · rw [List.mem_singleton.mp hnew]
    exact i.isLt

theorem unchanged_of_failure (hfail : ¬ attempt.succeeds) :
    s.check_new_connection attempt = (none, s) := by
  rcases check_new_connection_cases s attempt with ⟨_, hsame⟩ | ⟨hok, _⟩
  · exact hsame
  · exact absurd hok hfail

theorem InOrder.step {event : SockEvent} {t : SockServer} (h : s.InOrder)
    (hroom : Room s event) (hstep : s.step event = some t) : t.InOrder := by
  rcases step_cases hstep with ⟨attempt, rfl, hpossible, rfl⟩ | ⟨status, rfl, rfl⟩
  · by_cases hok : attempt.succeeds
    · obtain ⟨i, hfree, hconnect⟩ := h.connects_within hok (hroom attempt rfl hok)
      rw [hconnect]
      exact h.connect hok hpossible hfree
    · rw [unchanged_of_failure hok]
      exact h
  · exact h.check_new_message status

-- A client for which there is no room gets an id past m_clients.
theorem InOrder.step_past {event : SockEvent} {t : SockServer} (h : s.InOrder)
    (hroom : ¬ Room s event) (hstep : s.step event = some t) :
    t.history.overrun = true ∧ ¬ t.InRange := by
  unfold Room at hroom
  push Not at hroom
  obtain ⟨attempt, rfl, hok, hfull⟩ := hroom
  obtain ⟨id, hpast, hconnect⟩ := h.connects_past hok hfull
  rcases step_cases hstep with ⟨attempt', hevent, _, rfl⟩ | ⟨status, hevent, _⟩
  · cases hevent
    obtain ⟨hadmitted, hoverrun⟩ := connect_history_past s attempt hpast
    rw [hconnect]
    refine ⟨hoverrun, fun hrange => ?_⟩
    have hlast := hrange id (hadmitted ▸ List.mem_append_right _ (List.mem_singleton_self id))
    omega
  · cases hevent

theorem refused_of_room {event : SockEvent} (hroom : Room s event) :
    Refused s event := by
  rintro attempt rfl hfull
  refine unchanged_of_failure fun hok => ?_
  obtain ⟨i, hfree⟩ := hroom attempt rfl hok
  exact hfull i hfree

theorem step_overrun {event : SockEvent} (h : s.history.overrun = true) : s.step event = none := by
  unfold step
  rw [if_pos h]

-- Every client that was admitted is tracked exactly if there was room for it.
theorem admitted_clients {events : List SockEvent} {s : SockServer}
    (hrun : Machine.run step init events = some s) :
    (s.InRange ∧ s.Tracked ∧ Machine.Along step Refused init events) ↔
      Machine.Along step Room init events := by
  constructor
  · rintro ⟨hrange, _, _⟩
    have hstep : ∀ s event t, (s.history.overrun = true ∧ ¬ s.InRange) ∨ s.InOrder →
        step s event = some t → (t.history.overrun = true ∧ ¬ t.InRange) ∨ t.InOrder := by
      rintro s event t (⟨hoverrun, _⟩ | horder) hstep
      · rw [step_overrun hoverrun] at hstep
        cases hstep
      · by_cases hroom : Room s event
        · exact .inr (horder.step hroom hstep)
        · exact .inl (horder.step_past hroom hstep)
    have hend := Machine.invariant_always hstep (.inr inOrder_init) hrun
    have hmark : ∀ s event t, (s.history.overrun = true ∧ ¬ s.InRange) ∨ s.InOrder →
        ¬ Room s event → step s event = some t → t.history.overrun = true := by
      rintro s event t (⟨hoverrun, _⟩ | horder) hroom hnext
      · rw [step_overrun hoverrun] at hnext
        cases hnext
      · exact (horder.step_past hroom hnext).1
    have hkeep : ∀ s event t, s.history.overrun = true → step s event = some t →
        t.history.overrun = true := by
      intro s event t hoverrun hnext
      rw [step_overrun hoverrun] at hnext
      cases hnext
    have hclean : ¬ s.history.overrun = true := by
      rcases hend with ⟨_, hout⟩ | horder
      · exact absurd hrange hout
      · rw [horder.overrun]
        exact Bool.false_ne_true
    exact Machine.Along.of_unmarked hstep hmark hkeep (.inr inOrder_init) hrun hclean
  · intro hroom
    have hstep : ∀ s event t, s.InOrder → Room s event → step s event = some t → t.InOrder :=
      fun _ _ _ horder hevent hnext => horder.step hevent hnext
    have horder := Machine.invariant hstep inOrder_init hroom hrun
    exact ⟨horder.inRange, horder.toSettled.tracked,
      hroom.of_invariant hstep (fun _ _ _ hevent => refused_of_room hevent) inOrder_init⟩

def two_arrive : List SockEvent :=
  [.check_new_connection ⟨true, 7, 0, 1⟩, .check_new_connection ⟨true, 8, 0, 2⟩]

theorem admitted_clients_two :
    ∃ s, Machine.run step init two_arrive = some s ∧ s.m_ncount = 2 ∧
      s.InRange ∧ s.Tracked ∧ Machine.Along step Refused init two_arrive := by
  obtain ⟨s, hrun, hcount⟩ : ∃ s, Machine.run step init two_arrive = some s ∧ s.m_ncount = 2 :=
    Option.map_eq_some_iff.mp (by decide +kernel)
  have hroom : Machine.Along step Room init two_arrive := by
    refine ⟨fun _ _ _ => ⟨1, rfl⟩, fun t ht => ⟨fun _ _ _ => ⟨1, ?_⟩, fun _ _ => trivial⟩⟩
    have hfree : (step init (.check_new_connection ⟨true, 7, 0, 1⟩)).map (fun t => t.m_clients 1) =
        some none := by decide +kernel
    rw [ht] at hfree
    exact Option.some.inj hfree
  exact ⟨s, hrun, hcount, (admitted_clients hrun).mpr hroom⟩

-- The n-th client connects, with n as descriptor and as address.
def arrival (n : Nat) : Attempt := ⟨true, n, 0, n⟩

def arrivals (n : Nat) : List SockEvent :=
  (List.range n).map fun k => .check_new_connection (arrival k)

theorem arrival_succeeds (n : Nat) : (arrival n).succeeds := ⟨rfl, Int.natCast_nonneg n, le_refl 0⟩

-- The state after n clients have connected and none has left.
structure Arrived (n : Nat) (s : SockServer) : Prop extends s.InOrder where
  length : s.history.descriptors.length = n
  descriptors : ∀ fd ∈ s.history.descriptors, fd < n
  unused : ∀ k, n ≤ k → s.proxies k = none

theorem Arrived.possible {n : Nat} (h : Arrived n s) : s.possible (arrival n) := by
  refine decide_eq_true ⟨fun hmem => ?_, h.unused n (le_refl n)⟩
  exact absurd (h.descriptors _ hmem) (lt_irrefl _)

theorem Arrived.step_eq {n : Nat} (h : Arrived n s) :
    s.step (.check_new_connection (arrival n)) = some (s.check_new_connection (arrival n)).2 := by
  unfold step
  rw [if_neg (ne_true_of_eq_false h.overrun)]
  exact if_pos h.possible

theorem arrived_run {n : Nat} (h : n ≤ 255) :
    ∃ s, Machine.run step init (arrivals n) = some s ∧ Arrived n s := by
  induction n with
  | zero =>
      refine ⟨init, rfl, inOrder_init, rfl, ?_, fun _ _ => rfl⟩
      intro fd hfd
      cases hfd
  | succ n ih =>
      obtain ⟨s, hrun, harrived⟩ := ih (Nat.le_of_succ_le h)
      have hcard : (Table.occupied s.m_clients).card < Fintype.card ClientIndex := by
        rw [Fintype.card_fin, ← harrived.size, harrived.length]
        exact h
      obtain ⟨i, hfree, hconnect⟩ :=
        harrived.connects_within (arrival_succeeds n) (Table.exists_free hcard)
      have hnext := harrived.step_eq
      rw [hconnect] at hnext
      refine ⟨s.connect (arrival n) i.slot, ?_, ?_⟩
      · rw [arrivals, List.range_succ, List.map_append]
        exact Machine.run_append_some.mpr ⟨s, hrun, (Machine.run_singleton _ _).trans hnext⟩
      · refine ⟨harrived.connect (arrival_succeeds n) harrived.possible hfree, ?_, ?_, ?_⟩
        · rw [connect_descriptors, List.length_cons, harrived.length]
        · intro fd hfd
          rw [connect_descriptors] at hfd
          rcases List.mem_cons.mp hfd with rfl | hold
          · exact Int.lt_succ _
          · have hlt := harrived.descriptors fd hold
            omega
        · intro k hk
          have hne : k ≠ (arrival n).proxy := Nat.ne_of_gt hk
          rw [connect_slot]
          exact (Function.update_of_ne hne _ _).trans (harrived.unused k (by omega))

-- The 256th client gets the id 255, for which m_clients has no entry.
theorem client_past_table :
    ∃ s, Machine.run step init (arrivals 256) = some s ∧ ¬ s.InRange := by
  obtain ⟨s, hrun, harrived⟩ := arrived_run (le_refl 255)
  have hcard : (Table.occupied s.m_clients).card = Fintype.card ClientIndex := by
    rw [Fintype.card_fin, ← harrived.size, harrived.length]
  have hfull : ∀ i, s.m_clients i ≠ none := by
    intro i
    have hall := (Finset.card_eq_iff_eq_univ _).mp hcard
    exact Table.mem_occupied.mp (hall ▸ Finset.mem_univ i)
  have hroom : ¬ Room s (.check_new_connection (arrival 255)) := by
    intro hroom
    obtain ⟨i, hfree⟩ := hroom _ rfl (arrival_succeeds 255)
    exact hfull i hfree
  have hnext := harrived.step_eq
  have hpast := harrived.step_past hroom hnext
  refine ⟨_, ?_, hpast.2⟩
  rw [arrivals, List.range_succ, List.map_append]
  exact Machine.run_append_some.mpr ⟨s, hrun, (Machine.run_singleton _ _).trans hnext⟩

end SockServer

end SensorVhal
