import SensorVhal.Config.Listener

namespace SensorVhal

namespace ConfigServer

variable {hdr : SensorsHeader} {s t : ConfigServer} {event : ListenerEvent}

-- Between two iterations of the listener the default client has a record of
-- every entry.
def DefaultInformed (s : ConfigServer) : Prop :=
  s.pc = .check_new_connection → ∀ client, s.server.m_pclient_ = some client →
    ∀ i, ∃ msg, (i, msg) ∈ s.sent client

-- A scan that ends without a default client ends without clients.
def NoFailover (s : ConfigServer) (event : ListenerEvent) : Prop :=
  ∀ status, event = .scan status → s.pc = .scan [] → s.server.m_pclient_ = none →
    ∀ i, s.server.m_clients i = none

-- The default client has every entry up to where its replay has come, and the
-- other clients have none.
structure Replayed (s : ConfigServer) : Prop where
  tables : s.server.Tables
  others : ∀ i client, s.server.m_clients i = some client → s.server.m_pclient_ ≠ some client →
    s.sent client = []
  known : ∀ client, s.server.m_pclient_ = some client →
    ∀ i, i ∉ s.pc.unsent → ∃ msg, (i, msg) ∈ s.sent client

theorem replayed_init : init.Replayed := by
  refine ⟨SockServer.tables_init, ?_, ?_⟩
  · intro i client hi
    cases hi
  · intro client hclient
    cases hclient

-- Only the messages to the default client have become more.
theorem Replayed.grow (h : s.Replayed) (hserver : t.server = s.server)
    (hunsent : t.pc.unsent = s.pc.unsent)
    (hothers : ∀ client, s.server.m_pclient_ ≠ some client → t.sent client = s.sent client)
    (hsent : ∀ client entry, entry ∈ s.sent client → entry ∈ t.sent client) : t.Replayed := by
  constructor
  · rw [hserver]
    exact h.tables
  · intro i client hi hother
    rw [hserver] at hi hother
    rw [hothers client hother]
    exact h.others i client hi hother
  · intro client hclient i hi
    rw [hserver] at hclient
    rw [hunsent] at hi
    obtain ⟨msg, hmsg⟩ := h.known client hclient i hi
    exact ⟨msg, hsent client _ hmsg⟩

theorem sent_send {client : Proxy} {entry : Handle × SensorConfigMsg} (i : Handle)
    (h : entry ∈ s.sent client) : entry ∈ (s.sensor_device_send_config_msg i).sent client := by
  by_cases hdefault : s.server.m_pclient_ = some client
  · rw [send_default i hdefault]
    simp only [Function.update_self]
    exact List.mem_cons_of_mem _ h
  · rw [send_other i hdefault]
    exact h

theorem Replayed.send (h : s.Replayed) (i : Handle) :
    (s.sensor_device_send_config_msg i).Replayed :=
  h.grow (send_server s i) (by rw [send_pc]) (fun _ hother => send_other i hother)
    (fun _ _ hentry => sent_send i hentry)

theorem Replayed.call (h : s.Replayed) (call : ConfigCall) : (s.call hdr call).Replayed := by
  rcases call_cases hdr s call with ⟨_, hsame⟩ | ⟨handle, stored, _, hstored, hcall⟩
  · rw [hsame]
    exact h.grow rfl rfl (fun _ _ => rfl) (fun _ _ hentry => hentry)
  · have hreplayed : stored.Replayed := by
      rw [hstored]
      exact h.grow rfl rfl (fun _ _ => rfl) (fun _ _ hentry => hentry)
    rw [hcall]
    split
    · exact hreplayed.send handle
    · exact hreplayed

theorem Replayed.connect (h : s.Replayed) {attempt : Attempt} {i : ClientIndex}
    (hok : attempt.succeeds) (hpossible : s.server.possible attempt)
    (hfree : s.server.m_clients i = none) :
    Replayed { s with
      server := s.server.connect attempt i.slot
      pc := .client_connected_callback (List.finRange 9)
      sent := Function.update s.sent attempt.proxy [] } := by
  refine ⟨h.tables.connect hok.2.1 hpossible hfree, ?_, ?_⟩
  · intro j client hj hother
    rw [SockServer.connect_slot] at hj hother
    by_cases hclient : client = attempt.proxy
    · subst client
      exact Function.update_self _ _ _
    · simp only [Function.update_of_ne hclient]
      have hji : j ≠ i := by
        rintro rfl
        simp only [Function.update_self, Option.some.injEq] at hj
        exact hclient hj.symm
      simp only [Function.update_of_ne hji] at hj
      refine h.others j client hj fun hdefault => hother ?_
      simp only [hdefault, Option.some_ne_none, if_false]
  · intro client _ i hi
    exact absurd (List.mem_finRange i) hi

theorem Replayed.replay (h : s.Replayed) {i : Handle} {rest : List Handle}
    (hpc : s.pc = .client_connected_callback (i :: rest)) :
    Replayed { s.sensor_device_send_config_msg i with pc := .client_connected_callback rest } := by
  have hsend := h.send i
  refine ⟨hsend.tables, hsend.others, ?_⟩
  intro client hclient j hj
  dsimp only at hclient ⊢
  by_cases hji : j = i
  · subst j
    rw [send_server] at hclient
    rw [send_default i hclient]
    refine ⟨s.m_sensor_config_status i, ?_⟩
    simp only [Function.update_self]
    exact List.mem_cons_self
  · refine hsend.known client hclient j ?_
    rw [send_pc, hpc]
    intro hmem
    rcases List.mem_cons.mp hmem with hhead | hrest
    · exact hji hhead
    · exact hj hrest

theorem Replayed.disconnect (h : s.Replayed) {i : ClientIndex} {client : Proxy}
    (hi : s.server.m_clients i = some client) {pc : ListenerPc} (hpc : pc.unsent = s.pc.unsent) :
    Replayed { s with
      server := s.server.disconnected i client
      pc } := by
  refine ⟨h.tables.disconnected hi, ?_, ?_⟩
  · intro j other hj hother
    rw [h.tables.disconnected_eq hi] at hj hother
    by_cases hji : j = i
    · subst j
      simp only [Function.update_self] at hj
      cases hj
    · simp only [Function.update_of_ne hji] at hj
      refine h.others j other hj fun hdefault => hother ?_
      have hne : ¬ s.server.m_pclient_ = some client := by
        rw [hdefault]
        intro hsame
        obtain rfl := Option.some.inj hsame
        exact hji (h.tables.client_injective hj hi)
      simp only [if_neg hne]
      exact hdefault
  · intro other hother j hj
    rw [h.tables.disconnected_eq hi] at hother
    dsimp only at hother
    split at hother
    · cases hother
    · rw [hpc] at hj
      exact h.known other hother j hj

theorem Replayed.choose (h : s.Replayed) (hpc : s.pc = .scan [])
    (hdefault : s.server.m_pclient_ = none → ∀ i, s.server.m_clients i = none) :
    Replayed { s with
      server := s.server.choose_default
      pc := .check_new_connection } := by
  rw [SockServer.choose_default_same hdefault]
  exact h.grow rfl (by rw [hpc]; rfl) (fun _ _ => rfl) (fun _ _ hentry => hentry)

-- A new default client has not been sent anything.
theorem Replayed.choose_uninformed (h : s.Replayed) (hnone : s.server.m_pclient_ = none)
    {i : ClientIndex} (hi : s.server.m_clients i ≠ none) :
    ¬ DefaultInformed { s with
      server := s.server.choose_default
      pc := .check_new_connection } := by
  rcases SockServer.choose_default_cases s.server with ⟨hclient, _⟩ | ⟨_, hchoice⟩
  · exact absurd hnone hclient
  · rw [hchoice]
    intro hinformed
    cases hfirst : Table.first s.server.m_clients with
    | none => exact hi (Table.first_eq_none.mp hfirst i)
    | some client =>
        obtain ⟨j, hj, _⟩ := Table.first_eq_some hfirst
        have hempty := h.others j client hj (by rw [hnone]; exact (Option.some_ne_none _).symm)
        obtain ⟨msg, hmsg⟩ := hinformed rfl client hfirst 0
        dsimp only at hmsg
        rw [hempty] at hmsg
        cases hmsg

theorem Replayed.informed (h : s.Replayed) : s.DefaultInformed := by
  intro hpc client hclient i
  refine h.known client hclient i ?_
  rw [hpc]
  exact List.not_mem_nil

-- A client past the client table ends the run, before its replay.
def Past (s : ConfigServer) : Prop :=
  s.server.history.overrun = true ∧ s.pc ≠ .check_new_connection

theorem Replayed.check_new_connection (h : s.Replayed) {attempt : Attempt} {client : Proxy}
    {server : SockServer} (hpossible : s.server.possible attempt)
    (hserver : s.server.check_new_connection attempt = (some client, server)) :
    Past { s with
      server
      pc := .client_connected_callback (List.finRange 9)
      sent := Function.update s.sent client [] } ∨
    Replayed { s with
      server
      pc := .client_connected_callback (List.finRange 9)
      sent := Function.update s.sent client [] } := by
  rcases SockServer.check_new_connection_cases s.server attempt with
    ⟨_, hsame⟩ | ⟨hok, id, hid, hconnect⟩
  · cases hsame.symm.trans hserver
  · by_cases hfree : ∃ i, s.server.m_clients i = none
    · obtain ⟨i, hi, hwithin⟩ := h.tables.connects_within hok hfree
      cases hwithin.symm.trans hserver
      exact .inr (h.connect hok hpossible hi)
    · obtain ⟨id', hpast, hconnect'⟩ :=
        h.tables.connects_past hok fun i hi => hfree ⟨i, hi⟩
      cases hconnect'.symm.trans hserver
      have hoverrun := (SockServer.connect_history_past s.server attempt hpast).2
      exact .inl ⟨hoverrun, fun hpc => ListenerPc.noConfusion hpc⟩

theorem Replayed.step (h : s.Replayed) (hfailover : NoFailover s event)
    (hmoves : Moves hdr s event t) : t.Past ∨ t.Replayed := by
  cases hmoves with
  | call call => exact .inr (h.call call)
  | refuse attempt server hpc hserver =>
      right
      have hunsent : ListenerPc.unsent .check_new_message = s.pc.unsent := by
        rw [hpc]
        rfl
      exact h.grow (refused_server hserver) hunsent (fun _ _ => rfl) (fun _ _ hentry => hentry)
  | connect attempt client server hpc hpossible hserver =>
      exact h.check_new_connection hpossible hserver
  | replayed hpc =>
      exact .inr (h.grow rfl (by rw [hpc]; rfl) (fun _ _ => rfl) (fun _ _ hentry => hentry))
  | replay i rest hpc => exact .inr (h.replay hpc)
  | select readable hpc =>
      right
      refine h.grow rfl ?_ (fun _ _ => rfl) (fun _ _ hentry => hentry)
      rw [hpc]
      cases readable <;> rfl
  | visit i rest status ret server pc hpc hserver hunsent =>
      right
      have hsame : pc.unsent = s.pc.unsent := by
        rw [hpc, hunsent]
        rfl
      rcases SockServer.visit_cases s.server i status with hkept | ⟨client, hi, _, hvisit⟩
      · cases hkept.symm.trans hserver
        exact h.grow rfl hsame (fun _ _ => rfl) (fun _ _ hentry => hentry)
      · cases hvisit.symm.trans hserver
        exact h.disconnect hi hsame
  | choose status hpc => exact .inr (h.choose hpc (hfailover status rfl hpc))

theorem Replayed.step_failover (h : s.Replayed) (hfailover : ¬ NoFailover s event)
    (hmoves : Moves hdr s event t) : ¬ t.DefaultInformed := by
  unfold NoFailover at hfailover
  push Not at hfailover
  obtain ⟨status, rfl, hpc, hnone, i, hi⟩ := hfailover
  cases hmoves with
  | visit j rest status ret server pc hpc' _ _ =>
      rw [hpc] at hpc'
      cases hpc'
  | choose status _ => exact h.choose_uninformed hnone hi

-- The default client knows the configuration at every iteration exactly if it
-- never disconnects while another client is connected.
theorem default_informed {events : List ListenerEvent} {s : ConfigServer}
    (hrun : Machine.run (step hdr) init events = some s) :
    Machine.Along (step hdr)
        (fun s event => ∀ t, step hdr s event = some t → t.DefaultInformed) init events ↔
      Machine.Along (step hdr) NoFailover init events := by
  have henabled : ∀ s event t, s.Past ∨ s.Replayed → step hdr s event = some t →
      s.Replayed ∧ Moves hdr s event t := by
    rintro s event t hreplayed hnext
    obtain ⟨hoverrun, hmoves⟩ := moves_of_step hnext
    rcases hreplayed with ⟨hpast, _⟩ | hreplayed
    · exact absurd (hoverrun.symm.trans hpast) Bool.false_ne_true
    · exact ⟨hreplayed, hmoves⟩
  have hstep : ∀ s event t, s.Past ∨ s.Replayed → NoFailover s event →
      step hdr s event = some t → (t.Past ∨ t.Replayed) ∧ t.DefaultInformed := by
    rintro s event t hs hfailover hnext
    obtain ⟨hreplayed, hmoves⟩ := henabled s event t hs hnext
    have ht := hreplayed.step hfailover hmoves
    refine ⟨ht, ?_⟩
    rcases ht with ⟨_, hpc⟩ | hreplayed'
    · exact fun htop => absurd htop hpc
    · exact hreplayed'.informed
  have hbad : ∀ s event t, s.Past ∨ s.Replayed → ¬ NoFailover s event →
      step hdr s event = some t → ¬ t.DefaultInformed := by
    rintro s event t hs hfailover hnext
    obtain ⟨hreplayed, hmoves⟩ := henabled s event t hs hnext
    exact hreplayed.step_failover hfailover hmoves
  exact Machine.along_good_iff hstep hbad (.inr replayed_init) hrun

-- One client connects and gets the replay, and there is no scan.
theorem default_informed_one :
    let events : List ListenerEvent := .check_new_connection ⟨true, 7, 0, 1⟩ ::
      List.replicate 10 .client_connected_callback ++ [.check_new_message false]
    ∃ s, Machine.run (step android_header) init events = some s ∧ (s.sent 1).length = 9 ∧
      Machine.Along (step android_header)
        (fun s event => ∀ t, step android_header s event = some t → t.DefaultInformed)
        init events := by
  intro events
  obtain ⟨s, hrun, hlength⟩ : ∃ s, Machine.run (step android_header) init events = some s ∧
      (s.sent 1).length = 9 :=
    Option.map_eq_some_iff.mp (by decide +kernel)
  have hfailover : Machine.Along (step android_header) NoFailover init events := by
    refine Machine.along_of_forall_mem ?_ _
    rintro event hevent _ status rfl
    simp [events] at hevent
  exact ⟨s, hrun, hlength, (default_informed hrun).mpr hfailover⟩

-- A second client takes over when the first one disconnects, and knows nothing.
theorem default_uninformed :
    ∃ s, Machine.run (step android_header) init
        (.check_new_connection ⟨true, 7, 0, 1⟩ :: List.replicate 10 .client_connected_callback ++
          [.check_new_message false, .check_new_connection ⟨true, 8, 0, 2⟩] ++
          List.replicate 10 .client_connected_callback ++
          [.check_new_message true, .scan .disconnect] ++ List.replicate 255 (.scan .normal)) =
        some s ∧ ¬ s.DefaultInformed := by
  obtain ⟨s, hrun, hresult⟩ : ∃ s, Machine.run (step android_header) init
      (.check_new_connection ⟨true, 7, 0, 1⟩ :: List.replicate 10 .client_connected_callback ++
        [.check_new_message false, .check_new_connection ⟨true, 8, 0, 2⟩] ++
        List.replicate 10 .client_connected_callback ++
        [.check_new_message true, .scan .disconnect] ++ List.replicate 255 (.scan .normal)) =
      some s ∧ (s.pc, s.server.m_pclient_, s.sent 2) = (.check_new_connection, some 2, []) :=
    Option.map_eq_some_iff.mp (by decide +kernel)
  simp only [Prod.mk.injEq] at hresult
  obtain ⟨hpc, hclient, hsent⟩ := hresult
  refine ⟨s, hrun, fun hinformed => ?_⟩
  obtain ⟨msg, hmsg⟩ := hinformed hpc 2 hclient 0
  rw [hsent] at hmsg
  cases hmsg

end ConfigServer

end SensorVhal
