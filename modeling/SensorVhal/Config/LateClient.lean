import SensorVhal.Config.Listener

namespace SensorVhal

-- The last record of a sensor type that a client has received.
def last_record (sensor_type : Int) (sent : List (Handle × SensorConfigMsg)) :
    Option SensorConfigMsg :=
  (sent.map Prod.snd).find? fun msg => msg.sensor_type = sensor_type

theorem last_record_cons {sensor_type : Int} {msg : SensorConfigMsg} (i : Handle)
    (sent : List (Handle × SensorConfigMsg)) (h : msg.sensor_type = sensor_type) :
    last_record sensor_type ((i, msg) :: sent) = some msg := by
  simp [last_record, h]

theorem last_record_cons_other {sensor_type : Int} {msg : SensorConfigMsg} (i : Handle)
    (sent : List (Handle × SensorConfigMsg)) (h : msg.sensor_type ≠ sensor_type) :
    last_record sensor_type ((i, msg) :: sent) = last_record sensor_type sent := by
  simp [last_record, h]

theorem last_record_type {sensor_type : Int} {msg : SensorConfigMsg}
    {sent : List (Handle × SensorConfigMsg)} (h : last_record sensor_type sent = some msg) :
    msg.sensor_type = sensor_type := by
  unfold last_record at h
  have hfound := List.find?_some h
  exact of_decide_eq_true hfound

-- The table after a call.
def ConfigCall.store (hdr : SensorsHeader) (status : ConfigStatus) (call : ConfigCall) :
    ConfigStatus :=
  match call.configure hdr status with
  | .returned _ => status
  | .stored _ status _ => status

-- The table after a number of calls.
def configured_by (hdr : SensorsHeader) (calls : List ConfigCall) : ConfigStatus :=
  calls.foldl (ConfigCall.store hdr) fun _ => ⟨0, 0, 0⟩

def config_calls (events : List ListenerEvent) : List ConfigCall :=
  events.filterMap fun
    | .call call => some call
    | _ => none

section Entries

theorem store_type (hdr : SensorsHeader) (status : ConfigStatus) (call : ConfigCall) {i : Handle}
    (h : call.handle = i.val ∨ (status i).sensor_type = handle_type hdr i) :
    (call.store hdr status i).sensor_type = handle_type hdr i := by
  rw [ConfigCall.store]
  rcases call.configure_cases hdr status with ⟨hunknown, hconfigure⟩ | ⟨j, hj, hconfigure⟩
  · rw [hconfigure]
    exact h.resolve_left (hunknown i)
  · rw [hconfigure]
    dsimp only
    by_cases hij : i = j
    · subst j
      rw [Function.update_self]
      cases call <;> rfl
    · rw [Function.update_of_ne hij]
      refine h.resolve_left fun hi => hij (Fin.ext ?_)
      have hvals : (i.val : Int) = j.val := hi.symm.trans hj
      omega

theorem configured_type (hdr : SensorsHeader) (status : ConfigStatus) {calls : List ConfigCall}
    {i : Handle}
    (h : (∃ call ∈ calls, call.handle = i.val) ∨
      (status i).sensor_type = handle_type hdr i) :
    (calls.foldl (ConfigCall.store hdr) status i).sensor_type = handle_type hdr i := by
  induction calls generalizing status with
  | nil =>
      rcases h with ⟨call, hcall, _⟩ | htype
      · cases hcall
      · exact htype
  | cons call calls ih =>
      refine ih (call.store hdr status) ?_
      rcases h with ⟨other, hother, hhandle⟩ | htype
      · rcases List.mem_cons.mp hother with rfl | hrest
        · exact .inr (store_type hdr status other (.inl hhandle))
        · exact .inl ⟨other, hrest, hhandle⟩
      · exact .inr (store_type hdr status call (.inr htype))

theorem configured_by_append (hdr : SensorsHeader) (calls more : List ConfigCall) :
    configured_by hdr (calls ++ more) =
      more.foldl (ConfigCall.store hdr) (configured_by hdr calls) := List.foldl_append

-- A handle that has its type keeps it.
theorem configured_later {hdr : SensorsHeader} {calls : List ConfigCall} {i : Handle} {k : Nat}
    (h : (configured_by hdr (calls.take k) i).sensor_type = handle_type hdr i) :
    (configured_by hdr calls i).sensor_type = handle_type hdr i := by
  rw [← List.take_append_drop k calls, configured_by_append]
  exact configured_type hdr _ (.inr h)

-- Calls for a handle that are not sent keep its sample period.
theorem store_period (hdr : SensorsHeader) (status : ConfigStatus) {call : ConfigCall} {i : Handle}
    (h : call.handle = i.val → call.sends = false) :
    (call.store hdr status i).sample_period = (status i).sample_period := by
  rw [ConfigCall.store]
  rcases call.configure_cases hdr status with ⟨hunknown, hconfigure⟩ | ⟨j, hj, hconfigure⟩
  · rw [hconfigure]
  · rw [hconfigure]
    dsimp only
    by_cases hij : i = j
    · subst j
      rw [Function.update_self]
      have hsends := h hj
      cases call with
      | activate number enabled => rfl
      | batch number ns => cases hsends
      | set_delay number ns => cases hsends
    · rw [Function.update_of_ne hij]

theorem configured_period (hdr : SensorsHeader) (status : ConfigStatus) {calls : List ConfigCall}
    {i : Handle} (h : ∀ call ∈ calls, call.handle = i.val → call.sends = false) :
    (calls.foldl (ConfigCall.store hdr) status i).sample_period = (status i).sample_period := by
  induction calls generalizing status with
  | nil => rfl
  | cons call calls ih =>
      obtain ⟨hfirst, hrest⟩ := List.forall_mem_cons.mp h
      exact (ih (call.store hdr status) hrest).trans (store_period hdr status hfirst)

-- From the last call for a handle that is sent on, its entry stays as it is.
def Settled (hdr : SensorsHeader) (calls : List ConfigCall) (i : Handle) : Prop :=
  ∀ k, (∀ call ∈ calls.drop k, call.handle = i.val → call.sends = false) →
    configured_by hdr (calls.take k) i = configured_by hdr calls i

end Entries

-- The record that the message of an entry is for the sensor with a handle: an entry that
-- was never configured has no type.
def SensorConfigMsg.record (hdr : SensorsHeader) (i : Handle) (entry : SensorConfigMsg) :
    Option SensorConfigMsg :=
  if entry.sensor_type = handle_type hdr i then some entry else none

-- What a client that is sent every message has of the entries: each as it was
-- when it was last sent, and no call behind that was to be sent. Of those that
-- the replay has not come to it may have nothing.
structure UpToDate (hdr : SensorsHeader) (calls : List ConfigCall) (sent_after : Handle → Nat)
    (sent : List (Handle × SensorConfigMsg)) (i : Handle) : Prop where
  before : sent_after i ≤ calls.length
  behind : ∀ call ∈ calls.drop (sent_after i), call.handle = i.val → call.sends = false
  record : last_record (handle_type hdr i) sent =
    (configured_by hdr (calls.take (sent_after i)) i).record hdr i

-- An entry that the client has a record of, or that is not left for the replay.
def Known (hdr : SensorsHeader) (unsent : List Handle) (sent : List (Handle × SensorConfigMsg))
    (i : Handle) : Prop :=
  i ∉ unsent ∨ last_record (handle_type hdr i) sent ≠ none

section UpToDate

variable {hdr : SensorsHeader} {calls : List ConfigCall} {sent_after : Handle → Nat}
  {sent : List (Handle × SensorConfigMsg)} {i : Handle} {entry : SensorConfigMsg}

theorem last_record_ne_none (h : UpToDate hdr calls sent_after sent i)
    (hrecord : last_record (handle_type hdr i) sent ≠ none) :
    (configured_by hdr calls i).sensor_type = handle_type hdr i := by
  rw [h.record, SensorConfigMsg.record] at hrecord
  split at hrecord
  · exact configured_later ‹_›
  · exact absurd rfl hrecord

-- The entry has been sent as it is.
theorem upToDate_sent (hentry : entry = configured_by hdr calls i)
    (hunset : entry.sensor_type ≠ handle_type hdr i →
      last_record (handle_type hdr i) sent = none) :
    UpToDate hdr calls (Function.update sent_after i calls.length) ((i, entry) :: sent) i := by
  subst entry
  constructor
  · rw [Function.update_self]
  · intro call hcall
    rw [Function.update_self, List.drop_length] at hcall
    cases hcall
  · rw [Function.update_self, List.take_length, SensorConfigMsg.record]
    split
    · exact last_record_cons i sent ‹_›
    · rename_i htype
      rw [last_record_cons_other i sent htype]
      exact hunset htype

-- The entry of another handle has been sent.
theorem UpToDate.sent_other (h : UpToDate hdr calls sent_after sent i) {j : Handle} (hij : i ≠ j)
    (htype : entry.sensor_type ≠ handle_type hdr i) :
    UpToDate hdr calls (Function.update sent_after j calls.length) ((j, entry) :: sent) i := by
  constructor
  · rw [Function.update_of_ne hij]
    exact h.before
  · rw [Function.update_of_ne hij]
    exact h.behind
  · rw [Function.update_of_ne hij, last_record_cons_other j sent htype]
    exact h.record

-- A call for another handle, or one that is not sent.
theorem UpToDate.append (h : UpToDate hdr calls sent_after sent i) {call : ConfigCall}
    (hcall : call.handle = i.val → call.sends = false) :
    UpToDate hdr (calls ++ [call]) sent_after sent i := by
  constructor
  · rw [List.length_append]
    exact Nat.le_add_right_of_le h.before
  · rw [List.drop_append_of_le_length h.before]
    intro other hother
    rcases List.mem_append.mp hother with hold | hnew
    · exact h.behind other hold
    · rw [List.mem_singleton.mp hnew]
      exact hcall
  · rw [List.take_append_of_le_length h.before]
    exact h.record

end UpToDate

namespace ConfigServer

variable {hdr : SensorsHeader} {s t : ConfigServer} {event : ListenerEvent}

-- A client connects only while there is none.
def SingleClient (s : ConfigServer) (event : ListenerEvent) : Prop :=
  ∀ attempt, event = .check_new_connection attempt → attempt.succeeds →
    ∀ i, s.server.m_clients i = none

structure Agrees (hdr : SensorsHeader) (s : ConfigServer) : Prop where
  tables : s.server.Tables
  only : ∀ i client, s.server.m_clients i = some client → s.server.m_pclient_ = some client
  status : s.m_sensor_config_status = configured_by hdr s.calls
  entries : ∀ i, (s.m_sensor_config_status i).sensor_type = handle_type hdr i ∨
    (s.m_sensor_config_status i).sensor_type = 0
  records : ∀ client, s.server.m_pclient_ = some client → ∀ i,
    Known hdr s.pc.unsent (s.sent client) i →
    UpToDate hdr s.calls s.sent_after (s.sent client) i

theorem agrees_init : init.Agrees hdr := by
  refine ⟨SockServer.tables_init, ?_, rfl, fun _ => .inr rfl, ?_⟩
  · intro i client hi
    cases hi
  · intro client hclient
    cases hclient

-- The client has no record of an entry that was never configured.
theorem Agrees.unset (h : s.Agrees hdr) {i : Handle} {client : Proxy}
    (hclient : s.server.m_pclient_ = some client)
    (htype : (s.m_sensor_config_status i).sensor_type ≠ handle_type hdr i) :
    last_record (handle_type hdr i) (s.sent client) = none := by
  by_contra hrecord
  have hknown := h.records client hclient i (.inr hrecord)
  rw [h.status] at htype
  exact htype (last_record_ne_none hknown hrecord)

-- A message of an entry that has just been stored, or of one that is kept.
theorem Agrees.send (h : s.Agrees hdr) (i : Handle) {status : ConfigStatus}
    {calls : List ConfigCall} (pc : ListenerPc) (hstatus : status = configured_by hdr calls)
    (hentries : ∀ j, (status j).sensor_type = handle_type hdr j ∨ (status j).sensor_type = 0)
    (hunset : (status i).sensor_type ≠ handle_type hdr i →
      (s.m_sensor_config_status i).sensor_type ≠ handle_type hdr i)
    (hothers : ∀ j, j ≠ i → ∀ sent, UpToDate hdr s.calls s.sent_after sent j →
      UpToDate hdr calls s.sent_after sent j)
    (hunsent : ∀ j, j ∉ pc.unsent → j = i ∨ j ∉ s.pc.unsent) :
    Agrees hdr { sensor_device_send_config_msg
        { s with m_sensor_config_status := status, calls := calls } i with
      pc } := by
  refine ⟨?_, ?_, ?_, ?_, ?_⟩
  · dsimp only
    rw [send_server]
    exact h.tables
  · dsimp only
    rw [send_server]
    exact h.only
  · dsimp only
    rw [send_status, send_calls]
    exact hstatus
  · dsimp only
    rw [send_status]
    exact hentries
  · intro client hclient j hknown
    dsimp only at hclient hknown ⊢
    rw [send_server] at hclient
    rw [send_default i hclient] at hknown ⊢
    simp only [Function.update_self] at hknown ⊢
    by_cases hj : j = i
    · subst j
      exact upToDate_sent (congrFun hstatus i) fun htype => h.unset hclient (hunset htype)
    · have htype : (status i).sensor_type ≠ handle_type hdr j := by
        rcases hentries i with htype | hzero
        · rw [htype]
          exact fun htypes => hj (handle_type_injective htypes).symm
        · rw [hzero]
          exact (handle_type_pos j).ne
      rw [Known, last_record_cons_other i _ htype] at hknown
      have hbefore : Known hdr s.pc.unsent (s.sent client) j :=
        hknown.imp (fun hleft => (hunsent j hleft).resolve_left hj) id
      exact (hothers j hj _ (h.records client hclient j hbefore)).sent_other hj htype

theorem Agrees.call (h : s.Agrees hdr) (call : ConfigCall) : (s.call hdr call).Agrees hdr := by
  have hlater : configured_by hdr (s.calls ++ [call]) =
      call.store hdr s.m_sensor_config_status := by
    rw [configured_by_append, h.status]
    rfl
  rcases call_cases hdr s call with ⟨hunknown, hsame⟩ | ⟨handle, stored, hhandle, hstored, hcall⟩
  · rw [hsame]
    refine ⟨h.tables, h.only, ?_, h.entries, fun client hclient j hknown => ?_⟩
    · rw [hlater, ConfigCall.store]
      rcases call.configure_cases hdr s.m_sensor_config_status with ⟨_, hkept⟩ | ⟨j, hj, _⟩
      · rw [hkept]
      · exact absurd hj (hunknown j)
    · exact (h.records client hclient j hknown).append fun hj => absurd hj (hunknown j)
  · have hstatus : Function.update s.m_sensor_config_status handle (call.entry
        (handle_type hdr handle) (s.m_sensor_config_status handle)) =
          configured_by hdr (s.calls ++ [call]) := by
      rw [hlater, ConfigCall.store]
      rcases call.configure_cases hdr s.m_sensor_config_status with ⟨hunknown, _⟩ | ⟨j, hj, hstore⟩
      · exact absurd hhandle (hunknown handle)
      · obtain rfl : handle = j := Fin.ext (by have hsame := hhandle.symm.trans hj; omega)
        rw [hstore]
    have htype : (call.entry (handle_type hdr handle)
        (s.m_sensor_config_status handle)).sensor_type = handle_type hdr handle := by
      cases call <;> rfl
    have hentries : ∀ j, (Function.update s.m_sensor_config_status handle (call.entry
        (handle_type hdr handle) (s.m_sensor_config_status handle)) j).sensor_type =
          handle_type hdr j ∨
        (Function.update s.m_sensor_config_status handle (call.entry
          (handle_type hdr handle) (s.m_sensor_config_status handle)) j).sensor_type = 0 := by
      intro j
      by_cases hj : j = handle
      · subst j
        rw [Function.update_self]
        exact .inl htype
      · rw [Function.update_of_ne hj]
        exact h.entries j
    rw [hcall, hstored]
    split
    · have hsend := h.send handle s.pc hstatus hentries ?_ ?_ fun j hj => .inr hj
      · exact (send_with_pc _ handle) ▸ hsend
      · rw [Function.update_self]
        exact fun hunset => absurd htype hunset
      · intro j hj sent hupToDate
        refine hupToDate.append fun hsame => absurd (Fin.ext ?_) hj
        have hvals := hhandle.symm.trans hsame
        omega
    · rename_i hsends
      refine ⟨h.tables, h.only, hstatus, hentries, fun client hclient j hknown => ?_⟩
      exact (h.records client hclient j hknown).append fun _ => Bool.eq_false_iff.mpr hsends

theorem Agrees.keep (h : s.Agrees hdr) {pc : ListenerPc} (hpc : pc.unsent = s.pc.unsent) :
    Agrees hdr { s with pc } := by
  refine ⟨h.tables, h.only, h.status, h.entries, fun client hclient i hknown => ?_⟩
  dsimp only at hknown
  rw [hpc] at hknown
  exact h.records client hclient i hknown

theorem Agrees.replay (h : s.Agrees hdr) {i : Handle} {rest : List Handle}
    (hpc : s.pc = .client_connected_callback (i :: rest)) :
    Agrees hdr
      { s.sensor_device_send_config_msg i with pc := .client_connected_callback rest } := by
  refine h.send i _ h.status h.entries id (fun _ _ _ hkept => hkept) ?_
  · intro j hj
    rw [hpc]
    by_cases hji : j = i
    · exact .inl hji
    · exact .inr fun hmem => hj ((List.mem_cons.mp hmem).resolve_left hji)

theorem Agrees.connect (h : s.Agrees hdr) {attempt : Attempt} {i : ClientIndex}
    (hok : attempt.succeeds) (hpossible : s.server.possible attempt)
    (hempty : ∀ i, s.server.m_clients i = none) :
    Agrees hdr { s with
      server := s.server.connect attempt i.slot
      pc := .client_connected_callback (List.finRange 9)
      sent := Function.update s.sent attempt.proxy [] } := by
  have hnone : s.server.m_pclient_ = none := by
    by_contra hclient
    obtain ⟨client, hclient⟩ := Option.ne_none_iff_exists'.mp hclient
    obtain ⟨j, hj⟩ := h.tables.default client hclient
    rw [hempty j] at hj
    cases hj
  have hdefault : (s.server.connect attempt i.slot).m_pclient_ = some attempt.proxy := by
    rw [SockServer.connect_default, if_pos hnone]
  refine ⟨h.tables.connect hok.2.1 hpossible (hempty i), ?_, h.status, h.entries, ?_⟩
  · intro j client hj
    rw [SockServer.connect_slot] at hj
    by_cases hji : j = i
    · subst j
      simp only [Function.update_self] at hj
      exact hdefault.trans hj
    · simp only [Function.update_of_ne hji, hempty] at hj
      cases hj
  · intro client hclient j hknown
    obtain rfl := Option.some.inj (hdefault.symm.trans hclient)
    simp only [Function.update_self] at hknown
    exact absurd hknown (not_or.mpr ⟨fun hj => hj (List.mem_finRange j), fun hj => hj rfl⟩)

theorem Agrees.disconnect (h : s.Agrees hdr) {i : ClientIndex} {client : Proxy}
    (hi : s.server.m_clients i = some client) (pc : ListenerPc) :
    Agrees hdr { s with
      server := s.server.disconnected i client
      pc } := by
  have hdefault : (s.server.disconnected i client).m_pclient_ = none := by
    rw [h.tables.disconnected_eq hi]
    exact if_pos (h.only i client hi)
  refine ⟨h.tables.disconnected hi, ?_, h.status, h.entries, ?_⟩
  · intro j other hj
    rw [h.tables.disconnected_eq hi] at hj
    by_cases hji : j = i
    · subst j
      simp only [Function.update_self] at hj
      cases hj
    · simp only [Function.update_of_ne hji] at hj
      have hsame : client = other :=
        Option.some.inj ((h.only i client hi).symm.trans (h.only j other hj))
      subst other
      exact absurd (h.tables.client_injective hj hi) hji
  · intro other hother
    rw [hdefault] at hother
    cases hother

theorem Agrees.choose (h : s.Agrees hdr) (hpc : s.pc = .scan []) :
    Agrees hdr { s with
      server := s.server.choose_default
      pc := .check_new_connection } := by
  have hempty : s.server.m_pclient_ = none → ∀ i, s.server.m_clients i = none := by
    intro hnone i
    by_contra hi
    obtain ⟨client, hclient⟩ := Option.ne_none_iff_exists'.mp hi
    rw [h.only i client hclient] at hnone
    cases hnone
  rw [SockServer.choose_default_same hempty]
  exact h.keep (by rw [hpc]; rfl)

theorem Agrees.step (h : s.Agrees hdr) (hsingle : SingleClient s event)
    (hmoves : Moves hdr s event t) : t.Agrees hdr := by
  cases hmoves with
  | call call => exact h.call call
  | refuse attempt server hpc hserver =>
      obtain rfl := refused_server hserver
      exact h.keep (by rw [hpc]; rfl)
  | connect attempt client server hpc hpossible hserver =>
      rcases SockServer.check_new_connection_cases s.server attempt with
        ⟨_, hsame⟩ | ⟨hok, _, _, _⟩
      · cases hsame.symm.trans hserver
      · have hempty := hsingle attempt rfl hok
        obtain ⟨i, _, hwithin⟩ := h.tables.connects_within hok ⟨0, hempty 0⟩
        cases hwithin.symm.trans hserver
        exact h.connect hok hpossible hempty
  | replayed hpc => exact h.keep (by rw [hpc]; rfl)
  | replay i rest hpc => exact h.replay hpc
  | select readable hpc =>
      refine h.keep ?_
      rw [hpc]
      cases readable <;> rfl
  | visit i rest status ret server pc hpc hserver hunsent =>
      have hsame : pc.unsent = s.pc.unsent := by
        rw [hpc, hunsent]
        rfl
      rcases SockServer.visit_cases s.server i status with hkept | ⟨client, hi, _, hvisit⟩
      · cases hkept.symm.trans hserver
        exact h.keep hsame
      · cases hvisit.symm.trans hserver
        exact h.disconnect hi pc
  | choose status hpc => exact h.choose hpc

theorem call_calls (hdr : SensorsHeader) (s : ConfigServer) (call : ConfigCall) :
    (s.call hdr call).calls = s.calls ++ [call] := by
  rcases call_cases hdr s call with ⟨_, hsame⟩ | ⟨handle, stored, _, hstored, hcall⟩
  · rw [hsame]
  · rw [hcall, hstored]
    split
    · exact send_calls _ handle
    · rfl

theorem calls_of_run {events : List ListenerEvent}
    (hrun : Machine.run (step hdr) s events = some t) :
    t.calls = s.calls ++ config_calls events := by
  induction events generalizing s with
  | nil =>
      obtain rfl := Option.some.inj hrun
      exact (List.append_nil _).symm
  | cons event events ih =>
      obtain ⟨m, hm, hrest⟩ := Machine.run_cons_some.mp hrun
      rw [ih hrest]
      obtain ⟨_, hmoves⟩ := moves_of_step hm
      cases hmoves with
      | call call =>
          rw [call_calls, List.append_assoc]
          rfl
      | replay i rest hpc =>
          dsimp only
          rw [send_calls]
          rfl
      | _ => rfl

-- A run with these calls, behind which one client is connected and has had its replay.
structure Serves (hdr : SensorsHeader) (calls : List ConfigCall) (events : List ListenerEvent)
    (s : ConfigServer) (client : Proxy) : Prop where
  single : Machine.Along (step hdr) SingleClient init events
  run : Machine.run (step hdr) init events = some s
  default : s.server.m_pclient_ = some client
  replayed : s.pc.unsent = []
  calls : config_calls events = calls

section Serves

variable {calls : List ConfigCall} {events : List ListenerEvent} {client : Proxy} {i : Handle}

theorem Serves.all_calls (h : Serves hdr calls events s client) : s.calls = calls := by
  rw [calls_of_run h.run, h.calls]
  rfl

theorem Serves.agrees (h : Serves hdr calls events s client) : s.Agrees hdr :=
  Machine.invariant (fun _ _ _ hs hcond hnext => hs.step hcond (moves_of_step hnext).2)
    agrees_init h.single h.run

theorem Serves.status (h : Serves hdr calls events s client) :
    s.m_sensor_config_status = configured_by hdr calls := by
  rw [h.agrees.status, h.all_calls]

theorem Serves.upToDate (h : Serves hdr calls events s client) (i : Handle) :
    UpToDate hdr calls s.sent_after (s.sent client) i := by
  have hleft : i ∉ s.pc.unsent := by
    rw [h.replayed]
    exact List.not_mem_nil
  exact h.all_calls ▸ h.agrees.records client h.default i (.inl hleft)

-- The client has the entry exactly if it is as it was when it was last sent.
theorem Serves.record_iff (h : Serves hdr calls events s client)
    (htype : (configured_by hdr calls i).sensor_type = handle_type hdr i) :
    last_record (handle_type hdr i) (s.sent client) = some (configured_by hdr calls i) ↔
      configured_by hdr (calls.take (s.sent_after i)) i = configured_by hdr calls i := by
  rw [(h.upToDate i).record, SensorConfigMsg.record]
  constructor
  · intro hrecord
    split at hrecord
    · exact Option.some.inj hrecord
    · cases hrecord
  · intro hsame
    rw [hsame, if_pos htype]

-- Only an activation has not been sent since, and it keeps the sample period.
theorem Serves.period (h : Serves hdr calls events s client) {msg : SensorConfigMsg}
    (hmsg : last_record (handle_type hdr i) (s.sent client) = some msg) :
    msg.sample_period = (configured_by hdr calls i).sample_period := by
  have hupToDate := h.upToDate i
  rw [hupToDate.record, SensorConfigMsg.record] at hmsg
  split at hmsg
  · obtain rfl := Option.some.inj hmsg
    have hsplit : configured_by hdr calls = (calls.drop (s.sent_after i)).foldl
        (ConfigCall.store hdr) (configured_by hdr (calls.take (s.sent_after i))) := by
      rw [← configured_by_append, List.take_append_drop]
    rw [hsplit, configured_period hdr _ hupToDate.behind]
  · cases hmsg

end Serves

section Connect

theorem call_server (hdr : SensorsHeader) (s : ConfigServer) (call : ConfigCall) :
    (s.call hdr call).server = s.server ∧ (s.call hdr call).pc = s.pc := by
  rcases call_cases hdr s call with ⟨_, hsame⟩ | ⟨handle, stored, _, hstored, hcall⟩
  · rw [hsame]
    exact ⟨rfl, rfl⟩
  · rw [hcall, hstored]
    split
    · exact ⟨send_server _ handle, send_pc _ handle⟩
    · exact ⟨rfl, rfl⟩

theorem call_sent_after (hdr : SensorsHeader) (s : ConfigServer) {call : ConfigCall} {i : Handle}
    (h : call.handle = i.val → call.sends = false) :
    (s.call hdr call).sent_after i = s.sent_after i := by
  rcases call_cases hdr s call with ⟨_, hsame⟩ | ⟨handle, stored, hhandle, hstored, hcall⟩
  · rw [hsame]
  · rw [hcall, hstored]
    split
    · rename_i hsends
      refine send_sent_after _ handle ?_
      rintro rfl
      rw [h hhandle] at hsends
      cases hsends
    · rfl

-- Calls, wherever the listener stands.
theorem calls_run (hdr : SensorsHeader) (calls : List ConfigCall) {s : ConfigServer}
    (hoverrun : s.server.history.overrun = false) :
    ∃ t, Machine.run (step hdr) s (calls.map .call) = some t ∧ t.server = s.server ∧
      t.pc = s.pc ∧ ∀ i, (∀ call ∈ calls, call.handle = (i : Handle).val → call.sends = false) →
        t.sent_after i = s.sent_after i := by
  induction calls generalizing s with
  | nil => exact ⟨s, rfl, rfl, rfl, fun _ _ => rfl⟩
  | cons call calls ih =>
      obtain ⟨hserver, hpc⟩ := call_server hdr s call
      have hstep : step hdr s (.call call) = some (s.call hdr call) := by
        unfold step
        rw [if_neg (Bool.eq_false_iff.mp hoverrun)]
      obtain ⟨t, hrun, hserver', hpc', hsent⟩ := ih (hserver.symm ▸ hoverrun)
      refine ⟨t, ?_, hserver'.trans hserver, hpc'.trans hpc, fun i hi => ?_⟩
      · rw [List.map_cons]
        exact Machine.run_cons_some.mpr ⟨_, hstep, hrun⟩
      · obtain ⟨hfirst, hrest⟩ := List.forall_mem_cons.mp hi
        exact (hsent i hrest).trans (call_sent_after hdr s hfirst)

-- The replay, from the entries that are left, without calls in between.
theorem replay_run (hdr : SensorsHeader) {rest : List Handle} {s : ConfigServer}
    (hoverrun : s.server.history.overrun = false) (hdefault : s.server.m_pclient_ ≠ none)
    (hpc : s.pc = .client_connected_callback rest) :
    ∃ t, Machine.run (step hdr) s (List.replicate (rest.length + 1) .client_connected_callback) =
        some t ∧ t.server = s.server ∧ t.pc = .check_new_message ∧ t.calls = s.calls ∧
      ∀ i, t.sent_after i = if i ∈ rest then s.calls.length else s.sent_after i := by
  induction rest generalizing s with
  | nil =>
      refine ⟨{ s with pc := .check_new_message }, ?_, rfl, rfl, rfl, fun i => rfl⟩
      rw [List.length_nil, List.replicate_one, Machine.run_singleton]
      unfold step
      rw [if_neg (Bool.eq_false_iff.mp hoverrun)]
      simp only [hpc]
  | cons first rest ih =>
      obtain ⟨client, hclient⟩ := Option.ne_none_iff_exists'.mp hdefault
      let m : ConfigServer := { s.sensor_device_send_config_msg first with
        pc := .client_connected_callback rest }
      have hstep : step hdr s .client_connected_callback = some m := by
        unfold step
        rw [if_neg (Bool.eq_false_iff.mp hoverrun)]
        simp only [hpc]
        rfl
      have hserver : m.server = s.server := send_server s first
      have hcalls : m.calls = s.calls := send_calls s first
      have hsent : m.sent_after = Function.update s.sent_after first s.calls.length := by
        show (s.sensor_device_send_config_msg first).sent_after = _
        rw [send_default first hclient]
      obtain ⟨t, hrun, hserver', hpc', hcalls', hsent'⟩ :=
        ih (hserver.symm ▸ hoverrun) (hserver.symm ▸ hdefault) rfl
      refine ⟨t, ?_, hserver'.trans hserver, hpc', hcalls'.trans hcalls, fun i => ?_⟩
      · rw [List.length_cons, List.replicate_succ]
        exact Machine.run_cons_some.mpr ⟨m, hstep, hrun⟩
      · rw [hsent' i, hcalls, hsent]
        by_cases hi : i = first
        · subst i
          rw [Function.update_self, if_pos List.mem_cons_self, ite_self]
        · rw [Function.update_of_ne hi]
          simp only [List.mem_cons, hi, false_or]

theorem config_calls_append (events later : List ListenerEvent) :
    config_calls (events ++ later) = config_calls events ++ config_calls later :=
  List.filterMap_append

theorem config_calls_map (calls : List ConfigCall) :
    config_calls (calls.map .call) = calls := by
  induction calls with
  | nil => rfl
  | cons call calls ih => exact congrArg (call :: ·) ih

-- The client connects between the calls.
def connects_between (before later : List ConfigCall) : List ListenerEvent :=
  before.map .call ++ (.check_new_connection ⟨true, 7, 0, 1⟩ ::
    (List.replicate 10 .client_connected_callback ++ later.map .call))

-- What the server makes of the client at its first connection.
theorem first_connection : ∃ server,
    SockServer.init.check_new_connection ⟨true, 7, 0, 1⟩ = (some 1, server) ∧
      server.history.overrun = false ∧ server.m_pclient_ = some 1 := by
  have hfirst : (SockServer.init.check_new_connection ⟨true, 7, 0, 1⟩).1 = some 1 ∧
      (SockServer.init.check_new_connection ⟨true, 7, 0, 1⟩).2.history.overrun = false ∧
      (SockServer.init.check_new_connection ⟨true, 7, 0, 1⟩).2.m_pclient_ = some 1 := by
    decide +kernel
  cases haccept : SockServer.init.check_new_connection ⟨true, 7, 0, 1⟩ with
  | mk client server =>
      rw [haccept] at hfirst
      obtain ⟨rfl, hoverrun, hdefault⟩ := hfirst
      exact ⟨server, rfl, hoverrun, hdefault⟩

theorem singleClient_quiet {events : List ListenerEvent} (s : ConfigServer)
    (h : ∀ event ∈ events, ∀ attempt, event ≠ .check_new_connection attempt) :
    Machine.Along (step hdr) SingleClient s events :=
  Machine.along_of_forall_mem
    (fun event hevent _ attempt hattempt => absurd hattempt (h event hevent attempt)) s

theorem serves_between (hdr : SensorsHeader) (before later : List ConfigCall) :
    ∃ s, Serves hdr (before ++ later) (connects_between before later) s 1 ∧
      ∀ i, (∀ call ∈ later, call.handle = (i : Handle).val → call.sends = false) →
        s.sent_after i = before.length := by
  obtain ⟨first, hfirst, hserver, hpc, _⟩ := calls_run hdr before (s := init) rfl
  have hcalls : first.calls = before := by
    rw [calls_of_run hfirst, config_calls_map]
    rfl
  obtain ⟨server, haccept, hoverrun, hdefault⟩ := first_connection
  let m : ConfigServer := { first with
    server := server
    pc := .client_connected_callback (List.finRange 9)
    sent := Function.update first.sent 1 [] }
  have hconnect : step hdr first (.check_new_connection ⟨true, 7, 0, 1⟩) = some m := by
    have hpc' : first.pc = .check_new_connection := hpc
    have hserver' : first.server = SockServer.init := hserver
    have hpossible : SockServer.init.possible ⟨true, 7, 0, 1⟩ = true := by decide
    unfold step
    rw [hserver', if_neg (by decide)]
    simp only [hpc', hpossible, if_true, haccept]
    rfl
  have hfound : m.server.m_pclient_ ≠ none := by
    show server.m_pclient_ ≠ none
    rw [hdefault]
    exact Option.some_ne_none 1
  obtain ⟨mid, hmid, hmserver, hmpc, hmcalls, hmsent⟩ :=
    replay_run hdr (s := m) hoverrun hfound rfl
  obtain ⟨t, hlater, htserver, htpc, htsent⟩ :=
    calls_run hdr later (s := mid) (by rw [hmserver]; exact hoverrun)
  have hafter : Machine.run (step hdr) first (.check_new_connection ⟨true, 7, 0, 1⟩ ::
      (List.replicate 10 .client_connected_callback ++ later.map .call)) = some t :=
    Machine.run_cons_some.mpr ⟨m, hconnect, Machine.run_append_some.mpr ⟨mid, hmid, hlater⟩⟩
  have hrun : Machine.run (step hdr) init (connects_between before later) = some t :=
    Machine.run_append_some.mpr ⟨first, hfirst, hafter⟩
  refine ⟨t, ⟨?_, hrun, ?_, ?_, ?_⟩, fun i hi => ?_⟩
  · refine Machine.along_append hfirst (singleClient_quiet _ ?_) ⟨?_, fun _ _ => ?_⟩
    · rintro event hevent attempt rfl
      simp at hevent
    · intro attempt _ _
      rw [hserver]
      exact fun _ => rfl
    · refine singleClient_quiet _ ?_
      rintro event hevent attempt rfl
      simp at hevent
  · rw [htserver, hmserver]
    exact hdefault
  · rw [htpc, hmpc]
    rfl
  · have hreplay : config_calls (List.replicate 10 .client_connected_callback) = [] := rfl
    have hskip : ∀ attempt rest, config_calls (.check_new_connection attempt :: rest) =
      config_calls rest := fun _ _ => rfl
    rw [connects_between, config_calls_append, config_calls_map, hskip, config_calls_append,
      hreplay, config_calls_map, List.nil_append]
  · rw [htsent i hi, hmsent i, if_pos (List.mem_finRange i)]
    exact congrArg List.length hcalls

end Connect

-- Wherever the client connects, the table is what the calls make of it. For a sensor that
-- has been configured only activations have not been sent since its entry was last sent,
-- and the client has the entry exactly if they have left it as it was. So the record does
-- not depend on where the client connects exactly if no activation behind the last call
-- that is sent changes the entry.
theorem late_client (hdr : SensorsHeader) (calls : List ConfigCall) (i : Handle)
    (hconfigured : ∃ call ∈ calls, call.handle = i.val) :
    (∀ events s client, Serves hdr calls events s client →
      s.m_sensor_config_status = configured_by hdr calls ∧
      (∀ call ∈ calls.drop (s.sent_after i), call.handle = i.val → call.sends = false) ∧
      (last_record (handle_type hdr i) (s.sent client) = some (s.m_sensor_config_status i) ↔
        configured_by hdr (calls.take (s.sent_after i)) i = configured_by hdr calls i) ∧
      ∀ msg, last_record (handle_type hdr i) (s.sent client) = some msg →
        msg.sensor_type = (s.m_sensor_config_status i).sensor_type ∧
        msg.sample_period = (s.m_sensor_config_status i).sample_period) ∧
    ((∀ events s client events' s' client', Serves hdr calls events s client →
        Serves hdr calls events' s' client' →
        last_record (handle_type hdr i) (s.sent client) =
          last_record (handle_type hdr i) (s'.sent client')) ↔
      Settled hdr calls i) := by
  have htype : (configured_by hdr calls i).sensor_type = handle_type hdr i :=
    configured_type hdr _ (.inl hconfigured)
  refine ⟨fun events s client h => ?_, fun hsame k hk => ?_, fun hsettled => ?_⟩
  · rw [h.status]
    refine ⟨rfl, (h.upToDate i).behind, h.record_iff htype, fun msg hmsg => ⟨?_, h.period hmsg⟩⟩
    rw [htype]
    exact last_record_type hmsg
  · -- one client connects behind the first k calls, and one behind all of them
    obtain ⟨s, hserves, hsent⟩ := serves_between hdr (calls.take k) (calls.drop k)
    obtain ⟨s', hserves', hsent'⟩ := serves_between hdr calls []
    rw [List.take_append_drop] at hserves
    rw [List.append_nil] at hserves'
    have hnone : s'.sent_after i = calls.length := hsent' i fun _ hcall => by cases hcall
    have hlast := (hserves'.record_iff htype).mpr (by rw [hnone, List.take_length])
    rw [← hsame _ _ _ _ _ _ hserves hserves', hserves.record_iff htype, hsent i hk] at hlast
    rw [← hlast, List.length_take, ← List.take_take, List.take_length]
  · intro events s client events' s' client' h h'
    rw [(h.record_iff htype).mpr (hsettled _ (h.upToDate i).behind),
      (h'.record_iff htype).mpr (hsettled _ (h'.upToDate i).behind)]

-- A client that connects before the calls and one that connects between them. The second
-- activation changes nothing.
theorem late_client_first :
    let calls : List ConfigCall :=
      [.batch 6 50000000, .activate 6 0, .batch 6 20000000, .activate 6 1]
    ∃ s s', Serves android_header calls (connects_between [] calls) s 1 ∧
      Serves android_header calls (connects_between (calls.take 2) (calls.drop 2)) s' 1 ∧
      last_record (handle_type android_header 6) (s.sent 1) = some ⟨5, 1, 20⟩ ∧
      (last_record (handle_type android_header 6) (s.sent 1) =
          some (s.m_sensor_config_status 6) ↔
        configured_by android_header (calls.take (s.sent_after 6)) 6 =
          configured_by android_header calls 6) ∧
      last_record (handle_type android_header 6) (s.sent 1) =
        last_record (handle_type android_header 6) (s'.sent 1) := by
  intro calls
  have hcall : ∃ call ∈ calls, call.handle = ((6 : Handle).val : Int) :=
    ⟨.activate 6 0, by simp [calls], rfl⟩
  obtain ⟨s, hs, _⟩ := serves_between android_header [] calls
  obtain ⟨s', hs', _⟩ := serves_between android_header (calls.take 2) (calls.drop 2)
  have hlast : last_record (handle_type android_header 6) (s.sent 1) = some ⟨5, 1, 20⟩ := by
    obtain ⟨other, hother, hrecord⟩ : ∃ other,
        Machine.run (step android_header) init (connects_between [] calls) = some other ∧
          last_record (handle_type android_header 6) (other.sent 1) = some ⟨5, 1, 20⟩ :=
      Option.map_eq_some_iff.mp (by decide +kernel)
    obtain rfl := Option.some.inj (hother.symm.trans hs.run)
    exact hrecord
  have hsettled : Settled android_header calls 6 := by
    intro k hk
    match k with
    | 0 | 1 | 2 =>
        have hsends := hk (.batch 6 20000000) (by simp [calls]) rfl
        cases hsends
    | 3 => decide +kernel
    | k + 4 =>
        have hall : calls.take (k + 4) = calls := List.take_of_length_le (by simp [calls])
        rw [hall]
  obtain ⟨hown, hboth⟩ := late_client android_header calls 6 hcall
  exact ⟨s, s', hs, hs', hlast, (hown _ s 1 hs).2.2.1, hboth.mpr hsettled _ s 1 _ s' 1 hs hs'⟩

-- The client does not hear that the sensor is active again, and a client that
-- connects later does.
theorem activation_not_sent :
    ∃ s, Machine.run (step android_header) init
        (.check_new_connection ⟨true, 7, 0, 1⟩ :: List.replicate 10 .client_connected_callback ++
          [.call (.batch 6 50000000), .call (.activate 6 0), .call (.activate 6 1)]) = some s ∧
      s.server.m_pclient_ = some 1 ∧ s.pc.unsent = [] ∧
      last_record (handle_type android_header 6) (s.sent 1) ≠
        some (s.m_sensor_config_status 6) := by
  obtain ⟨s, hrun, hresult⟩ : ∃ s, Machine.run (step android_header) init
      (.check_new_connection ⟨true, 7, 0, 1⟩ :: List.replicate 10 .client_connected_callback ++
        [.call (.batch 6 50000000), .call (.activate 6 0), .call (.activate 6 1)]) = some s ∧
      (s.server.m_pclient_, s.pc.unsent, last_record (handle_type android_header 6) (s.sent 1),
        s.m_sensor_config_status 6) = (some 1, [], some ⟨5, 0, 50⟩, ⟨5, 1, 50⟩) :=
    Option.map_eq_some_iff.mp (by decide +kernel)
  simp only [Prod.mk.injEq] at hresult
  obtain ⟨hclient, hunsent, hlast, hentry⟩ := hresult
  refine ⟨s, hrun, hclient, hunsent, ?_⟩
  rw [hlast, hentry]
  decide

end ConfigServer

end SensorVhal
