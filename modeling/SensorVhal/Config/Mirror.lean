import SensorVhal.Config.Channel
import SensorVhal.Config.LateClient
import SensorVhal.Lib.Records

namespace SensorVhal

-- A sensor_config_msg_t as a client reads it from its 12 bytes.
def SensorConfigMsg.of_bytes (bytes : List UInt8) : SensorConfigMsg :=
  ⟨(Bytes.toWord bytes).toInt, (Bytes.toWord (bytes.drop 4)).toInt,
    (Bytes.toWord (bytes.drop 8)).toInt⟩

-- Its fields as int32_t.
def SensorConfigMsg.int32 (msg : SensorConfigMsg) : SensorConfigMsg :=
  ⟨(BitVec.ofInt 32 msg.sensor_type).toInt, (BitVec.ofInt 32 msg.enabled).toInt,
    (BitVec.ofInt 32 msg.sample_period).toInt⟩

def read_records (bytes : List UInt8) : List SensorConfigMsg :=
  Records.read 12 SensorConfigMsg.of_bytes bytes

-- What a client that keeps the last record of each type has for a handle.
def mirror (hdr : SensorsHeader) (records : List SensorConfigMsg) (handle : Handle) :
    Option SensorConfigMsg :=
  Records.last SensorConfigMsg.sensor_type (handle_type hdr handle) records

theorem SensorConfigMsg.of_bytes_bytes (msg : SensorConfigMsg) :
    SensorConfigMsg.of_bytes msg.bytes = msg.int32 := by
  have hfirst := Bytes.toWord_ofWord_append (.ofInt 32 msg.sensor_type)
    (Bytes.ofWord (.ofInt 32 msg.enabled) ++ Bytes.ofWord (.ofInt 32 msg.sample_period))
  have hsecond := Bytes.toWord_ofWord_append (.ofInt 32 msg.enabled)
    (Bytes.ofWord (.ofInt 32 msg.sample_period))
  have hthird := Bytes.toWord_ofWord_append (.ofInt 32 msg.sample_period) []
  rw [List.append_nil] at hthird
  rw [SensorConfigMsg.of_bytes, SensorConfigMsg.int32, SensorConfigMsg.bytes, List.append_assoc,
    hfirst]
  congr 1
  · exact congrArg BitVec.toInt hsecond
  · exact congrArg BitVec.toInt hthird

def ConfigEvent.thread : ConfigEvent → ThreadId
  | call thread _ | client_connected_callback thread | replay thread | send thread _ => thread

namespace ConfigChannel

variable {hdr : SensorsHeader} {s t : ConfigChannel} {event : ConfigEvent}

-- The records that a client has read, whatever part of another one has come.
theorem read_records_framed (hsound : s.Sound) (hframed : s.Framed) :
    read_records s.accepted = s.completed.map SensorConfigMsg.int32 := by
  have htail : s.in_progress.length < 12 := by
    cases hmutex : s.m_mutex with
    | none =>
        rw [in_progress_of_free hmutex]
        decide
    | some thread =>
        obtain ⟨handle, transfer, replaying, hsend⟩ := hsound.holder thread hmutex
        obtain ⟨_, hopen⟩ := hsound.sender thread handle transfer replaying hsend
        rw [in_progress_of_send hmutex hsend, List.length_take, SensorConfigMsg.length_bytes]
        have hleft := hopen.left
        have hsum := hopen.sum
        omega
  rw [hframed]
  exact Records.read_flatMap (by decide) SensorConfigMsg.length_bytes
    SensorConfigMsg.of_bytes_bytes s.completed htail

-- The handles whose entries a thread still has to send, the one being sent first.
def unsent (s : ConfigChannel) (thread : ThreadId) : List Handle :=
  match s.threads thread with
  | .idle => []
  | .replay rest => rest
  | .send handle _ none => [handle]
  | .send handle _ (some rest) => handle :: rest

def Unsent (s : ConfigChannel) (i : Handle) : Prop := ∃ thread, i ∈ s.unsent thread

theorem unsent_idle {thread : ThreadId} (h : s.threads thread = .idle) :
    s.unsent thread = [] := by
  simp only [unsent, h]

theorem unsent_replay {thread : ThreadId} {rest : List Handle}
    (h : s.threads thread = .replay rest) : s.unsent thread = rest := by
  simp only [unsent, h]

theorem unsent_send {thread : ThreadId} {handle : Handle} {transfer : Transfer}
    {replaying : Option (List Handle)} (h : s.threads thread = .send handle transfer replaying) :
    s.unsent thread = handle :: replaying.getD [] := by
  cases replaying <;> simp only [unsent, h] <;> rfl

theorem unsent_update {thread : ThreadId} {activity : Activity}
    (h : t.threads = Function.update s.threads thread activity) {rest : List Handle}
    (hrest : ∀ u : ConfigChannel, u.threads thread = activity → u.unsent thread = rest) :
    t.unsent = Function.update s.unsent thread rest := by
  funext other
  by_cases hother : other = thread
  · subst other
    rw [Function.update_self]
    apply hrest
    rw [h, Function.update_self]
  · rw [Function.update_of_ne hother, unsent, unsent, h, Function.update_of_ne hother]

-- What a step does to the table, to the records that were sent, and to what is
-- left to send, while no send loop gives up.
inductive Effect (hdr : SensorsHeader) (s t : ConfigChannel) : ConfigEvent → Prop
  | quiet {event : ConfigEvent} (hquiet : ∀ thread, event ≠ .client_connected_callback thread)
      (hcalls : ∀ thread call, event ≠ .call thread call)
      (hstatus : t.m_sensor_config_status = s.m_sensor_config_status)
      (hcompleted : t.completed = s.completed) (hunsent : t.unsent = s.unsent) :
      Effect hdr s t event
  | rejected (thread : ThreadId) (call : ConfigCall)
      (hunknown : ∀ handle : Handle, call.handle ≠ handle.val)
      (hstatus : t.m_sensor_config_status = s.m_sensor_config_status)
      (hcompleted : t.completed = s.completed) (hunsent : t.unsent = s.unsent) :
      Effect hdr s t (.call thread call)
  | stored (thread : ThreadId) (call : ConfigCall) (handle : Handle)
      (hhandle : call.handle = handle.val)
      (hstatus : t.m_sensor_config_status = Function.update s.m_sensor_config_status handle
        (call.entry (handle_type hdr handle) (s.m_sensor_config_status handle)))
      (hcompleted : t.completed = s.completed) (hidle : s.unsent thread = [])
      (hunsent : t.unsent = Function.update s.unsent thread (if call.sends then [handle] else [])) :
      Effect hdr s t (.call thread call)
  | callback (thread : ThreadId)
      (hstatus : t.m_sensor_config_status = s.m_sensor_config_status)
      (hcompleted : t.completed = s.completed) (hidle : s.unsent thread = [])
      (hunsent : t.unsent = Function.update s.unsent thread (List.finRange 9)) :
      Effect hdr s t (.client_connected_callback thread)
  | sent (thread : ThreadId) (io : IoResult) (handle : Handle) (rest : List Handle)
      (hstatus : t.m_sensor_config_status = s.m_sensor_config_status)
      (hcompleted : t.completed = s.completed ++ [s.m_sensor_config_status handle])
      (hsends : s.unsent thread = handle :: rest)
      (hunsent : t.unsent = Function.update s.unsent thread rest) : Effect hdr s t (.send thread io)

theorem effect_call {thread : ThreadId} {call : ConfigCall}
    (hstep : s.step hdr (.call thread call) = some t) : Effect hdr s t (.call thread call) := by
  simp only [step] at hstep
  split at hstep
  · rename_i hidle
    have hempty := unsent_idle hidle
    rcases call.configure_cases hdr s.m_sensor_config_status with
      ⟨hunknown, hconfigure⟩ | ⟨handle, hhandle, hconfigure⟩
    · rw [hconfigure] at hstep
      obtain rfl := Option.some.inj hstep
      exact .rejected thread call hunknown rfl rfl rfl
    · rw [hconfigure] at hstep
      dsimp only at hstep
      split at hstep
      · split at hstep
        · rename_i hsends
          obtain rfl := Option.some.inj hstep
          refine .stored thread call handle hhandle rfl rfl hempty ?_
          rw [if_pos hsends]
          exact unsent_update rfl fun u hu => unsent_send hu
        · rename_i hsends
          obtain rfl := Option.some.inj hstep
          refine .stored thread call handle hhandle rfl rfl hempty ?_
          rw [if_neg hsends, ← hempty, Function.update_eq_self]
          rfl
      · cases hstep
  · cases hstep

theorem effect_callback {thread : ThreadId}
    (hstep : s.step hdr (.client_connected_callback thread) = some t) :
    Effect hdr s t (.client_connected_callback thread) := by
  simp only [step] at hstep
  split at hstep
  · rename_i hidle
    obtain rfl := Option.some.inj hstep
    exact .callback thread rfl rfl (unsent_idle hidle)
      (unsent_update rfl fun u hu => unsent_replay hu)
  · cases hstep

-- The replay comes to its next entry, which it now sends.
theorem effect_replay {thread : ThreadId} (hstep : s.step hdr (.replay thread) = some t) :
    Effect hdr s t (.replay thread) := by
  have hkept : t.m_sensor_config_status = s.m_sensor_config_status ∧ t.completed = s.completed ∧
      t.unsent = s.unsent := by
    simp only [step] at hstep
    split at hstep
    · rename_i hreplay
      obtain rfl := Option.some.inj hstep
      refine ⟨rfl, rfl, ?_⟩
      rw [unsent_update rfl fun u hu => unsent_idle hu, ← unsent_replay hreplay,
        Function.update_eq_self]
    · rename_i i rest hreplay
      split at hstep
      · obtain rfl := Option.some.inj hstep
        refine ⟨rfl, rfl, ?_⟩
        rw [unsent_update rfl fun u hu => unsent_send hu, Option.getD_some,
          ← unsent_replay hreplay, Function.update_eq_self]
      · cases hstep
    · cases hstep
  exact .quiet (by rintro _ ⟨⟩) (by rintro _ _ ⟨⟩) hkept.1 hkept.2.1 hkept.2.2

-- A turn of a send loop that does not give up.
theorem Sound.effect_send {thread : ThreadId} {io : IoResult} (h : s.Sound)
    (hkeeps : Persists s (.send thread io)) (hstep : s.step hdr (.send thread io) = some t) :
    Effect hdr s t (.send thread io) := by
  obtain ⟨handle, transfer, replaying, hsend, hpossible⟩ := send_enabled hstep
  have hsends := unsent_send hsend
  have hgoes_on : ∀ (transfer' : Transfer) (u : ConfigChannel),
      u.threads = Function.update s.threads thread (.send handle transfer' replaying) →
      u.unsent = s.unsent := by
    intro transfer' u hu
    rw [unsent_update hu fun u hu => unsent_send hu, ← hsends, Function.update_eq_self]
  simp only [ConfigChannel.step, hsend, if_pos hpossible] at hstep
  rcases SockServer.send_turn_cases (h.sender _ _ _ _ hsend).2 hpossible with
    ⟨ret, rfl, _, hturn⟩ | ⟨rfl, hturn⟩ | ⟨ret, errno, rfl, _, hturn⟩ |
    ⟨_, _, _, _, hgives, _, _⟩
  · rw [hturn] at hstep
    obtain rfl := Option.some.inj hstep
    exact .quiet (by rintro _ ⟨⟩) (by rintro _ _ ⟨⟩) rfl rfl (hgoes_on _ _ rfl)
  · rw [hturn] at hstep
    obtain rfl := Option.some.inj hstep
    have hdone : (transfer.move transfer.left_size).left_size = 0 := Nat.sub_self _
    refine .sent thread _ handle (replaying.getD []) rfl (if_pos hdone) hsends ?_
    cases replaying with
    | none => exact unsent_update rfl fun u hu => unsent_idle hu
    | some rest => exact unsent_update rfl fun u hu => unsent_replay hu
  · rw [hturn] at hstep
    obtain rfl := Option.some.inj hstep
    exact .quiet (by rintro _ ⟨⟩) (by rintro _ _ ⟨⟩) rfl rfl (hgoes_on _ _ rfl)
  · exact absurd hgives (hkeeps thread io handle transfer replaying rfl hsend)

theorem Sound.effect (h : s.Sound) (hkeeps : Persists s event)
    (hstep : s.step hdr event = some t) : Effect hdr s t event := by
  cases event with
  | call thread call => exact effect_call hstep
  | client_connected_callback thread => exact effect_callback hstep
  | replay thread => exact effect_replay hstep
  | send thread io => exact h.effect_send hkeeps hstep

theorem unsent_iff_of_idle {thread : ThreadId} {rest : List Handle} (hidle : s.unsent thread = [])
    (h : t.unsent = Function.update s.unsent thread rest) (i : Handle) :
    t.Unsent i ↔ s.Unsent i ∨ i ∈ rest := by
  constructor
  · rintro ⟨other, hi⟩
    rw [h] at hi
    by_cases hother : other = thread
    · subst other
      rw [Function.update_self] at hi
      exact .inr hi
    · rw [Function.update_of_ne hother] at hi
      exact .inl ⟨other, hi⟩
  · rintro (⟨other, hi⟩ | hi)
    · refine ⟨other, ?_⟩
      have hother : other ≠ thread := by
        rintro rfl
        rw [hidle] at hi
        cases hi
      rw [h, Function.update_of_ne hother]
      exact hi
    · refine ⟨thread, ?_⟩
      rw [h, Function.update_self]
      exact hi

theorem unsent_iff_of_sent {thread : ThreadId} {handle i : Handle} {rest : List Handle}
    (hsends : s.unsent thread = handle :: rest)
    (h : t.unsent = Function.update s.unsent thread rest) (hi : i ≠ handle) :
    t.Unsent i ↔ s.Unsent i := by
  have hsame : ∀ other, i ∈ t.unsent other ↔ i ∈ s.unsent other := by
    intro other
    rw [h]
    by_cases hother : other = thread
    · subst other
      rw [Function.update_self, hsends, List.mem_cons, or_iff_right hi]
    · rw [Function.update_of_ne hother]
  exact exists_congr hsame

-- The calls of a run, in the order in which they took m_mutex.
def calls_made (events : List ConfigEvent) : List ConfigCall :=
  events.filterMap fun
    | .call _ call => some call
    | _ => none

def last_call (i : Handle) (events : List ConfigEvent) : Option ConfigCall :=
  Records.last ConfigCall.handle (i.val : Int) (calls_made events)

-- The client is due a record of a handle: a call sends it, or the handle was
-- configured before the client came and is replayed.
def Due (before : List ConfigCall) (events : List ConfigEvent) (i : Handle) : Prop :=
  (∃ call ∈ calls_made events, call.handle = i.val ∧ call.sends = true) ∨
    (∃ call ∈ before, call.handle = i.val) ∧
      ∃ thread, .client_connected_callback thread ∈ events

theorem calls_made_append (events more : List ConfigEvent) :
    calls_made (events ++ more) = calls_made events ++ calls_made more := List.filterMap_append

section Calls

variable {before : List ConfigCall} {past : List ConfigEvent} {i : Handle}

theorem last_call_other (hcall : ∀ thread call, event = .call thread call → call.handle ≠ i.val) :
    last_call i (past ++ [event]) = last_call i past := by
  rw [last_call, last_call, calls_made_append]
  cases event with
  | call thread call =>
      refine (Records.last_snoc (i.val : Int) (calls_made past) call).trans ?_
      exact if_neg (hcall thread call rfl)
  | _ => rw [show calls_made [_] = [] from rfl, List.append_nil]

theorem last_call_self {thread : ThreadId} {call : ConfigCall} (hcall : call.handle = i.val) :
    last_call i (past ++ [.call thread call]) = some call := by
  rw [last_call, calls_made_append]
  exact (Records.last_snoc (i.val : Int) (calls_made past) call).trans (if_pos hcall)

theorem Due.snoc (h : Due before (past ++ [event]) i) :
    Due before past i ∨
      (∃ thread call, event = .call thread call ∧ call.handle = i.val ∧ call.sends = true) ∨
      ∃ thread, event = .client_connected_callback thread := by
  rcases h with ⟨call, hmem, hhandle, hsends⟩ | ⟨hbefore, thread, hmem⟩
  · rw [calls_made_append, List.mem_append] at hmem
    rcases hmem with hpast | hlast
    · exact .inl (.inl ⟨call, hpast, hhandle, hsends⟩)
    · obtain ⟨other, hother, hcall⟩ := List.mem_filterMap.mp hlast
      rw [List.mem_singleton.mp hother] at hcall
      cases event with
      | call thread made =>
          obtain rfl := Option.some.inj hcall
          exact .inr (.inl ⟨thread, made, rfl, hhandle, hsends⟩)
      | _ => cases hcall
  · rcases List.mem_append.mp hmem with hpast | hlast
    · exact .inl (.inr ⟨hbefore, thread, hpast⟩)
    · exact .inr (.inr ⟨thread, (List.mem_singleton.mp hlast).symm⟩)

theorem Due.configured (h : Due before past i) :
    (configured_by hdr (before ++ calls_made past) i).sensor_type = handle_type hdr i := by
  refine configured_type hdr _ (.inl ?_)
  rcases h with ⟨call, hmem, hhandle, _⟩ | ⟨⟨call, hmem, hhandle⟩, _⟩
  · exact ⟨call, List.mem_append_right _ hmem, hhandle⟩
  · exact ⟨call, List.mem_append_left _ hmem, hhandle⟩

end Calls

-- The record of a handle that was sent last.
def last_sent (hdr : SensorsHeader) (s : ConfigChannel) (i : Handle) : Option SensorConfigMsg :=
  Records.last SensorConfigMsg.sensor_type (handle_type hdr i) s.completed

-- What has been sent, against the calls. A handle whose entry is to be sent
-- again is left out.
structure Mirrors (hdr : SensorsHeader) (before : List ConfigCall) (past : List ConfigEvent)
    (s : ConfigChannel) : Prop where
  table : s.m_sensor_config_status = configured_by hdr (before ++ calls_made past)
  types : ∀ msg ∈ s.completed, (∃ i, msg.sensor_type = handle_type hdr i) ∨ msg.sensor_type = 0
  configured : ∀ i msg, s.last_sent hdr i = some msg →
    (s.m_sensor_config_status i).sensor_type = handle_type hdr i
  period : ∀ i msg, s.last_sent hdr i = some msg → ¬ s.Unsent i →
    msg.sample_period = (s.m_sensor_config_status i).sample_period
  current : ∀ i msg, s.last_sent hdr i = some msg → ¬ s.Unsent i →
    (∀ call ∈ last_call i past, call.sends = true) → msg = s.m_sensor_config_status i
  due : ∀ i, Due before past i → (s.last_sent hdr i).isSome ∨ s.Unsent i

-- Calls for other handles leave an entry.
theorem foldl_store_other {i : Handle} {calls : List ConfigCall}
    (hcalls : ∀ call ∈ calls, call.handle ≠ i.val) (status : ConfigStatus) :
    calls.foldl (ConfigCall.store hdr) status i = status i := by
  induction calls generalizing status with
  | nil => rfl
  | cons call calls ih =>
      have hrest := ih (fun other hmem => hcalls other (List.mem_cons_of_mem _ hmem))
        (call.store hdr status)
      refine hrest.trans ?_
      rw [ConfigCall.store]
      rcases call.configure_cases hdr status with ⟨_, hconfigure⟩ | ⟨j, hj, hconfigure⟩
      · rw [hconfigure]
      · rw [hconfigure]
        refine Function.update_of_ne ?_ _ _
        rintro rfl
        exact hcalls call List.mem_cons_self hj

theorem configured_entry (hdr : SensorsHeader) (calls : List ConfigCall) (i : Handle) :
    (configured_by hdr calls i).sensor_type = handle_type hdr i ∨
      (configured_by hdr calls i).sensor_type = 0 := by
  by_cases hcalled : ∃ call ∈ calls, call.handle = i.val
  · exact .inl (configured_type hdr _ (.inl hcalled))
  · right
    have hcalls : ∀ call ∈ calls, call.handle ≠ i.val :=
      fun call hmem hhandle => hcalled ⟨call, hmem, hhandle⟩
    rw [configured_by, foldl_store_other hcalls]

-- The entry of a handle has the type of no other one.
theorem configured_unique {calls : List ConfigCall} {handle i : Handle}
    (h : (configured_by hdr calls handle).sensor_type = handle_type hdr i) : handle = i := by
  rcases configured_entry hdr calls handle with htype | hzero
  · exact handle_type_injective (htype.symm.trans h)
  · rw [hzero] at h
    exact absurd h (handle_type_pos i).ne

section Mirrors

variable {before : List ConfigCall} {past : List ConfigEvent}

theorem mirrors_connected (before : List ConfigCall) :
    Mirrors hdr before [] (connected (configured_by hdr before)) := by
  constructor
  · rw [calls_made, List.filterMap_nil, List.append_nil]
    rfl
  · intro msg hmsg
    cases hmsg
  · intro i msg hmsg
    cases hmsg
  · intro i msg hmsg
    cases hmsg
  · intro i msg hmsg
    cases hmsg
  · rintro i (⟨call, hmem, _⟩ | ⟨_, thread, hmem⟩)
    · cases hmem
    · cases hmem

theorem table_snoc (h : Mirrors hdr before past s) {event : ConfigEvent} :
    configured_by hdr (before ++ calls_made (past ++ [event])) =
      (calls_made [event]).foldl (ConfigCall.store hdr) s.m_sensor_config_status := by
  rw [h.table, calls_made_append, ← List.append_assoc, configured_by, List.foldl_append]
  rfl

-- Neither the table nor the records change, nor what is left to send.
theorem Mirrors.keep (h : Mirrors hdr before past s)
    (htable : (calls_made [event]).foldl (ConfigCall.store hdr) s.m_sensor_config_status =
      s.m_sensor_config_status)
    (hlast : ∀ i, last_call i (past ++ [event]) = last_call i past)
    (hdue : ∀ i, Due before (past ++ [event]) i → Due before past i)
    (hstatus : t.m_sensor_config_status = s.m_sensor_config_status)
    (hcompleted : t.completed = s.completed) (hunsent : t.unsent = s.unsent) :
    Mirrors hdr before (past ++ [event]) t := by
  have hsent : ∀ i, t.last_sent hdr i = s.last_sent hdr i := by
    intro i
    rw [last_sent, last_sent, hcompleted]
  have hsame : ∀ i, t.Unsent i ↔ s.Unsent i := by
    intro i
    rw [Unsent, Unsent, hunsent]
  constructor
  · rw [table_snoc h, htable, hstatus]
  · rw [hcompleted]
    exact h.types
  · intro i msg hmsg
    rw [hsent] at hmsg
    rw [hstatus]
    exact h.configured i msg hmsg
  · intro i msg hmsg hfree
    rw [hsent] at hmsg
    rw [hsame] at hfree
    rw [hstatus]
    exact h.period i msg hmsg hfree
  · intro i msg hmsg hfree hcalls
    rw [hsent] at hmsg
    rw [hsame] at hfree
    rw [hlast] at hcalls
    rw [hstatus]
    exact h.current i msg hmsg hfree hcalls
  · intro i hi
    rw [hsent, hsame]
    exact h.due i (hdue i hi)

theorem Mirrors.stored (h : Mirrors hdr before past s) {thread : ThreadId} {call : ConfigCall}
    {handle : Handle} (hhandle : call.handle = handle.val)
    (hstatus : t.m_sensor_config_status = Function.update s.m_sensor_config_status handle
      (call.entry (handle_type hdr handle) (s.m_sensor_config_status handle)))
    (hcompleted : t.completed = s.completed) (hidle : s.unsent thread = [])
    (hunsent : t.unsent = Function.update s.unsent thread (if call.sends then [handle] else [])) :
    Mirrors hdr before (past ++ [.call thread call]) t := by
  have hsent : ∀ i, t.last_sent hdr i = s.last_sent hdr i := by
    intro i
    rw [last_sent, last_sent, hcompleted]
  have hiff := unsent_iff_of_idle hidle hunsent
  have hleft : ∀ i, ¬ t.Unsent i → ¬ s.Unsent i :=
    fun i hfree hi => hfree ((hiff i).mpr (.inl hi))
  have hsends : call.sends = true → t.Unsent handle := by
    intro hsends
    rw [hiff, if_pos hsends]
    exact .inr (List.mem_singleton.mpr rfl)
  have hentry : (call.entry (handle_type hdr handle) (s.m_sensor_config_status handle)).sensor_type
      = handle_type hdr handle := by
    cases call <;> rfl
  have hother : ∀ i, i ≠ handle → last_call i (past ++ [.call thread call]) = last_call i past := by
    intro i hi
    refine last_call_other ?_
    rintro _ _ ⟨⟩ hcall
    exact hi (Fin.ext (Int.ofNat_inj.mp (hcall.symm.trans hhandle)))
  constructor
  · have hstore : call.store hdr s.m_sensor_config_status = t.m_sensor_config_status := by
      rw [hstatus, ConfigCall.store]
      rcases call.configure_cases hdr s.m_sensor_config_status with
        ⟨hunknown, _⟩ | ⟨other, hsame, hconfigure⟩
      · exact absurd hhandle (hunknown handle)
      · obtain rfl : other = handle := Fin.ext (Int.ofNat_inj.mp (hsame.symm.trans hhandle))
        rw [hconfigure]
    rw [table_snoc h, ← hstore]
    rfl
  · rw [hcompleted]
    exact h.types
  · intro i msg hmsg
    rw [hsent] at hmsg
    rw [hstatus]
    by_cases hi : i = handle
    · subst i
      rw [Function.update_self]
      exact hentry
    · rw [Function.update_of_ne hi]
      exact h.configured i msg hmsg
  · intro i msg hmsg hfree
    rw [hsent] at hmsg
    rw [hstatus]
    have hperiod := h.period i msg hmsg (hleft i hfree)
    by_cases hi : i = handle
    · subst i
      rw [Function.update_self]
      -- the calls that store another sample period send the entry
      cases call with
      | activate number enabled => exact hperiod
      | batch number ns => exact absurd (hsends rfl) hfree
      | set_delay number ns => exact absurd (hsends rfl) hfree
    · rw [Function.update_of_ne hi]
      exact hperiod
  · intro i msg hmsg hfree hcalls
    rw [hsent] at hmsg
    by_cases hi : i = handle
    · subst i
      rw [last_call_self hhandle] at hcalls
      exact absurd (hsends (hcalls call rfl)) hfree
    · rw [hother i hi] at hcalls
      rw [hstatus, Function.update_of_ne hi]
      exact h.current i msg hmsg (hleft i hfree) hcalls
  · intro i hdue
    rw [hsent]
    rcases hdue.snoc with hpast | ⟨_, _, ⟨⟩, hcall, hsend⟩ | ⟨_, ⟨⟩⟩
    · exact (h.due i hpast).imp id fun hi => (hiff i).mpr (.inl hi)
    · obtain rfl : i = handle := Fin.ext (Int.ofNat_inj.mp (hcall.symm.trans hhandle))
      exact .inr (hsends hsend)

-- The replay has every entry to send.
theorem Mirrors.callback (h : Mirrors hdr before past s) {thread : ThreadId}
    (hstatus : t.m_sensor_config_status = s.m_sensor_config_status)
    (hcompleted : t.completed = s.completed) (hidle : s.unsent thread = [])
    (hunsent : t.unsent = Function.update s.unsent thread (List.finRange 9)) :
    Mirrors hdr before (past ++ [.client_connected_callback thread]) t := by
  have hall : ∀ i, t.Unsent i :=
    fun i => (unsent_iff_of_idle hidle hunsent i).mpr (.inr (List.mem_finRange i))
  constructor
  · rw [table_snoc h, hstatus]
    rfl
  · rw [hcompleted]
    exact h.types
  · intro i msg hmsg
    rw [last_sent, hcompleted] at hmsg
    rw [hstatus]
    exact h.configured i msg hmsg
  · intro i _ _ hfree
    exact absurd (hall i) hfree
  · intro i _ _ hfree
    exact absurd (hall i) hfree
  · intro i _
    exact .inr (hall i)

-- The record of an entry has been sent whole.
theorem Mirrors.sent (h : Mirrors hdr before past s) {thread : ThreadId} {io : IoResult}
    {handle : Handle} {rest : List Handle}
    (hstatus : t.m_sensor_config_status = s.m_sensor_config_status)
    (hcompleted : t.completed = s.completed ++ [s.m_sensor_config_status handle])
    (hsends : s.unsent thread = handle :: rest)
    (hunsent : t.unsent = Function.update s.unsent thread rest) :
    Mirrors hdr before (past ++ [.send thread io]) t := by
  have hlast : ∀ i, last_call i (past ++ [.send thread io]) = last_call i past := by
    intro i
    exact last_call_other (by rintro _ _ ⟨⟩)
  have hsnoc : ∀ i, t.last_sent hdr i =
      if (s.m_sensor_config_status handle).sensor_type = handle_type hdr i then
        some (s.m_sensor_config_status handle) else s.last_sent hdr i := by
    intro i
    rw [last_sent, hcompleted, Records.last_snoc]
    rfl
  have hentry : (s.m_sensor_config_status handle).sensor_type = handle_type hdr handle ∨
      (s.m_sensor_config_status handle).sensor_type = 0 := by
    rw [h.table]
    exact configured_entry hdr _ handle
  have hother : ∀ i, i ≠ handle → t.last_sent hdr i = s.last_sent hdr i := by
    intro i hi
    rw [hsnoc, h.table]
    exact if_neg fun htype => hi (configured_unique htype).symm
  have hself : ∀ msg, t.last_sent hdr handle = some msg →
      (s.m_sensor_config_status handle).sensor_type = handle_type hdr handle ∧
        msg = s.m_sensor_config_status handle := by
    intro msg hmsg
    rw [hsnoc] at hmsg
    by_cases htype : (s.m_sensor_config_status handle).sensor_type = handle_type hdr handle
    · rw [if_pos htype] at hmsg
      exact ⟨htype, (Option.some.inj hmsg).symm⟩
    · rw [if_neg htype] at hmsg
      exact absurd (h.configured handle msg hmsg) htype
  constructor
  · rw [table_snoc h, hstatus]
    rfl
  · intro msg hmsg
    rw [hcompleted, List.mem_append, List.mem_singleton] at hmsg
    rcases hmsg with hold | rfl
    · exact h.types msg hold
    · exact hentry.imp (fun htype => ⟨handle, htype⟩) id
  · intro i msg hmsg
    rw [hstatus]
    by_cases hi : i = handle
    · subst i
      exact (hself msg hmsg).1
    · rw [hother i hi] at hmsg
      exact h.configured i msg hmsg
  · intro i msg hmsg hfree
    rw [hstatus]
    by_cases hi : i = handle
    · subst i
      rw [(hself msg hmsg).2]
    · rw [hother i hi] at hmsg
      rw [unsent_iff_of_sent hsends hunsent hi] at hfree
      exact h.period i msg hmsg hfree
  · intro i msg hmsg hfree hcalls
    rw [hstatus]
    by_cases hi : i = handle
    · subst i
      exact (hself msg hmsg).2
    · rw [hother i hi] at hmsg
      rw [unsent_iff_of_sent hsends hunsent hi] at hfree
      rw [hlast] at hcalls
      exact h.current i msg hmsg hfree hcalls
  · intro i hdue
    have hpast : Due before past i := by
      rcases hdue.snoc with hpast | ⟨_, _, ⟨⟩, _⟩ | ⟨_, ⟨⟩⟩
      exact hpast
    by_cases hi : i = handle
    · subst i
      have htype : (s.m_sensor_config_status handle).sensor_type = handle_type hdr handle := by
        rw [h.table]
        exact hpast.configured
      rw [hsnoc, if_pos htype]
      exact .inl rfl
    · rw [hother i hi, unsent_iff_of_sent hsends hunsent hi]
      exact h.due i hpast

theorem Mirrors.step (h : Mirrors hdr before past s) (heffect : Effect hdr s t event) :
    Mirrors hdr before (past ++ [event]) t := by
  cases heffect with
  | quiet hquiet hcalls hstatus hcompleted hunsent =>
      have hnone : calls_made [event] = [] := by
        cases event with
        | call thread call => exact absurd rfl (hcalls thread call)
        | _ => rfl
      refine h.keep ?_ ?_ ?_ hstatus hcompleted hunsent
      · rw [hnone]
        rfl
      · exact fun i => last_call_other fun thread call hcall => absurd hcall (hcalls thread call)
      · intro i hdue
        rcases hdue.snoc with hpast | ⟨thread, call, hcall, _⟩ | ⟨thread, hcallback⟩
        · exact hpast
        · exact absurd hcall (hcalls thread call)
        · exact absurd hcallback (hquiet thread)
  | rejected thread call hunknown hstatus hcompleted hunsent =>
      refine h.keep ?_ ?_ ?_ hstatus hcompleted hunsent
      · have hstore : call.store hdr s.m_sensor_config_status = s.m_sensor_config_status := by
          rw [ConfigCall.store]
          rcases call.configure_cases hdr s.m_sensor_config_status with
            ⟨_, hconfigure⟩ | ⟨handle, hhandle, _⟩
          · rw [hconfigure]
          · exact absurd hhandle (hunknown handle)
        exact hstore
      · intro i
        refine last_call_other ?_
        rintro _ _ ⟨⟩
        exact hunknown i
      · intro i hdue
        rcases hdue.snoc with hpast | ⟨_, _, ⟨⟩, hcall, _⟩ | ⟨_, ⟨⟩⟩
        · exact hpast
        · exact absurd hcall (hunknown i)
  | stored thread call handle hhandle hstatus hcompleted hidle hunsent =>
      exact h.stored hhandle hstatus hcompleted hidle hunsent
  | callback thread hstatus hcompleted hidle hunsent =>
      exact h.callback hstatus hcompleted hidle hunsent
  | sent thread io handle rest hstatus hcompleted hsends hunsent =>
      exact h.sent hstatus hcompleted hsends hunsent

theorem Mirrors.advance (h : Mirrors hdr before past s ∧ s.Sound ∧ s.Framed)
    (hkeeps : Persists s event) (hstep : s.step hdr event = some t) :
    Mirrors hdr before (past ++ [event]) t ∧ t.Sound ∧ t.Framed := by
  obtain ⟨hmirrors, hsound, hframed⟩ := h
  obtain ⟨hsound', hadvances⟩ := hsound.step hstep
  refine ⟨hmirrors.step (hsound.effect hkeeps hstep), hsound', ?_⟩
  rcases hadvances with ⟨_, hadvances⟩ | ⟨hcut, _⟩
  · exact hframed.advance hadvances
  · refine absurd ?_ hcut
    intro thread io handle transfer replaying hevent hsend hgives
    exact absurd hgives (hkeeps thread io handle transfer replaying hevent hsend)

theorem toInt_ofInt_of_range {n : Int} (hpos : 0 ≤ n) (hlt : n < 2147483648) :
    (BitVec.ofInt 32 n).toInt = n := by
  rw [BitVec.toInt_ofInt]
  apply Int.bmod_eq_of_le <;> omega

-- The records keep their types in what a client reads.
theorem Mirrors.int32_type (h : Mirrors hdr before past s)
    (hint : ∀ sensor, hdr.SENSOR_TYPE sensor < 2147483648) {msg : SensorConfigMsg}
    (hmsg : msg ∈ s.completed) : msg.int32.sensor_type = msg.sensor_type := by
  rcases h.types msg hmsg with ⟨i, hi⟩ | hzero
  · have hpos : 0 ≤ handle_type hdr i := (handle_type_pos i).le
    have hlt : handle_type hdr i < 2147483648 := by
      obtain ⟨sensor, rfl⟩ := exists_sensor i
      rw [handle_type, get_type_from_hanle_ID]
      exact hint sensor
    rw [SensorConfigMsg.int32, hi]
    exact toInt_ofInt_of_range hpos hlt
  · rw [SensorConfigMsg.int32, hzero]
    rfl

theorem Mirrors.mirror_eq (h : Mirrors hdr before past s)
    (hint : ∀ sensor, hdr.SENSOR_TYPE sensor < 2147483648) (i : Handle) :
    mirror hdr (s.completed.map SensorConfigMsg.int32) i =
      (s.last_sent hdr i).map SensorConfigMsg.int32 :=
  Records.last_map fun msg hmsg => by rw [h.int32_type hint hmsg]

end Mirrors

-- While no send loop gives up, a client that is sent the configuration, however
-- calls, replays and the parts of the sends are interleaved, reads exactly the
-- records that were sent. For a handle that no thread has still to send it has
-- the sample period that the calls have made, the whole entry unless the last
-- call has not been sent, and a record at all where one was due.
theorem client_mirrors {hdr : SensorsHeader} {before : List ConfigCall}
    {events : List ConfigEvent} {s : ConfigChannel}
    (hint : ∀ sensor, hdr.SENSOR_TYPE sensor < 2147483648)
    (hpersists : Machine.Along (step hdr) Persists (connected (configured_by hdr before)) events)
    (hrun : Machine.run (step hdr) (connected (configured_by hdr before)) events = some s) :
    s.m_sensor_config_status = configured_by hdr (before ++ calls_made events) ∧
    read_records s.accepted = s.completed.map SensorConfigMsg.int32 ∧
    ∀ i, ¬ s.Unsent i →
      (∀ msg, mirror hdr (read_records s.accepted) i = some msg →
        msg.sample_period = (s.m_sensor_config_status i).int32.sample_period) ∧
      ((∀ call ∈ last_call i events, call.sends = true) →
        ∀ msg, mirror hdr (read_records s.accepted) i = some msg →
          msg = (s.m_sensor_config_status i).int32) ∧
      (Due before events i → (mirror hdr (read_records s.accepted) i).isSome) := by
  obtain ⟨hmirrors, hsound, hframed⟩ : Mirrors hdr before events s ∧ s.Sound ∧ s.Framed :=
    Machine.invariant_past (I := fun past s => Mirrors hdr before past s ∧ s.Sound ∧ s.Framed)
      (fun _ _ _ _ h hkeeps hstep => Mirrors.advance h hkeeps hstep)
      ⟨mirrors_connected before, sound_connected _, framed_connected _⟩ hpersists hrun
  have hread := read_records_framed hsound hframed
  refine ⟨hmirrors.table, hread, fun i hfree => ?_⟩
  rw [hread, hmirrors.mirror_eq hint]
  refine ⟨?_, ?_, ?_⟩
  · intro msg hmsg
    obtain ⟨sent, hsent, rfl⟩ := Option.map_eq_some_iff.mp hmsg
    simp only [SensorConfigMsg.int32, hmirrors.period i sent hsent hfree]
  · intro hcalls msg hmsg
    obtain ⟨sent, hsent, rfl⟩ := Option.map_eq_some_iff.mp hmsg
    rw [hmirrors.current i sent hsent hfree hcalls]
  · intro hdue
    rw [Option.isSome_map]
    exact (hmirrors.due i hdue).resolve_right hfree

-- A step changes the activity of its own thread only.
theorem threads_other (hstep : s.step hdr event = some t) {other : ThreadId}
    (hother : event.thread ≠ other) : t.threads other = s.threads other := by
  have hupdate : ∀ activity, Function.update s.threads event.thread activity other =
      s.threads other := fun activity => Function.update_of_ne hother.symm activity s.threads
  cases event with
  | call thread call =>
      simp only [step] at hstep
      split at hstep
      · split at hstep
        · obtain rfl := Option.some.inj hstep
          rfl
        · split at hstep
          · split at hstep
            · obtain rfl := Option.some.inj hstep
              exact hupdate _
            · obtain rfl := Option.some.inj hstep
              rfl
          · cases hstep
      · cases hstep
  | client_connected_callback thread =>
      simp only [step] at hstep
      split at hstep
      · obtain rfl := Option.some.inj hstep
        exact hupdate _
      · cases hstep
  | replay thread =>
      simp only [step] at hstep
      split at hstep
      · obtain rfl := Option.some.inj hstep
        exact hupdate _
      · split at hstep
        · obtain rfl := Option.some.inj hstep
          exact hupdate _
        · cases hstep
      · cases hstep
  | send thread io =>
      obtain ⟨handle, transfer, replaying, hsend, hpossible⟩ := send_enabled hstep
      simp only [step, hsend, if_pos hpossible] at hstep
      have haccept : (s.accept handle transfer io).threads = s.threads := by
        cases io <;> rfl
      cases hturn : SockServer.send_data_timeout transfer io with
      | again transfer' =>
          rw [hturn] at hstep
          obtain rfl := Option.some.inj hstep
          dsimp only
          rw [haccept]
          exact hupdate _
      | leave transfer' =>
          rw [hturn] at hstep
          obtain rfl := Option.some.inj hstep
          dsimp only [finish_send]
          rw [haccept]
          exact hupdate _

-- Nothing is left to send once the threads that took part are done.
theorem not_unsent {status : ConfigStatus} {events : List ConfigEvent}
    (hrun : Machine.run (step hdr) (connected status) events = some s)
    (hdone : ∀ event ∈ events, s.unsent event.thread = []) (i : Handle) : ¬ s.Unsent i := by
  rintro ⟨thread, hi⟩
  by_cases htook : ∃ event ∈ events, event.thread = thread
  · obtain ⟨event, hmem, rfl⟩ := htook
    rw [hdone event hmem] at hi
    cases hi
  · have hother : ∀ event ∈ events, ∀ s : ConfigChannel, event.thread ≠ thread :=
      fun event hmem _ hthread => htook ⟨event, hmem, hthread⟩
    have hidle : s.threads thread = .idle :=
      Machine.invariant (I := fun s => s.threads thread = .idle)
        (fun _ _ _ hidle hne hstep => (threads_other hstep hne).trans hidle) rfl
        (Machine.along_of_forall_mem hother _) hrun
    rw [unsent_idle hidle] at hi
    cases hi

-- No send fails.
theorem persists_of_moved {events : List ConfigEvent}
    (hmoved : ∀ event ∈ events, ∀ thread ret errno, event ≠ .send thread (.failed ret errno))
    (s : ConfigChannel) : Machine.Along (step hdr) Persists s events := by
  refine Machine.along_of_forall_mem (fun event hmem s => ?_) s
  rintro thread io handle transfer replaying rfl _ hgives
  cases io with
  | moved ret => exact hgives
  | failed ret errno => exact hmoved _ hmem thread ret errno rfl

-- The light sensor was configured before the client came. During the replay
-- another thread sets the accelerometer's delay, between two of its records.
theorem client_mirrors_replay :
    let before : List ConfigCall := [.batch 6 50000000]
    let events : List ConfigEvent := [.client_connected_callback 1, .replay 1,
      .send 1 (.moved 5), .send 1 (.moved 7), .call 2 (.set_delay 0 20000000),
      .send 2 (.moved 12)] ++ (List.replicate 8 [.replay 1, .send 1 (.moved 12)]).flatten ++
      [.replay 1]
    ∃ s, Machine.run (step android_header) (connected (configured_by android_header before))
        events = some s ∧ s.completed.length = 10 ∧
      (∀ msg, mirror android_header (read_records s.accepted) 0 = some msg →
        msg = (s.m_sensor_config_status 0).int32) ∧
      (mirror android_header (read_records s.accepted) 6).isSome := by
  intro before events
  have hint : ∀ sensor, android_header.SENSOR_TYPE sensor < 2147483648 := by
    intro sensor
    cases sensor <;> decide
  obtain ⟨s, hrun, hresult⟩ : ∃ s, Machine.run (step android_header)
      (connected (configured_by android_header before)) events = some s ∧
      (s.unsent 1, s.unsent 2, s.completed.length) = ([], [], 10) :=
    Option.map_eq_some_iff.mp (by decide +kernel)
  simp only [Prod.mk.injEq] at hresult
  obtain ⟨hone, htwo, hlength⟩ := hresult
  have hfree : ∀ i, ¬ s.Unsent i := by
    have hthreads : ∀ event ∈ events, event.thread = 1 ∨ event.thread = 2 := by decide
    refine not_unsent hrun fun event hmem => ?_
    rcases hthreads event hmem with hthread | hthread
    · rw [hthread, hone]
    · rw [hthread, htwo]
  have hpersists : Machine.Along (step android_header) Persists
      (connected (configured_by android_header before)) events :=
    persists_of_moved (by simp [events]) _
  obtain ⟨_, _, hmirrors⟩ := client_mirrors hint hpersists hrun
  obtain ⟨_, hcurrent, _⟩ := hmirrors 0 (hfree 0)
  obtain ⟨_, _, hdue⟩ := hmirrors 6 (hfree 6)
  refine ⟨s, hrun, hlength, hcurrent ?_, hdue ?_⟩
  · decide
  · exact .inr ⟨⟨_, List.mem_cons_self, rfl⟩, 1, by simp [events]⟩

end ConfigChannel

end SensorVhal
