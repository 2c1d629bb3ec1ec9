import SensorVhal.Config.Mirror

namespace SensorVhal

namespace ConfigChannel

-- The records of a handle that have been sent are what its entry was after some of the
-- calls, later ones after earlier ones.
def Ordered (hdr : SensorsHeader) (before : List ConfigCall) (past : List ConfigEvent)
    (s : ConfigChannel) : Prop :=
  ∀ i, ∃ moments : List Nat, moments.Pairwise (· ≤ ·) ∧
    (∀ k ∈ moments, k ≤ (calls_made past).length) ∧
    (s.completed.filter fun msg => msg.sensor_type = handle_type hdr i) =
      moments.map fun k => configured_by hdr (before ++ (calls_made past).take k) i

section Ordered

variable {hdr : SensorsHeader} {before : List ConfigCall} {past : List ConfigEvent}
  {s t : ConfigChannel} {event : ConfigEvent}

theorem ordered_connected (before : List ConfigCall) :
    Ordered hdr before [] (connected (configured_by hdr before)) := by
  intro i
  refine ⟨[], List.Pairwise.nil, ?_, rfl⟩
  intro k hk
  cases hk

-- More calls leave what the entry was after the first ones.
theorem moments_snoc (event : ConfigEvent) {moments : List Nat}
    (hmoments : ∀ k ∈ moments, k ≤ (calls_made past).length) (i : Handle) :
    (moments.map fun k => configured_by hdr (before ++ (calls_made (past ++ [event])).take k) i) =
      moments.map fun k => configured_by hdr (before ++ (calls_made past).take k) i := by
  apply List.map_congr_left
  intro k hk
  rw [calls_made_append, List.take_append_of_le_length (hmoments k hk)]

theorem Ordered.keep (h : Ordered hdr before past s) (event : ConfigEvent)
    (hcompleted : t.completed = s.completed) : Ordered hdr before (past ++ [event]) t := by
  intro i
  obtain ⟨moments, hsorted, hmoments, hsent⟩ := h i
  refine ⟨moments, hsorted, ?_, ?_⟩
  · intro k hk
    rw [calls_made_append, List.length_append]
    exact Nat.le_add_right_of_le (hmoments k hk)
  · rw [hcompleted, hsent, moments_snoc event hmoments]

-- What is sent is the entry as it is now.
theorem Ordered.sent (h : Ordered hdr before past s) (hmirrors : Mirrors hdr before past s)
    {thread : ThreadId} {io : IoResult} {handle : Handle}
    (hcompleted : t.completed = s.completed ++ [s.m_sensor_config_status handle]) :
    Ordered hdr before (past ++ [.send thread io]) t := by
  have hcalls : calls_made (past ++ [.send thread io]) = calls_made past := by
    rw [calls_made_append]
    exact List.append_nil _
  intro i
  obtain ⟨moments, hsorted, hmoments, hsent⟩ := h i
  rw [hcalls, hcompleted, List.filter_append, hsent]
  by_cases htype : (s.m_sensor_config_status handle).sensor_type = handle_type hdr i
  · have hsame : handle = i := by
      rw [hmirrors.table] at htype
      exact configured_unique htype
    subst i
    refine ⟨moments ++ [(calls_made past).length], ?_, ?_, ?_⟩
    · refine List.pairwise_append.mpr ⟨hsorted, List.pairwise_singleton _ _, ?_⟩
      intro k hk last hlast
      rw [List.mem_singleton.mp hlast]
      exact hmoments k hk
    · intro k hk
      rcases List.mem_append.mp hk with hold | hlast
      · exact hmoments k hold
      · exact (List.mem_singleton.mp hlast).le
    · rw [List.map_append, List.filter_singleton, decide_eq_true htype, cond_true,
        List.map_singleton, List.take_length, ← hmirrors.table]
  · refine ⟨moments, hsorted, hmoments, ?_⟩
    rw [List.filter_singleton, decide_eq_false htype, cond_false, List.append_nil]

theorem Ordered.step (h : Ordered hdr before past s) (hmirrors : Mirrors hdr before past s)
    (heffect : Effect hdr s t event) : Ordered hdr before (past ++ [event]) t := by
  cases heffect with
  | quiet _ _ _ hcompleted _ => exact h.keep event hcompleted
  | rejected thread call _ _ hcompleted _ => exact h.keep _ hcompleted
  | stored thread call handle _ _ hcompleted _ _ => exact h.keep _ hcompleted
  | callback thread _ hcompleted _ _ => exact h.keep _ hcompleted
  | sent thread io handle rest _ hcompleted _ _ => exact h.sent hmirrors hcompleted

end Ordered

-- While no send loop gives up, the records of a handle that a client reads are the entries
-- that the calls made, in the order in which they made them: it never reads an entry, and
-- later one that is older.
theorem records_in_order {hdr : SensorsHeader} {before : List ConfigCall}
    {events : List ConfigEvent} {s : ConfigChannel}
    (hint : ∀ sensor, hdr.SENSOR_TYPE sensor < 2147483648)
    (hpersists : Machine.Along (step hdr) Persists (connected (configured_by hdr before)) events)
    (hrun : Machine.run (step hdr) (connected (configured_by hdr before)) events = some s)
    (i : Handle) :
    ∃ moments : List Nat, moments.Pairwise (· ≤ ·) ∧
      (∀ k ∈ moments, k ≤ (calls_made events).length) ∧
      ((read_records s.accepted).filter fun msg => msg.sensor_type = handle_type hdr i) =
        moments.map fun k =>
          (configured_by hdr (before ++ (calls_made events).take k) i).int32 := by
  obtain ⟨⟨hmirrors, hsound, hframed⟩, hordered⟩ :
      (Mirrors hdr before events s ∧ s.Sound ∧ s.Framed) ∧ Ordered hdr before events s :=
    Machine.invariant_past
      (I := fun past s => (Mirrors hdr before past s ∧ s.Sound ∧ s.Framed) ∧
        Ordered hdr before past s)
      (fun _ _ _ _ h hkeeps hstep => ⟨Mirrors.advance h.1 hkeeps hstep,
        h.2.step h.1.1 (h.1.2.1.effect hkeeps hstep)⟩)
      ⟨⟨mirrors_connected before, sound_connected _, framed_connected _⟩,
        ordered_connected before⟩ hpersists hrun
  obtain ⟨moments, hsorted, hmoments, hsent⟩ := hordered i
  refine ⟨moments, hsorted, hmoments, ?_⟩
  have hfilter : (s.completed.filter fun msg => msg.int32.sensor_type = handle_type hdr i) =
      s.completed.filter fun msg => msg.sensor_type = handle_type hdr i := by
    apply List.filter_congr
    intro msg hmsg
    rw [hmirrors.int32_type hint hmsg]
  rw [read_records_framed hsound hframed, List.filter_map]
  refine (congrArg (List.map SensorConfigMsg.int32) (hfilter.trans hsent)).trans ?_
  rw [List.map_map]
  rfl

-- The delay of the accelerometer is set twice.
theorem records_in_order_two :
    let events : List ConfigEvent := [.call 1 (.set_delay 0 20000000), .send 1 (.moved 12),
      .call 1 (.set_delay 0 50000000), .send 1 (.moved 4), .send 1 (.moved 8)]
    ∃ s, Machine.run (step android_header) (connected (configured_by android_header [])) events =
        some s ∧ s.completed.length = 2 ∧
      ∃ moments : List Nat, moments.Pairwise (· ≤ ·) ∧
        ((read_records s.accepted).filter fun msg =>
          msg.sensor_type = handle_type android_header 0) =
          moments.map fun k =>
            (configured_by android_header ((calls_made events).take k) 0).int32 := by
  intro events
  have hint : ∀ sensor, android_header.SENSOR_TYPE sensor < 2147483648 := by
    intro sensor
    cases sensor <;> decide
  obtain ⟨s, hrun, hlength⟩ : ∃ s, Machine.run (step android_header)
      (connected (configured_by android_header [])) events = some s ∧ s.completed.length = 2 :=
    Option.map_eq_some_iff.mp (by decide +kernel)
  have hpersists : Machine.Along (step android_header) Persists
      (connected (configured_by android_header [])) events :=
    persists_of_moved (by simp [events]) _
  obtain ⟨moments, hsorted, _, hread⟩ := records_in_order hint hpersists hrun 0
  exact ⟨s, hrun, hlength, moments, hsorted, hread⟩

end ConfigChannel

end SensorVhal
