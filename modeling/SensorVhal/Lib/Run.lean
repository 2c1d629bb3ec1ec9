import Mathlib.Algebra.GroupWithZero.Nat
import Mathlib.Data.List.Basic

namespace Machine

variable {σ ε : Type*}

-- A run takes its events in order. It is undefined as soon as one of them
-- is not enabled in the state it meets.
def run (step : σ → ε → Option σ) (s : σ) (es : List ε) : Option σ :=
  es.foldlM step s

-- Every event of the run satisfies `cond` in the state in which it is taken.
def Along (step : σ → ε → Option σ) (cond : σ → ε → Prop) : σ → List ε → Prop
  | _, [] => True
  | s, e :: es => cond s e ∧ ∀ t, step s e = some t → Along step cond t es

variable {step : σ → ε → Option σ} {cond : σ → ε → Prop}

@[simp] theorem run_nil (s : σ) : run step s [] = some s := rfl

@[simp] theorem run_cons (s : σ) (e : ε) (es : List ε) :
    run step s (e :: es) = (step s e).bind fun t => run step t es := rfl

theorem run_append (s : σ) (es fs : List ε) :
    run step s (es ++ fs) = (run step s es).bind fun t => run step t fs := by
  simp only [run, List.foldlM_append]
  rfl

theorem run_cons_some {s t : σ} {e : ε} {es : List ε} :
    run step s (e :: es) = some t ↔ ∃ m, step s e = some m ∧ run step m es = some t := by
  rw [run_cons, Option.bind_eq_some_iff]

theorem run_append_some {s t : σ} {es fs : List ε} :
    run step s (es ++ fs) = some t ↔ ∃ m, run step s es = some m ∧ run step m fs = some t := by
  rw [run_append, Option.bind_eq_some_iff]

theorem run_singleton (s : σ) (e : ε) : run step s [e] = step s e := by
  simp

-- The first events of an endless sequence.
def firsts (stream : Nat → ε) (k : Nat) : List ε := (List.range k).map stream

theorem firsts_succ (stream : Nat → ε) (k : Nat) :
    firsts stream (k + 1) = firsts stream k ++ [stream k] := by
  rw [firsts, List.range_succ, List.map_append]
  rfl

@[simp] theorem length_firsts (stream : Nat → ε) (k : Nat) : (firsts stream k).length = k := by
  simp [firsts]

theorem map_firsts {φ : Type*} (f : ε → φ) (stream : Nat → ε) (k : Nat) :
    (firsts stream k).map f = firsts (fun i => f (stream i)) k := by
  rw [firsts, List.map_map]
  rfl

theorem run_firsts_succ {stream : Nat → ε} {k : Nat} {s t : σ}
    (h : run step s (firsts stream k) = some t) :
    run step s (firsts stream (k + 1)) = step t (stream k) := by
  rw [firsts_succ, run_append, h]
  exact run_singleton t (stream k)

-- Where the steps of a machine are those of another one on a view of its states and
-- events, so are the runs.
theorem map_run {τ φ : Type*} {other : τ → φ → Option τ} {view : σ → τ} {f : ε → φ}
    (h : ∀ s e, (step s e).map view = other (view s) (f e)) (s : σ) (es : List ε) :
    (run step s es).map view = run other (view s) (es.map f) := by
  induction es generalizing s with
  | nil => rfl
  | cons e es ih =>
      rw [List.map_cons, run_cons, run_cons, ← h]
      cases step s e with
      | none => rfl
      | some t => exact ih t

theorem along_cons_of_some {s t : σ} {e : ε} {es : List ε} (h : step s e = some t) :
    Along step cond s (e :: es) ↔ cond s e ∧ Along step cond t es := by
  simp [Along, h]

theorem along_cons_of_none {s : σ} {e : ε} {es : List ε} (h : step s e = none) :
    Along step cond s (e :: es) ↔ cond s e := by
  simp [Along, h]

instance Along.decidable [∀ s e, Decidable (cond s e)] :
    ∀ (s : σ) (es : List ε), Decidable (Along step cond s es)
  | _, [] => .isTrue trivial
  | s, e :: es =>
    match h : step s e with
    | none => decidable_of_iff _ (along_cons_of_none h).symm
    | some t =>
      have := Along.decidable t es
      decidable_of_iff _ (along_cons_of_some h).symm

theorem along_of_forall_mem {es : List ε} (h : ∀ e ∈ es, ∀ s, cond s e) (s : σ) :
    Along step cond s es := by
  induction es generalizing s with
  | nil => trivial
  | cons e es ih =>
      have hrest := ih fun e he => h e (List.mem_cons_of_mem _ he)
      exact ⟨h e List.mem_cons_self s, fun t _ => hrest t⟩

theorem along_append {s t : σ} {es fs : List ε} (hrun : run step s es = some t)
    (hes : Along step cond s es) (hfs : Along step cond t fs) : Along step cond s (es ++ fs) := by
  induction es generalizing s with
  | nil =>
      cases hrun
      exact hfs
  | cons e es ih =>
      obtain ⟨m, hm, hrest⟩ := run_cons_some.mp hrun
      refine (along_cons_of_some hm).mpr ⟨hes.1, ih hrest (hes.2 m hm)⟩

theorem Along.and {other : σ → ε → Prop} {s : σ} {es : List ε} (h : Along step cond s es)
    (hother : Along step other s es) :
    Along step (fun s e => cond s e ∧ other s e) s es := by
  induction es generalizing s with
  | nil => trivial
  | cons e es ih => exact ⟨⟨h.1, hother.1⟩, fun t ht => ih (h.2 t ht) (hother.2 t ht)⟩

-- The rule of invariants: what every step that meets the condition preserves
-- holds after every run whose steps meet it.
theorem invariant {I : σ → Prop} (hstep : ∀ s e t, I s → cond s e → step s e = some t → I t)
    {s t : σ} {es : List ε} (hs : I s) (hcond : Along step cond s es)
    (hrun : run step s es = some t) : I t := by
  induction es generalizing s with
  | nil =>
      cases hrun
      exact hs
  | cons e es ih =>
      obtain ⟨m, hm, hrest⟩ := run_cons_some.mp hrun
      exact ih (hstep s e m hs hcond.1 hm) (hcond.2 m hm) hrest

-- The rule for an invariant that speaks of the events so far.
theorem invariant_past {I : List ε → σ → Prop}
    (hstep : ∀ past s e t, I past s → cond s e → step s e = some t → I (past ++ [e]) t)
    {past : List ε} {s t : σ} {es : List ε} (hs : I past s) (hcond : Along step cond s es)
    (hrun : run step s es = some t) : I (past ++ es) t := by
  induction es generalizing s past with
  | nil =>
      cases hrun
      rw [List.append_nil]
      exact hs
  | cons e es ih =>
      obtain ⟨m, hm, hrest⟩ := run_cons_some.mp hrun
      have hnext := ih (hstep past s e m hs hcond.1 hm) (hcond.2 m hm) hrest
      rwa [List.append_assoc] at hnext

-- What an invariant adds to the condition of a run.
theorem Along.of_invariant {I : σ → Prop} {other : σ → ε → Prop}
    (hstep : ∀ s e t, I s → cond s e → step s e = some t → I t)
    (hcond : ∀ s e, I s → cond s e → other s e) {s : σ} {es : List ε} (hs : I s)
    (h : Along step cond s es) : Along step other s es := by
  induction es generalizing s with
  | nil => trivial
  | cons e es ih =>
      exact ⟨hcond s e hs h.1, fun t ht => ih (hstep s e t hs h.1 ht) (h.2 t ht)⟩

-- Conditions that an invariant makes equivalent hold along the same runs.
theorem along_congr {I : σ → Prop} {one other : σ → ε → Prop}
    (hstep : ∀ s e t, I s → cond s e → step s e = some t → I t)
    (hiff : ∀ s e, I s → cond s e → (one s e ↔ other s e)) {s : σ} {es : List ε} (hs : I s)
    (h : Along step cond s es) : Along step one s es ↔ Along step other s es := by
  constructor
  · intro hone
    exact (h.and hone).of_invariant (fun s e t hi hc => hstep s e t hi hc.1)
      (fun s e hi hc => (hiff s e hi hc.1).mp hc.2) hs
  · intro hother
    exact (h.and hother).of_invariant (fun s e t hi hc => hstep s e t hi hc.1)
      (fun s e hi hc => (hiff s e hi hc.1).mpr hc.2) hs

theorem invariant_always {I : σ → Prop} (hstep : ∀ s e t, I s → step s e = some t → I t)
    {s t : σ} {es : List ε} (hs : I s) (hrun : run step s es = some t) : I t := by
  have hcond : Along step (fun _ _ => True) s es := along_of_forall_mem (fun _ _ _ => trivial) s
  exact invariant (fun s e t hi _ h => hstep s e t hi h) hs hcond hrun

-- The rule of potentials. Where each event that counts is paid for by the potential, which
-- an event raises by its price only, a run has no more of them than that pays for.
theorem countP_le {I : σ → Prop} {potential : σ → Nat} {counts : ε → Bool} {amount : ε → Nat}
    {price : Nat}
    (hstep : ∀ s e t, I s → cond s e → step s e = some t →
      I t ∧ (if counts e then 1 else 0) + potential t ≤ potential s + price * amount e)
    {s t : σ} {es : List ε} (hs : I s) (hcond : Along step cond s es)
    (hrun : run step s es = some t) :
    es.countP counts + potential t ≤ potential s + price * (es.map amount).sum := by
  induction es generalizing s with
  | nil =>
      cases hrun
      exact Nat.le_of_eq (Nat.add_comm _ _)
  | cons e es ih =>
      obtain ⟨m, hm, hrest⟩ := run_cons_some.mp hrun
      obtain ⟨hi, hpays⟩ := hstep s e m hs hcond.1 hm
      have hle := ih hi (hcond.2 m hm) hrest
      rw [List.countP_cons, List.map_cons, List.sum_cons, Nat.mul_add]
      omega

-- Where no event raises the potential, it bounds how many of them count.
theorem countP_le_potential {I : σ → Prop} {potential : σ → Nat} {counts : ε → Bool}
    (hstep : ∀ s e t, I s → cond s e → step s e = some t →
      I t ∧ (if counts e then 1 else 0) + potential t ≤ potential s)
    {s t : σ} {es : List ε} (hs : I s) (hcond : Along step cond s es)
    (hrun : run step s es = some t) : es.countP counts ≤ potential s := by
  have hfree : ∀ s e t, I s → cond s e → step s e = some t →
      I t ∧ (if counts e then 1 else 0) + potential t ≤ potential s + 0 * 0 := hstep
  have hle := countP_le hfree hs hcond hrun
  omega

-- Where every step is a step of another machine or nothing to it, a run of the
-- one shows a run of the other.
theorem simulation {τ φ : Type*} (other : τ → φ → Option τ) {view : σ → τ} {I : σ → Prop}
    (hstep : ∀ s e t, I s → step s e = some t →
      I t ∧ (view t = view s ∨ ∃ f, other (view s) f = some (view t)))
    {s t : σ} {es : List ε} (hs : I s) (hrun : run step s es = some t) :
    ∃ fs, run other (view s) fs = some (view t) := by
  induction es generalizing s with
  | nil =>
      cases hrun
      exact ⟨[], rfl⟩
  | cons e es ih =>
      obtain ⟨m, hm, hrest⟩ := run_cons_some.mp hrun
      obtain ⟨hi, hview⟩ := hstep s e m hs hm
      obtain ⟨fs, hfs⟩ := ih hi hrest
      rcases hview with hsame | ⟨f, hf⟩
      · rw [← hsame]
        exact ⟨fs, hfs⟩
      · exact ⟨f :: fs, run_cons_some.mpr ⟨view m, hf, hfs⟩⟩

-- The events of another machine that the events of a run stand for, each of them
-- for none or several.
def translation {φ : Type*} (step : σ → ε → Option σ) (f : σ → ε → List φ) :
    σ → List ε → List φ
  | _, [] => []
  | s, e :: es =>
    f s e ++
      match step s e with
      | some t => translation step f t es
      | none => []

theorem translation_append {φ : Type*} {f : σ → ε → List φ} {s t : σ} {es fs : List ε}
    (h : run step s es = some t) :
    translation step f s (es ++ fs) = translation step f s es ++ translation step f t fs := by
  induction es generalizing s with
  | nil =>
      cases h
      rfl
  | cons e es ih =>
      obtain ⟨m, hm, hrest⟩ := run_cons_some.mp h
      simp only [List.cons_append, translation, hm]
      rw [ih hrest, List.append_assoc]

-- Where related states stay related, the other machine can follow a run.
theorem run_translation {τ φ : Type*} {other : τ → φ → Option τ} {f : σ → ε → List φ}
    {R : σ → τ → Prop}
    (hstep : ∀ s e t u, R s u → cond s e → step s e = some t →
      ∃ v, run other u (f s e) = some v ∧ R t v)
    {s t : σ} {u : τ} {es : List ε} (hs : R s u) (hcond : Along step cond s es)
    (hrun : run step s es = some t) :
    ∃ v, run other u (translation step f s es) = some v ∧ R t v := by
  induction es generalizing s u with
  | nil =>
      cases hrun
      exact ⟨u, rfl, hs⟩
  | cons e es ih =>
      obtain ⟨m, hm, hrest⟩ := run_cons_some.mp hrun
      obtain ⟨v, hv, hrelated⟩ := hstep s e m u hs hcond.1 hm
      obtain ⟨w, hw, hlast⟩ := ih hrelated (hcond.2 m hm) hrest
      refine ⟨w, ?_, hlast⟩
      rw [translation, hm]
      exact run_append_some.mpr ⟨v, hv, hw⟩

-- If a step that misses the condition leaves a mark for good, then a run that
-- ends without the mark met the condition at every step.
theorem Along.of_unmarked {I mark : σ → Prop} (hstep : ∀ s e t, I s → step s e = some t → I t)
    (hmark : ∀ s e t, I s → ¬ cond s e → step s e = some t → mark t)
    (hkeep : ∀ s e t, mark s → step s e = some t → mark t) {s t : σ} {es : List ε} (hs : I s)
    (hrun : run step s es = some t) (ht : ¬ mark t) : Along step cond s es := by
  induction es generalizing s with
  | nil => trivial
  | cons e es ih =>
      obtain ⟨m, hm, hrest⟩ := run_cons_some.mp hrun
      refine ⟨?_, fun t' ht' => ?_⟩
      · by_contra hcond
        exact ht (invariant_always hkeep (hmark s e m hs hcond hm) hrest)
      · obtain rfl := Option.some.inj (hm.symm.trans ht')
        exact ih (hstep s e m hs hm) hrest

-- Where the first step that misses the condition also ends in a bad state, the
-- runs through good states are those that meet the condition.
theorem along_good_iff {I good : σ → Prop}
    (hstep : ∀ s e t, I s → cond s e → step s e = some t → I t ∧ good t)
    (hbad : ∀ s e t, I s → ¬ cond s e → step s e = some t → ¬ good t) {s t : σ} {es : List ε}
    (hs : I s) (hrun : run step s es = some t) :
    Along step (fun s e => ∀ t, step s e = some t → good t) s es ↔ Along step cond s es := by
  induction es generalizing s with
  | nil => exact Iff.rfl
  | cons e es ih =>
      obtain ⟨m, hm, hrest⟩ := run_cons_some.mp hrun
      have hnext : ∀ t', step s e = some t' → t' = m :=
        fun t' ht' => Option.some.inj (ht'.symm.trans hm)
      constructor
      · rintro ⟨hgood, halong⟩
        have hcond : cond s e := by
          by_contra hcond
          exact hbad s e m hs hcond hm (hgood m hm)
        refine ⟨hcond, fun t' ht' => ?_⟩
        obtain rfl := hnext t' ht'
        exact (ih (hstep s e t' hs hcond ht').1 hrest).mp (halong t' ht')
      · rintro ⟨hcond, halong⟩
        refine ⟨fun t' ht' => (hstep s e t' hs hcond ht').2, fun t' ht' => ?_⟩
        obtain rfl := hnext t' ht'
        exact (ih (hstep s e t' hs hcond ht').1 hrest).mpr (halong t' ht')

end Machine
