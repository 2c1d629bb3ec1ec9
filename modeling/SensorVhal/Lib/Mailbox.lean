import Mathlib.Algebra.BigOperators.Group.Finset.Basic
import Mathlib.Algebra.GroupWithZero.Nat
import Mathlib.Data.Fintype.Basic
import Mathlib.Tactic.Common

namespace Mailbox

-- A slot holds nothing, one reading, or `more + 1` acknowledgements that are
-- owed to whoever asked for them.
inductive Slot (τ : Type*)
  | empty
  | owed (more : Nat)
  | reading (value : τ)

inductive Event (ι τ : Type*)
  | acknowledged (source : ι)
  | delivered (source : ι) (value : τ)
  deriving DecidableEq

variable {ι τ : Type*}

namespace Slot

def outstanding : Slot τ → Nat
  | empty => 0
  | owed more => more + 1
  | reading _ => 0

-- The number of events that the slot still has to give.
def weight : Slot τ → Nat
  | empty => 0
  | owed more => more + 1
  | reading _ => 1

-- One more acknowledgement is asked for. A reading in the slot gives way.
def request : Slot τ → Slot τ
  | owed more => owed (more + 1)
  | _ => owed 0

-- What is left of a slot once its next event is taken.
def rest : Slot τ → Slot τ
  | owed (more + 1) => owed more
  | _ => empty

@[simp] theorem outstanding_reading (value : τ) : (reading value).outstanding = 0 := rfl

@[simp] theorem outstanding_request (slot : Slot τ) :
    slot.request.outstanding = slot.outstanding + 1 := by
  cases slot <;> rfl

@[simp] theorem rest_ne_reading (slot : Slot τ) (value : τ) : slot.rest ≠ reading value := by
  cases slot with
  | owed more => cases more <;> simp [rest]
  | _ => simp [rest]

theorem weight_eq_zero {slot : Slot τ} : slot.weight = 0 ↔ slot = empty := by
  cases slot <;> simp [weight]

theorem weight_rest {slot : Slot τ} (h : slot ≠ empty) : slot.rest.weight + 1 = slot.weight := by
  cases slot with
  | empty => exact absurd rfl h
  | owed more => cases more <;> rfl
  | reading value => rfl

end Slot

variable [DecidableEq ι]

def request (slots : ι → Slot τ) (source : ι) : ι → Slot τ :=
  Function.update slots source (slots source).request

def put (slots : ι → Slot τ) (source : ι) (value : τ) : ι → Slot τ :=
  Function.update slots source (.reading value)

-- The next event comes from the highest source that has one.
inductive Pick [LT ι] (slots : ι → Slot τ) : Event ι τ → (ι → Slot τ) → Prop
  | acknowledge (source : ι) (more : Nat) (hslot : slots source = .owed more)
      (htop : ∀ other, source < other → slots other = .empty) :
      Pick slots (.acknowledged source) (Function.update slots source (slots source).rest)
  | deliver (source : ι) (value : τ) (hslot : slots source = .reading value)
      (htop : ∀ other, source < other → slots other = .empty) :
      Pick slots (.delivered source value) (Function.update slots source (slots source).rest)

inductive Picks [LT ι] : (ι → Slot τ) → List (Event ι τ) → (ι → Slot τ) → Prop
  | nil (slots : ι → Slot τ) : Picks slots [] slots
  | cons {first next last : ι → Slot τ} {event : Event ι τ} {events : List (Event ι τ)} :
      Pick first event next → Picks next events last → Picks first (event :: events) last

def deliveries (events : List (Event ι τ)) : List (ι × τ) :=
  events.filterMap fun
    | .acknowledged _ => none
    | .delivered source value => some (source, value)

section Acknowledgements

theorem outstanding_request (slots : ι → Slot τ) (source other : ι) :
    (request slots source other).outstanding =
      (slots other).outstanding + if other = source then 1 else 0 := by
  by_cases h : other = source
  · subst other
    simp [request]
  · simp [request, h]

theorem outstanding_put (slots : ι → Slot τ) (source other : ι) (value : τ)
    (h : (slots source).outstanding = 0) :
    (put slots source value other).outstanding = (slots other).outstanding := by
  by_cases hs : other = source
  · subst other
    simp [put, h]
  · simp [put, hs]

variable [LT ι] [DecidableEq τ]

theorem Pick.outstanding {slots next : ι → Slot τ} {event : Event ι τ}
    (h : Pick slots event next) (source : ι) :
    (if event = .acknowledged source then 1 else 0) + (next source).outstanding =
      (slots source).outstanding := by
  cases h with
  | acknowledge other more hslot _ =>
      by_cases hs : other = source
      · subst other
        cases more with
        | zero => simp [hslot, Slot.rest, Slot.outstanding]
        | succ more =>
            simp only [hslot, ite_true, Function.update_self, Slot.rest, Slot.outstanding]
            omega
      · simp [hs, Ne.symm hs]
  | deliver other value hslot _ =>
      by_cases hs : other = source
      · subst other
        simp [hslot, Slot.rest, Slot.outstanding]
      · simp [Ne.symm hs]

-- What is acknowledged to a source and what it is still owed add up.
theorem Picks.outstanding {slots last : ι → Slot τ} {events : List (Event ι τ)}
    (h : Picks slots events last) (source : ι) :
    events.count (.acknowledged source) + (last source).outstanding =
      (slots source).outstanding := by
  induction h with
  | nil slots => simp
  | cons hpick _ ih =>
      have hp := hpick.outstanding source
      rw [List.count_cons]
      simp only [beq_iff_eq]
      omega

end Acknowledgements

section Readings

-- The only reading in the slots is `entry`, if there is one.
def Holds (slots : ι → Slot τ) (entry : Option (ι × τ)) : Prop :=
  ∀ source value, slots source = .reading value ↔ entry = some (source, value)

theorem Holds.owe {slots : ι → Slot τ} {entry : Option (ι × τ)} (h : Holds slots entry)
    (source : ι) (more : Nat) (hno : ∀ value, slots source ≠ .reading value) :
    Holds (Function.update slots source (.owed more)) entry := by
  intro other value
  by_cases hs : other = source
  · subst other
    have hne : entry ≠ some (source, value) := fun he => hno value ((h source value).mpr he)
    simp [hne]
  · simpa [hs] using h other value

theorem Holds.put {slots : ι → Slot τ} (h : Holds slots none) (source : ι) (value : τ) :
    Holds (put slots source value) (some (source, value)) := by
  intro other value'
  by_cases hs : other = source
  · subst other
    simp [Mailbox.put]
  · have hn := (h other value').not.mpr (by simp)
    simp [Mailbox.put, hs, hn, Ne.symm hs]

variable [LT ι]

theorem Holds.pick {slots next : ι → Slot τ} {event : Event ι τ} {entry : Option (ι × τ)}
    (h : Holds slots entry) (hpick : Pick slots event next) :
    ∃ left, Holds next left ∧ deliveries [event] ++ left.toList = entry.toList := by
  cases hpick with
  | acknowledge source more hslot _ =>
      refine ⟨entry, fun other value => ?_, by simp [deliveries]⟩
      by_cases hs : other = source
      · subst other
        have hne := (h source value).not.mp (by simp [hslot])
        simp [hne]
      · simpa [hs] using h other value
  | deliver source value hslot _ =>
      have he := (h source value).mp hslot
      refine ⟨none, fun other value' => ?_, by simp [deliveries, he]⟩
      by_cases hs : other = source
      · subst other
        simp
      · have hn : slots other ≠ .reading value' := by
          rw [ne_eq, h other value', he]
          simp [Ne.symm hs]
        simp [hs, hn]

-- A reading leaves the slots once, and only as a delivery.
theorem Holds.picks {slots last : ι → Slot τ} {events : List (Event ι τ)} {entry : Option (ι × τ)}
    (h : Holds slots entry) (hpicks : Picks slots events last) :
    ∃ left, Holds last left ∧ deliveries events ++ left.toList = entry.toList := by
  induction hpicks generalizing entry with
  | nil slots => exact ⟨entry, h, rfl⟩
  | @cons _ _ _ event events hpick _ ih =>
      obtain ⟨middle, hm, hd⟩ := h.pick hpick
      obtain ⟨left, hl, hrest⟩ := ih hm
      refine ⟨left, hl, ?_⟩
      have hsplit : deliveries (event :: events) = deliveries [event] ++ deliveries events := by
        rw [deliveries, ← List.singleton_append, List.filterMap_append]
        rfl
      rw [hsplit, List.append_assoc, hrest, hd]

end Readings

section Weight

variable [Fintype ι]

def total (slots : ι → Slot τ) : Nat :=
  ∑ source, (slots source).weight

omit [DecidableEq ι] in
theorem total_eq_zero {slots : ι → Slot τ} :
    total slots = 0 ↔ ∀ source, slots source = .empty := by
  simp [total, Slot.weight_eq_zero]

theorem total_update_rest {slots : ι → Slot τ} {source : ι} (h : slots source ≠ .empty) :
    total (Function.update slots source (slots source).rest) + 1 = total slots := by
  have hsplit (slots : ι → Slot τ) : total slots =
      (slots source).weight + ∑ other ∈ Finset.univ.erase source, (slots other).weight :=
    (Finset.add_sum_erase _ _ (Finset.mem_univ source)).symm
  have hrest : ∑ other ∈ Finset.univ.erase source,
      (Function.update slots source (slots source).rest other).weight =
      ∑ other ∈ Finset.univ.erase source, (slots other).weight := by
    apply Finset.sum_congr rfl
    intro other hother
    rw [Function.update_of_ne (Finset.ne_of_mem_erase hother)]
  have hw := Slot.weight_rest h
  rw [hsplit, hrest, hsplit slots, Function.update_self]
  omega

variable [LT ι]

theorem Pick.total {slots next : ι → Slot τ} {event : Event ι τ} (h : Pick slots event next) :
    total next + 1 = total slots := by
  cases h with
  | acknowledge source more hslot _ => exact total_update_rest (by simp [hslot])
  | deliver source value hslot _ => exact total_update_rest (by simp [hslot])

theorem Picks.total {slots last : ι → Slot τ} {events : List (Event ι τ)}
    (h : Picks slots events last) : total last + events.length = total slots := by
  induction h with
  | nil slots => simp
  | cons hpick _ ih =>
      have hp := hpick.total
      rw [List.length_cons]
      omega

end Weight

section Agenda

variable {β : Type*}

-- Every event that the slots still have to give, source after source, each with
-- what is written for it.
def agenda (sources : List ι) (slots : ι → Slot τ) (entry : ι → β) : List (ι × β) :=
  sources.flatMap fun source => List.replicate (slots source).weight (source, entry source)

variable {sources : List ι} {slots : ι → Slot τ} {entry : ι → β}

omit [DecidableEq ι] in
theorem length_agenda :
    (agenda sources slots entry).length = (sources.map fun source => (slots source).weight).sum := by
  simp [agenda, List.length_flatMap]

omit [DecidableEq ι] in
theorem agenda_congr {slots' : ι → Slot τ} {entry' : ι → β}
    (hslots : ∀ source ∈ sources, slots' source = slots source)
    (hentry : ∀ source ∈ sources, slots source ≠ .empty → entry' source = entry source) :
    agenda sources slots' entry' = agenda sources slots entry := by
  apply List.flatMap_congr
  intro source hmem
  rw [hslots source hmem]
  by_cases hempty : slots source = .empty
  · rw [Slot.weight_eq_zero.mpr hempty]
    rfl
  · rw [hentry source hmem hempty]

omit [DecidableEq ι] in
theorem agenda_of_empty (h : ∀ source ∈ sources, slots source = .empty) :
    agenda sources slots entry = [] := by
  apply List.flatMap_eq_nil_iff.mpr
  intro source hmem
  rw [Slot.weight_eq_zero.mpr (h source hmem)]
  rfl

omit [DecidableEq ι] in
-- An entry of the agenda is that of a source whose slot is not empty.
theorem mem_agenda {source : ι} {value : β} (h : (source, value) ∈ agenda sources slots entry) :
    slots source ≠ .empty ∧ value = entry source := by
  obtain ⟨other, _, hreplicate⟩ := List.mem_flatMap.mp h
  obtain ⟨hweight, hpair⟩ := List.mem_replicate.mp hreplicate
  cases hpair
  exact ⟨fun hempty => hweight (Slot.weight_eq_zero.mpr hempty), rfl⟩

omit [DecidableEq ι] in
theorem agenda_sorted [Preorder ι] (h : sources.Pairwise (· > ·)) :
    ((agenda sources slots entry).map Prod.fst).Pairwise (· ≥ ·) := by
  induction sources with
  | nil => exact .nil
  | cons source sources ih =>
      obtain ⟨hfirst, hrest⟩ := List.pairwise_cons.mp h
      rw [agenda, List.flatMap_cons, List.map_append, List.map_replicate]
      refine List.pairwise_append.mpr ⟨?_, ih hrest, ?_⟩
      · exact List.pairwise_replicate.mpr (.inr (le_refl source))
      · intro first hmem later hlater
        obtain rfl := List.eq_of_mem_replicate hmem
        obtain ⟨pair, hentry, rfl⟩ := List.mem_map.mp hlater
        obtain ⟨other, hother, hpair⟩ := List.mem_flatMap.mp hentry
        rw [List.eq_of_mem_replicate hpair]
        exact le_of_lt (hfirst other hother)

theorem count_agenda (h : sources.Nodup) (source : ι) :
    ((agenda sources slots entry).map Prod.fst).count source =
      if source ∈ sources then (slots source).weight else 0 := by
  induction sources with
  | nil => rfl
  | cons first sources ih =>
      obtain ⟨hnew, hrest⟩ := List.nodup_cons.mp h
      rw [agenda, List.flatMap_cons, List.map_append, List.map_replicate, List.count_append,
        List.count_replicate]
      have htail := ih hrest
      rw [agenda] at htail
      rw [htail]
      by_cases hfirst : first = source
      · subst source
        simp [hnew]
      · simp [hfirst, Ne.symm hfirst]

-- Taking the next event of the highest source that has one takes the head of
-- the agenda.
theorem agenda_rest [Preorder ι] {entry' : ι → β} {source : ι} (hmem : source ∈ sources)
    (hsorted : sources.Pairwise (· > ·)) (htop : ∀ other, source < other → slots other = .empty)
    (hslot : slots source ≠ .empty)
    (hentry : ∀ other, Function.update slots source (slots source).rest other ≠ .empty →
      entry' other = entry other) :
    agenda sources slots entry = (source, entry source) ::
      agenda sources (Function.update slots source (slots source).rest) entry' := by
  obtain ⟨above, below, rfl⟩ := List.append_of_mem hmem
  obtain ⟨_, hlower, hupper⟩ := List.pairwise_append.mp hsorted
  have habove : ∀ other ∈ above, source < other :=
    fun other hother => hupper other hother source List.mem_cons_self
  have hbelow : ∀ other ∈ below, other ≠ source :=
    fun other hother => ((List.pairwise_cons.mp hlower).1 other hother).ne
  have hsame : ∀ other, other ≠ source →
      Function.update slots source (slots source).rest other = slots other :=
    fun other hne => Function.update_of_ne hne _ _
  have hsplit (slots : ι → Slot τ) (entry : ι → β) : agenda (above ++ source :: below) slots entry =
      agenda above slots entry ++ (List.replicate (slots source).weight (source, entry source) ++
        agenda below slots entry) := by
    rw [agenda, List.flatMap_append, List.flatMap_cons]
    rfl
  have hleft : agenda above slots entry = [] :=
    agenda_of_empty fun other hother => htop other (habove other hother)
  have hleft' : agenda above (Function.update slots source (slots source).rest) entry' = [] := by
    apply agenda_of_empty
    intro other hother
    rw [hsame other (habove other hother).ne']
    exact htop other (habove other hother)
  have hright : agenda below (Function.update slots source (slots source).rest) entry' =
      agenda below slots entry := by
    apply agenda_congr
    · exact fun other hother => hsame other (hbelow other hother)
    · intro other hother hne
      apply hentry
      rwa [hsame other (hbelow other hother)]
  have hhead : List.replicate (slots source).weight (source, entry source) =
      (source, entry source) :: List.replicate (slots source).rest.weight
        (source, entry' source) := by
    rw [← Slot.weight_rest hslot, List.replicate_succ]
    congr 1
    by_cases hrest : (slots source).rest = .empty
    · rw [Slot.weight_eq_zero.mpr hrest]
      rfl
    · rw [hentry source (by rwa [Function.update_self])]
  rw [hsplit, hsplit, hleft, hleft', hright, hhead, Function.update_self]
  rfl

end Agenda

section Waits

variable {β : Type*} [PartialOrder ι] [DecidableLT ι] {sources : List ι} {slots next : ι → Slot τ}
  {entry entry' : ι → β}

omit [DecidableEq ι] in
theorem countP_agenda (source : ι) :
    (agenda sources slots entry).countP (fun pair => source < pair.1) =
      (sources.map fun other => if source < other then (slots other).weight else 0).sum := by
  rw [agenda, List.countP_flatMap]
  congr 1
  apply List.map_congr_left
  intro other _
  rw [Function.comp_apply, List.countP_replicate]
  simp

-- While the front of the agenda is taken and a source waits, it goes on waiting, and all
-- that is taken belongs to the sources above it.
omit [DecidableEq ι] in
theorem agenda_waits {source : ι} {n : Nat} (hmem : source ∈ sources)
    (hsorted : sources.Pairwise (· > ·)) (hslot : slots source ≠ .empty)
    (hleft : agenda sources next entry' = (agenda sources slots entry).drop n)
    (hwaits : ∀ pair ∈ (agenda sources slots entry).take n, pair.1 ≠ source) :
    next source ≠ .empty ∧
      (∀ pair ∈ (agenda sources slots entry).take n, source < pair.1) ∧
      ((agenda sources slots entry).take n).length +
          (agenda sources next entry').countP (fun pair => source < pair.1) =
        (agenda sources slots entry).countP (fun pair => source < pair.1) := by
  have hentry : (source, entry source) ∈ agenda sources slots entry :=
    List.mem_flatMap.mpr ⟨source, hmem, List.mem_replicate.mpr
      ⟨fun hzero => hslot (Slot.weight_eq_zero.mp hzero), rfl⟩⟩
  rw [← List.take_append_drop n (agenda sources slots entry)] at hentry
  have hdropped : (source, entry source) ∈ (agenda sources slots entry).drop n := by
    rcases List.mem_append.mp hentry with htaken | hdropped
    · exact absurd rfl (hwaits _ htaken)
    · exact hdropped
  have habove : ∀ pair ∈ (agenda sources slots entry).take n, source < pair.1 := by
    intro pair htaken
    have hall : ((agenda sources slots entry).map Prod.fst).Pairwise (· ≥ ·) :=
      agenda_sorted hsorted
    rw [← List.take_append_drop n (agenda sources slots entry), List.map_append] at hall
    have hge := (List.pairwise_append.mp hall).2.2 pair.1 (List.mem_map_of_mem htaken) source
      (List.mem_map_of_mem (f := Prod.fst) hdropped)
    exact lt_of_le_of_ne hge (Ne.symm (hwaits pair htaken))
  refine ⟨?_, habove, ?_⟩
  · rw [← hleft] at hdropped
    exact (mem_agenda hdropped).1
  · have htaken : ((agenda sources slots entry).take n).countP (fun pair => source < pair.1) =
        ((agenda sources slots entry).take n).length :=
      List.countP_eq_length.mpr fun pair hpair => decide_eq_true (habove pair hpair)
    have hsplit := congrArg (List.countP fun pair => source < pair.1)
      (List.take_append_drop n (agenda sources slots entry))
    rw [List.countP_append, htaken] at hsplit
    rw [hleft, hsplit]

end Waits

section Counts

-- Whether a slot holds a reading.
def Slot.readings : Slot τ → Nat
  | reading _ => 1
  | _ => 0

def Event.acknowledges : Event ι τ → Bool
  | acknowledged _ => true
  | delivered _ _ => false

def Event.delivers (source : ι) : Event ι τ → Bool
  | acknowledged _ => false
  | delivered other _ => other = source

variable [LT ι]

-- A source is delivered the reading in its slot and no other.
theorem Picks.readings {slots last : ι → Slot τ} {events : List (Event ι τ)}
    (h : Picks slots events last) (source : ι) :
    events.countP (fun event => event.delivers source) + (last source).readings =
      (slots source).readings := by
  induction h with
  | nil slots => simp
  | @cons first next last event events hpick _ ih =>
      have hone : (if event.delivers source = true then 1 else 0) + (next source).readings =
          (first source).readings := by
        cases hpick with
        | acknowledge other more hslot _ =>
            by_cases hs : other = source
            · subst other
              cases more <;> simp [hslot, Slot.rest, Slot.readings, Event.delivers]
            · simp [Event.delivers, Ne.symm hs]
        | deliver other value hslot _ =>
            by_cases hs : other = source
            · subst other
              simp [hslot, Slot.rest, Slot.readings, Event.delivers]
            · simp [Event.delivers, hs, Ne.symm hs]
      rw [List.countP_cons]
      omega

variable [Fintype ι]

-- What the slots owe to all sources together.
def debt (slots : ι → Slot τ) : Nat :=
  ∑ source, (slots source).outstanding

omit [LT ι] in
-- A debt changes with the one slot that changes.
theorem debt_update (slots : ι → Slot τ) (source : ι) (slot : Slot τ) :
    debt (Function.update slots source slot) + (slots source).outstanding =
      debt slots + slot.outstanding := by
  have hsplit (slots : ι → Slot τ) : debt slots = (slots source).outstanding +
      ∑ other ∈ Finset.univ.erase source, (slots other).outstanding :=
    (Finset.add_sum_erase _ _ (Finset.mem_univ source)).symm
  have hrest : ∑ other ∈ Finset.univ.erase source,
      (Function.update slots source slot other).outstanding =
      ∑ other ∈ Finset.univ.erase source, (slots other).outstanding := by
    apply Finset.sum_congr rfl
    intro other hother
    rw [Function.update_of_ne (Finset.ne_of_mem_erase hother)]
  rw [hsplit, hsplit slots, hrest, Function.update_self]
  omega

-- Every acknowledgement pays one.
theorem Picks.debt {slots last : ι → Slot τ} {events : List (Event ι τ)}
    (h : Picks slots events last) :
    events.countP Event.acknowledges + debt last = debt slots := by
  induction h with
  | nil slots => simp
  | @cons first next last event events hpick _ ih =>
      have hone : (if event.acknowledges = true then 1 else 0) + Mailbox.debt next =
          Mailbox.debt first := by
        cases hpick with
        | acknowledge source more hslot _ =>
            have hupdate := debt_update first source (first source).rest
            have hpaid : (first source).rest.outstanding + 1 = (first source).outstanding := by
              rw [hslot]
              cases more <;> rfl
            simp only [Event.acknowledges, if_true]
            omega
        | deliver source value hslot _ =>
            have hupdate := debt_update first source (first source).rest
            have hnone : (first source).rest.outstanding = (first source).outstanding := by
              rw [hslot]
              rfl
            simp only [Event.acknowledges, Bool.false_eq_true, if_false]
            omega
      rw [List.countP_cons]
      omega

end Counts

end Mailbox
